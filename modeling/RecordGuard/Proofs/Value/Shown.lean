import Mathlib.Data.List.Basic
import RecordGuard.Value.Text

/-!
# Texts that show

No character is hidden in the text of a value: those of its strings and keys are escaped, and the
rest of the text is plain. So the text of a value stays on one line, whatever the value holds.

* **`Shown`** — none of these characters is hidden.
* **`shown_quoteChars`**, **`shown_toDigits`** — what the texts of values are made of.
* **`Value.shown_chars`** — the headline, by induction on the value.
-/

namespace RecordGuard

/-- None of the characters is hidden. -/
def Shown (cs : List Char) : Prop := ∀ c ∈ cs, isHidden c = false

@[simp] theorem shown_nil : Shown [] := List.forall_mem_nil _

@[simp] theorem shown_cons (c : Char) (cs : List Char) :
    Shown (c :: cs) ↔ isHidden c = false ∧ Shown cs :=
  List.forall_mem_cons

@[simp] theorem shown_append (cs ds : List Char) : Shown (cs ++ ds) ↔ Shown cs ∧ Shown ds :=
  List.forall_mem_append

theorem Shown.subset {cs ds : List Char} (hds : Shown ds) (h : cs ⊆ ds) : Shown cs :=
  fun c hc => hds c (h hc)

/-- A line break is hidden. -/
theorem Shown.newline_not_mem {cs : List Char} (h : Shown cs) : '\n' ∉ cs := by
  intro hmem
  have hhidden : isHidden '\n' = true := by decide +kernel
  rw [h _ hmem] at hhidden
  exact Bool.false_ne_true hhidden

/-! ## Plain characters -/

/-- No printable character of ASCII is hidden: the ranges of hidden characters leave them out. -/
@[simp] theorem isHidden_of_ascii {c : Char} (hlow : 0x20 ≤ c.toNat) (hhigh : c.toNat < 0x7f) :
    isHidden c = false := by
  -- every range lies below the printable characters or above them
  have hranges : ∀ range ∈ hiddenRanges, range.2 < 0x20 ∨ 0x7f ≤ range.1 := by
    decide +kernel
  refine List.any_eq_false.mpr fun range hrange => ?_
  have hrange := hranges range hrange
  simp only [Bool.and_eq_true, decide_eq_true_eq]
  omega

/-- Zeros show, however many there are. -/
theorem shown_replicate_zero (n : Nat) : Shown (List.replicate n '0') := by
  intro c hc
  rw [List.eq_of_mem_replicate hc]
  exact isHidden_of_ascii (by decide) (by decide)

theorem isHidden_digitChar {k : Nat} (hk : k < 16) : isHidden k.digitChar = false := by
  have hall : ∀ k < 16, 0x20 ≤ k.digitChar.toNat ∧ k.digitChar.toNat < 0x7f := by decide
  exact isHidden_of_ascii (hall k hk).1 (hall k hk).2

/-- The digits of a number show, by induction on the number: the last digit is taken off. -/
theorem shown_toDigits {base : Nat} (hbase : 1 < base) (hsmall : base ≤ 16) (n : Nat) :
    Shown (Nat.toDigits base n) := by
  induction n using Nat.strongRecOn with
  | ind n ih =>
    rw [Nat.toDigits_eq_if hbase]
    split
    · next hdigit => simp [isHidden_digitChar (show n < 16 by omega)]
    · next hlarge =>
      have hlast : n % base < 16 := Nat.lt_of_lt_of_le (Nat.mod_lt n (by omega)) hsmall
      have hrest : Shown (Nat.toDigits base (n / base)) :=
        ih _ (Nat.div_lt_self (by omega) hbase)
      simp [hrest, isHidden_digitChar hlast]

/-! ## Quoted texts -/

/-- **A quoted character shows.** What is hidden is written as an escape, the rest stands for itself.
-/
theorem shown_quoteChar (c : Char) : Shown (quoteChar c) := by
  unfold quoteChar
  split
  · simp
  · simp
  · simp
  · simp
  · simp
  · -- the five characters with an escape of their own are dealt with; the others are escaped by
    -- number if they are hidden
    split_ifs with hzero hhidden
    · simp
    · simp [unicodeEscape, shown_toDigits]
    · simpa using hhidden

/-- A quoted text shows, since it is made of quoted characters. -/
theorem shown_quoteChars (cs : List Char) : Shown (quoteChars cs) := by
  have hbody : Shown (cs.flatMap quoteChar) := by
    intro c hc
    obtain ⟨d, -, hd⟩ := List.mem_flatMap.mp hc
    exact shown_quoteChar d c hd
  simp [quoteChars, hbody]

/-! ## Numbers and dates -/

/-- Leaving out zeros at the end hides nothing. -/
theorem shown_dropTrailingZeros {cs : List Char} (h : Shown cs) : Shown (dropTrailingZeros cs) := by
  refine h.subset fun c hc => ?_
  rw [dropTrailingZeros, List.mem_reverse] at hc
  exact List.mem_reverse.mp ((List.dropWhile_suffix _).subset hc)

/-- A decimal number shows. It is made of digits, zeros in front and behind, and a point. -/
theorem Decimal.shown_positional (d : Decimal) : Shown d.positional := by
  have hdigits : Shown (Nat.toDigits 10 d.digits) := shown_toDigits (by decide) (by decide) _
  unfold positional
  split
  · simp [hdigits, shown_replicate_zero]
  · -- with a fraction the digits are padded, and taken apart at the point
    have hpadded : ∀ n, Shown (List.replicate n '0' ++ Nat.toDigits 10 d.digits) := by
      simp [hdigits, shown_replicate_zero]
    have htake : ∀ m n, Shown ((List.replicate n '0' ++ Nat.toDigits 10 d.digits).take m) :=
      fun m n => (hpadded n).subset (List.take_subset m _)
    have hdrop : ∀ m n,
        Shown (dropTrailingZeros ((List.replicate n '0' ++ Nat.toDigits 10 d.digits).drop m)) :=
      fun m n => shown_dropTrailingZeros ((hpadded n).subset (List.drop_subset m _))
    dsimp only
    split
    · exact htake _ _
    · rw [shown_append, shown_cons]
      exact ⟨htake _ _, isHidden_of_ascii (by decide) (by decide), hdrop _ _⟩

theorem Number.shown_chars (n : Number) : Shown n.chars := by
  unfold chars
  split_ifs <;> simp [Decimal.shown_positional]

namespace Timestamp

theorem shown_padded (width n : Nat) : Shown (padded width n) := by
  simp [padded, shown_replicate_zero, shown_toDigits]

theorem shown_yearChars (year : Int) : Shown (yearChars year) := by
  unfold yearChars
  split_ifs <;> simp [shown_padded]

theorem shown_fractionChars (nanos : Nat) : Shown (fractionChars nanos) := by
  unfold fractionChars
  split_ifs <;> simp [shown_padded]

/-- **A timestamp shows.** -/
theorem shown_chars (i : Instant) : Shown (chars i) := by
  simp [chars, dayChars, clockChars, shown_yearChars, shown_padded, shown_fractionChars]

end Timestamp

/-! ## Values -/

namespace Value

mutual

/-- **The text of a value shows all of its characters.** -/
theorem shown_chars : ∀ v : Value, Shown v.chars
  | undefined => by
    show Shown "undefined".toList
    simp
  | null => by
    show Shown "null".toList
    simp
  | bool true => by
    show Shown "true".toList
    simp
  | bool false => by
    show Shown "false".toList
    simp
  | number n => n.shown_chars
  | string s => shown_quoteChars s.toList
  | date (some i) => by
    show Shown ("Date(".toList ++ Timestamp.chars i ++ [')'])
    simp [Timestamp.shown_chars]
  | date none => by
    show Shown "Date(Invalid Date)".toList
    simp
  | array [] => by
    show Shown ['[', ']']
    simp
  | array (v :: rest) => by
    show Shown ('[' :: chars v ++ itemsChars rest)
    simp [shown_chars v, shown_itemsChars rest]
  | object [] => by
    show Shown ['\x7b', '\x7d']
    simp
  | object ((key, v) :: rest) => by
    show Shown ('\x7b' :: quoteChars key.toList ++ ':' :: ' ' :: chars v ++ fieldsChars rest)
    simp [shown_quoteChars, shown_chars v, shown_fieldsChars rest]

/-- The elements behind the first one show. -/
theorem shown_itemsChars : ∀ items : List Value, Shown (itemsChars items)
  | [] => by
    show Shown [']']
    simp
  | v :: rest => by
    show Shown (',' :: ' ' :: chars v ++ itemsChars rest)
    simp [shown_chars v, shown_itemsChars rest]

/-- The fields behind the first one show; their keys are quoted. -/
theorem shown_fieldsChars : ∀ fields : List (String × Value), Shown (fieldsChars fields)
  | [] => by
    show Shown ['\x7d']
    simp
  | (key, v) :: rest => by
    show Shown (',' :: ' ' :: quoteChars key.toList ++ ':' :: ' ' :: chars v ++ fieldsChars rest)
    simp [shown_quoteChars, shown_chars v, shown_fieldsChars rest]

end

end Value

end RecordGuard
