import Mathlib.Tactic.SplitIfs
import RecordGuard.Proofs.Text.Digits
import RecordGuard.Text.Quoted

/-!
# Quoted texts end where they seem to end

A quoted text can be read back whatever follows it, so two quoted texts with something behind them
are equal only if they quote the same text and the same thing is behind.

* **`readQuoted?`** — reads one character of a quoted text, escaped or not, as its code point.
* **`readQuoted?_append`** — it reads what `quoteChar` writes.
* **`quoteChars_append_inj`** — the headline, by induction on the quoted text.
-/

namespace RecordGuard

/-! ## Hexadecimal digits -/

/-- The value of a lower-case hexadecimal digit. -/
def hexDigit (c : Char) : Nat := if c.isDigit then c.toNat - '0'.toNat else c.toNat - 'a'.toNat + 10

/-- The value of a run of lower-case hexadecimal digits. -/
def hexValue (ds : List Char) : Nat := ds.foldl (fun n c => n * 16 + hexDigit c) 0

theorem hexDigit_digitChar : ∀ k < 16, hexDigit k.digitChar = k := by decide

theorem digitChar_ne_brace : ∀ k < 16, k.digitChar ≠ '\x7d' := by decide

/-- The value of the hexadecimal digits of a number is the number. -/
theorem hexValue_toDigits (n : Nat) : hexValue (Nat.toDigits 16 n) = n := by
  induction n using Nat.strongRecOn with
  | ind n ih =>
    rw [Nat.toDigits_eq_if (by decide)]
    split
    · next hdigit => simpa [hexValue] using hexDigit_digitChar n hdigit
    · next hlarge =>
      -- the last digit is the remainder, the others are the quotient
      have hrest := ih (n / 16) (Nat.div_lt_self (by omega) (by decide))
      rw [hexValue, List.foldl_append, ← hexValue, hrest, List.foldl_cons, List.foldl_nil,
        hexDigit_digitChar _ (Nat.mod_lt n (by decide))]
      omega

/-- The brace that closes an escape is the first one in it. -/
theorem ne_brace_of_mem_toDigits (n : Nat) : ∀ c ∈ Nat.toDigits 16 n, c ≠ '\x7d' := by
  induction n using Nat.strongRecOn with
  | ind n ih =>
    rw [Nat.toDigits_eq_if (by decide)]
    split
    · next hdigit => exact List.forall_mem_singleton.mpr (digitChar_ne_brace n hdigit)
    · next hlarge =>
      have hrest := ih (n / 16) (Nat.div_lt_self (by omega) (by decide))
      have hlast := digitChar_ne_brace (n % 16) (Nat.mod_lt n (by decide))
      exact List.forall_mem_append.mpr ⟨hrest, List.forall_mem_singleton.mpr hlast⟩

/-! ## One character -/

/-- The code point of the character that a quoted text shows first, and what follows it; nothing
where the closing quote stands. -/
def readQuoted? : List Char → Option (Nat × List Char)
  | [] | '"' :: _ => none
  | '\\' :: 'u' :: '\x7b' :: rest =>
    some (hexValue (rest.takeWhile (· != '\x7d')), (rest.dropWhile (· != '\x7d')).tail)
  | '\\' :: 'n' :: rest => some ('\n'.toNat, rest)
  | '\\' :: 'r' :: rest => some ('\r'.toNat, rest)
  | '\\' :: 't' :: rest => some ('\t'.toNat, rest)
  | '\\' :: '0' :: rest => some (0, rest)
  | '\\' :: c :: rest => some (c.toNat, rest)
  | c :: rest => some (c.toNat, rest)

/-- A character that is shown by its code point is read back by it. -/
theorem readQuoted?_unicodeEscape (c : Char) (x : List Char) :
    readQuoted? (unicodeEscape c ++ x) = some (c.toNat, x) := by
  have hdigits : ∀ d ∈ Nat.toDigits 16 c.toNat, (d != '\x7d') = true :=
    fun d hd => bne_iff_ne.mpr (ne_brace_of_mem_toDigits _ d hd)
  -- the digits end at the brace, whatever stands behind it
  have hends : Ends (· != '\x7d') ('\x7d' :: x) := ends_cons.mpr rfl
  have htext : unicodeEscape c ++ x =
      '\\' :: 'u' :: '\x7b' :: (Nat.toDigits 16 c.toNat ++ '\x7d' :: x) := by
    simp [unicodeEscape]
  rw [htext, readQuoted?, takeWhile_append_of_ends hdigits hends,
    dropWhile_append_of_ends hdigits hends, hexValue_toDigits]
  rfl

/-- **A character is read back from its quoted form.** -/
theorem readQuoted?_append (c : Char) (x : List Char) :
    readQuoted? (quoteChar c ++ x) = some (c.toNat, x) := by
  unfold quoteChar
  split
  · rfl
  · rfl
  · rfl
  · rfl
  · rfl
  · next hquote hbackslash _ _ _ =>
    split_ifs with hzero hhidden
    · rw [hzero]
      rfl
    · exact readQuoted?_unicodeEscape c x
    · -- a bare character, which is neither the quote nor the backslash
      rw [List.singleton_append]
      unfold readQuoted?
      split <;> simp_all

/-- Quoted characters are told apart whatever follows, since both are read back from the same text. -/
theorem quoteChar_append_inj {c d : Char} {x y : List Char}
    (h : quoteChar c ++ x = quoteChar d ++ y) : c = d ∧ x = y := by
  have hread : some (c.toNat, x) = some (d.toNat, y) := by
    rw [← readQuoted?_append, h, readQuoted?_append]
  obtain ⟨hcode, hrest⟩ := Prod.mk.inj (Option.some.inj hread)
  exact ⟨Char.toNat_inj.mp hcode, hrest⟩

/-- No quoted character starts with the closing quote. -/
theorem quoteChar_append_ne (c : Char) (x y : List Char) : quoteChar c ++ x ≠ '"' :: y := by
  intro h
  have hread := readQuoted?_append c x
  rw [h, readQuoted?] at hread
  cases hread

/-! ## The headline -/

/-- **A quoted text ends where it seems to end.** -/
theorem quoteChars_append_inj {cs ds x y : List Char}
    (h : quoteChars cs ++ x = quoteChars ds ++ y) : cs = ds ∧ x = y := by
  have hbody : cs.flatMap quoteChar ++ '"' :: x = ds.flatMap quoteChar ++ '"' :: y := by
    simpa [quoteChars] using h
  clear h
  induction cs generalizing ds with
  | nil =>
    cases ds with
    | nil => exact ⟨rfl, List.tail_eq_of_cons_eq hbody⟩
    | cons d ds =>
      rw [List.flatMap_cons, List.append_assoc] at hbody
      exact absurd hbody.symm (quoteChar_append_ne d _ _)
  | cons c cs ih =>
    rw [List.flatMap_cons, List.append_assoc] at hbody
    cases ds with
    | nil => exact absurd hbody (quoteChar_append_ne c _ _)
    | cons d ds =>
      rw [List.flatMap_cons, List.append_assoc] at hbody
      obtain ⟨rfl, hrest⟩ := quoteChar_append_inj hbody
      obtain ⟨rfl, hafter⟩ := ih hrest
      exact ⟨rfl, hafter⟩

end RecordGuard
