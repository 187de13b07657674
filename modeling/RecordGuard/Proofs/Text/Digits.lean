import Mathlib.Algebra.Group.Nat.Defs
import Mathlib.Data.List.TakeWhile
import RecordGuard.Calendar.Timestamp

/-!
# Runs of characters

A text that is made of runs of characters of one class each, with other characters between them,
comes apart in one way only. Numbers, dates and the bare words of values are such texts.

* **`Ends`** — a class of characters ends where a text starts.
* **`trim_append`**, **`trimStart_eq_iff`** — white space around a text, and in front of it, goes, and
  with **`exists_append_trim`** nothing else does.
* **`append_inj_of_ends`** — runs that are followed by the end of their class are told apart.
* **`Field.value_toDigits`**, **`Field.value_append`** — the value of a run of decimal digits.
* **`Timestamp.padded_append_inj`** — a number filled up with zeros shows its value.
* **`Field.digits?_append`**, **`Field.number?_append`**, **`Field.nanos?_append`** — what readers of
  digits make of a run of digits.
* **`Field.digits?_eq_some_iff`** — which texts they read, and how far.
-/

namespace RecordGuard

/-- The text is over, or its first character is not in the class. -/
def Ends (p : Char → Bool) (cs : List Char) : Prop := ∀ c ∈ cs.head?, p c = false

section

variable {p : Char → Bool} {cs ds x y : List Char}

@[simp] theorem ends_nil : Ends p [] := by
  rintro c ⟨⟩

@[simp] theorem ends_cons {c : Char} : Ends p (c :: cs) ↔ p c = false :=
  ⟨fun h => h c rfl, by rintro h _ ⟨⟩; exact h⟩

/-- A run that is followed by the end of its class is what is taken of that class. -/
theorem takeWhile_append_of_ends (hcs : ∀ c ∈ cs, p c = true) (hx : Ends p x) :
    (cs ++ x).takeWhile p = cs := by
  rw [List.takeWhile_append_of_pos hcs]
  cases x with
  | nil => simp
  | cons c rest => simp [ends_cons.mp hx]

/-- What is left behind it starts where the class ends. -/
theorem dropWhile_append_of_ends (hcs : ∀ c ∈ cs, p c = true) (hx : Ends p x) :
    (cs ++ x).dropWhile p = x := by
  rw [List.dropWhile_append_of_pos hcs]
  cases x with
  | nil => rfl
  | cons c rest => simp [ends_cons.mp hx]

/-- Cutting a text off does not bring characters of the class to its start. -/
theorem Ends.take (h : Ends p x) (n : Nat) : Ends p (x.take n) := by
  cases n with
  | zero => exact ends_nil
  | succ n =>
    cases x with
    | nil => exact ends_nil
    | cons c rest => exact ends_cons.mpr (ends_cons.mp h)

/-- What comes behind a text that is not empty does not change its start. -/
theorem Ends.append (h : Ends p cs) (hne : cs ≠ []) (x : List Char) : Ends p (cs ++ x) := by
  cases cs with
  | nil => exact absurd rfl hne
  | cons c rest => exact ends_cons.mpr (ends_cons.mp h)

/-- Where taking stops, the class ends. -/
theorem ends_dropWhile (p : Char → Bool) (cs : List Char) : Ends p (cs.dropWhile p) := by
  intro c hc
  have hnot := List.head?_dropWhile_not p cs
  rw [Option.mem_def.mp hc] at hnot
  simpa using hnot

/-- Every text starts with a run of a class, which may be empty. -/
theorem exists_append_ends (p : Char → Bool) (cs : List Char) :
    ∃ run rest, cs = run ++ rest ∧ (∀ c ∈ run, p c = true) ∧ Ends p rest :=
  ⟨cs.takeWhile p, cs.dropWhile p, List.takeWhile_append_dropWhile.symm,
    fun _ hc => List.mem_takeWhile_imp hc, ends_dropWhile p cs⟩

/-- White space in front of a text is cut off, all of it and nothing else. -/
theorem trimStart_eq_iff :
    trimStart cs = x ↔
      ∃ blanks, cs = blanks ++ x ∧ (∀ c ∈ blanks, isBlank c = true) ∧ Ends isBlank x := by
  constructor
  · rintro rfl
    obtain ⟨blanks, rest, rfl, hblanks, hrest⟩ := exists_append_ends isBlank cs
    have htrim : trimStart (blanks ++ rest) = rest := dropWhile_append_of_ends hblanks hrest
    rw [htrim]
    exact ⟨blanks, rfl, hblanks, hrest⟩
  · rintro ⟨blanks, rfl, hblanks, hx⟩
    exact dropWhile_append_of_ends hblanks hx

/-- White space around a text that neither starts nor ends with any goes. -/
theorem trim_append {before after : List Char} (hbefore : ∀ c ∈ before, isBlank c = true)
    (hafter : ∀ c ∈ after, isBlank c = true) (hne : cs ≠ []) (hstart : Ends isBlank cs)
    (hend : Ends isBlank cs.reverse) : trim (before ++ cs ++ after) = cs := by
  have hbehind : ∀ c ∈ after.reverse, isBlank c = true :=
    fun c hc => hafter c (List.mem_reverse.mp hc)
  rw [trim, trimStart, List.append_assoc,
    dropWhile_append_of_ends hbefore (hstart.append hne after), List.reverse_append,
    dropWhile_append_of_ends hbehind hend, List.reverse_reverse]

/-- Trimming takes nothing but white space. -/
theorem exists_append_trim (cs : List Char) :
    ∃ before after, cs = before ++ trim cs ++ after ∧ (∀ c ∈ before, isBlank c = true) ∧
      ∀ c ∈ after, isBlank c = true := by
  obtain ⟨before, hbefore, hblank, -⟩ := trimStart_eq_iff.mp (rfl : trimStart cs = _)
  obtain ⟨after, rest, hafter, hblank', hrest⟩ :=
    exists_append_ends isBlank (trimStart cs).reverse
  have htrim : trim cs = rest.reverse := by
    rw [trim, hafter, dropWhile_append_of_ends hblank' hrest]
  refine ⟨before, after.reverse, ?_, hblank, fun c hc => hblank' c (List.mem_reverse.mp hc)⟩
  rw [htrim, List.append_assoc, ← List.reverse_append, ← hafter, List.reverse_reverse, ← hbefore]

/-- Only capital letters have another small form. -/
theorem toLower_of_not_isUpper {c : Char} (h : c.isUpper = false) : c.toLower = c :=
  dif_neg (of_decide_eq_false h)

/-- Two runs of one class that are each followed by its end. -/
theorem append_inj_of_ends (hcs : ∀ c ∈ cs, p c = true) (hds : ∀ c ∈ ds, p c = true)
    (hx : Ends p x) (hy : Ends p y) (h : cs ++ x = ds ++ y) : cs = ds ∧ x = y := by
  have hruns : cs = ds := by
    rw [← takeWhile_append_of_ends hcs hx, h, takeWhile_append_of_ends hds hy]
  subst hruns
  exact ⟨rfl, List.append_cancel_left h⟩

end

/-! ## Decimal digits -/

theorem isDigit_toDigits (n : Nat) : ∀ c ∈ Nat.toDigits 10 n, c.isDigit = true :=
  fun _ hc => Nat.isDigit_of_mem_toDigits (by decide) (by decide) hc

theorem isDigit_replicate_zero (n : Nat) : ∀ c ∈ List.replicate n '0', c.isDigit = true := by
  intro c hc
  rw [List.eq_of_mem_replicate hc]
  rfl

namespace Field

theorem value_eq_ofDigitChars (ds : List Char) : value ds = Nat.ofDigitChars 10 ds 0 := by
  simp only [value, Nat.ofDigitChars, Nat.mul_comm]

@[simp] theorem value_nil : value [] = 0 := rfl

/-- **The value of the digits of a number is the number.** -/
@[simp] theorem value_toDigits (n : Nat) : value (Nat.toDigits 10 n) = n := by
  rw [value_eq_ofDigitChars, Nat.ofDigitChars_ten_toDigits]

theorem value_append (cs ds : List Char) :
    value (cs ++ ds) = value cs * 10 ^ ds.length + value ds := by
  simp only [value_eq_ofDigitChars]
  rw [Nat.ofDigitChars_append, Nat.ofDigitChars_eq_ofDigitChars_zero, Nat.mul_comm]

@[simp] theorem value_replicate_zero (n : Nat) : value (List.replicate n '0') = 0 := by
  rw [value_eq_ofDigitChars, Nat.ofDigitChars_replicate_zero, Nat.mul_zero]

/-! ## Reading digits -/

section

variable {low high : Nat} {ds x : List Char} (hds : ∀ c ∈ ds, c.isDigit = true)
  (hx : Ends Char.isDigit x)

include hds hx

theorem takeWhile_take_append (n : Nat) :
    ((ds ++ x).take n).takeWhile Char.isDigit = ds.take n := by
  rw [List.take_append]
  exact takeWhile_append_of_ends (fun c hc => hds c (List.mem_of_mem_take hc)) (hx.take _)

/-- Of a run of digits as many are read as may be. -/
theorem digits?_append (hlow : low ≤ (ds.take high).length) :
    digits? low high (ds ++ x) = some (ds.take high, ds.drop high ++ x) := by
  have hdrop : (ds ++ x).drop (ds.take high).length = ds.drop high ++ x := by
    rw [List.length_take, List.drop_append_of_le_length (Nat.min_le_right _ _)]
    -- either the bound cuts the run, or the run ends before it
    rcases Nat.le_total high ds.length with h | h
    · rw [Nat.min_eq_left h]
    · rw [Nat.min_eq_right h, List.drop_length, List.drop_eq_nil_of_le h]
  rw [digits?, takeWhile_take_append hds hx, hdrop]
  exact if_neg (Nat.not_lt.mpr hlow)

/-- Too short a run is not read. -/
theorem digits?_append_eq_none (hlow : ds.length < low) : digits? low high (ds ++ x) = none := by
  have hlength : (ds.take high).length < low := by
    rw [List.length_take]
    omega
  rw [digits?, takeWhile_take_append hds hx]
  exact if_pos hlength

/-- A whole run of digits is read as its value. -/
theorem number?_append (hlow : low ≤ ds.length) (hhigh : ds.length ≤ high) :
    number? low high (ds ++ x) = some (value ds, x) := by
  have htake : ds.take high = ds := List.take_of_length_le hhigh
  rw [number?, digits?_append hds hx (by rwa [htake]), htake, List.drop_eq_nil_of_le hhigh]
  rfl

/-- Nine digits of a fraction count. -/
theorem nanos?_append (hne : ds ≠ []) :
    nanos? (ds ++ x) = some (value (ds.take 9) * 10 ^ (9 - (ds.take 9).length), x) := by
  have hlength : 1 ≤ (ds.take 9).length := by
    have := List.length_pos_iff.mpr hne
    rw [List.length_take]
    omega
  -- the digits behind the ninth are skipped
  have hrest : (ds.drop 9 ++ x).dropWhile Char.isDigit = x :=
    dropWhile_append_of_ends (fun c hc => hds c (List.mem_of_mem_drop hc)) hx
  rw [nanos?, digits?_append hds hx hlength]
  simp only [Option.bind_eq_bind, Option.bind_some, Option.pure_def, hrest, Nat.pow_eq]

end

/-- Digits are read as far as they may be: up to the bound, or to where they end. -/
theorem digits?_eq_some_iff {low high : Nat} {cs ds rest : List Char} :
    digits? low high cs = some (ds, rest) ↔
      cs = ds ++ rest ∧ (∀ c ∈ ds, c.isDigit = true) ∧ low ≤ ds.length ∧ ds.length ≤ high ∧
        (ds.length = high ∨ Ends Char.isDigit rest) := by
  constructor
  · obtain ⟨run, x, rfl, hrun, hx⟩ := exists_append_ends Char.isDigit cs
    intro h
    by_cases hlow : low ≤ (run.take high).length
    · rw [digits?_append hrun hx hlow] at h
      cases h
      refine ⟨by rw [← List.append_assoc, List.take_append_drop],
        fun c hc => hrun c (List.mem_of_mem_take hc), hlow, List.length_take_le _ _, ?_⟩
      -- the run is cut by the bound, or it is over
      rcases Nat.le_total high run.length with hhigh | hhigh
      · exact .inl (List.length_take_of_le hhigh)
      · rw [List.drop_eq_nil_of_le hhigh]
        exact .inr hx
    · rw [digits?, takeWhile_take_append hrun hx] at h
      cases (if_pos (Nat.lt_of_not_le hlow)).symm.trans h
  · rintro ⟨rfl, hds, hlow, hhigh, hstop⟩
    -- what was read is what is found again, for either of the two reasons to stop
    have htake : ((ds ++ rest).take high).takeWhile Char.isDigit = ds := by
      rcases hstop with hfull | hends
      · rw [List.take_left' hfull]
        exact List.takeWhile_eq_self_iff.mpr hds
      · rw [takeWhile_take_append hds hends, List.take_of_length_le hhigh]
    rw [digits?, htake, List.drop_left]
    exact if_neg (Nat.not_lt.mpr hlow)

/-- A character is read where it stands first. -/
theorem char?_eq_some_iff {c : Char} {cs rest : List Char} :
    char? c cs = some rest ↔ cs = c :: rest := by
  cases cs with
  | nil => simp [char?]
  | cons d others =>
    simp only [char?, List.cons.injEq]
    split <;> simp_all

/-- Without a point there is no fraction. -/
theorem fraction?_of_head?_ne {cs : List Char} (h : cs.head? ≠ some '.') :
    fraction? cs = some (0, cs) := by
  unfold fraction?
  split
  · exact absurd rfl h
  · rfl

end Field

namespace Timestamp

theorem isDigit_padded (width n : Nat) : ∀ c ∈ padded width n, c.isDigit = true :=
  List.forall_mem_append.mpr ⟨isDigit_replicate_zero _, isDigit_toDigits n⟩

theorem padded_ne_nil (width n : Nat) : padded width n ≠ [] := by
  simp [padded, Nat.toDigits_ne_nil]

@[simp] theorem value_padded (width n : Nat) : Field.value (padded width n) = n := by
  simp [padded, Field.value_append]

/-- A padded number has its width, as long as it fits. -/
theorem length_padded {width n : Nat} (hwidth : 0 < width) (hn : n < 10 ^ width) :
    (padded width n).length = width := by
  have hfits := (Nat.length_toDigits_le_iff (b := 10) (by decide) hwidth).mpr hn
  simp [padded]
  omega

/-- A padded number and what follows it, be it no digit, can be told apart. -/
theorem padded_append_inj {width m n : Nat} {x y : List Char} (hx : Ends Char.isDigit x)
    (hy : Ends Char.isDigit y) (h : padded width m ++ x = padded width n ++ y) :
    m = n ∧ x = y := by
  obtain ⟨hdigits, hrest⟩ :=
    append_inj_of_ends (isDigit_padded width m) (isDigit_padded width n) hx hy h
  have hvalue := congrArg Field.value hdigits
  rw [value_padded, value_padded] at hvalue
  exact ⟨hvalue, hrest⟩

end Timestamp

end RecordGuard
