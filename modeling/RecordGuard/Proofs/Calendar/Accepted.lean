import RecordGuard.Proofs.Calendar.Loose

/-!
# Accepted texts

Which texts name an instant, and which instant. No text is written in two of the five forms, so the
order in which they are tried does not show: a text names what one of the forms reads in it. Three of
the forms are lenient, so a text may leave out digits, or have white space between its parts.

* **`Timestamp.exists_of_read?`**, **`MailDate.day?_eq_none`** — a timestamp goes on where a day and a
  time of day without an offset are over, and a mail date begins with no day.
* **`Instant.proper_of_ofText?`**, **`ProperInstant.ofText`** — what a text names is a proper instant.
* **`writtenForms_apart`** — no text is read in two forms.
* **`Instant.ofText?_eq_some_iff`** — the headline.
* **`Instant.ofText?_unfilled`** — a text that is accepted and not written with all of its digits.
* **`Instant.ofText?_eq_of_perm`** — the forms in any order.
-/

namespace RecordGuard

section

variable {cs rest : List Char}

/-! ## Timestamps -/

/-- A number of as many digits as are asked for. -/
theorem Field.number?_self_iff {width n : Nat} :
    number? width width cs = some (n, rest) ↔
      ∃ d : Digits width, cs = d.chars ++ rest ∧ d.value = n := by
  rw [number?_eq_some_iff]
  constructor
  · rintro ⟨ds, hcs, hvalue, hds, hlow, hhigh, -⟩
    exact ⟨⟨ds, Nat.le_antisymm hhigh hlow, hds⟩, hcs, hvalue⟩
  · rintro ⟨d, hcs, hvalue⟩
    exact ⟨d.chars, hcs, hvalue, d.isDigit, d.length_eq.ge, d.length_eq.le, .inl d.length_eq⟩

namespace Timestamp

/-- Three marks may stand between the day and the time of day of a timestamp. -/
theorem exists_of_mark? (h : mark? cs = some rest) : ∃ m ∈ ['T', 't', ' '], cs = m :: rest := by
  unfold mark? at h
  split at h
  · cases h; exact ⟨'T', by simp, rfl⟩
  · cases h; exact ⟨'t', by simp, rfl⟩
  · cases h; exact ⟨' ', by simp, rfl⟩
  · cases h

/-- Neither a digit nor a point of the seconds is the beginning of an offset. -/
theorem exists_of_offset? {offset : Int} (h : offset? cs = some (offset, rest)) :
    ∃ c others, cs = c :: others ∧ c.isDigit = false ∧ c ≠ '.' := by
  unfold offset? at h
  split at h
  case h_6 => cases h
  all_goals exact ⟨_, _, rfl, rfl, by decide⟩

/-- **A timestamp is a day and a time of day with all of their digits, and more.** -/
theorem exists_of_read? {i : Instant} (h : read? cs = some i) :
    ∃ (d : WrittenDay) (c : WrittenClock), ∃ m ∈ ['T', 't', ' '], ∃ x : List Char,
      cs = d.chars ++ m :: (c.chars ++ x) ∧ x ≠ [] ∧ Ends Char.isDigit x ∧ x.head? ≠ some '.' := by
  -- the day
  obtain ⟨⟨year, cs₁⟩, hyear, h⟩ := Option.bind_eq_some_iff.mp h
  obtain ⟨cs₂, hdash, h⟩ := Option.bind_eq_some_iff.mp h
  obtain ⟨⟨month, cs₃⟩, hmonth, h⟩ := Option.bind_eq_some_iff.mp h
  obtain ⟨cs₄, hdash', h⟩ := Option.bind_eq_some_iff.mp h
  obtain ⟨⟨day, cs₅⟩, hday, h⟩ := Option.bind_eq_some_iff.mp h
  obtain ⟨cs₆, hmark, h⟩ := Option.bind_eq_some_iff.mp h
  -- the time of day, and the offset
  obtain ⟨⟨hour, cs₇⟩, hhour, h⟩ := Option.bind_eq_some_iff.mp h
  obtain ⟨cs₈, hcolon, h⟩ := Option.bind_eq_some_iff.mp h
  obtain ⟨⟨minute, cs₉⟩, hminute, h⟩ := Option.bind_eq_some_iff.mp h
  obtain ⟨cs₁₀, hcolon', h⟩ := Option.bind_eq_some_iff.mp h
  obtain ⟨⟨second, cs₁₁⟩, hsecond, h⟩ := Option.bind_eq_some_iff.mp h
  obtain ⟨⟨nanos, cs₁₂⟩, hfraction, h⟩ := Option.bind_eq_some_iff.mp h
  obtain ⟨⟨offset, cs₁₃⟩, hoffset, -⟩ := Option.bind_eq_some_iff.mp h
  -- each field that was read is put back into the text
  obtain ⟨y, rfl, -⟩ := Field.number?_self_iff.mp hyear
  obtain rfl := Field.char?_eq_some_iff.mp hdash
  obtain ⟨mo, rfl, -⟩ := Field.number?_self_iff.mp hmonth
  obtain rfl := Field.char?_eq_some_iff.mp hdash'
  obtain ⟨da, rfl, -⟩ := Field.number?_self_iff.mp hday
  obtain ⟨m, hm, rfl⟩ := exists_of_mark? hmark
  obtain ⟨hr, rfl, -⟩ := Field.number?_self_iff.mp hhour
  obtain rfl := Field.char?_eq_some_iff.mp hcolon
  obtain ⟨mi, rfl, -⟩ := Field.number?_self_iff.mp hminute
  obtain rfl := Field.char?_eq_some_iff.mp hcolon'
  obtain ⟨se, rfl, -⟩ := Field.number?_self_iff.mp hsecond
  obtain ⟨c, others, rfl, hdigit, hpoint⟩ := exists_of_offset? hoffset
  have hends : Ends Char.isDigit (c :: others) := ends_cons.mpr hdigit
  have hhead : (c :: others).head? ≠ some '.' := by simpa using hpoint
  obtain ⟨fraction, rfl⟩ : ∃ f : Option Fraction,
      cs₁₁ = (WrittenClock.mk hr mi se f).fractionChars ++ c :: others := by
    rcases (Field.fraction?_eq_some_iff hends hhead).mp hfraction with ⟨rfl, -⟩ | ⟨f, rfl, -⟩
    · exact ⟨none, rfl⟩
    · exact ⟨some f, rfl⟩
  refine ⟨⟨y, mo, da⟩, ⟨hr, mi, se, fraction⟩, m, hm, c :: others, ?_, by simp, hends, hhead⟩
  simp [WrittenDay.chars, WrittenClock.chars]

end Timestamp

/-! ## Mail dates -/

/-- Where a year is written, up to the dash behind it, white space in front of it taken away. -/
theorem LooseYear.exists_trimStart (y : LooseYear) (x : List Char) :
    ∃ run : DigitRun, trimStart (y.chars ++ x) = run.chars ++ x ∨
      ∃ sign ∈ ['-', '+'], trimStart (y.chars ++ x) = sign :: (run.chars ++ x) := by
  cases y with
  | unsigned blanks run hlength =>
    exact ⟨run, .inl (trimStart_unsigned_append blanks run hlength x)⟩
  | signed blanks negative run =>
    refine ⟨run, .inr ⟨_, ?_, trimStart_signed_append blanks negative run x⟩⟩
    cases negative <;> simp

namespace MailDate

/-- Where white space is asked for, a character of it stands. -/
theorem exists_of_blank? (h : Field.blank? cs = some rest) :
    ∃ c others, cs = c :: others ∧ isBlank c = true := by
  cases cs with
  | nil => cases h
  | cons c others => exact ⟨c, others, rfl, (Option.ite_none_right_eq_some.mp h).1⟩

/-- A mail date begins with letters, or with digits that white space follows. -/
theorem exists_of_read? {i : Instant} (h : read? cs = some i) :
    (∃ c others, trimStart cs = c :: others ∧ c.isAlpha = true) ∨
      ∃ (ds : List Char) (c : Char) (others : List Char), trimStart cs = ds ++ c :: others ∧
        ds ≠ [] ∧ (∀ d ∈ ds, d.isDigit = true) ∧ isBlank c = true := by
  obtain ⟨⟨weekday, cs₁⟩, hweekday, h⟩ := Option.bind_eq_some_iff.mp h
  obtain ⟨⟨day, cs₂⟩, hday, h⟩ := Option.bind_eq_some_iff.mp h
  obtain ⟨cs₃, hblank, -⟩ := Option.bind_eq_some_iff.mp h
  obtain ⟨ds, htrim, -, hds, hlow, -⟩ := Field.number?_eq_some_iff.mp hday
  obtain ⟨b, others, rfl, hb⟩ := exists_of_blank? hblank
  have hne : ds ≠ [] := List.ne_nil_of_length_pos hlow
  -- letters in front are a weekday, and without them the number is what stands first
  cases hcs : trimStart cs with
  | nil =>
    -- there is no number in nothing
    rw [hcs] at hweekday
    cases hweekday
    exact absurd htrim (by simp [trimStart])
  | cons c rest =>
    cases hc : c.isAlpha with
    | true => exact .inl ⟨c, rest, rfl, hc⟩
    | false =>
      have hends : Ends isBlank (c :: rest) := hcs ▸ ends_dropWhile isBlank cs
      rw [hcs, weekday?_of_not_isAlpha hc] at hweekday
      cases hweekday
      have htwice : trimStart (c :: rest) = c :: rest :=
        trimStart_eq_iff.mpr ⟨[], rfl, List.forall_mem_nil _, hends⟩
      rw [htwice] at htrim
      exact .inr ⟨ds, b, others, htrim, hne, hds, hb⟩

/-- **A mail date begins with no day that a dash is part of.** -/
theorem day?_eq_none {i : Instant} (h : read? cs = some i) : PlainDate.day? cs = none := by
  rw [Option.eq_none_iff_forall_ne_some]
  rintro ⟨d, rest⟩ hday
  obtain ⟨w, rfl, -, -⟩ := PlainDate.day?_eq_some_iff.mp hday
  obtain ⟨x, htext⟩ : ∃ x, w.chars ++ rest = w.year.chars ++ '-' :: x :=
    ⟨_, by rw [LooseDay.chars, List.append_assoc]; rfl⟩
  have hmail := exists_of_read? h
  rw [htext] at hmail
  -- the year may have a sign, which is neither a letter nor a digit
  obtain ⟨run, hyear | ⟨sign, hsign, hyear⟩⟩ := w.year.exists_trimStart ('-' :: x)
  · rw [hyear] at hmail
    rcases hmail with ⟨c, others, hcs, halpha⟩ | ⟨ds, c, others, hcs, -, hds, hblank⟩
    · obtain ⟨e, digits, hrun, he⟩ := run.exists_cons
      rw [hrun] at hcs
      cases hcs
      rw [isAlpha_of_isDigit he] at halpha
      cases halpha
    · -- the digits are the same on both sides, and a dash is no white space
      have hc : c.isDigit = false := by
        by_contra hdigit
        rw [isBlank_of_isDigit (Bool.eq_true_of_not_eq_false hdigit)] at hblank
        cases hblank
      obtain ⟨-, hrest⟩ :=
        append_inj_of_ends run.isDigit hds (ends_cons.mpr rfl) (ends_cons.mpr hc) hcs
      cases hrest
      cases hblank
  · rw [hyear] at hmail
    have hsigns : ∀ c ∈ ['-', '+'], c.isAlpha = false ∧ c.isDigit = false := by simp
    obtain ⟨hletter, hdigit⟩ := hsigns sign hsign
    rcases hmail with ⟨c, others, hcs, halpha⟩ | ⟨ds, c, others, hcs, hne, hds, -⟩
    · cases hcs
      rw [hletter] at halpha
      cases halpha
    · obtain ⟨e, digits, rfl⟩ := List.exists_cons_of_ne_nil hne
      rw [List.head_eq_of_cons_eq hcs, hds e List.mem_cons_self] at hdigit
      cases hdigit

end MailDate

/-! ## Forms without an offset -/

namespace PlainDate

variable {i : Instant}

/-- The rest of the text behind the day tells which of the three forms it can be. -/
theorem day?_of_readDay? (h : readDay? cs = some i) : ∃ d, day? cs = some (d, []) := by
  obtain ⟨d, rfl, -⟩ := readDay?_eq_some_iff.mp h
  exact ⟨d.toDay, day?_eq_some_iff.mpr ⟨d, (List.append_nil _).symm, rfl, .inr ends_nil⟩⟩

theorem day?_of_readMarked? (h : readMarked? cs = some i) :
    ∃ d rest c, day? cs = some (d, 'T' :: rest) ∧ clock? rest = some (c, []) := by
  obtain ⟨d, rest, hday, rest', hmark, c, hclock, -⟩ := readDayTime?_eq_some_iff.mp h
  exact ⟨d, rest', c, Field.char?_eq_some_iff.mp hmark ▸ hday, hclock⟩

/-- In the third a time of day follows the day at once, or behind white space. -/
theorem day?_of_readSpaced? (h : readSpaced? cs = some i) :
    ∃ d rest c, day? cs = some (d, rest) ∧ clock? rest = some (c, []) := by
  obtain ⟨d, rest, hday, rest', hmark, c, hclock, -⟩ := readDayTime?_eq_some_iff.mp h
  cases hmark
  exact ⟨d, rest, c, hday, clock?_trimStart rest ▸ hclock⟩

/-- Where there is no day there is none of the three forms. -/
theorem read?_eq_none_of_day? (h : day? cs = none) :
    readDay? cs = none ∧ readMarked? cs = none ∧ readSpaced? cs = none := by
  simp [readDay?, readMarked?, readSpaced?, readDayTime?, h]

/-- No time of day begins with what is neither white space nor a digit. -/
theorem clock?_cons_eq_none {c : Char} (hblank : isBlank c = false)
    (hdigit : c.isDigit = false) (x : List Char) : clock? (c :: x) = none := by
  refine clock?_eq_none ?_
  rw [trimStart, List.dropWhile_cons_of_neg (Bool.eq_false_iff.mp hblank)]
  exact ends_cons.mpr hdigit

/-- **The first form and the second**: what is behind the day is nothing, or begins with a letter. -/
theorem readMarked?_eq_none_of_readDay? (h : readDay? cs = some i) : readMarked? cs = none := by
  obtain ⟨d, hday⟩ := day?_of_readDay? h
  rw [Option.eq_none_iff_forall_ne_some]
  intro j hread
  obtain ⟨d', rest, c, hday', -⟩ := day?_of_readMarked? hread
  cases hday.symm.trans hday'

/-- **The first form and the third**: nothing is no time of day. -/
theorem readSpaced?_eq_none_of_readDay? (h : readDay? cs = some i) : readSpaced? cs = none := by
  obtain ⟨d, hday⟩ := day?_of_readDay? h
  rw [Option.eq_none_iff_forall_ne_some]
  intro j hread
  obtain ⟨d', rest, c, hday', hclock⟩ := day?_of_readSpaced? hread
  cases hday.symm.trans hday'
  cases (clock?_eq_none ends_nil).symm.trans hclock

/-- **The second form and the third**: no time of day begins with a letter. -/
theorem readSpaced?_eq_none_of_readMarked? (h : readMarked? cs = some i) :
    readSpaced? cs = none := by
  obtain ⟨d, rest, c, hday, -⟩ := day?_of_readMarked? h
  rw [Option.eq_none_iff_forall_ne_some]
  intro j hread
  obtain ⟨d', rest', c', hday', hclock⟩ := day?_of_readSpaced? hread
  cases hday.symm.trans hday'
  cases (clock?_cons_eq_none rfl rfl rest).symm.trans hclock

end PlainDate

/-- Behind the time of day of a timestamp there is its offset, which none of the three forms has. -/
theorem Timestamp.plain_eq_none {i : Instant} (h : read? cs = some i) :
    PlainDate.readDay? cs = none ∧ PlainDate.readMarked? cs = none ∧
      PlainDate.readSpaced? cs = none := by
  obtain ⟨d, c, m, hm, x, rfl, hne, hends, hpoint⟩ := exists_of_read? h
  have hmark : Ends Char.isDigit (m :: (c.chars ++ x)) := by
    have hmarks : ∀ c ∈ ['T', 't', ' '], c.isDigit = false := by simp
    exact ends_cons.mpr (hmarks m hm)
  have hday := PlainDate.day?_append d hmark
  have hclock : ∀ c', PlainDate.clock? (c.chars ++ x) ≠ some (c', []) := by
    intro c' hread
    rw [PlainDate.clock?_append c hends hpoint] at hread
    cases hread
    exact hne rfl
  simp only [Option.eq_none_iff_forall_ne_some]
  refine ⟨fun i hread => ?_, fun i hread => ?_, fun i hread => ?_⟩
  · obtain ⟨d', hday'⟩ := PlainDate.day?_of_readDay? hread
    cases hday.symm.trans hday'
  · obtain ⟨d', rest, c', hday', hclock'⟩ := PlainDate.day?_of_readMarked? hread
    cases hday.symm.trans hday'
    exact hclock c' hclock'
  · obtain ⟨d', rest, c', hday', hclock'⟩ := PlainDate.day?_of_readSpaced? hread
    cases hday.symm.trans hday'
    -- of the marks only the space can stand in front of a time of day
    simp only [List.mem_cons, List.not_mem_nil, or_false] at hm
    rcases hm with rfl | rfl | rfl
    · cases (PlainDate.clock?_cons_eq_none rfl rfl _).symm.trans hclock'
    · cases (PlainDate.clock?_cons_eq_none rfl rfl _).symm.trans hclock'
    · have htrim : trimStart (' ' :: (c.chars ++ x)) = trimStart (c.chars ++ x) := rfl
      rw [← PlainDate.clock?_trimStart, htrim, PlainDate.clock?_trimStart] at hclock'
      exact hclock c' hclock'

/-! ## What is read is proper

Every form reads its day and time of day at an offset of whole minutes, so a leap second that is read is
the last of a minute. -/

/-- Hours and minutes make up whole minutes. -/
theorem Field.hoursMinutes?_emod {separator : List Char → Option (List Char)} {cs rest : List Char}
    {s : Nat} (h : hoursMinutes? separator cs = some (s, rest)) : s % 60 = 0 := by
  simp only [hoursMinutes?, Option.bind_eq_bind, Option.bind_eq_some_iff,
    Option.ite_none_right_eq_some] at h
  obtain ⟨⟨hours, _⟩, -, _, -, ⟨minutes, _⟩, -, -, h⟩ := h
  cases h
  omega

/-- The offset of a timestamp is one of whole minutes. -/
theorem Timestamp.offset?_emod {cs rest : List Char} {offset : Int}
    (h : offset? cs = some (offset, rest)) : offset % 60 = 0 := by
  unfold offset? at h
  split at h
  case h_1 | h_2 => cases h; rfl
  case h_6 => cases h
  all_goals
    obtain ⟨⟨s, _⟩, hread, h⟩ := Option.map_eq_some_iff.mp h
    have hs := Field.hoursMinutes?_emod hread
    cases h
    omega

/-- So is the zone of a mail date, be it written in digits or by name. -/
theorem MailDate.zone?_emod {cs rest : List Char} {zone : Int}
    (h : zone? cs = some (zone, rest)) : zone % 60 = 0 := by
  unfold zone? at h
  dsimp only at h
  split at h
  · split at h
    case h_3 => cases h
    all_goals
      obtain ⟨⟨s, _⟩, hread, h⟩ := Option.map_eq_some_iff.mp h
      have hs := Field.hoursMinutes?_emod hread
      cases h
      omega
  · obtain ⟨hours, -, h⟩ := Option.map_eq_some_iff.mp h
    cases h
    omega

/-- What one reader leaves to the next one, for all that the last of them may give. -/
theorem forall_some_bind {α β : Type} {P : β → Prop} {x : Option α} {f : α → Option β}
    (h : ∀ a, x = some a → ∀ b, f a = some b → P b) : ∀ b, x.bind f = some b → P b := by
  intro b hb
  obtain ⟨a, ha, hf⟩ := Option.bind_eq_some_iff.mp hb
  exact h a ha b hf

/-- A timestamp that is read names a proper instant. -/
theorem Timestamp.proper_of_read? (cs : List Char) : ∀ i, read? cs = some i → i.Proper := by
  -- twelve fields and marks, and the offset behind them
  iterate 12 refine forall_some_bind fun _ _ => ?_
  refine forall_some_bind fun (offset, _) hoffset i h => ?_
  exact Instant.proper_of_ofCivil? (offset?_emod hoffset) (Option.ite_none_right_eq_some.mp h).2

/-- So does a mail date. -/
theorem MailDate.proper_of_read? (cs : List Char) : ∀ i, read? cs = some i → i.Proper := by
  -- here too twelve parts stand in front of the zone
  iterate 12 refine forall_some_bind fun _ _ => ?_
  refine forall_some_bind fun (zone, _) hzone i h => ?_
  exact Instant.proper_of_ofCivil? (zone?_emod hzone) (Option.ite_none_right_eq_some.mp h).2

theorem PlainDate.proper_of_readDay? (cs : List Char) : ∀ i, readDay? cs = some i → i.Proper :=
  forall_some_bind fun _ _ _ h =>
    Instant.proper_of_ofCivil? rfl (Option.ite_none_right_eq_some.mp h).2

theorem PlainDate.proper_of_readDayTime? (mark : List Char → Option (List Char)) (cs : List Char) :
    ∀ i, readDayTime? mark cs = some i → i.Proper :=
  forall_some_bind fun _ _ => forall_some_bind fun _ _ => forall_some_bind fun _ _ _ h =>
    Instant.proper_of_ofCivil? rfl (Option.ite_none_right_eq_some.mp h).2

/-- **What a text names is proper**, in whatever form it is written. -/
theorem Instant.proper_of_ofText? {s : String} {i : Instant} (h : ofText? s = some i) :
    i.Proper := by
  obtain ⟨read, hread, h⟩ := List.exists_of_findSome?_eq_some h
  have hforms : ∀ read ∈ writtenForms, ∀ cs i, read cs = some i → i.Proper := by
    simp only [writtenForms, List.forall_mem_cons]
    exact ⟨Timestamp.proper_of_read?, MailDate.proper_of_read?, PlainDate.proper_of_readDay?,
      PlainDate.proper_of_readDayTime? _, PlainDate.proper_of_readDayTime? _,
      List.forall_mem_nil _⟩
  exact hforms read hread _ i h

/-- The instant that a text names. -/
def ProperInstant.ofText {s : String} {i : Instant} (h : Instant.ofText? s = some i) :
    ProperInstant :=
  ⟨i, Instant.proper_of_ofText? h⟩

/-! ## No text is of two forms -/

/-- A text that one reader reads the other does not. -/
def ReadersApart (first second : List Char → Option Instant) : Prop :=
  ∀ cs i, first cs = some i → second cs = none

/-- **Of readers that are apart it does not matter which comes first**: together they read what one of
them reads. -/
theorem findSome?_eq_some_iff_of_apart {readers : List (List Char → Option Instant)}
    (h : readers.Pairwise ReadersApart) {i : Instant} :
    (readers.findSome? fun read => read cs) = some i ↔ ∃ read ∈ readers, read cs = some i := by
  constructor
  · exact List.exists_of_findSome?_eq_some
  · rintro ⟨read, hmem, hread⟩
    induction h with
    | nil => cases hmem
    | @cons first others hfirst _ ih =>
      rcases List.mem_cons.mp hmem with rfl | hmem
      · rw [List.findSome?_cons, hread]
      · -- the reader in front would keep this one from reading the text
        cases hnone : first cs with
        | none =>
          rw [List.findSome?_cons, hnone]
          exact ih hmem
        | some j =>
          rw [hfirst read hmem cs j hnone] at hread
          cases hread

/-- Readers are apart from each other. -/
theorem ReadersApart.symm {first second : List Char → Option Instant}
    (h : ReadersApart first second) : ReadersApart second first := by
  intro cs i hread
  rw [Option.eq_none_iff_forall_ne_some]
  intro j hfirst
  rw [h cs j hfirst] at hread
  cases hread

/-- Of readers that are apart one at most reads a text. -/
theorem countP_isSome_le_one_of_apart {readers : List (List Char → Option Instant)}
    (h : readers.Pairwise ReadersApart) (cs : List Char) :
    readers.countP (fun read => (read cs).isSome) ≤ 1 := by
  induction h with
  | nil => exact Nat.zero_le 1
  | @cons first others hfirst _ ih =>
    rw [List.countP_cons]
    -- if the first one reads the text, none of the others does
    cases hread : first cs with
    | none => exact ih
    | some i =>
      have hothers : others.countP (fun read => (read cs).isSome) = 0 := by
        rw [List.countP_eq_zero]
        intro read hmem
        rw [hfirst read hmem cs i hread]
        exact Bool.false_ne_true
      rw [hothers]
      exact Nat.le_refl 1

/-- Readers that are apart may be tried in any order. -/
theorem findSome?_eq_of_perm {readers others : List (List Char → Option Instant)}
    (h : readers.Pairwise ReadersApart) (hperm : others.Perm readers) (cs : List Char) :
    (others.findSome? fun read => read cs) = readers.findSome? fun read => read cs := by
  have hothers : others.Pairwise ReadersApart := (hperm.pairwise_iff ReadersApart.symm).mpr h
  refine Option.ext fun i => ?_
  rw [findSome?_eq_some_iff_of_apart hothers, findSome?_eq_some_iff_of_apart h]
  exact exists_congr fun read => and_congr_left' hperm.mem_iff

/-- **No text is read in two of the forms.** -/
theorem writtenForms_apart : writtenForms.Pairwise ReadersApart := by
  have hmail : ∀ cs i, Timestamp.read? cs = some i → MailDate.read? cs = none := by
    intro cs i h
    obtain ⟨d, c, m, -, x, rfl, -⟩ := Timestamp.exists_of_read? h
    exact d.readMail?_eq_none _
  have hplain : ∀ cs i, MailDate.read? cs = some i → PlainDate.readDay? cs = none ∧
      PlainDate.readMarked? cs = none ∧ PlainDate.readSpaced? cs = none :=
    fun cs i h => PlainDate.read?_eq_none_of_day? (MailDate.day?_eq_none h)
  -- ten pairs: the timestamp with the others, the mail date, and the three forms among themselves
  simp only [writtenForms, List.pairwise_cons, List.forall_mem_cons]
  exact ⟨⟨hmail, fun cs i h => (Timestamp.plain_eq_none h).1,
      fun cs i h => (Timestamp.plain_eq_none h).2.1, fun cs i h => (Timestamp.plain_eq_none h).2.2,
      List.forall_mem_nil _⟩,
    ⟨fun cs i h => (hplain cs i h).1, fun cs i h => (hplain cs i h).2.1,
      fun cs i h => (hplain cs i h).2.2, List.forall_mem_nil _⟩,
    ⟨fun _ _ => PlainDate.readMarked?_eq_none_of_readDay?,
      fun _ _ => PlainDate.readSpaced?_eq_none_of_readDay?, List.forall_mem_nil _⟩,
    ⟨fun _ _ => PlainDate.readSpaced?_eq_none_of_readMarked?, List.forall_mem_nil _⟩,
    List.forall_mem_nil _, .nil⟩

/-! ## The headline -/

/-- **A text is accepted exactly if, without the white space around it, it is a timestamp, a mail date or
a loosely written date of a day and a time of day that exist**, and it names the instant that is written
there. -/
theorem Instant.ofText?_eq_some_iff (s : String) (i : Instant) :
    ofText? s = some i ↔
      Timestamp.read? (trim s.toList) = some i ∨ MailDate.read? (trim s.toList) = some i ∨
        ∃ w : LooseDate, trim s.toList = w.chars ∧ w.Exists ∧ w.instant = i := by
  rw [← LooseDate.exists_iff, ofText?, findSome?_eq_some_iff_of_apart writtenForms_apart]
  simp [writtenForms]

/-- A date that has all of its digits has ten characters at least. -/
theorem WrittenDate.ten_le_length (w : WrittenDate) : 10 ≤ w.chars.length := by
  have hday : ∀ d : WrittenDay, d.chars.length = 10 := by
    intro d
    simp [WrittenDay.chars, d.year.length_eq, d.month.length_eq, d.day.length_eq]
  cases w with
  | day d => exact (hday d).ge
  | dayTime d mark c =>
    rw [chars, List.length_append, hday]
    exact Nat.le_add_right _ _
  | timestamp d c z =>
    rw [chars, List.length_append, hday]
    exact Nat.le_add_right _ _

/-- **Not every accepted text is a timestamp, a mail date or a date with all of its digits**: a month and
a day of one digit each are read as well. -/
theorem Instant.ofText?_unfilled :
    ¬ ∀ (s : String) (i : Instant), ofText? s = some i →
      (Timestamp.read? (trim s.toList)).isSome ∨ (MailDate.read? (trim s.toList)).isSome ∨
        ∃ w : WrittenDate, trim s.toList = w.chars := by
  intro h
  have hread : ofText? "2026-1-5" = some ⟨1767571200, 0⟩ := by decide
  have htrim : trim "2026-1-5".toList = "2026-1-5".toList := by decide
  have htimestamp : Timestamp.read? "2026-1-5".toList = none := by decide
  have hmail : MailDate.read? "2026-1-5".toList = none := by decide
  have hforms := h "2026-1-5" _ hread
  rw [htrim, htimestamp, hmail] at hforms
  obtain hnone | hnone | ⟨w, hw⟩ := hforms
  · cases hnone
  · cases hnone
  · have hlength := w.ten_le_length
    rw [← hw] at hlength
    exact absurd hlength (by decide)

/-- **The order in which the forms are tried makes no difference.** Without the white space around it a
text is read in one of the five forms at most, so in whatever order they are tried, the text names the
same instant or none. -/
theorem Instant.ofText?_eq_of_perm (s : String) :
    writtenForms.countP (fun read => (read (trim s.toList)).isSome) ≤ 1 ∧
      ∀ forms : List (List Char → Option Instant), forms.Perm writtenForms →
        (forms.findSome? fun read => read (trim s.toList)) = ofText? s :=
  ⟨countP_isSome_le_one_of_apart writtenForms_apart _,
    fun _ hperm => findSome?_eq_of_perm writtenForms_apart hperm _⟩

/-- The forms backwards, on a date that starts like a timestamp and has a space where that may have one. -/
theorem Instant.ofText?_eq_of_perm_reverse :
    writtenForms.reverse.Perm writtenForms ∧
      (writtenForms.reverse.findSome? fun read => read (trim " 2026-01-15 12:00:00.5\n".toList)) =
        some ⟨1768478400, 500000000⟩ := by
  obtain ⟨-, horder⟩ := Instant.ofText?_eq_of_perm " 2026-01-15 12:00:00.5\n"
  have hread : ofText? " 2026-01-15 12:00:00.5\n" = some ⟨1768478400, 500000000⟩ := by decide
  have hperm : writtenForms.reverse.Perm writtenForms := List.reverse_perm _
  exact ⟨hperm, (horder _ hperm).trans hread⟩

end

end RecordGuard
