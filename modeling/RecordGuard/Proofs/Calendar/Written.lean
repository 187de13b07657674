import RecordGuard.Calendar.Written
import RecordGuard.Proofs.Calendar.Forms

/-!
# Written dates

Five readers are tried on a text. On a day, a day with a time of day or a timestamp that is written
with all of its digits, one of them reads what is written, and the others make nothing of it or the
same. So the text is accepted exactly if what it names exists, and the instant is the one at which a
clock at the written offset shows the written day and time.

* **`PlainDate.day?_append`**, **`PlainDate.clock?_append`**, **`Timestamp.read?_append`** — the readers
  on these forms.
* **`WrittenDate.readAs`** — what the readers make of a written date, by its form.
* **`WrittenDate.ofText?_eq`** — the headline.
-/

namespace RecordGuard

/-! ## Readers of fields -/

/-- A digit is no white space. -/
theorem isBlank_of_isDigit {c : Char} (h : c.isDigit = true) : isBlank c = false := by
  simp only [Char.isDigit, Bool.and_eq_true, decide_eq_true_eq, UInt32.le_iff_toNat_le] at h
  have hlow : 48 ≤ c.toNat := h.1
  have hhigh : c.toNat ≤ 57 := h.2
  simp only [isBlank, Bool.or_eq_false_iff, Bool.and_eq_false_iff, decide_eq_false_iff_not,
    beq_eq_false_iff_ne]
  omega

section

variable {x : List Char}

theorem ends_dash : Ends Char.isDigit ('-' :: x) := ends_cons.mpr rfl

theorem ends_colon : Ends Char.isDigit (':' :: x) := ends_cons.mpr rfl

theorem DayTimeMark.ends_char (mark : DayTimeMark) : Ends Char.isDigit (mark.char :: x) := by
  cases mark <;> exact ends_cons.mpr rfl

/-- Where digits are asked for there is a first one. -/
theorem Digits.exists_cons {width : Nat} (d : Digits (width + 1)) :
    ∃ c rest, d.chars = c :: rest ∧ c.isDigit = true := by
  obtain ⟨chars, hlength, hdigits⟩ := d
  cases chars with
  | nil => cases hlength
  | cons c rest => exact ⟨c, rest, rfl, hdigits c List.mem_cons_self⟩

/-- No white space stands in front of digits. -/
theorem Digits.trimStart_append {width : Nat} (d : Digits (width + 1)) (x : List Char) :
    trimStart (d.chars ++ x) = d.chars ++ x := by
  obtain ⟨c, rest, hchars, hc⟩ := d.exists_cons
  rw [hchars, trimStart, List.cons_append, List.dropWhile_cons_of_neg]
  simp [isBlank_of_isDigit hc]

/-- A written fraction is read as its nanoseconds, up to where neither a digit nor a point follows. -/
theorem WrittenClock.fraction?_append (c : WrittenClock) (hx : Ends Char.isDigit x)
    (hpoint : x.head? ≠ some '.') :
    Field.fraction? (c.fractionChars ++ x) = some (c.nanos, x) := by
  unfold fractionChars nanos
  cases c.fraction with
  | none => exact Field.fraction?_of_head?_ne hpoint
  | some f =>
    have hnanos := Field.nanos?_append f.isDigit hx f.ne_nil
    rw [← f.nanos_eq] at hnanos
    exact hnanos

/-- The digits of the second end where the fraction begins, or with the time of day. -/
theorem WrittenClock.ends_fractionChars (c : WrittenClock) (hx : Ends Char.isDigit x) :
    Ends Char.isDigit (c.fractionChars ++ x) := by
  unfold fractionChars
  cases c.fraction with
  | none => exact hx
  | some f => exact ends_cons.mpr rfl

/-- One step of a reader. -/
theorem bind_eq_of_eq_some {α β : Type} {read : Option α} {next : α → Option β} {a : α}
    {result : Option β} (hread : read = some a) (hnext : next a = result) :
    (read >>= next) = result := by
  rw [hread]
  exact hnext

namespace PlainDate

/-- A digit is no sign. -/
theorem year?_of_isDigit {cs : List Char} {c : Char} (hcs : trimStart cs = c :: x)
    (hc : c.isDigit = true) :
    year? cs = (Field.number? 1 4 (c :: x)).map fun p => ((p.1 : Int), p.2) := by
  rw [year?, hcs]
  split
  · next h =>
    cases h
    cases hc
  · next h =>
    cases h
    cases hc
  · rfl

/-- Four digits are read as a year. -/
theorem year?_append (d : Digits 4) (hx : Ends Char.isDigit x) :
    year? (d.chars ++ x) = some ((d.value : Int), x) := by
  have hnumber := d.number?_append (show 1 ≤ 4 by decide) le_rfl hx
  have htrim := d.trimStart_append x
  obtain ⟨c, rest, hchars, hc⟩ := d.exists_cons
  rw [hchars, List.cons_append] at hnumber htrim
  rw [hchars, List.cons_append, year?_of_isDigit htrim hc, hnumber]
  rfl

theorem pair?_append (d : Digits 2) (hx : Ends Char.isDigit x) :
    pair? (d.chars ++ x) = some (d.value, x) := by
  rw [pair?, d.trimStart_append]
  exact d.number?_append (by decide) le_rfl hx

/-- **A written day is read as the day that it says.** -/
theorem day?_append (d : WrittenDay) (hx : Ends Char.isDigit x) :
    day? (d.chars ++ x) = some (d.toDay, x) := by
  have htext : d.chars ++ x =
      d.year.chars ++ '-' :: (d.month.chars ++ '-' :: (d.day.chars ++ x)) := by
    simp [WrittenDay.chars]
  rw [htext, day?]
  refine bind_eq_of_eq_some (year?_append _ ends_dash) ?_
  refine bind_eq_of_eq_some rfl ?_
  refine bind_eq_of_eq_some (pair?_append _ ends_dash) ?_
  refine bind_eq_of_eq_some rfl ?_
  exact bind_eq_of_eq_some (pair?_append _ hx) rfl

/-- **A written time of day is read as the time that it says.** -/
theorem clock?_append (c : WrittenClock) (hx : Ends Char.isDigit x) (hpoint : x.head? ≠ some '.') :
    clock? (c.chars ++ x) = some (c.toClock, x) := by
  have htext : c.chars ++ x =
      c.hour.chars ++ ':' :: (c.minute.chars ++ ':' :: (c.second.chars ++ (c.fractionChars ++ x))) := by
    simp [WrittenClock.chars]
  rw [htext, clock?]
  refine bind_eq_of_eq_some (pair?_append _ ends_colon) ?_
  refine bind_eq_of_eq_some rfl ?_
  refine bind_eq_of_eq_some (pair?_append _ ends_colon) ?_
  refine bind_eq_of_eq_some rfl ?_
  refine bind_eq_of_eq_some (pair?_append _ (c.ends_fractionChars hx)) ?_
  exact bind_eq_of_eq_some (c.fraction?_append hx hpoint) rfl

end PlainDate

namespace Timestamp

/-- Up to the offset a timestamp is a day and a time of day with one of two marks between them. -/
theorem read?_append (d : WrittenDay) (mark : DayTimeMark) (c : WrittenClock)
    (hx : Ends Char.isDigit x) (hpoint : x.head? ≠ some '.') :
    read? (d.chars ++ mark.char :: (c.chars ++ x)) = (offset? x).bind fun (offset, rest) =>
      if rest.isEmpty then Instant.ofCivil? d.toDay c.toClock offset else none := by
  have hread : ∀ {cs : List Char}, mark? (mark.char :: cs) = some cs := by
    cases mark <;> intro cs <;> rfl
  have htext : d.chars ++ mark.char :: (c.chars ++ x) =
      d.year.chars ++ '-' :: (d.month.chars ++ '-' :: (d.day.chars ++ mark.char ::
        (c.hour.chars ++ ':' :: (c.minute.chars ++ ':' :: (c.second.chars ++
          (c.fractionChars ++ x)))))) := by
    simp [WrittenDay.chars, WrittenClock.chars]
  rw [htext, read?]
  -- the day, up to the mark
  refine bind_eq_of_eq_some (d.year.number?_append le_rfl le_rfl ends_dash) ?_
  refine bind_eq_of_eq_some rfl ?_
  refine bind_eq_of_eq_some (d.month.number?_append le_rfl le_rfl ends_dash) ?_
  refine bind_eq_of_eq_some rfl ?_
  refine bind_eq_of_eq_some (d.day.number?_append le_rfl le_rfl mark.ends_char) ?_
  refine bind_eq_of_eq_some hread ?_
  -- the time of day, up to where an offset has to stand
  refine bind_eq_of_eq_some (c.hour.number?_append le_rfl le_rfl ends_colon) ?_
  refine bind_eq_of_eq_some rfl ?_
  refine bind_eq_of_eq_some (c.minute.number?_append le_rfl le_rfl ends_colon) ?_
  refine bind_eq_of_eq_some rfl ?_
  refine bind_eq_of_eq_some
    (c.second.number?_append le_rfl le_rfl (c.ends_fractionChars hx)) ?_
  exact bind_eq_of_eq_some (c.fraction?_append hx hpoint) rfl

/-- A day alone is no timestamp. -/
theorem read?_day (d : WrittenDay) : read? d.chars = none := by
  have htext : d.chars = d.year.chars ++ '-' :: (d.month.chars ++ '-' :: (d.day.chars ++ [])) := by
    simp [WrittenDay.chars]
  rw [htext, read?]
  refine bind_eq_of_eq_some (d.year.number?_append le_rfl le_rfl ends_dash) ?_
  refine bind_eq_of_eq_some rfl ?_
  refine bind_eq_of_eq_some (d.month.number?_append le_rfl le_rfl ends_dash) ?_
  refine bind_eq_of_eq_some rfl ?_
  -- no mark follows
  exact bind_eq_of_eq_some (d.day.number?_append le_rfl le_rfl ends_nil) rfl

/-- Hours and minutes are read as seconds if there are such. -/
theorem hoursMinutes?_append (hours minutes : Digits 2) :
    Field.hoursMinutes? (Field.char? ':') (hours.chars ++ ':' :: minutes.chars) =
      if hours.value ≤ 23 ∧ minutes.value ≤ 59 then
        some (hours.value * 3600 + minutes.value * 60, [])
      else none := by
  rw [← List.append_nil minutes.chars, Field.hoursMinutes?]
  refine bind_eq_of_eq_some (hours.number?_append le_rfl le_rfl ends_colon) ?_
  refine bind_eq_of_eq_some rfl ?_
  exact bind_eq_of_eq_some (minutes.number?_append le_rfl le_rfl ends_nil) rfl

/-- **A written offset is read** if it exists. -/
theorem offset?_zone (z : WrittenZone) :
    offset? z.chars = if z.Exists then some (z.seconds, []) else none := by
  cases z with
  | utc => rfl
  | offset sign hours minutes =>
    have hread := hoursMinutes?_append hours minutes
    -- be the sign a plus or either minus, the digits behind it are read alike
    by_cases hz : hours.value ≤ 23 ∧ minutes.value ≤ 59
    · rw [if_pos hz] at hread
      rw [if_pos (show (WrittenZone.offset sign hours minutes).Exists from hz)]
      cases sign <;> simp only [WrittenZone.chars, OffsetSign.char, offset?, hread] <;> rfl
    · rw [if_neg hz] at hread
      rw [if_neg (show ¬ (WrittenZone.offset sign hours minutes).Exists from hz)]
      cases sign <;> simp only [WrittenZone.chars, OffsetSign.char, offset?, hread] <;> rfl

end Timestamp

namespace MailDate

/-- A weekday begins with a letter. -/
theorem weekday?_of_not_isAlpha {c : Char} (hc : c.isAlpha = false) (rest : List Char) :
    weekday? (c :: rest) = some (none, c :: rest) := by
  have hletters : ∀ name ∈ weekdayNames, name.head?.map Char.isAlpha = some true := by decide
  have hlower : c.toLower = c := toLower_of_not_isUpper (Bool.or_eq_false_iff.mp hc).1
  have hnone : Field.name? weekdayNames (c :: rest) = none := by
    rw [Field.name?, Option.map_eq_none_iff, List.findIdx?_eq_none_iff]
    intro name hname
    rw [decide_eq_false_iff_not]
    rintro rfl
    have hfirst := hletters _ hname
    simp only [List.take_succ_cons, List.map_cons, List.head?_cons, Option.map_some, hlower, hc] at hfirst
    cases hfirst
  rw [weekday?, hnone]

/-- A digit is no letter. -/
theorem isAlpha_of_isDigit {c : Char} (hc : c.isDigit = true) : c.isAlpha = false := by
  simp only [Char.isDigit, Bool.and_eq_true, decide_eq_true_eq, UInt32.le_iff_toNat_le] at hc
  have hhigh : c.val.toNat ≤ 57 := hc.2
  -- letters of either case come after the digits
  have hupper : ¬(c.val ≥ 'A'.val ∧ c.val ≤ 'Z'.val) := by
    rintro ⟨hA, -⟩
    have hletter : 65 ≤ c.val.toNat := UInt32.le_iff_toNat_le.mp hA
    omega
  have hlower : ¬c.val ≥ 'a'.val := by
    intro ha
    have hletter : 97 ≤ c.val.toNat := UInt32.le_iff_toNat_le.mp ha
    omega
  exact Bool.or_eq_false_iff.mpr
    ⟨decide_eq_false hupper, Bool.and_eq_false_iff.mpr (.inl (decide_eq_false hlower))⟩

/-- Four digits in a row are no day of the month. -/
theorem read?_eq_none (d : Digits 4) (hx : Ends Char.isDigit x) : read? (d.chars ++ x) = none := by
  obtain ⟨c, rest, hchars, hc⟩ := d.exists_cons
  have hlength := d.length_eq
  have hweekday : weekday? (d.chars ++ x) = some (none, d.chars ++ x) := by
    rw [hchars]
    exact weekday?_of_not_isAlpha (isAlpha_of_isDigit hc) _
  -- two of the digits are read, and no white space follows them
  have hnumber : Field.number? 1 2 (d.chars ++ x) =
      some (Field.value (d.chars.take 2), d.chars.drop 2 ++ x) := by
    rw [Field.number?, Field.digits?_append d.isDigit hx (by rw [List.length_take]; omega)]
    rfl
  have hblank : Field.blank? (d.chars.drop 2 ++ x) = none := by
    obtain ⟨e, others, hdrop⟩ := List.exists_cons_of_ne_nil
      (show d.chars.drop 2 ≠ [] from List.ne_nil_of_length_pos (by rw [List.length_drop]; omega))
    have he := d.isDigit e (List.mem_of_mem_drop (hdrop ▸ List.mem_cons_self))
    rw [hdrop, List.cons_append, Field.blank?, isBlank_of_isDigit he]
    rfl
  rw [← d.trimStart_append] at hnumber
  rw [read?, d.trimStart_append]
  refine bind_eq_of_eq_some hweekday ?_
  refine bind_eq_of_eq_some hnumber ?_
  exact congrArg (· >>= _) hblank

end MailDate

/-! ## Readers of whole texts -/

namespace PlainDate

/-- No number is read where no digit stands. -/
theorem pair?_eq_none (hx : Ends Char.isDigit (trimStart x)) : pair? x = none := by
  have hdigits : Field.digits? 1 2 ([] ++ trimStart x) = none :=
    Field.digits?_append_eq_none (List.forall_mem_nil _) hx (by decide)
  rw [List.nil_append] at hdigits
  rw [pair?, Field.number?, hdigits]
  rfl

theorem clock?_eq_none (hx : Ends Char.isDigit (trimStart x)) : clock? x = none := by
  rw [clock?, pair?_eq_none hx]
  rfl

theorem readDay?_append (d : WrittenDay) (hx : Ends Char.isDigit x) :
    readDay? (d.chars ++ x) = if x.isEmpty then Instant.ofCivil? d.toDay .midnight 0 else none := by
  rw [readDay?, day?_append d hx]
  rfl

theorem readDayTime?_append (mark : List Char → Option (List Char)) (d : WrittenDay)
    (hx : Ends Char.isDigit x) :
    readDayTime? mark (d.chars ++ x) = (mark x).bind fun cs => (clock? cs).bind fun (clock, cs) =>
      if cs.isEmpty then Instant.ofCivil? d.toDay clock 0 else none := by
  rw [readDayTime?, day?_append d hx]
  rfl

/-- A day is not read where more is written. -/
theorem readDay?_mark (d : WrittenDay) (mark : DayTimeMark) (x : List Char) :
    readDay? (d.chars ++ mark.char :: x) = none :=
  readDay?_append d mark.ends_char

/-- With a letter between them, a day and a time of day are read if nothing is behind. -/
theorem readMarked?_letter (d : WrittenDay) (c : WrittenClock) (hx : Ends Char.isDigit x)
    (hpoint : x.head? ≠ some '.') :
    readMarked? (d.chars ++ 'T' :: (c.chars ++ x)) =
      if x.isEmpty then Instant.ofCivil? d.toDay c.toClock 0 else none := by
  have hmark : Field.char? 'T' ('T' :: (c.chars ++ x)) = some (c.chars ++ x) := rfl
  rw [readMarked?, readDayTime?_append _ d (ends_cons.mpr rfl), hmark, Option.bind_some,
    clock?_append c hx hpoint]
  rfl

theorem readMarked?_space (d : WrittenDay) (x : List Char) :
    readMarked? (d.chars ++ ' ' :: x) = none :=
  readDayTime?_append (Field.char? 'T') d (ends_cons.mpr rfl)

/-- The letter is no white space, and no time of day begins with it. -/
theorem readSpaced?_letter (d : WrittenDay) (x : List Char) :
    readSpaced? (d.chars ++ 'T' :: x) = none := by
  have hletter : Ends Char.isDigit ('T' :: x) := ends_cons.mpr rfl
  have hclock : clock? ('T' :: x) = none := clock?_eq_none hletter
  have htrim : trimStart ('T' :: x) = 'T' :: x := rfl
  rw [readSpaced?, readDayTime?_append _ d hletter, Option.bind_some, htrim, hclock]
  rfl

/-- With a space between them, a day and a time of day are read. -/
theorem readSpaced?_space (d : WrittenDay) (c : WrittenClock) :
    readSpaced? (d.chars ++ ' ' :: c.chars) = Instant.ofCivil? d.toDay c.toClock 0 := by
  -- the space goes, and the first digit of the hour stops the blanks
  have hspace : trimStart (' ' :: c.chars) = c.chars ++ [] := by
    have htrim : trimStart (' ' :: c.chars) = trimStart c.chars := rfl
    rw [htrim, WrittenClock.chars, c.hour.trimStart_append, List.append_nil]
  rw [readSpaced?, readDayTime?_append _ d (ends_cons.mpr rfl), Option.bind_some, hspace,
    clock?_append c ends_nil (by simp)]
  rfl

end PlainDate

theorem WrittenDay.readMail?_eq_none (d : WrittenDay) (x : List Char) :
    MailDate.read? (d.chars ++ x) = none := by
  rw [WrittenDay.chars, List.append_assoc]
  exact MailDate.read?_eq_none d.year (ends_cons.mpr rfl)

namespace WrittenDate

/-- Of the readers on a text one makes of it what it is, and the others that or nothing. -/
structure ReadAs (cs : List Char) (result : Option Instant) : Prop where
  all : ∀ read ∈ writtenForms, read cs = none ∨ read cs = result
  one : ∃ read ∈ writtenForms, read cs = result

/-- **Where a text is read as something, the first reader that makes anything of it makes that.** -/
theorem ReadAs.findSome?_eq {cs : List Char} {result : Option Instant} (h : ReadAs cs result) :
    (writtenForms.findSome? fun read => read cs) = result := by
  obtain ⟨read, hmem, hread⟩ := h.one
  -- no reader makes anything of it, or the first that does makes what it is
  cases hfound : writtenForms.findSome? fun read => read cs with
  | none =>
    rw [← hread]
    exact (List.findSome?_eq_none_iff.mp hfound read hmem).symm
  | some i =>
    obtain ⟨other, hother, hi⟩ := List.exists_of_findSome?_eq_some hfound
    rcases h.all other hother with hnone | hresult
    · rw [hi] at hnone
      cases hnone
    · exact hi.symm.trans hresult

/-- The civil time that is written, between the years 0 and 9999. -/
theorem ofCivil?_toClock (d : WrittenDay) (c : WrittenClock) {offset : Int}
    (hoffset : -86400 < offset ∧ offset < 86400) :
    Instant.ofCivil? d.toDay c.toClock offset =
      if d.toDay.Exists ∧ c.Exists then some (.civil d.toDay c.toClock offset) else none := by
  rw [Instant.ofCivil?_eq d.year_bounds hoffset]
  exact if_congr (and_congr_right' c.exists_toClock_iff) rfl rfl

/-- A written day is read by the third reader, and by no other. -/
theorem readAs_day (d : WrittenDay) : ReadAs (day d).chars (day d).instant? := by
  have hread : PlainDate.readDay? d.chars = (day d).instant? := by
    have hcivil : Instant.ofCivil? d.toDay .midnight 0 = (day d).instant? := by
      rw [Instant.ofCivil?_eq d.year_bounds (by decide)]
      exact if_congr (and_iff_left (by decide)) rfl rfl
    have happend := PlainDate.readDay?_append d ends_nil
    rwa [List.append_nil, hcivil] at happend
  have hmail : MailDate.read? d.chars = none := by
    simpa using d.readMail?_eq_none []
  -- with nothing behind the day there is no time of day to read
  have hmarked : PlainDate.readMarked? d.chars = none := by
    have happend := PlainDate.readDayTime?_append (Field.char? 'T') d ends_nil
    rwa [List.append_nil] at happend
  have hspaced : PlainDate.readSpaced? d.chars = none := by
    have happend := PlainDate.readDayTime?_append (fun cs => some (trimStart cs)) d ends_nil
    rwa [List.append_nil] at happend
  constructor
  · simp only [writtenForms, List.forall_mem_cons]
    exact ⟨.inl (Timestamp.read?_day d), .inl hmail, .inr hread, .inl hmarked, .inl hspaced,
      List.forall_mem_nil _⟩
  · exact ⟨PlainDate.readDay?, List.mem_of_getElem? (i := 2) rfl, hread⟩

/-- A written day with a time of day is read by the reader for its mark. -/
theorem readAs_dayTime (d : WrittenDay) (mark : DayTimeMark) (c : WrittenClock) :
    ReadAs (dayTime d mark c).chars (dayTime d mark c).instant? := by
  have hcivil : Instant.ofCivil? d.toDay c.toClock 0 = (dayTime d mark c).instant? :=
    ofCivil?_toClock d c (by decide)
  -- a timestamp would need an offset
  have htimestamp : Timestamp.read? (d.chars ++ mark.char :: c.chars) = none := by
    have happend := Timestamp.read?_append d mark c ends_nil (by simp)
    rwa [List.append_nil] at happend
  have hmail := d.readMail?_eq_none (mark.char :: c.chars)
  have hday := PlainDate.readDay?_mark d mark c.chars
  cases mark with
  | letter =>
    have hread : PlainDate.readMarked? (d.chars ++ 'T' :: c.chars) =
        (dayTime d .letter c).instant? := by
      have happend := PlainDate.readMarked?_letter d c ends_nil (by simp)
      rwa [List.append_nil, hcivil] at happend
    constructor
    · simp only [writtenForms, List.forall_mem_cons]
      exact ⟨.inl htimestamp, .inl hmail, .inl hday, .inr hread,
        .inl (PlainDate.readSpaced?_letter d _), List.forall_mem_nil _⟩
    · exact ⟨PlainDate.readMarked?, List.mem_of_getElem? (i := 3) rfl, hread⟩
  | space =>
    have hread : PlainDate.readSpaced? (d.chars ++ ' ' :: c.chars) =
        (dayTime d .space c).instant? := by
      rw [PlainDate.readSpaced?_space, hcivil]
    constructor
    · simp only [writtenForms, List.forall_mem_cons]
      exact ⟨.inl htimestamp, .inl hmail, .inl hday, .inl (PlainDate.readMarked?_space d _),
        .inr hread, List.forall_mem_nil _⟩
    · exact ⟨PlainDate.readSpaced?, List.mem_of_getElem? (i := 4) rfl, hread⟩

/-- A written timestamp is read by the first reader. -/
theorem readAs_timestamp (d : WrittenDay) (c : WrittenClock) (z : WrittenZone) :
    ReadAs (timestamp d c z).chars (timestamp d c z).instant? := by
  obtain ⟨mark, rest, hzone, hdigit, hpoint⟩ := z.exists_cons
  have hends : Ends Char.isDigit z.chars := hzone ▸ ends_cons.mpr hdigit
  have hhead : z.chars.head? ≠ some '.' := by simpa [hzone] using hpoint
  have hsome : z.chars.isEmpty = false := hzone ▸ rfl
  have hread : Timestamp.read? (d.chars ++ 'T' :: (c.chars ++ z.chars)) =
      (timestamp d c z).instant? := by
    have happend := Timestamp.read?_append d .letter c hends hhead
    rw [Timestamp.offset?_zone] at happend
    -- an offset that exists is less than a day, so the instant stays among those there are
    by_cases hz : z.Exists
    · rw [if_pos hz] at happend
      refine happend.trans ((ofCivil?_toClock d c (WrittenZone.seconds_bounds hz)).trans ?_)
      exact if_congr (and_congr_right fun _ => (and_iff_left hz).symm) rfl rfl
    · rw [if_neg hz] at happend
      exact happend.trans (if_neg fun h => hz h.2.2).symm
  -- the same day and time are read without the offset, which is left over
  have hmarked : PlainDate.readMarked? (d.chars ++ 'T' :: (c.chars ++ z.chars)) = none := by
    rw [PlainDate.readMarked?_letter d c hends hhead, hsome]
    rfl
  constructor
  · simp only [writtenForms, List.forall_mem_cons]
    exact ⟨.inr hread, .inl (d.readMail?_eq_none _), .inl (PlainDate.readDay?_mark d .letter _),
      .inl hmarked, .inl (PlainDate.readSpaced?_letter d _), List.forall_mem_nil _⟩
  · exact ⟨Timestamp.read?, List.mem_of_getElem? (i := 0) rfl, hread⟩

/-- **A written date is read as what it says**, in whichever form. -/
theorem readAs (w : WrittenDate) : ReadAs w.chars w.instant? := by
  cases w with
  | day d => exact readAs_day d
  | dayTime d mark c => exact readAs_dayTime d mark c
  | timestamp d c z => exact readAs_timestamp d c z

end WrittenDate

/-! ## White space around a date -/

/-- A text does not end in white space if it ends in digits. -/
theorem ends_reverse_append {ds : List Char} (hds : ∀ c ∈ ds, c.isDigit = true) (hne : ds ≠ [])
    (cs : List Char) : Ends isBlank (cs ++ ds).reverse := by
  have hend : Ends isBlank ds.reverse := fun c hc =>
    isBlank_of_isDigit (hds c (List.mem_reverse.mp (List.mem_of_mem_head? hc)))
  rw [List.reverse_append]
  exact hend.append (List.reverse_ne_nil_iff.mpr hne) _

theorem Digits.ends_reverse {width : Nat} (d : Digits (width + 1)) (cs : List Char) :
    Ends isBlank (cs ++ d.chars).reverse := by
  obtain ⟨c, rest, hchars, -⟩ := d.exists_cons
  exact ends_reverse_append d.isDigit (by simp [hchars]) cs

theorem WrittenDay.ends_reverse (d : WrittenDay) : Ends isBlank d.chars.reverse := by
  have hday := d.day.ends_reverse (d.year.chars ++ '-' :: (d.month.chars ++ ['-']))
  simpa [chars] using hday

/-- A written time of day ends in a digit of the second or of the fraction. -/
theorem WrittenClock.ends_reverse (c : WrittenClock) (cs : List Char) :
    Ends isBlank (cs ++ c.chars).reverse := by
  obtain ⟨hour, minute, second, fraction⟩ := c
  have htoSecond := second.ends_reverse (cs ++ hour.chars ++ ':' :: (minute.chars ++ [':']))
  cases fraction with
  | none => simpa [chars, fractionChars] using htoSecond
  | some f =>
    have hfraction := ends_reverse_append f.isDigit f.ne_nil
      (cs ++ hour.chars ++ ':' :: (minute.chars ++ ':' :: (second.chars ++ ['.'])))
    simpa [chars, fractionChars] using hfraction

/-- An offset ends in a letter or in a digit of the minutes. -/
theorem WrittenZone.ends_reverse (z : WrittenZone) (cs : List Char) :
    Ends isBlank (cs ++ z.chars).reverse := by
  cases z with
  | utc => simp [chars, isBlank]
  | offset sign hours minutes =>
    have hminutes := minutes.ends_reverse (cs ++ sign.char :: (hours.chars ++ [':']))
    simpa [chars] using hminutes

namespace WrittenDate

/-- So a written date does not end in white space. -/
theorem ends_reverse (w : WrittenDate) : Ends isBlank w.chars.reverse := by
  cases w with
  | day d => exact d.ends_reverse
  | dayTime d mark c =>
    have hclock := c.ends_reverse (d.chars ++ [mark.char])
    simpa [chars] using hclock
  | timestamp d c z =>
    have hzone := z.ends_reverse (d.chars ++ 'T' :: c.chars)
    simpa [chars] using hzone

/-- **White space around a written date is all that is trimmed.** -/
theorem trim_chars (w : WrittenDate) {before after : List Char}
    (hbefore : ∀ c ∈ before, isBlank c = true) (hafter : ∀ c ∈ after, isBlank c = true) :
    trim (before ++ w.chars ++ after) = w.chars := by
  -- every form begins with the digits of a year
  obtain ⟨c, rest, hchars, hc⟩ : ∃ c rest, w.chars = c :: rest ∧ c.isDigit = true := by
    cases w with
    | day d | dayTime d _ _ | timestamp d _ _ =>
      obtain ⟨c, rest, hyear, hc⟩ := d.year.exists_cons
      simp [chars, WrittenDay.chars, hyear, hc]
  refine trim_append hbefore hafter ?_ ?_ w.ends_reverse
  · rw [hchars]
    exact List.cons_ne_nil _ _
  · rw [hchars]
    exact ends_cons.mpr (isBlank_of_isDigit hc)

/-- What a written date is made of exists with it, and its offset is one of whole minutes. -/
theorem exists_parts {w : WrittenDate} (h : w.Exists) :
    w.civilDay.Exists ∧ w.civilClock.Exists ∧ w.offset % 60 = 0 := by
  cases w with
  | day d => exact ⟨h, show Clock.midnight.Exists by decide, rfl⟩
  | dayTime d mark c => exact ⟨h.1, c.exists_toClock_iff.mpr h.2, rfl⟩
  | timestamp d c z => exact ⟨h.1, c.exists_toClock_iff.mpr h.2.1, z.seconds_emod⟩

/-- **A written date is accepted exactly if it exists, and its instant is the one at which a clock at
the written offset shows the written day and time of day.** White space may stand around it. -/
theorem ofText?_eq (w : WrittenDate) {before after : List Char}
    (hbefore : ∀ c ∈ before, isBlank c = true) (hafter : ∀ c ∈ after, isBlank c = true) :
    Instant.ofText? (String.ofList (before ++ w.chars ++ after)) =
        (if w.Exists then some w.instant else none) ∧
      (w.Exists → w.instant.Proper ∧ (w.instant.shift w.offset).day = w.civilDay ∧
        (w.instant.shift w.offset).clock = w.civilClock) := by
  constructor
  · have hread := (readAs w).findSome?_eq
    rwa [← w.trim_chars hbefore hafter,
      ← String.toList_ofList (l := before ++ w.chars ++ after)] at hread
  · intro hw
    obtain ⟨hday, hclock, hoffset⟩ := exists_parts hw
    -- the instant is a proper one by how it is put together
    exact ⟨(ProperInstant.civil _ hclock _ hoffset).proper, Instant.day_shift_civil hday hclock _,
      Instant.clock_shift_civil hclock _⟩

/-- The last second of 2016 was a leap second. Clocks five and a half hours ahead showed it in the new
year. -/
def newYearLeap : WrittenDate :=
  .timestamp
    ⟨⟨"2017".toList, rfl, List.all_eq_true.mp rfl⟩, ⟨"01".toList, rfl, List.all_eq_true.mp rfl⟩,
      ⟨"01".toList, rfl, List.all_eq_true.mp rfl⟩⟩
    ⟨⟨"05".toList, rfl, List.all_eq_true.mp rfl⟩, ⟨"29".toList, rfl, List.all_eq_true.mp rfl⟩,
      ⟨"60".toList, rfl, List.all_eq_true.mp rfl⟩,
      some ⟨"1234567899".toList, List.all_eq_true.mp rfl, by decide⟩⟩
    (.offset .plus ⟨"05".toList, rfl, List.all_eq_true.mp rfl⟩
      ⟨"30".toList, rfl, List.all_eq_true.mp rfl⟩)

theorem ofText?_eq_newYearLeap :
    newYearLeap.Exists ∧
      Instant.ofText? "\t2017-01-01T05:29:60.1234567899+05:30 " = some newYearLeap.instant ∧
      newYearLeap.instant = ⟨1483228799, 1123456789⟩ ∧
      newYearLeap.instant.Proper ∧
      newYearLeap.instant.day = ⟨2016, 12, 31⟩ ∧
      newYearLeap.instant.clock = ⟨23, 59, 60, 123456789⟩ := by
  have hexists : newYearLeap.Exists := by decide
  have htab : ∀ c ∈ ['\t'], isBlank c = true := List.forall_mem_singleton.mpr rfl
  have hspace : ∀ c ∈ [' '], isBlank c = true := List.forall_mem_singleton.mpr rfl
  obtain ⟨hread, hcivil⟩ := ofText?_eq newYearLeap htab hspace
  rw [if_pos hexists] at hread
  exact ⟨hexists, hread, by decide, (hcivil hexists).1, by decide, by decide⟩

end WrittenDate

end

end RecordGuard
