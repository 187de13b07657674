import RecordGuard.Diagnostics.Diagnostic
import RecordGuard.Proofs.Calendar.Timestamp
import RecordGuard.Proofs.Number.Text
import RecordGuard.Proofs.Text.Quoted
import RecordGuard.Proofs.Value.Parts

/-!
# The text of a value determines it

Two values with the same text are the same value: the same kinds, strings, keys, dates and numbers, at
the same places and in the same order. Only the NaNs cannot be told apart.

## How the text comes apart

The first character of a text says of what kind the value is. Strings and keys are quoted and end with
their closing quote (`quoteChars_append_inj`). Everything else that is not an array or an object is a
bare word, which has no comma and no closing bracket or brace in it; and one of these is what follows a
value inside another, if anything does. So reading from the left there is one way only to take a text
apart, and the induction is on the value.

* **`Value.oneNaN`** — the value with one NaN for all of them.
* **`Value.kindShown`**, **`Value.exists_head_chars`** — the kind that a first character shows.
* **`Value.chars_append_inj`** — texts of values with something behind them.
* **`Value.text_ne_withheld`** — no text is the placeholder of a value that is withheld.
* **`Value.text_eq_iff`** — the headline.
-/

namespace RecordGuard

namespace Value

/-! ## One NaN -/

mutual

/-- The value with each NaN inside replaced by one and the same. -/
def oneNaN : Value → Value
  | number n => number n.oneNaN
  | array items => array (itemsOneNaN items)
  | object fields => object (fieldsOneNaN fields)
  | v => v

def itemsOneNaN : List Value → List Value
  | [] => []
  | v :: rest => v.oneNaN :: itemsOneNaN rest

def fieldsOneNaN : List (String × Value) → List (String × Value)
  | [] => []
  | (key, v) :: rest => (key, v.oneNaN) :: fieldsOneNaN rest

end

mutual

/-- One NaN for all of them does not show. -/
theorem chars_oneNaN : ∀ v : Value, v.oneNaN.chars = v.chars
  | undefined | null | bool _ | string _ | date _ => rfl
  | number n => n.chars_oneNaN
  | array [] => rfl
  | array (v :: rest) => by
    show '[' :: v.oneNaN.chars ++ itemsChars (itemsOneNaN rest) = '[' :: v.chars ++ itemsChars rest
    rw [chars_oneNaN v, itemsChars_oneNaN rest]
  | object [] => rfl
  | object ((key, v) :: rest) => by
    show '\x7b' :: quoteChars key.toList ++ ':' :: ' ' :: v.oneNaN.chars ++
        fieldsChars (fieldsOneNaN rest) =
      '\x7b' :: quoteChars key.toList ++ ':' :: ' ' :: v.chars ++ fieldsChars rest
    rw [chars_oneNaN v, fieldsChars_oneNaN rest]

/-- Nor in the elements of an array. -/
theorem itemsChars_oneNaN : ∀ items : List Value, itemsChars (itemsOneNaN items) = itemsChars items
  | [] => rfl
  | v :: rest => by
    show ',' :: ' ' :: v.oneNaN.chars ++ itemsChars (itemsOneNaN rest) =
      ',' :: ' ' :: v.chars ++ itemsChars rest
    rw [chars_oneNaN v, itemsChars_oneNaN rest]

/-- Nor under the keys of an object. -/
theorem fieldsChars_oneNaN :
    ∀ fields : List (String × Value), fieldsChars (fieldsOneNaN fields) = fieldsChars fields
  | [] => rfl
  | (key, v) :: rest => by
    show ',' :: ' ' :: quoteChars key.toList ++ ':' :: ' ' :: v.oneNaN.chars ++
        fieldsChars (fieldsOneNaN rest) =
      ',' :: ' ' :: quoteChars key.toList ++ ':' :: ' ' :: v.chars ++ fieldsChars rest
    rw [chars_oneNaN v, fieldsChars_oneNaN rest]

end

/-- A value without a NaN stays what it is. -/
theorem oneNaN_of_nanFree {v : Value} (h : v.NaNFree) : v.oneNaN = v := by
  induction v using Value.induction with
  | undefined | null | bool | string | date => rfl
  | number n =>
    rw [nanFree_number] at h
    rw [oneNaN, Number.oneNaN, h]
    rfl
  | array items ih =>
    rw [nanFree_array] at h
    have hitems : itemsOneNaN items = items := by
      induction items with
      | nil => rfl
      | cons v rest ihrest =>
        simp only [List.forall_mem_cons] at h ih
        rw [itemsOneNaN, ih.1 h.1, ihrest ih.2 h.2]
    rw [oneNaN, hitems]
  | object fields ih =>
    rw [nanFree_object] at h
    have hfields : fieldsOneNaN fields = fields := by
      induction fields with
      | nil => rfl
      | cons e rest ihrest =>
        simp only [List.forall_mem_cons] at h ih
        rw [fieldsOneNaN, ih.1 h.1, ihrest ih.2 h.2]
    rw [oneNaN, hfields]

/-! ## Dates -/

/-- If the value is a date, the instant that it denotes is a proper one. -/
def DateProper (v : Value) : Prop := ∀ i ∈ v.instant?, i.Proper

instance (v : Value) : Decidable v.DateProper :=
  inferInstanceAs (Decidable (∀ i ∈ v.instant?, i.Proper))

end Value

/-- A value in which every date denotes a proper instant, or none. -/
abbrev DatedValue := Throughout Value.DateProper

/-- A date, made of a proper instant or of none. -/
def DatedValue.date (instant : Option ProperInstant) : DatedValue where
  value := .date (instant.map ProperInstant.toInstant)
  everywhere := by
    rintro w hw i hi
    cases List.mem_singleton.mp hw
    obtain ⟨p, -, rfl⟩ := Option.map_eq_some_iff.mp hi
    exact p.proper

/-- A date in such a value is made of one. -/
theorem DatedValue.exists_of_date {instant : Option Instant}
    (h : (Value.date instant).Everywhere Value.DateProper) :
    ∃ p : Option ProperInstant, instant = p.map ProperInstant.toInstant := by
  cases instant with
  | none => exact ⟨none, rfl⟩
  | some i => exact ⟨some ⟨i, h _ (List.mem_singleton_self _) i rfl⟩, rfl⟩

namespace Value

/-! ## First characters -/

/-- The kind of the values whose text starts with the character. -/
def kindShown (c : Char) : String :=
  if c.isDigit || ['-', 'i', 'N'].contains c then "number"
  else match c with
    | 'u' => "undefined"
    | 'n' => "null"
    | 't' | 'f' => "boolean"
    | '"' => "string"
    | 'D' => "date"
    | '[' => "array"
    | '\x7b' => "object"
    | _ => ""

/-- **The first character of a text shows the kind of the value.** -/
theorem exists_head_chars (v : Value) :
    ∃ c, v.chars.head? = some c ∧ kindShown c = v.kindName := by
  match v with
  | undefined => exact ⟨'u', rfl, rfl⟩
  | null => exact ⟨'n', rfl, rfl⟩
  | bool true => exact ⟨'t', rfl, rfl⟩
  | bool false => exact ⟨'f', rfl, rfl⟩
  | number n =>
    obtain ⟨c, hc, hnumber⟩ := n.exists_head_chars
    exact ⟨c, hc, if_pos (by simpa using hnumber)⟩
  | string s => exact ⟨'"', rfl, rfl⟩
  | date (some i) => exact ⟨'D', rfl, rfl⟩
  | date none => exact ⟨'D', rfl, rfl⟩
  | array [] | array (_ :: _) => exact ⟨'[', rfl, rfl⟩
  | object [] | object (_ :: _) => exact ⟨'\x7b', rfl, rfl⟩

theorem kindName_ne_empty (v : Value) : v.kindName ≠ "" := by
  cases v <;> simp [kindName]

/-- A text starts with no character that shows no kind. -/
theorem chars_append_ne {c : Char} (h : kindShown c = "") (v : Value) (x y : List Char) :
    v.chars ++ x ≠ c :: y := by
  intro heq
  obtain ⟨d, hd, hkind⟩ := v.exists_head_chars
  have hhead := congrArg List.head? heq
  rw [List.head?_append, hd] at hhead
  cases hhead
  exact v.kindName_ne_empty (hkind.symm.trans h)

/-- Texts that start alike show values of one kind. -/
theorem kindName_eq_of_chars_append_eq {v w : Value} {x y : List Char}
    (h : v.chars ++ x = w.chars ++ y) : v.kindName = w.kindName := by
  obtain ⟨c, hc, hv⟩ := v.exists_head_chars
  obtain ⟨d, hd, hw⟩ := w.exists_head_chars
  have hhead := congrArg List.head? h
  rw [List.head?_append, hc, List.head?_append, hd] at hhead
  cases hhead
  exact hv.symm.trans hw

/-! ## Bare words -/

/-- Neither a comma nor a closing bracket or brace. -/
def isBare (c : Char) : Bool := !([',', ']', '\x7d'].contains c)

/-- Digits are bare. -/
theorem isBare_of_isDigit {c : Char} (h : c.isDigit = true) : isBare c = true := by
  rw [isBare, Bool.not_eq_true', List.contains_eq_mem, decide_eq_false_iff_not]
  intro hmem
  have hnone : ∀ c ∈ [',', ']', '\x7d'], (!c.isDigit) = true := List.all_eq_true.mp rfl
  have hnot := hnone c hmem
  rw [h] at hnot
  cases hnot

/-- A number is written with digits and a few letters and marks, none of which ends a bare word. -/
theorem isBare_of_mem_number {n : Number} : ∀ c ∈ n.chars, isBare c = true := by
  intro c hc
  have hletters : ∀ c ∈ ['-', '.', 'i', 'n', 'f', 'N', 'a'], isBare c = true :=
    List.all_eq_true.mp rfl
  exact (Number.mem_chars hc).elim isBare_of_isDigit (hletters c)

/-- So is a date: its round brackets are not those that close an array or an object. -/
theorem isBare_of_mem_date {i : Option Instant} : ∀ c ∈ (date i).chars, isBare c = true := by
  have hopening : ∀ c ∈ "Date(".toList, isBare c = true := List.all_eq_true.mp rfl
  have hmarks : ∀ c ∈ ['-', '+', 'T', ':', '.'], isBare c = true := List.all_eq_true.mp rfl
  cases i with
  | none =>
    show ∀ c ∈ "Date(Invalid Date)".toList, isBare c = true
    exact List.all_eq_true.mp rfl
  | some i =>
    show ∀ c ∈ "Date(".toList ++ Timestamp.chars i ++ [')'], isBare c = true
    rw [List.forall_mem_append, List.forall_mem_append]
    exact ⟨⟨hopening, fun c hc => (Timestamp.mem_chars hc).elim isBare_of_isDigit (hmarks c)⟩,
      List.forall_mem_singleton.mpr rfl⟩

/-- The text of a date determines the instant, if it is a proper one. -/
theorem date_eq_of_chars_eq {i j : Option ProperInstant}
    (h : (DatedValue.date i).value.chars = (DatedValue.date j).value.chars) : i = j := by
  -- a timestamp has no letter that the word for no instant has
  have hnone : ∀ {i : Instant}, "Date(".toList ++ Timestamp.chars i ++ [')'] ≠
      "Date(Invalid Date)".toList := by
    intro i h
    have hI : 'I' ∈ "Date(".toList ++ Timestamp.chars i ++ [')'] := by
      rw [h]
      decide
    rw [List.mem_append, List.mem_append] at hI
    rcases hI with (hI | hI) | hI
    · exact absurd hI (by decide)
    · exact absurd (Timestamp.mem_chars hI) (by decide)
    · exact absurd hI (by decide)
  match i, j with
  | none, none => rfl
  | none, some j => exact absurd h.symm hnone
  | some i, none => exact absurd h hnone
  | some i, some j =>
    have hstamps : "Date(".toList ++ Timestamp.chars i.toInstant ++ [')'] =
        "Date(".toList ++ Timestamp.chars j.toInstant ++ [')'] := h
    have hstamps := List.append_cancel_left (List.append_cancel_right hstamps)
    rw [Timestamp.chars_inj hstamps]

/-! ## Values inside others -/

theorem ends_itemsChars (items : List Value) (x : List Char) : Ends isBare (itemsChars items ++ x) := by
  cases items <;> exact ends_cons.mpr (by decide)

theorem ends_fieldsChars (fields : List (String × Value)) (x : List Char) :
    Ends isBare (fieldsChars fields ++ x) := by
  match fields with
  | [] | (_, _) :: _ => exact ends_cons.mpr (by decide)

/-- The text of the value is told apart from whatever may follow it. -/
def Separates (v : DatedValue) : Prop :=
  ∀ ⦃w : DatedValue⦄ ⦃x y : List Char⦄, Ends isBare x → Ends isBare y →
    v.value.chars ++ x = w.value.chars ++ y → v.value.oneNaN = w.value.oneNaN ∧ x = y

/-- The elements behind the first one, up to the bracket that closes the array. -/
theorem itemsChars_append_inj {items others : List DatedValue} {x y : List Char}
    (hseparates : ∀ v ∈ items, Separates v)
    (h : itemsChars (items.map Throughout.value) ++ x =
      itemsChars (others.map Throughout.value) ++ y) :
    itemsOneNaN (items.map Throughout.value) = itemsOneNaN (others.map Throughout.value) ∧
      x = y := by
  induction items generalizing others with
  | nil =>
    cases others with
    | nil => exact ⟨rfl, List.tail_eq_of_cons_eq h⟩
    | cons w others => exact absurd (List.head_eq_of_cons_eq h) (by decide)
  | cons v items ih =>
    cases others with
    | nil => exact absurd (List.head_eq_of_cons_eq h) (by decide)
    | cons w others =>
      rw [List.forall_mem_cons] at hseparates
      simp only [List.map_cons, itemsChars, List.cons_append, List.append_assoc, List.cons.injEq,
        true_and] at h ⊢
      obtain ⟨hv, h⟩ := hseparates.1 (ends_itemsChars _ _) (ends_itemsChars _ _) h
      obtain ⟨hrest, h⟩ := ih hseparates.2 h
      exact ⟨by rw [itemsOneNaN, itemsOneNaN, hv, hrest], h⟩

/-- The fields behind the first one, up to the brace that closes the object. -/
theorem fieldsChars_append_inj {fields others : Fields DatedValue} {x y : List Char}
    (hseparates : ∀ e ∈ fields, Separates e.2)
    (h : fieldsChars (fields.map (Prod.map id Throughout.value)) ++ x =
      fieldsChars (others.map (Prod.map id Throughout.value)) ++ y) :
    fieldsOneNaN (fields.map (Prod.map id Throughout.value)) =
      fieldsOneNaN (others.map (Prod.map id Throughout.value)) ∧ x = y := by
  induction fields generalizing others with
  | nil =>
    match others with
    | [] => exact ⟨rfl, List.tail_eq_of_cons_eq h⟩
    | (_, _) :: _ => exact absurd (List.head_eq_of_cons_eq h) (by decide)
  | cons e fields ih =>
    obtain ⟨key, v⟩ := e
    match others with
    | [] => exact absurd (List.head_eq_of_cons_eq h) (by decide)
    | (other, w) :: others =>
      rw [List.forall_mem_cons] at hseparates
      simp only [List.map_cons, Prod.map_apply, id_eq, fieldsChars, List.cons_append,
        List.append_assoc, List.cons.injEq, true_and] at h ⊢
      -- first the key up to its quote, then the value, then what is behind
      obtain ⟨hkey, h⟩ := quoteChars_append_inj h
      simp only [List.cons.injEq, true_and] at h
      obtain ⟨hv, h⟩ := hseparates.1 (ends_fieldsChars _ _) (ends_fieldsChars _ _) h
      obtain ⟨hrest, h⟩ := ih hseparates.2 h
      exact ⟨by rw [fieldsOneNaN, fieldsOneNaN, String.toList_inj.mp hkey, hv, hrest], h⟩

/-- The text of an array with elements, from the left: the bracket, the first element, the others. -/
theorem chars_array_cons (v : Value) (rest : List Value) (x : List Char) :
    (array (v :: rest)).chars ++ x = '[' :: (v.chars ++ (itemsChars rest ++ x)) := by
  show '[' :: v.chars ++ itemsChars rest ++ x = _
  simp only [List.cons_append, List.append_assoc]

/-- The text of an object with fields, from the left: the brace, the first key and its value, the
others. -/
theorem chars_object_cons (key : String) (v : Value) (rest : List (String × Value)) (x : List Char) :
    (object ((key, v) :: rest)).chars ++ x =
      '\x7b' :: (quoteChars key.toList ++ ':' :: ' ' :: (v.chars ++ (fieldsChars rest ++ x))) := by
  show '\x7b' :: quoteChars key.toList ++ ':' :: ' ' :: v.chars ++ fieldsChars rest ++ x = _
  simp only [List.cons_append, List.append_assoc]

/-- Two arrays with the same text: both are empty, or both have a first element, which is told apart. -/
theorem separates_array {items : List DatedValue} (h) (ih : ∀ v ∈ items, Separates v) :
    Separates ⟨array (items.map Throughout.value), h⟩ := by
  intro w x y hx hy h
  obtain ⟨w, hw⟩ := w
  have hkind := kindName_eq_of_chars_append_eq h
  cases w with
  | array others =>
    -- what has the same text is an array too, of values with proper dates
    lift others to List DatedValue using (everywhere_array.mp hw).2
    dsimp only at h ⊢
    match items, others with
    | [], [] => exact ⟨rfl, List.append_cancel_left h⟩
    | [], w :: others =>
      rw [List.map_cons, chars_array_cons] at h
      exact absurd (List.tail_eq_of_cons_eq h).symm (chars_append_ne rfl _ _ _)
    | v :: items, [] =>
      rw [List.map_cons, chars_array_cons] at h
      exact absurd (List.tail_eq_of_cons_eq h) (chars_append_ne rfl _ _ _)
    | v :: items, w :: others =>
      rw [List.forall_mem_cons] at ih
      rw [List.map_cons, List.map_cons, chars_array_cons, chars_array_cons] at h
      obtain ⟨hv, h⟩ := ih.1 (ends_itemsChars _ _) (ends_itemsChars _ _)
        (List.tail_eq_of_cons_eq h)
      obtain ⟨hrest, h⟩ := itemsChars_append_inj ih.2 h
      refine ⟨?_, h⟩
      simp only [List.map_cons, oneNaN, itemsOneNaN, hv, hrest]
  | _ => exact absurd hkind (by simp [kindName])

/-- Two objects with the same text: both are empty, or both have a first field, of which the key ends
with its closing quote and the value is told apart. -/
theorem separates_object {fields : Fields DatedValue} (h) (ih : ∀ e ∈ fields, Separates e.2) :
    Separates ⟨object (fields.map (Prod.map id Throughout.value)), h⟩ := by
  intro w x y hx hy h
  obtain ⟨w, hw⟩ := w
  have hkind := kindName_eq_of_chars_append_eq h
  cases w with
  | object others =>
    lift others to Fields DatedValue using (everywhere_object.mp hw).2
    dsimp only at h ⊢
    match fields, others with
    | [], [] => exact ⟨rfl, List.append_cancel_left h⟩
    | [], (_, _) :: _ =>
      rw [List.map_cons, Prod.map_apply, chars_object_cons] at h
      exact absurd (List.head_eq_of_cons_eq (List.tail_eq_of_cons_eq h)) (by decide)
    | (_, _) :: _, [] =>
      rw [List.map_cons, Prod.map_apply, chars_object_cons] at h
      exact absurd (List.head_eq_of_cons_eq (List.tail_eq_of_cons_eq h)) (by decide)
    | (key, v) :: fields, (other, w) :: others =>
      rw [List.forall_mem_cons] at ih
      simp only [List.map_cons, Prod.map_apply, id_eq] at h ⊢
      rw [chars_object_cons, chars_object_cons] at h
      obtain ⟨hkey, h⟩ := quoteChars_append_inj (List.tail_eq_of_cons_eq h)
      obtain ⟨hv, h⟩ := ih.1 (ends_fieldsChars _ _) (ends_fieldsChars _ _)
        (List.tail_eq_of_cons_eq (List.tail_eq_of_cons_eq h))
      obtain ⟨hrest, h⟩ := fieldsChars_append_inj ih.2 h
      refine ⟨?_, h⟩
      simp only [oneNaN, fieldsOneNaN, String.toList_inj.mp hkey, hv, hrest]
  | _ => exact absurd hkind (by simp [kindName])

/-- **Every value's text is told apart from what may follow it**, by induction on the value. In each case
the first character gives the kind of the other value away. -/
theorem chars_append_inj (v : DatedValue) : Separates v := by
  induction v using Throughout.induction with
  | undefined =>
    rintro ⟨w, hw⟩ x y _ _ h
    have hkind := kindName_eq_of_chars_append_eq h
    cases w with
    | undefined => exact ⟨rfl, List.append_cancel_left h⟩
    | _ => exact absurd hkind (by simp [kindName])
  | null =>
    rintro ⟨w, hw⟩ x y _ _ h
    have hkind := kindName_eq_of_chars_append_eq h
    cases w with
    | null => exact ⟨rfl, List.append_cancel_left h⟩
    | _ => exact absurd hkind (by simp [kindName])
  | bool b =>
    rintro ⟨w, hw⟩ x y _ _ h
    have hkind := kindName_eq_of_chars_append_eq h
    cases w with
    | bool c =>
      cases b <;> cases c
      · exact ⟨rfl, List.append_cancel_left h⟩
      · exact absurd (List.head_eq_of_cons_eq h) (by decide)
      · exact absurd (List.head_eq_of_cons_eq h) (by decide)
      · exact ⟨rfl, List.append_cancel_left h⟩
    | _ => exact absurd hkind (by simp [kindName])
  | number m =>
    rintro ⟨w, hw⟩ x y hx hy h
    have hkind := kindName_eq_of_chars_append_eq h
    cases w with
    | number n =>
      -- a bare word ends where the rest of the text begins
      obtain ⟨hchars, hrest⟩ := append_inj_of_ends isBare_of_mem_number isBare_of_mem_number hx hy h
      exact ⟨congrArg number (Number.chars_eq_iff.mp hchars), hrest⟩
    | _ => exact absurd hkind (by simp [kindName])
  | string s =>
    rintro ⟨w, hw⟩ x y _ _ h
    have hkind := kindName_eq_of_chars_append_eq h
    cases w with
    | string t =>
      obtain ⟨hchars, hrest⟩ := quoteChars_append_inj h
      exact ⟨congrArg string (String.toList_inj.mp hchars), hrest⟩
    | _ => exact absurd hkind (by simp [kindName])
  | date i hi =>
    rintro ⟨w, hw⟩ x y hx hy h
    have hkind := kindName_eq_of_chars_append_eq h
    cases w with
    | date j =>
      obtain ⟨i, rfl⟩ := DatedValue.exists_of_date hi
      obtain ⟨j, rfl⟩ := DatedValue.exists_of_date hw
      obtain ⟨hchars, hrest⟩ := append_inj_of_ends isBare_of_mem_date isBare_of_mem_date hx hy h
      cases date_eq_of_chars_eq hchars
      exact ⟨rfl, hrest⟩
    | _ => exact absurd hkind (by simp [kindName])
  | array items h ih =>
    lift items to List DatedValue using (everywhere_array.mp h).2
    exact separates_array h fun v hv => ih v.value (List.mem_map_of_mem hv)
  | object fields h ih =>
    lift fields to Fields DatedValue using (everywhere_object.mp h).2
    exact separates_object h fun e he => ih _ (List.mem_map_of_mem he)

/-! ## The placeholder -/

/-- What stands for a value that is withheld is the text of no value. -/
theorem text_ne_withheld (v : Value) : v.text ≠ withheld := by
  intro h
  have hchars : v.chars = '[' :: "REDACTED]".toList := by
    rw [← String.toList_ofList (l := v.chars)]
    exact congrArg String.toList h
  obtain ⟨c, hc, hkind⟩ := v.exists_head_chars
  rw [hchars] at hc
  cases hc
  -- the bracket shows an array, and no text of an element starts as the word behind the bracket does
  cases v with
  | array items =>
    match items with
    | [] => exact absurd hchars (by decide)
    | v :: rest =>
      rw [← List.append_nil (chars _), chars_array_cons] at hchars
      exact chars_append_ne rfl _ _ _ (List.tail_eq_of_cons_eq hchars)
  | _ => exact absurd hkind (by simp [kindShown, kindName])

/-! ## The headline -/

theorem text_eq_iff_chars_eq {v w : Value} : v.text = w.text ↔ v.chars = w.chars := by
  rw [text, text, String.ofList_inj]

/-- **The text of a value identifies it.** Two values have the same text exactly if they are the same
value, one NaN taken for all of them: the same kinds, strings, dates and numbers with the same bits, and
the same keys in the same order, at every depth.

The dates in both values denote proper instants, or none: a leap second in them is the last second of its
minute. Nanoseconds that run over anywhere else would only spell the next second in another way, and its
text would be that of this second. -/
theorem text_eq_iff (v w : DatedValue) :
    v.value.text = w.value.text ↔ v.value.oneNaN = w.value.oneNaN := by
  rw [text_eq_iff_chars_eq]
  refine ⟨fun h => ?_, fun h => by rw [← chars_oneNaN, h, chars_oneNaN]⟩
  exact (chars_append_inj v ends_nil ends_nil (congrArg (· ++ []) h)).1

/-- Two NaNs inside two otherwise equal values do not show; the signs of two zeros do. -/
theorem text_eq_iff_nested :
    let leap : Value := date (some ⟨1483228799, 1500000000⟩)
    let v (n : Number) : Value := object [("at", leap), ("n", array [number n, null, string "null"])]
    let quiet : Number := Number.nan
    let signalling : Number := ⟨0x7ff0000000000001⟩
    quiet ≠ signalling ∧ (v quiet).text = (v signalling).text ∧
      (v (.zero false)).text ≠ (v (.zero true)).text := by
  intro leap v quiet signalling
  have hsame := text_eq_iff ⟨v quiet, by decide⟩ ⟨v signalling, by decide⟩
  refine ⟨by decide, hsame.mpr rfl, fun h => ?_⟩
  have hzeros := (text_eq_iff ⟨v (.zero false), by decide⟩ ⟨v (.zero true), by decide⟩).mp h
  simp only [v, oneNaN, fieldsOneNaN, itemsOneNaN, object.injEq, array.injEq, number.injEq,
    List.cons.injEq, Prod.mk.injEq] at hzeros
  exact absurd hzeros.2.1.2.1 (by decide)

end Value

end RecordGuard
