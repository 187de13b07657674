import RecordGuard.Guard.Basic
import RecordGuard.Proofs.Guard.Containment
import RecordGuard.Proofs.Value.Equality

/-!
# Sentinels

A guard that accepts absent values stands around another one, and more of them may stand around it.
On a value that one of them takes for absent the guard inside is not run; on every other value they
only pass the question on and the answer back.

## The architecture

* **`Value.isAbsent_iff`**, **`Value.nanFree_of_equal`** — the values that sentinels stand for: those
  that equal one of them, which a value with a NaN in it never does.
* **`Guard.nullables`**, **`Guard.wrapperLabels`**, **`passedOn`** — a chain of such guards, what they
  are called, and the steps of passing a value on.
* **`Guard.run_nullable`**, **`Guard.history_nullable`** — one guard of the chain.
* **`Guard.run_nullables`**, **`Guard.history_nullables`** — the chain.
* **`Guard.verdict_nullables`** — the headline.
-/

namespace RecordGuard

/-! ## What sentinels stand for -/

namespace Value

/-- A value is absent if it equals a sentinel. The comparison is the sentinel's with the value. -/
theorem isAbsent_iff {v : Value} {nominated : List Value} :
    v.isAbsent nominated = true ↔ ∃ m ∈ effectiveSentinels nominated, m.equal v = true :=
  List.any_eq_true

/-- A value that equals another is free of NaN, since it equals itself then. -/
theorem nanFree_of_equal (m v : ProperValue) (h : m.value.equal v.value = true) :
    v.value.NaNFree :=
  (equal_self_iff v).mp (equal_trans (equal_symm m h) h)

end Value

namespace Guard

/-! ## Chains -/

/-- `g.nullable(s₁)…nullable(sₙ)`, for the lists of sentinels in this order. -/
def nullables (g : Guard) (chain : List (List Value)) : Guard := chain.foldl nullable g

/-- The sentinels of all guards in a chain. -/
def chainSentinels (chain : List (List Value)) : List Value := chain.flatMap effectiveSentinels

/-- The labels of the guards that a chain puts around a guard, from the outermost inwards. -/
def wrapperLabels (g : Guard) : List (List Value) → List String
  | [] => []
  | sentinels :: rest => (nullable g sentinels).wrapperLabels rest ++ [(nullable g sentinels).label]

/-- Each list of sentinels puts one guard around. -/
theorem length_wrapperLabels (g : Guard) (chain : List (List Value)) :
    (g.wrapperLabels chain).length = chain.length := by
  induction chain generalizing g with
  | nil => rfl
  | cons sentinels rest ih =>
    rw [wrapperLabels, List.length_append, ih, List.length_singleton, List.length_cons]

/-- Some guard of a chain takes a value for absent exactly if the value equals a sentinel of the
chain. -/
theorem any_isAbsent_iff {chain : List (List Value)} {v : Value} :
    chain.any v.isAbsent = true ↔ ∃ m ∈ chainSentinels chain, m.equal v = true := by
  simp only [List.any_eq_true, Value.isAbsent_iff, chainSentinels, List.mem_flatMap]
  constructor
  · rintro ⟨nominated, hnominated, m, hm, hequal⟩
    exact ⟨m, ⟨nominated, hnominated, hm⟩, hequal⟩
  · rintro ⟨m, ⟨nominated, hnominated, hm⟩, hequal⟩
    exact ⟨nominated, hnominated, m, hm, hequal⟩

end Guard

/-- The steps of guards that pass a value on to one another, the first label being the outermost, and
the verdict back: `h` is what happens inside. -/
def passedOn (v : Value) (verdict : Bool) (labels : List String) (h : List Step) : List Step :=
  labels.foldr (fun label inner => .asked label v :: inner ++ [.answered label (some verdict)]) h

/-- The innermost of the guards that pass a value on belongs to what happens inside the others. -/
theorem passedOn_concat (v : Value) (verdict : Bool) (labels : List String) (label : String)
    (h : List Step) :
    passedOn v verdict (labels ++ [label]) h =
      passedOn v verdict labels (.asked label v :: h ++ [.answered label (some verdict)]) :=
  List.foldr_append ..

namespace Guard

/-! ## One guard of a chain -/

/-- **An absent value is accepted on the spot**, and the session stays as it is. -/
theorem run_nullable_of_isAbsent {sentinels : List Value} {v : Value}
    (h : v.isAbsent sentinels = true) (g : Guard) (s : Session) :
    ((nullable g sentinels).check v).run s = (some true, s) := by
  rw [check, Program.run_ask, nullableTest, if_pos h]
  rfl

theorem history_nullable_of_isAbsent {sentinels : List Value} {v : Value}
    (h : v.isAbsent sentinels = true) (g : Guard) (s : Session) :
    ((nullable g sentinels).check v).history s =
      passedOn v true [(nullable g sentinels).label] [] := by
  rw [check, Program.history_ask, nullableTest, if_pos h]
  rfl

/-- The guard inside has contained what unwinds, so there is nothing left to report. -/
theorem run_nullable {sentinels : List Value} {v : Value} (h : v.isAbsent sentinels = false)
    (g : Guard) (s : Session) :
    ((nullable g sentinels).check v).run s = (g.check v).run s := by
  obtain ⟨verdict, hverdict⟩ := g.answers_check v s
  rw [check, Program.run_ask, nullableTest, if_neg (Bool.eq_false_iff.mp h), hverdict]
  exact Prod.ext hverdict.symm rfl

theorem history_nullable {sentinels : List Value} {v : Value} (h : v.isAbsent sentinels = false)
    {g : Guard} {s : Session} {verdict : Bool} (hverdict : ((g.check v).run s).1 = some verdict) :
    ((nullable g sentinels).check v).history s =
      passedOn v verdict [(nullable g sentinels).label] ((g.check v).history s) := by
  rw [check, Program.history_ask, nullableTest, if_neg (Bool.eq_false_iff.mp h), hverdict]
  rfl

/-! ## The chain -/

/-- **A chain accepts what one of its guards takes for absent**, and otherwise is the guard inside. -/
theorem run_nullables (g : Guard) (chain : List (List Value)) (v : Value) (s : Session) :
    ((g.nullables chain).check v).run s =
      if chain.any v.isAbsent then (some true, s) else (g.check v).run s := by
  induction chain generalizing g with
  | nil => rfl
  | cons sentinels rest ih =>
    rw [nullables, List.foldl_cons, ← nullables, ih, List.any_cons]
    -- the innermost guard of the chain is taken off, and the others stand around what it is then
    cases h : v.isAbsent sentinels with
    | true => simp [run_nullable_of_isAbsent h]
    | false => rw [run_nullable h, Bool.false_or]

/-- **All guards of a chain pass on** a value that none of them takes for absent. -/
theorem history_nullables (g : Guard) {chain : List (List Value)} {v : Value}
    (h : chain.any v.isAbsent = false) {s : Session} {verdict : Bool}
    (hverdict : ((g.check v).run s).1 = some verdict) :
    ((g.nullables chain).check v).history s =
      passedOn v verdict (g.wrapperLabels chain) ((g.check v).history s) := by
  induction chain generalizing g with
  | nil => rfl
  | cons sentinels rest ih =>
    rw [List.any_cons, Bool.or_eq_false_iff] at h
    have hinner : (((nullable g sentinels).check v).run s).1 = some verdict := by
      rw [run_nullable h.1, hverdict]
    rw [nullables, List.foldl_cons, ← nullables, ih _ h.2 hinner, history_nullable h.1 hverdict,
      wrapperLabels, passedOn_concat]
    rfl

/-- Some guard of the chain takes the value for absent: those outside it pass the value on, and
those inside it are not asked. -/
theorem history_nullables_of_isAbsent (g : Guard) {chain : List (List Value)} {v : Value}
    (h : chain.any v.isAbsent = true) (s : Session) :
    ∃ n, 0 < n ∧ n ≤ chain.length ∧
      ((g.nullables chain).check v).history s =
        passedOn v true ((g.wrapperLabels chain).take n) [] := by
  induction chain generalizing g with
  | nil => cases h
  | cons sentinels rest ih =>
    rw [nullables, List.foldl_cons, ← nullables, wrapperLabels, List.length_cons]
    cases hrest : rest.any v.isAbsent with
    | true =>
      -- a guard further out answers
      obtain ⟨n, hpos, hle, hhistory⟩ := ih (nullable g sentinels) hrest
      refine ⟨n, hpos, Nat.le_succ_of_le hle, ?_⟩
      rw [hhistory, List.take_append_of_le_length]
      rwa [length_wrapperLabels]
    | false =>
      have habsent : v.isAbsent sentinels = true := by
        rwa [List.any_cons, hrest, Bool.or_false] at h
      have hverdict : (((nullable g sentinels).check v).run s).1 = some true := by
        rw [run_nullable_of_isAbsent habsent]
      refine ⟨rest.length + 1, Nat.succ_pos _, Nat.le_refl _, ?_⟩
      rw [history_nullables _ hrest hverdict, history_nullable_of_isAbsent habsent,
        List.take_of_length_le, passedOn_concat]
      · rfl
      · exact Nat.le_of_eq (by rw [List.length_append, length_wrapperLabels, List.length_singleton])

/-! ## The headline -/

/-- **Sentinels are accepted, and every other value is left to the guard inside.** Around any guard,
custom code included, stand any number of guards that accept absent values, each with a list of
sentinels of its own, where the empty list means `null` and `undefined`.

A value that equals one of all these sentinels is accepted. The session is left as it was, so nothing
is sent, reported or marked, and all that happens is that some of the guards that stand around pass
the value on and the verdict back. A value that equals none gets the verdict of the guard inside,
which leaves the same session; it does just what it does by itself, and around that all the others
pass the value on.

So it does not matter in which order the lists are given, nor which list a sentinel is in. A value
that is a sentinel itself equals one exactly if there is no NaN in it. -/
theorem verdict_nullables (g : Guard) (chain : List (List Value)) (v : Value) (s : Session) :
    ((∃ m ∈ chainSentinels chain, m.equal v = true) →
      (g.nullables chain).verdict v s = (some true, s) ∧
      ∃ n, 0 < n ∧ n ≤ chain.length ∧
        ((g.nullables chain).check v).history s =
          passedOn v true ((g.wrapperLabels chain).take n) []) ∧
    ((∀ m ∈ chainSentinels chain, m.equal v = false) →
      (g.nullables chain).verdict v s = g.verdict v s ∧
      ∃ verdict, (g.verdict v s).1 = some verdict ∧
        ((g.nullables chain).check v).history s =
          passedOn v verdict (g.wrapperLabels chain) ((g.check v).history s)) ∧
    (∀ chain', (∀ m, m ∈ chainSentinels chain' ↔ m ∈ chainSentinels chain) →
      (g.nullables chain').verdict v s = (g.nullables chain).verdict v s) ∧
    (v.Proper → (∀ m ∈ chainSentinels chain, m.Proper) → v ∈ chainSentinels chain →
      ((∃ m ∈ chainSentinels chain, m.equal v = true) ↔ v.NaNFree)) := by
  refine ⟨fun hequal => ?_, fun hunequal => ?_, fun chain' hsame => ?_, fun hv hproper hmem => ?_⟩
  · have habsent := any_isAbsent_iff.mpr hequal
    refine ⟨?_, history_nullables_of_isAbsent g habsent s⟩
    rw [verdict, run_nullables, if_pos habsent]
  · have hpresent : chain.any v.isAbsent = false := by
      refine Bool.eq_false_iff.mpr fun habsent => ?_
      obtain ⟨m, hm, hequal⟩ := any_isAbsent_iff.mp habsent
      exact Bool.eq_false_iff.mp (hunequal m hm) hequal
    obtain ⟨verdict, hverdict⟩ := g.answers_check v s
    refine ⟨?_, verdict, hverdict, history_nullables g hpresent hverdict⟩
    rw [Guard.verdict, run_nullables, if_neg (Bool.eq_false_iff.mp hpresent), Guard.verdict]
  · -- two chains with the same sentinels take the same values for absent
    have habsent : chain'.any v.isAbsent = chain.any v.isAbsent := by
      refine Bool.eq_iff_iff.mpr ?_
      rw [any_isAbsent_iff, any_isAbsent_iff]
      exact exists_congr fun m => and_congr_left' (hsame m)
    rw [verdict, verdict, run_nullables, run_nullables, habsent]
  · constructor
    · rintro ⟨m, hm, hequal⟩
      exact Value.nanFree_of_equal ⟨m, hproper m hm⟩ ⟨v, hv⟩ hequal
    · intro hnan
      exact ⟨v, hmem, (Value.equal_self_iff ⟨v, hv⟩).mpr hnan⟩

/-- Around a predicate that unwinds stand a guard with the default sentinels and one with an object
that holds a zero: the object with the other zero is accepted, and the number in it is not. -/
theorem verdict_nullables_zero :
    let bad : Guard := .custom "bad" fun _ => .panic
    let chain : List (List Value) := [[], [.object [("k", .array [.number (.zero true)])]]]
    let s := Session.start .standard
    (bad.nullables chain).verdict (.object [("k", .array [.number (.zero false)])]) s =
        (some true, s) ∧
      (bad.nullables chain).verdict .undefined s = (some true, s) ∧
      ((bad.nullables chain).verdict (.number (.zero true)) s).1 = some false := by
  intro bad chain s
  obtain ⟨hobject, -⟩ := verdict_nullables bad chain (.object [("k", .array [.number (.zero false)])]) s
  obtain ⟨hundefined, -⟩ := verdict_nullables bad chain .undefined s
  obtain ⟨-, hzero, -⟩ := verdict_nullables bad chain (.number (.zero true)) s
  refine ⟨(hobject ?_).1, (hundefined ?_).1, ?_⟩
  · exact ⟨.object [("k", .array [.number (.zero true)])], by simp [chain, chainSentinels,
      effectiveSentinels], by decide⟩
  · exact ⟨.undefined, by simp [chain, chainSentinels, effectiveSentinels, defaultSentinels], rfl⟩
  · rw [(hzero (by decide)).1]
    rfl

/-- A NaN is nominated, and it is rejected. -/
theorem verdict_nullable_nan :
    Value.number .nan ∈ effectiveSentinels [.number .nan] ∧
      ∀ s, (nullable string [.number .nan]).verdict (.number .nan) s = (some false, s) := by
  refine ⟨List.mem_singleton_self _, fun s => ?_⟩
  have hpresent : (Value.number .nan).isAbsent [.number .nan] = false := by decide
  rw [verdict, run_nullable hpresent]
  rfl

end Guard

end RecordGuard
