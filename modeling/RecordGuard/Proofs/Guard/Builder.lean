import RecordGuard.Guard.Builder

/-!
# What a builder holds

A record guard is built in steps, in any order. Each part of the registry depends on the steps that
ask for it alone, and on their order; so an interleaving of steps comes down to a few lists that are
read off the steps.

* **`BuildStep.root?`, `BuildStep.validator?`, `BuildStep.silences`** — what a single step asks for.
* **`given`** — the keys that some steps register a validator for.
* **`Builder.roots_steps`, `Builder.validators_steps`, `Builder.isEmpty_properties_steps`,
  `Builder.propertyKeys_steps`, `Builder.suppresses_steps`** — what a builder holds after any steps.
-/

namespace RecordGuard

/-! ## Single steps -/

namespace BuildStep

/-- The validator that a step registers for the whole candidate. -/
def root? : BuildStep → Option Validator
  | root validator => some validator
  | _ => none

/-- The validator that a step registers for a property. -/
def validator? (key : String) : BuildStep → Option Validator
  | property k validator => if k = key then some validator else none
  | ignore k => if k = key then some (.guard .any) else none
  | _ => none

/-- Whether a step leaves out the notice about a property. -/
def silences (key : String) : BuildStep → Bool
  | suppress keys => keys.isEmpty || keys.contains key
  | suppressAll => true
  | _ => false

end BuildStep

/-- The keys that some steps register a validator for, in order and with repetitions. -/
def given (ss : List BuildStep) : List String := ss.filterMap BuildStep.key?

/-! ## What a builder holds

One lemma for what a step adds to each part of the registry, and from it, by induction on the steps,
one for what all steps have added. -/

/-- Extending by no keys at all leaves out every notice, extending by some leaves out theirs. -/
theorem Suppression.suppresses_extend (p : Suppression) (keys : List String) (key : String) :
    (p.extend keys).suppresses key = (p.suppresses key || (keys.isEmpty || keys.contains key)) := by
  cases keys with
  | nil => simp [extend, suppresses]
  | cons k rest => simp [extend, suppresses, Bool.or_assoc]

namespace Builder

theorem steps_cons (b : Builder) (st : BuildStep) (rest : List BuildStep) :
    b.steps (st :: rest) = (b.step st).steps rest := rfl

theorem schema_step (b : Builder) (st : BuildStep) : (b.step st).schema = b.schema := by
  cases st <;> rfl

/-- A step that validates the whole candidate puts its validator behind the others. -/
theorem roots_step (b : Builder) (st : BuildStep) :
    (b.step st).roots = b.roots ++ st.root?.toList.map (Validator.labelled "root") := by
  cases st with
  | root validator => rfl
  | _ => exact (List.append_nil _).symm

/-- A new validator comes last among those of its own key, and no other key sees it. -/
theorem validators_addProperty (b : Builder) (k key : String) (validator : Validator) :
    (b.addProperty k validator).validators key =
      b.validators key ++
        (if k = key then some validator else none).toList.map (Validator.labelled key) := by
  by_cases hkey : k = key
  · simp [addProperty, Registry.validators, List.filter_append, hkey]
  · simp [addProperty, Registry.validators, List.filter_append, hkey]

/-- The two steps that register something for a key put it behind what the key has. -/
theorem validators_step (b : Builder) (st : BuildStep) (key : String) :
    (b.step st).validators key =
      b.validators key ++ (st.validator? key).toList.map (Validator.labelled key) := by
  cases st with
  | property k validator => exact b.validators_addProperty k key validator
  | ignore k => exact b.validators_addProperty k key (.guard .any)
  | _ => exact (List.append_nil _).symm

theorem isEmpty_properties_step (b : Builder) (st : BuildStep) :
    (b.step st).properties.isEmpty = (b.properties.isEmpty && st.key?.isNone) := by
  cases st <;> simp [step, addRoot, addProperty, BuildStep.key?]

theorem propertyKeys_step (b : Builder) (st : BuildStep) :
    (b.step st).properties.map (·.1) = b.properties.map (·.1) ++ st.key?.toList := by
  cases st <;> simp [step, addRoot, addProperty, BuildStep.key?]

/-- A notice that is left out stays left out; a step can only leave out more. -/
theorem suppresses_step (b : Builder) (st : BuildStep) (key : String) :
    (b.step st).suppression.suppresses key =
      (b.suppression.suppresses key || st.silences key) := by
  cases st with
  | suppress keys => exact b.suppression.suppresses_extend keys key
  | suppressAll => exact b.suppression.suppresses_extend [] key
  | _ => exact (Bool.or_false _).symm

/-- The schema is the one that the builder was started with. -/
theorem schema_steps (b : Builder) (ss : List BuildStep) : (b.steps ss).schema = b.schema := by
  induction ss generalizing b with
  | nil => rfl
  | cons st rest ih => exact (ih (b.step st)).trans (b.schema_step st)

/-- **The validators of the whole candidate** are those that the steps ask for, in their order. What
other steps stand in between does not show. -/
theorem roots_steps (b : Builder) (ss : List BuildStep) :
    (b.steps ss).roots =
      b.roots ++ (ss.filterMap BuildStep.root?).map (Validator.labelled "root") := by
  induction ss generalizing b with
  | nil => exact (List.append_nil _).symm
  | cons st rest ih =>
    rw [steps_cons, ih, roots_step, List.filterMap_cons]
    -- a step gives one validator for the whole candidate or none
    cases st.root? <;> simp

theorem hasRoot_steps (b : Builder) (ss : List BuildStep) :
    (b.steps ss).hasRoot = (b.hasRoot || !(ss.filterMap BuildStep.root?).isEmpty) := by
  rw [Registry.hasRoot, Registry.hasRoot, roots_steps]
  cases b.roots <;> simp

/-- **The validators of a property** are those that the steps ask for, in their order. -/
theorem validators_steps (b : Builder) (ss : List BuildStep) (key : String) :
    (b.steps ss).validators key =
      b.validators key ++
        (ss.filterMap (BuildStep.validator? key)).map (Validator.labelled key) := by
  induction ss generalizing b with
  | nil => exact (List.append_nil _).symm
  | cons st rest ih =>
    rw [steps_cons, ih, validators_step,
      List.filterMap_cons]
    -- here too a step gives one validator or none
    cases st.validator? key <;> simp

/-- There are no property validators exactly if no step brings a key. -/
theorem isEmpty_properties_steps (b : Builder) (ss : List BuildStep) :
    (b.steps ss).properties.isEmpty =
      (b.properties.isEmpty && ss.all fun st => st.key?.isNone) := by
  induction ss generalizing b with
  | nil => exact (Bool.and_true _).symm
  | cons st rest ih =>
    rw [steps_cons, ih, isEmpty_properties_step,
      List.all_cons, Bool.and_assoc]

/-- The keys of the property validators are those that the steps bring, with their repetitions. -/
theorem propertyKeys_steps (b : Builder) (ss : List BuildStep) :
    (b.steps ss).properties.map (·.1) = b.properties.map (·.1) ++ given ss := by
  induction ss generalizing b with
  | nil => exact (List.append_nil _).symm
  | cons st rest ih =>
    rw [steps_cons, ih, propertyKeys_step, given, given, List.filterMap_cons]
    cases st.key? <;> simp

/-- A notice is left out exactly if it was from the start or some step leaves it out, wherever it
stands. -/
theorem suppresses_steps (b : Builder) (ss : List BuildStep) (key : String) :
    (b.steps ss).suppression.suppresses key =
      (b.suppression.suppresses key || ss.any (BuildStep.silences key)) := by
  induction ss generalizing b with
  | nil => exact (Bool.or_false _).symm
  | cons st rest ih =>
    rw [steps_cons, ih, suppresses_step,
      List.any_cons, Bool.or_assoc]

end Builder

end RecordGuard
