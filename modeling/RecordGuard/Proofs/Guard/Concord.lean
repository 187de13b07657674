import Mathlib.Data.List.Forall2
import RecordGuard.Guard.Basic
import RecordGuard.Proofs.Program.Concord

/-!
# Guards side by side

A guard tree is made of library constructs and of the caller's own predicates at its leaves. Where
these predicates concur, the trees do.

* **`Guard.code`**, **`Guard.withCode`** — the predicates of the caller's own in a tree, and the tree
  with others in their place.
* **`Predicate.Concur`**, **`Registry.Concur`** — concurring, for guards as predicates and for the
  registries of records.
* **`Guard.concur_check`** — the transport: concurring leaves make concurring trees.
-/

namespace RecordGuard

/-! ## The caller's own predicates -/

namespace Guard

mutual

/-- The predicates of the caller's own in a tree. -/
def code : Guard → List Predicate
  | kind _ => []
  | custom _ predicate => [predicate]
  | named _ inner => inner.code
  | nullable base _ => base.code
  | arrayOf element => element.code
  | record registry => registryCode registry

/-- The predicates of the caller's own in a registry. -/
def registryCode : Registry Guard → List Predicate
  | ⟨_, roots, properties, _⟩ => codeOfAll roots ++ codeOfProperties properties

def codeOfAll : List Guard → List Predicate
  | [] => []
  | g :: rest => g.code ++ codeOfAll rest

def codeOfProperties : List (String × Guard) → List Predicate
  | [] => []
  | (_, g) :: rest => g.code ++ codeOfProperties rest

end

mutual

/-- The tree with every predicate of the caller's own replaced. -/
def withCode (f : Predicate → Predicate) : Guard → Guard
  | kind k => kind k
  | custom label predicate => custom label (f predicate)
  | named label inner => named label (inner.withCode f)
  | nullable base sentinels => nullable (base.withCode f) sentinels
  | arrayOf element => arrayOf (element.withCode f)
  | record registry => record (registryWithCode f registry)

/-- The registry with every predicate of the caller's own replaced. -/
def registryWithCode (f : Predicate → Predicate) : Registry Guard → Registry Guard
  | ⟨schema, roots, properties, suppression⟩ =>
    ⟨schema, allWithCode f roots, propertiesWithCode f properties, suppression⟩

def allWithCode (f : Predicate → Predicate) : List Guard → List Guard
  | [] => []
  | g :: rest => g.withCode f :: allWithCode f rest

def propertiesWithCode (f : Predicate → Predicate) : List (String × Guard) → List (String × Guard)
  | [] => []
  | (key, g) :: rest => (key, g.withCode f) :: propertiesWithCode f rest

end

/-- A label does not depend on the predicates at the leaves. -/
theorem label_withCode (f : Predicate → Predicate) : ∀ g : Guard, (g.withCode f).label = g.label
  | kind _ => rfl
  | custom _ _ => rfl
  | named _ _ => rfl
  | nullable base _ => congrArg (· ++ " | nullish") (label_withCode f base)
  | arrayOf element => congrArg (· ++ "[]") (label_withCode f element)
  | record ⟨_, _, _, _⟩ => rfl

mutual

/-- Putting every predicate in its own place leaves the tree as it is. One case for each construct,
and one for each list of guards in a registry. -/
theorem withCode_self : ∀ g : Guard, g.withCode (fun p => p) = g
  | kind _ => rfl
  | custom _ _ => rfl
  | named label inner => congrArg (named label) (withCode_self inner)
  | nullable base sentinels => congrArg (nullable · sentinels) (withCode_self base)
  | arrayOf element => congrArg arrayOf (withCode_self element)
  | record registry => congrArg record (registryWithCode_self registry)

theorem registryWithCode_self :
    ∀ registry : Registry Guard, registryWithCode (fun p => p) registry = registry
  | ⟨schema, roots, properties, suppression⟩ => by
    rw [registryWithCode, allWithCode_self roots, propertiesWithCode_self properties]

theorem allWithCode_self : ∀ gs : List Guard, allWithCode (fun p => p) gs = gs
  | [] => rfl
  | g :: rest => by rw [allWithCode, withCode_self g, allWithCode_self rest]

theorem propertiesWithCode_self :
    ∀ properties : List (String × Guard), propertiesWithCode (fun p => p) properties = properties
  | [] => rfl
  | (key, g) :: rest => by
    rw [propertiesWithCode, withCode_self g, propertiesWithCode_self rest]

end

end Guard

section

variable {S : Session → Session → Prop} {H : List Step → List Step → Prop}

/-! ## Guards as predicates -/

/-- Two predicates that put the value to a guard each, and concur. -/
structure Predicate.Concur (S : Session → Session → Prop) (H : List Step → List Step → Prop)
    (q p : Predicate) : Prop where
  left (v : Value) : (q v).Asks v
  right (v : Value) : (p v).Asks v
  programs (v : Value) : Program.Concur S H (q v) (p v)

/-- Asking guards in order, and going on or sending the diagnostic of a rejection. -/
theorem Predicate.concur_all {qs ps : List Predicate} {accepted accepted' : Program}
    {target : Target} (hc : Concord S H) (schema : String) (htarget : target ≠ .member)
    (h : List.Forall₂ (Predicate.Concur S H) qs ps) (v : Value)
    (haccepted : Program.Concur S H accepted accepted') :
    Program.Concur S H
      ((Predicate.all qs v).bind fun verdict =>
        if verdict then accepted else Registry.reject schema target v)
      ((Predicate.all ps v).bind fun verdict =>
        if verdict then accepted' else Registry.reject schema target v) := by
  -- what comes behind the first guard is what comes behind all of the rest, or the rejection
  have hstep : ∀ (r : Predicate) (rs : List Predicate) (next : Program),
      ((Predicate.all (r :: rs) v).bind fun verdict =>
          if verdict then next else Registry.reject schema target v) =
        (r v).bind fun first =>
          if first then
            (Predicate.all rs v).bind fun verdict =>
              if verdict then next else Registry.reject schema target v
          else Registry.reject schema target v := by
    intro r rs next
    rw [Predicate.all, Program.bind_assoc]
    refine congrArg (Program.bind (r v)) (funext fun first => ?_)
    cases first <;> rfl
  induction h with
  | nil => exact haccepted
  | cons hqp _ ih =>
    rw [hstep, hstep]
    exact (hqp.programs v).bind_reject hc schema htarget (hqp.left v) (hqp.right v) ih

/-- The elements of an array, one after the other up to the first that is rejected. -/
theorem Predicate.concur_onAll {q p : Predicate} (hc : Concord S H)
    (h : Predicate.Concur S H q p) (values : List Value) :
    Program.Concur S H (Predicate.onAll q values) (Predicate.onAll p values) := by
  induction values with
  | nil => exact .answer hc true
  | cons v rest ih => exact (h.programs v).bind_ite hc ih (.answer hc false)

/-! ## Registries -/

/-- Registries that differ in their guards only, which concur. -/
structure Registry.Concur (S : Session → Session → Prop) (H : List Step → List Step → Prop)
    (q r : Registry Predicate) : Prop where
  schema : q.schema = r.schema
  suppression : q.suppression = r.suppression
  roots : List.Forall₂ (Predicate.Concur S H) q.roots r.roots
  properties : List.Forall₂ (fun a b => a.1 = b.1 ∧ Predicate.Concur S H a.2 b.2) q.properties
    r.properties

namespace Registry

theorem isEmpty_eq_of_forall₂ {α β : Type} {R : α → β → Prop} {xs : List α} {ys : List β}
    (h : List.Forall₂ R xs ys) : xs.isEmpty = ys.isEmpty := by
  cases h <;> rfl

theorem Concur.hasRoot {q r : Registry Predicate} (h : q.Concur S H r) :
    q.hasRoot = r.hasRoot := by
  rw [Registry.hasRoot, Registry.hasRoot, isEmpty_eq_of_forall₂ h.roots]

theorem Concur.isSilent {q r : Registry Predicate} (h : q.Concur S H r) (key : String) :
    q.isSilent key = r.isSilent key := by
  rw [Registry.isSilent, Registry.isSilent, h.hasRoot, h.suppression]

theorem Concur.acceptsEmpty {q r : Registry Predicate} (h : q.Concur S H r) :
    q.acceptsEmpty = r.acceptsEmpty := by
  rw [Registry.acceptsEmpty, Registry.acceptsEmpty, h.hasRoot, isEmpty_eq_of_forall₂ h.properties]

/-- A key has validators side by side, which concur. -/
theorem Concur.validators {q r : Registry Predicate} (h : q.Concur S H r) (key : String) :
    List.Forall₂ (Predicate.Concur S H) (q.validators key) (r.validators key) := by
  have hproperties := h.properties
  unfold Registry.validators
  generalize q.properties = qs at hproperties ⊢
  generalize r.properties = rs at hproperties ⊢
  induction hproperties with
  | nil => exact .nil
  | @cons a b _ _ hab _ ih =>
    -- the same entries are taken on both sides, since the keys are the same
    by_cases hkey : b.1 = key
    · rw [List.filter_cons_of_pos (by simp [hab.1, hkey]),
        List.filter_cons_of_pos (by simp [hkey])]
      exact .cons hab.2 ih
    · rw [List.filter_cons_of_neg (by simp [hab.1, hkey]),
        List.filter_cons_of_neg (by simp [hkey])]
      exact ih

/-- The own entries of a candidate, by induction on the entries that are left. -/
theorem Concur.entries {q r : Registry Predicate} (hc : Concord S H) (h : q.Concur S H r)
    (last : Bool) (fields : Fields Value) :
    Program.Concur S H (q.entries last fields) (r.entries last fields) := by
  induction fields with
  | nil => exact .answer hc last
  | cons field rest ih =>
    obtain ⟨key, v⟩ := field
    have hvalidators := h.validators key
    unfold Registry.entries
    -- a key has validators in both registries or in neither
    cases hq : q.validators key with
    | nil =>
      rw [hq, List.forall₂_nil_left_iff] at hvalidators
      rw [hvalidators, h.isSilent, h.schema]
      by_cases hsilent : r.isSilent key
      · simpa only [hsilent, if_true] using ih
      · simp only [hsilent]
        exact ih.emit hc rfl
    | cons p ps =>
      cases hr : r.validators key with
      | nil =>
        rw [hq, hr] at hvalidators
        exact absurd hvalidators (by simp)
      | cons p' ps' =>
        rw [hq, hr] at hvalidators
        rw [h.schema]
        exact Predicate.concur_all hc r.schema (by simp) hvalidators v ih

/-- The check of a record: its validators for the whole, and then its own entries. -/
theorem Concur.evaluate {q r : Registry Predicate} (hc : Concord S H) (h : q.Concur S H r)
    (v : Value) : Program.Concur S H (q.evaluate v) (r.evaluate v) := by
  unfold Registry.evaluate
  cases v.entries? with
  | none => exact .answer hc false
  | some fields =>
    rw [h.schema, h.acceptsEmpty]
    exact Predicate.concur_all hc r.schema (by simp) h.roots v (h.entries hc _ fields)

end Registry

/-! ## Trees -/

namespace Guard

theorem asks_check (g : Guard) (v : Value) : (g.check v).Asks v := by
  cases g <;> exact ⟨_, _, rfl⟩

/-- The predicates of kinds are the same on both sides. One of them reports an event. -/
theorem concur_kind (hc : Concord S H) (k : Kind) (v : Value) :
    Program.Concur S H (k.predicate v) (k.predicate v) := by
  unfold Kind.predicate
  split
  · split
    · exact .answer hc true
    · exact (Program.Concur.answer hc false).report hc _ rfl
  · exact .answer hc _

/-- A value is absent on both sides or on neither. -/
theorem concur_nullableTest {q p : Predicate} (hc : Concord S H) (h : Predicate.Concur S H q p)
    (sentinels : List Value) (v : Value) :
    Program.Concur S H (nullableTest sentinels q v) (nullableTest sentinels p v) := by
  unfold nullableTest
  split
  · exact .answer hc true
  · exact h.programs v

/-- An array goes through its elements, and reports if one of them is rejected. -/
theorem concur_arrayTest {q p : Predicate} (hc : Concord S H) (h : Predicate.Concur S H q p)
    (v : Value) : Program.Concur S H (arrayTest q v) (arrayTest p v) := by
  unfold arrayTest
  cases v.items? with
  | none => exact .answer hc false
  | some items =>
    exact (Predicate.concur_onAll hc h items).bind_ite hc (.answer hc true)
      ((Program.Concur.answer hc false).emit hc rfl)

mutual

/-- **Concurring leaves make concurring trees.** Of a leaf it is asked that the guard which is made
of it concurs, so its code need not come to a verdict. -/
theorem concur_check (hc : Concord S H) (f f' : Predicate → Predicate) :
    ∀ g : Guard,
      (∀ p ∈ g.code, ∀ label v,
        Program.Concur S H (.ask label v (f p v) .answer) (.ask label v (f' p v) .answer)) →
      Predicate.Concur S H (g.withCode f).check (g.withCode f').check
  | kind k, _ => ⟨asks_check _, asks_check _, fun v => (concur_kind hc k v).ask hc k.label v⟩
  | custom label predicate, hf =>
    ⟨asks_check _, asks_check _, fun v => hf predicate List.mem_cons_self label v⟩
  | named label inner, hf =>
    ⟨asks_check _, asks_check _,
      fun v => ((concur_check hc f f' inner hf).programs v).ask hc label v⟩
  | nullable base sentinels, hf => by
    refine ⟨asks_check _, asks_check _, fun v => ?_⟩
    simp only [withCode, check, label_withCode]
    exact (concur_nullableTest hc (concur_check hc f f' base hf) sentinels v).ask hc _ v
  | arrayOf element, hf => by
    refine ⟨asks_check _, asks_check _, fun v => ?_⟩
    simp only [withCode, check, label_withCode]
    exact (concur_arrayTest hc (concur_check hc f f' element hf) v).ask hc _ v
  | record registry, hf => by
    refine ⟨asks_check _, asks_check _, fun v => ?_⟩
    -- the schema is not touched where predicates are replaced
    have hschema : ∀ f, (registryWithCode f registry).schema = registry.schema := by
      intro f
      cases registry
      rfl
    simp only [withCode, check, hschema]
    exact ((concur_checkRegistry hc f f' registry hf).evaluate hc v).ask hc _ v

/-- A registry, by its two lists of guards. -/
theorem concur_checkRegistry (hc : Concord S H) (f f' : Predicate → Predicate) :
    ∀ registry : Registry Guard,
      (∀ p ∈ registryCode registry, ∀ label v,
        Program.Concur S H (.ask label v (f p v) .answer) (.ask label v (f' p v) .answer)) →
      (checkRegistry (registryWithCode f registry)).Concur S H
        (checkRegistry (registryWithCode f' registry))
  | ⟨_, roots, properties, _⟩, hf =>
    ⟨rfl, rfl, concur_checkAll hc f f' roots fun p hp => hf p (List.mem_append_left _ hp),
      concur_checkProperties hc f f' properties fun p hp => hf p (List.mem_append_right _ hp)⟩

/-- The validators of the whole candidate, one beside the other. -/
theorem concur_checkAll (hc : Concord S H) (f f' : Predicate → Predicate) :
    ∀ gs : List Guard,
      (∀ p ∈ codeOfAll gs, ∀ label v,
        Program.Concur S H (.ask label v (f p v) .answer) (.ask label v (f' p v) .answer)) →
      List.Forall₂ (Predicate.Concur S H) (checkAll (allWithCode f gs))
        (checkAll (allWithCode f' gs))
  | [], _ => .nil
  | g :: rest, hf =>
    .cons (concur_check hc f f' g fun p hp => hf p (List.mem_append_left _ hp))
      (concur_checkAll hc f f' rest fun p hp => hf p (List.mem_append_right _ hp))

/-- The validators of properties, one beside the other under equal keys. -/
theorem concur_checkProperties (hc : Concord S H) (f f' : Predicate → Predicate) :
    ∀ properties : List (String × Guard),
      (∀ p ∈ codeOfProperties properties, ∀ label v,
        Program.Concur S H (.ask label v (f p v) .answer) (.ask label v (f' p v) .answer)) →
      List.Forall₂ (fun a b => a.1 = b.1 ∧ Predicate.Concur S H a.2 b.2)
        (checkProperties (propertiesWithCode f properties))
        (checkProperties (propertiesWithCode f' properties))
  | [], _ => .nil
  | (_, g) :: rest, hf =>
    .cons ⟨rfl, concur_check hc f f' g fun p hp => hf p (List.mem_append_left _ hp)⟩
      (concur_checkProperties hc f f' rest fun p hp => hf p (List.mem_append_right _ hp))

end

/-- A tree concurs with itself where its leaves do. -/
theorem concur_self (hc : Concord S H) (g : Guard)
    (hcode : ∀ p ∈ g.code, ∀ label v,
      Program.Concur S H (.ask label v (p v) .answer) (.ask label v (p v) .answer)) (v : Value) :
    Program.Concur S H (g.check v) (g.check v) := by
  have h := (concur_check hc (fun p => p) (fun p => p) g hcode).programs v
  rwa [withCode_self] at h

end Guard

end

end RecordGuard
