import Mathlib.Logic.Relation
import RecordGuard.Proofs.Guard.Accepts
import RecordGuard.Proofs.Value.Likeness

/-!
# Verdicts respect equality

Two equal values may list their keys in different orders, and a record guard goes along the keys and
stops at the first that it rejects. What it says on the way depends on the order; its verdict does
not, because it asks of every own entry the same.

* **`Guard.accepts_eq`** — a guard without code gives the same verdict on two values that look alike,
  by induction on the guard.
* **`verdict_respects_equality`** — the headline: so it does on equal values, and on values with
  their keys reordered.
-/

namespace RecordGuard

namespace Guard

section

variable {R : Value → Value → Prop}

/-- Fields with the same keys and values that look alike pass the same validators. -/
theorem acceptsEntries_of_agree {registry : Registry Guard} {fs gs : FieldMap Value}
    (h : fs.Agree R gs)
    (hvalidators : ∀ e ∈ registry.properties, ∀ ⦃x y⦄, R x y → e.2.accepts x = e.2.accepts y)
    (hfs : acceptsEntries registry fs.fields = true) : acceptsEntries registry gs.fields = true := by
  rw [acceptsEntries, List.all_eq_true] at hfs ⊢
  rintro ⟨key, y⟩ hy
  obtain ⟨x, hx, hxy⟩ := h.flip.exists_right hy
  have hall := hfs (key, x) hx
  rw [List.all_eq_true] at hall ⊢
  intro g hg
  rw [← hvalidators (key, g) (mem_properties_of_mem_validators hg) hxy]
  exact hall g hg

/-- The elements of arrays that look alike pass the same guard. -/
theorem all_accepts_of_forall₂ {element : Guard} {xs ys : List Value} (h : List.Forall₂ R xs ys)
    (helement : ∀ ⦃x y⦄, R x y → element.accepts x = element.accepts y) :
    xs.all element.accepts = ys.all element.accepts := by
  induction h with
  | nil => rfl
  | cons hxy _ ih => rw [List.all_cons, List.all_cons, helement hxy, ih]

/-- **A guard does not tell apart values that look alike.** -/
theorem accepts_eq (hR : Value.Likeness R) {g : Guard} (hcode : g.code = []) ⦃v w : Value⦄
    (hvw : R v w) : g.accepts v = g.accepts w := by
  induction g using Guard.induction generalizing v w with
  | kind k => rw [accepts_kind, accepts_kind, hR.accepts_eq hvw]
  | custom label predicate => cases hcode
  | named label inner ih =>
    have hinner : inner.code = [] := hcode
    rw [accepts_named label hinner, accepts_named label hinner, ih hinner hvw]
  | nullable base sentinels ih =>
    have hbase : base.code = [] := hcode
    rw [accepts_nullable hbase, accepts_nullable hbase, hR.isAbsent_eq hvw, ih hbase hvw]
  | arrayOf element ih =>
    have helement : element.code = [] := hcode
    rw [accepts_arrayOf helement, accepts_arrayOf helement]
    rcases hR.items hvw with ⟨hv, hw⟩ | ⟨xs, ys, hv, hw, hitems⟩
    · rw [hv, hw]
    · rw [hv, hw]
      exact all_accepts_of_forall₂ hitems fun _ _ hxy => ih helement hxy
  | record registry ihRoots ihProperties =>
    obtain ⟨hroots, hproperties⟩ := code_record_eq_nil.mp hcode
    rw [accepts_record hcode, accepts_record hcode]
    rcases hR.entries hvw with ⟨hv, hw⟩ | ⟨fs, gs, hv, hw, hagree⟩
    · rw [hv, hw]
      rfl
    · -- the roots see the two values, the properties what stands under each key
      have hroot : registry.roots.all (·.accepts v) = registry.roots.all (·.accepts w) := by
        rw [Bool.eq_iff_iff, List.all_eq_true, List.all_eq_true]
        exact forall₂_congr fun g hg => by rw [ihRoots g hg (hroots g hg) hvw]
      have hvalidators : ∀ e ∈ registry.properties, ∀ ⦃x y⦄, R x y →
          e.2.accepts x = e.2.accepts y :=
        fun e he _ _ hxy => ihProperties e he (hproperties e he) hxy
      have hentries : acceptsEntries registry fs.fields = acceptsEntries registry gs.fields := by
        rw [Bool.eq_iff_iff]
        refine ⟨acceptsEntries_of_agree hagree hvalidators, ?_⟩
        exact acceptsEntries_of_agree hagree.flip fun e he _ _ hxy => (hvalidators e he hxy).symm
      rw [hv, hw]
      simp only [Option.any_some, hroot, hentries, hagree.isEmpty_eq]

end

/-! ## The headline -/

/-- Reordering keys again and again leaves the verdict as it is. -/
theorem accepts_eq_of_reorders {g : Guard} (hcode : g.code = []) (v : ProperValue) {w : Value}
    (h : Relation.ReflTransGen Value.Reorders v.value w) : g.accepts v.value = g.accepts w := by
  -- the values on the way are proper as well, since reordering repeats no key
  have hchain : w.Proper ∧ g.accepts v.value = g.accepts w := by
    induction h with
    | refl => exact ⟨v.proper, rfl⟩
    | tail _ hstep ih =>
      obtain ⟨hproper, heq⟩ := ih
      exact ⟨hstep.proper hproper,
        heq.trans (accepts_eq Value.likeness_reorders hcode ⟨hproper, .inr hstep⟩)⟩
  exact hchain.2

end Guard

/-- **Verdicts respect equality.** Let a guard be made of nothing but the library: kinds, enumerations,
arrays of guards, nullable guards with any sentinels, and records with any roots, properties and
suppression, nested in any way. On two values that are equal, or of which one is the other with the
keys of objects in it put in other orders, it comes to the same verdict, in whatever sessions it is
asked. The diagnostics need not be the same: there is a record that sends one of them on the value in
one order and not on the same value in another. -/
theorem verdict_respects_equality :
    (∀ g : Guard, g.code = [] → ∀ (v : ProperValue) (w : Value),
      (v.value.equal w = true ∨ Relation.ReflTransGen Value.Reorders v.value w) →
      ∃ verdict, ∀ s, (g.verdict v.value s).1 = some verdict ∧ (g.verdict w s).1 = some verdict) ∧
    ∃ (g : Guard) (v : ProperValue) (w : Value) (s : Session), g.code = [] ∧ v.value.Reorders w ∧
      v.value.equal w = true ∧ ∃ verdict ds es,
        (Run.capture (g.verdict v.value) s).1 = some (verdict, ds) ∧
        (Run.capture (g.verdict w) s).1 = some (verdict, es) ∧ ∃ d ∈ ds, d ∉ es := by
  constructor
  · intro g hcode v w h
    -- the verdict is a function of the value, so two values are left to compare
    have haccepts : g.accepts v.value = g.accepts w := by
      rcases h with hequal | hreorders
      · exact Guard.accepts_eq Value.likeness_equal hcode ⟨v.proper, hequal⟩
      · exact Guard.accepts_eq_of_reorders hcode v hreorders
    refine ⟨g.accepts v.value, fun s => ⟨Guard.yields_accepts hcode v.value s, ?_⟩⟩
    rw [haccepts]
    exact Guard.yields_accepts hcode w s
  · -- nothing is said of "a" where the rejection of "b" comes first
    let fields : Fields Value := [("a", .null), ("b", .null)]
    refine ⟨recordGuard "T" [.property "b" Guard.string], ⟨.object fields, by decide⟩,
      .object fields.reverse, Session.start .standard, rfl, .here (List.reverse_perm fields).symm, by decide,
      false, [.missing "T" "a", .failed .standard "T" (.property "b") .null],
      [.failed .standard "T" (.property "b") .null], rfl, rfl, _, List.mem_cons_self, by decide⟩

/-- A record in an array, with a nullable property and an enumeration. The two zeros make equal values
of which the guard accepts both; the NaN keeps two values from being equal that differ in nothing but
the order of keys. -/
theorem verdict_respects_equality_nested :
    let g : Guard := .arrayOf (recordGuard "T"
      [.property "x" (Guard.nullable .boolean [.number (.zero false)]),
        .property "y" (Guard.memberOf ⟨[("A", .string "a")]⟩)])
    let element (x : Number) : Fields Value := [("x", .number x), ("y", .string "a")]
    let v (x : Number) : Value := .array [.object (element x)]
    let w (x : Number) : Value := .array [.object (element x).reverse]
    g.code = [] ∧
      (∃ verdict, ∀ s, (g.verdict (v (.zero true)) s).1 = some verdict ∧
        (g.verdict (w (.zero false)) s).1 = some verdict) ∧
      (v .nan).equal (w .nan) = false ∧
      ∃ verdict, ∀ s, (g.verdict (v .nan) s).1 = some verdict ∧
        (g.verdict (w .nan) s).1 = some verdict := by
  intro g element v w
  have hcode : g.code = [] := rfl
  have hreorders : (v .nan).Reorders (w .nan) :=
    .item [] [] (.here (List.reverse_perm (element .nan)).symm)
  refine ⟨hcode, ?_, by decide, ?_⟩
  · exact verdict_respects_equality.1 g hcode ⟨v (.zero true), by decide⟩ _ (.inl (by decide))
  · exact verdict_respects_equality.1 g hcode ⟨v .nan, by decide⟩ _ (.inr (.single hreorders))

end RecordGuard
