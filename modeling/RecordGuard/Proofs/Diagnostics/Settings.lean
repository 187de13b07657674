import RecordGuard.Diagnostics.Settings
import RecordGuard.Proofs.Text.Digits

/-!
# What an environment asks for

A switch follows its variable if the bytes of that are a text that spells a truth value, and reading
the settings fails if they are a text that spells none. Bytes that are no text count as a variable that
is not set, so there the default holds without a word.

* **`SpellsFlag`**, **`flag?_eq_some_iff`** — the texts that spell a truth value.
* **`Environment.Means`**, **`Environment.Misspells`** — what a variable says about a switch.
* **`Settings.ofEnvironment_iff`** — the headline.
* **`Settings.ofEnvironment_undecodable`** — a variable that is set, is wrong and goes unreported.
-/

namespace RecordGuard

/-! ## Truth values -/

def flagWords : Bool → List String
  | true => ["1", "true", "on", "yes"]
  | false => ["0", "false", "off", "no"]

/-- With white space around it and its ASCII letters in any case, the text is a word for `b`. -/
def SpellsFlag (s : String) (b : Bool) : Prop :=
  ∃ before word after, s.toList = before ++ word ++ after ∧
    (∀ c ∈ before, isBlank c = true) ∧ (∀ c ∈ after, isBlank c = true) ∧
    String.ofList (word.map Char.toLower) ∈ flagWords b

/-- No word starts or ends with white space; indeed there is none in it. -/
theorem flagWords_solid (b : Bool) :
    ∀ word ∈ flagWords b, word.toList ≠ [] ∧ ∀ c ∈ word.toList, isBlank c = false := by
  cases b <;> simp [flagWords, isBlank]

/-- White space has no case. -/
theorem toLower_of_isBlank {c : Char} (h : isBlank c = true) : c.toLower = c := by
  have hnot : ¬(c.val ≥ 'A'.val ∧ c.val ≤ 'Z'.val) := by
    rintro ⟨hA, hZ⟩
    have hlow : 65 ≤ c.toNat := UInt32.le_iff_toNat_le.mp hA
    have hhigh : c.toNat ≤ 90 := UInt32.le_iff_toNat_le.mp hZ
    simp only [isBlank, Bool.or_eq_true, Bool.and_eq_true, decide_eq_true_eq, beq_iff_eq] at h
    omega
  exact toLower_of_not_isUpper (decide_eq_false hnot)

theorem flag?_eq_some_iff_trim (s : String) (b : Bool) :
    flag? s = some b ↔ String.ofList ((trim s.toList).map Char.toLower) ∈ flagWords b := by
  unfold flag?
  split <;> cases b <;> simp_all [flagWords]

/-- **The texts that spell a truth value.** -/
theorem flag?_eq_some_iff (s : String) (b : Bool) : flag? s = some b ↔ SpellsFlag s b := by
  rw [flag?_eq_some_iff_trim]
  constructor
  · intro hword
    obtain ⟨before, after, hs, hbefore, hafter⟩ := exists_append_trim s.toList
    exact ⟨before, _, after, hs, hbefore, hafter, hword⟩
  · rintro ⟨before, word, after, hs, hbefore, hafter, hword⟩
    obtain ⟨hne, hsolid⟩ := flagWords_solid b _ hword
    rw [String.toList_ofList] at hne hsolid
    -- lowering the case leaves white space as it is, so there is none in the word as it is written
    have hplain : ∀ c ∈ word, isBlank c = false := by
      intro c hc
      by_contra hblank
      rw [Bool.not_eq_false] at hblank
      have hlower := hsolid _ (List.mem_map_of_mem (f := Char.toLower) hc)
      rw [toLower_of_isBlank hblank, hblank] at hlower
      cases hlower
    have htrim : trim s.toList = word := by
      rw [hs]
      exact trim_append hbefore hafter (fun h => hne (by rw [h, List.map_nil]))
        (fun c hc => hplain c (List.mem_of_mem_head? hc))
        fun c hc => hplain c (List.mem_reverse.mp (List.mem_of_mem_head? hc))
    rwa [htrim]

/-! ## Variables -/

/-- Bytes are a text if they are the bytes of one. -/
theorem fromUTF8?_eq_some_iff {bytes : ByteArray} {s : String} :
    String.fromUTF8? bytes = some s ↔ bytes = s.toUTF8 := by
  unfold String.fromUTF8?
  constructor
  · intro h
    split at h
    · cases h
      rfl
    · cases h
  · rintro rfl
    exact dif_pos s.isValidUTF8

namespace Environment

variable {env : Environment} {var : String}

/-- What a variable says about a switch. -/
inductive Means (env : Environment) (var : String) (default : Bool) : Bool → Prop where
  | spelled {s : String} {b : Bool} (hset : env.get? var = some s.toUTF8) (hs : SpellsFlag s b) :
      Means env var default b
  /-- The variable is not set, or its bytes are no text. -/
  | unread (hunread : ∀ s : String, env.get? var ≠ some s.toUTF8) : Means env var default default

/-- The variable is set to a text that spells no truth value. -/
def Misspells (env : Environment) (var s : String) : Prop :=
  env.get? var = some s.toUTF8 ∧ ∀ b, ¬SpellsFlag s b

/-- The text of a variable is there if its bytes are the bytes of one. -/
theorem text?_eq_some_iff {s : String} :
    env.text? var = some s ↔ env.get? var = some s.toUTF8 := by
  rw [text?, Option.bind_eq_some_iff]
  simp only [fromUTF8?_eq_some_iff]
  constructor
  · rintro ⟨_, hset, rfl⟩
    exact hset
  · exact fun hset => ⟨_, hset, rfl⟩

/-- It is not there where the variable is not set or its bytes are no text: the two look alike. -/
theorem text?_eq_none_iff :
    env.text? var = none ↔ ∀ s : String, env.get? var ≠ some s.toUTF8 := by
  simp only [Option.eq_none_iff_forall_ne_some, ne_eq, text?_eq_some_iff]

/-- **A switch is what its variable says.** -/
theorem flag_eq_ok_iff {default b : Bool} :
    env.flag var default = .ok b ↔ env.Means var default b := by
  unfold flag
  cases htext : env.text? var with
  | none =>
    have hunread := text?_eq_none_iff.mp htext
    constructor
    · rintro ⟨⟩
      exact .unread hunread
    · rintro (⟨hset, -⟩ | -)
      · exact absurd hset (hunread _)
      · rfl
  | some s =>
    have hset := text?_eq_some_iff.mp htext
    constructor
    · intro h
      cases hflag : flag? s with
      | none => simp [hflag] at h
      | some b' =>
        simp only [hflag, Except.ok.injEq] at h
        exact .spelled hset ((flag?_eq_some_iff s b).mp (h ▸ hflag))
    · rintro (⟨hset', hs⟩ | hunread)
      · rw [text?_eq_some_iff.mpr hset'] at htext
        cases htext
        simp [(flag?_eq_some_iff _ b).mpr hs]
      · exact absurd hset (hunread s)

/-- **Reading a switch fails where its variable is misspelt**, and names it. -/
theorem flag_eq_error_iff {default : Bool} {e : InvalidFlag} :
    env.flag var default = .error e ↔ e.var = var ∧ env.Misspells var e.value := by
  unfold flag Misspells
  rw [← text?_eq_some_iff]
  simp only [← flag?_eq_some_iff]
  obtain ⟨name, value⟩ := e
  cases env.text? var with
  | none => simp
  | some s => cases hflag : flag? s <;> grind

end Environment

/-! ## The headline -/

namespace Settings

variable {env : Environment}

theorem ofEnvironment_eq_bind (env : Environment) :
    ofEnvironment env = (env.flag enabledVar true).bind fun enabled =>
      (env.flag redactVar false).bind fun redact => .ok ⟨enabled, redact⟩ := rfl

/-- Both switches have to be read. -/
theorem ofEnvironment_eq_ok_iff {st : Settings} :
    ofEnvironment env = .ok st ↔
      env.flag enabledVar true = .ok st.enabled ∧ env.flag redactVar false = .ok st.redact := by
  obtain ⟨enabled, redact⟩ := st
  rw [ofEnvironment_eq_bind]
  cases env.flag enabledVar true <;> cases env.flag redactVar false <;> simp [Except.bind]

/-- The first variable that is wrong is reported. -/
theorem ofEnvironment_eq_error_iff {e : InvalidFlag} :
    ofEnvironment env = .error e ↔
      env.flag enabledVar true = .error e ∨
        (∃ b, env.flag enabledVar true = .ok b) ∧ env.flag redactVar false = .error e := by
  rw [ofEnvironment_eq_bind]
  cases env.flag enabledVar true <;> cases env.flag redactVar false <;> simp [Except.bind]

/-- **What settings an environment asks for.** Each switch is what its variable spells. Where the bytes
of the variable are no text, as where it is not set, the switch has its default: diagnostics are on, and
values are shown. Reading the settings fails exactly if a variable is set to a text that spells no truth
value, and of two such variables it names the first. -/
theorem ofEnvironment_iff (env : Environment) :
    (∀ st, ofEnvironment env = .ok st ↔
        env.Means enabledVar true st.enabled ∧ env.Means redactVar false st.redact) ∧
      ∀ e, ofEnvironment env = .error e ↔
        (e.var = enabledVar ∧ env.Misspells enabledVar e.value) ∨
          ((∃ b, env.Means enabledVar true b) ∧ e.var = redactVar ∧
            env.Misspells redactVar e.value) := by
  refine ⟨fun st => ?ok, fun e => ?error⟩
  case ok => rw [ofEnvironment_eq_ok_iff, Environment.flag_eq_ok_iff, Environment.flag_eq_ok_iff]
  case error =>
    rw [ofEnvironment_eq_error_iff, Environment.flag_eq_error_iff, Environment.flag_eq_error_iff]
    simp only [Environment.flag_eq_ok_iff]

/-- **Not every variable that is set and spells no truth value is reported**: bytes that are no text
leave the values shown that they were to hide. -/
theorem ofEnvironment_undecodable :
    ¬ ∀ (env : Environment) (bytes : ByteArray), env.get? redactVar = some bytes →
      (∀ (s : String) (b : Bool), bytes = s.toUTF8 → ¬SpellsFlag s b) →
        ∃ e, ofEnvironment env = .error e := by
  intro h
  -- no text has a byte of that value
  have hnoText : String.fromUTF8? ⟨#[0xff]⟩ = none := by decide
  obtain ⟨e, he⟩ := h [(redactVar, ⟨#[0xff]⟩)] ⟨#[0xff]⟩ rfl fun s b hs => by
    rw [fromUTF8?_eq_some_iff.mpr hs] at hnoText
    cases hnoText
  have hshown : ofEnvironment [(redactVar, ⟨#[0xff]⟩)] = .ok ⟨true, false⟩ := rfl
  rw [hshown] at he
  cases he

end Settings

end RecordGuard
