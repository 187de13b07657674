import RecordGuard.Proofs.Guard.Record
import RecordGuard.Proofs.Value.OwnKeys

/-!
# What a record guard says

* **`EnabledThroughout`** — diagnostics are on from the first step of a history to the last.
* **`told`** — the diagnostics of a walk on which nothing is rejected: its notices, and what the
  calls send themselves.
* **`Account`**, **`sent_transcript`** — the diagnostics of any walk: either nothing is rejected, or
  they end with the diagnostic of a rejection, directly behind what the call that rejected has sent.
* **`noticesOf_plan`** — the properties that get a notice.
* **`captured_record`** — the headline.
-/

namespace RecordGuard

/-! ## Settings on the way -/

/-- Diagnostics are on from the first step to the last. -/
def EnabledThroughout (settings : Settings) : List Step → Prop
  | [] => settings.enabled = true
  | x :: rest => settings.enabled = true ∧ EnabledThroughout (x.settingsAfter settings) rest

instance decidableEnabledThroughout : ∀ settings h, Decidable (EnabledThroughout settings h)
  | settings, [] => inferInstanceAs (Decidable (settings.enabled = true))
  | settings, x :: rest =>
    have := decidableEnabledThroughout (x.settingsAfter settings) rest
    inferInstanceAs (Decidable (settings.enabled = true ∧ EnabledThroughout _ rest))

/-- Diagnostics that are on throughout are on at the start. -/
theorem EnabledThroughout.now {settings : Settings} {h : List Step}
    (hon : EnabledThroughout settings h) : settings.enabled = true := by
  cases h with
  | nil => exact hon
  | cons x rest => exact hon.1

/-- On throughout two histories in a row: in the first, and in the second from where the first ends.
-/
theorem enabledThroughout_append {settings : Settings} {h h' : List Step} :
    EnabledThroughout settings (h ++ h') ↔
      EnabledThroughout settings h ∧ EnabledThroughout (settingsAfter settings h) h' := by
  induction h generalizing settings with
  | nil => exact ⟨fun hon => ⟨hon.now, hon⟩, fun hon => hon.2⟩
  | cons x rest ih =>
    rw [List.cons_append, EnabledThroughout, EnabledThroughout, settingsAfter_cons, ih, and_assoc]

theorem sent_emit {settings : Settings} (hon : settings.enabled = true) (d : Diagnostic)
    (h : List Step) : sent settings (.did (.emit d) :: h) = d :: sent settings h := by
  rw [sent, Step.sends, if_pos hon]
  rfl

/-! ## Diagnostics of calls -/

namespace Call

/-- The diagnostics that a validator sends when it is called. -/
def sends (c : Call) (s : Session) : List Diagnostic := sent s.settings (c.body.history s)

theorem settings_after (c : Call) (s : Session) :
    (c.after s).settings = settingsAfter s.settings (c.steps s) := by
  rw [after_eq, Session.replay_eq]

/-- Being asked and answering sends nothing, so the diagnostics of a call are those of its validator.
-/
theorem sent_steps (c : Call) (s : Session) : sent s.settings (c.steps s) = c.sends s := by
  rw [steps, sent_append]
  exact List.append_nil _

end Call

/-- The session that some calls leave, one after the other. -/
def reached (calls : List Call) (s : Session) : Session := calls.foldl (fun s c => c.after s) s

/-- The diagnostics of a walk along stops at which nothing is rejected. -/
def told (schema : String) : List Stop → Session → List Diagnostic
  | [], _ => []
  | .call c :: rest, s => c.sends s ++ told schema rest (c.after s)
  | .notice key :: rest, s => .missing schema key :: told schema rest s

/-- What the diagnostics of a walk may be. -/
inductive Account (schema : String) (stops : List Stop) (s : Session) (ds : List Diagnostic) :
    Prop where
  /-- Every call is accepted. -/
  | accepted (hall : AcceptedInTurn (callsOf stops) s) (hds : ds = told schema stops s)
  /-- The call `c` is the first that is not. What it sends itself is followed by the diagnostic of
  the rejection, and by nothing else. -/
  | rejected (before : List Stop) (c : Call) (rest : List Stop)
      (hstops : stops = before ++ .call c :: rest)
      (hbefore : AcceptedInTurn (callsOf before) s)
      (hrejects : ¬c.Accepts (reached (callsOf before) s))
      (hds : ds = told schema before s ++ c.sends (reached (callsOf before) s) ++
        [.failed (c.after (reached (callsOf before) s)).settings schema c.target c.value])

/-- **A call that is accepted** puts what it sends in front of the account of the rest. -/
theorem Account.call {schema : String} {c : Call} {rest : List Stop} {s : Session}
    {ds : List Diagnostic} (haccepts : c.Accepts s) (h : Account schema rest (c.after s) ds) :
    Account schema (.call c :: rest) s (c.sends s ++ ds) := by
  cases h with
  | accepted hall hds => exact .accepted ⟨haccepts, hall⟩ (by rw [hds, told])
  | rejected before c' others hstops hbefore hrejects hds =>
    -- the rejection further on stays the first one, with this call among those before it
    refine .rejected (.call c :: before) c' others (by rw [hstops, List.cons_append])
      ⟨haccepts, hbefore⟩ hrejects ?_
    rw [hds, told, List.append_assoc, List.append_assoc, List.append_assoc]
    rfl

/-- **A notice** comes in front of the account of the rest. -/
theorem Account.notice {schema key : String} {rest : List Stop} {s : Session}
    {ds : List Diagnostic} (h : Account schema rest s ds) :
    Account schema (.notice key :: rest) s (.missing schema key :: ds) := by
  cases h with
  | accepted hall hds => exact .accepted hall (by rw [hds, told])
  | rejected before c others hstops hbefore hrejects hds =>
    refine .rejected (.notice key :: before) c others (by rw [hstops, List.cons_append]) hbefore
      hrejects ?_
    rw [hds, told]
    rfl

/-- **The diagnostics of a walk.** -/
theorem sent_transcript (schema : String) (stops : List Stop) (s : Session)
    (hon : EnabledThroughout s.settings (transcript schema stops s)) :
    Account schema stops s (sent s.settings (transcript schema stops s)) := by
  -- induction on the stops; where diagnostics are on throughout, they are in what comes behind the
  -- first stop
  induction stops generalizing s with
  | nil => exact .accepted trivial rfl
  | cons stop rest ih =>
    cases stop with
    | call c =>
      by_cases haccepts : c.Accepts s
      · rw [transcript, if_pos haccepts] at hon ⊢
        rw [enabledThroughout_append, ← Call.settings_after] at hon
        rw [sent_append, Call.sent_steps, ← Call.settings_after]
        exact (ih (c.after s) hon.2).call haccepts
      · rw [transcript, if_neg haccepts] at hon ⊢
        rw [enabledThroughout_append, ← Call.settings_after] at hon
        rw [sent_append, Call.sent_steps, ← Call.settings_after]
        -- nothing stands before this call, and its rejection is the last thing that is said
        refine .rejected [] c rest rfl trivial haccepts ?_
        rw [sent_emit hon.2.now]
        rfl
    | notice key =>
      rw [transcript] at hon ⊢
      rw [sent_emit hon.now]
      exact (ih s hon.2).notice

/-! ## The stops of a plan -/

/-- **The properties that get a notice** are the own keys that nothing validates and no step leaves
out. -/
theorem noticesOf_plan (ss : List BuildStep) (v : Value) :
    noticesOf (plan ss v) = v.ownKeys.filter (isNoticed ss) := by
  unfold plan Value.ownKeys
  cases v.entries? with
  | none => rfl
  | some entries =>
    show noticesOf (_ ++ _) = _
    rw [noticesOf_append, noticesOf_map, List.nil_append, noticesOf_flatMap_entryStops,
      Option.getD_some]

/-- A call of a plan puts the candidate or the value of an own entry to its validator. -/
theorem part_of_mem_plan {ss : List BuildStep} {v : Value} {c : Call} (hc : .call c ∈ plan ss v) :
    (c.target = .root ∧ c.value = v) ∨
      ∃ entries key, v.entries? = some entries ∧ c.target = .property key ∧
        (key, c.value) ∈ entries := by
  have hqueue : c ∈ queue ss v := by
    rw [← callsOf_plan]
    exact mem_callsOf.mpr hc
  unfold queue at hqueue
  cases hentries : v.entries? with
  | none => simp [hentries] at hqueue
  | some entries =>
    rw [hentries] at hqueue
    rcases List.mem_append.mp hqueue with hroot | hproperty
    · obtain ⟨validator, -, rfl⟩ := List.mem_map.mp hroot
      exact .inl ⟨rfl, rfl⟩
    · obtain ⟨entry, hentry, hcall⟩ := List.mem_flatMap.mp hproperty
      obtain ⟨validator, -, rfl⟩ := List.mem_map.mp hcall
      exact .inr ⟨entries, entry.1, rfl, rfl, hentry⟩

/-! ## The headline -/

/-- **What a capture around a check of a record collects.** Let a guard be built of any steps in any
order, and let diagnostics be on throughout the check. Then what is collected is an account of the
plan. If every call is accepted, it is what each call sends, in its turn, with a notice for every
property that is passed unvalidated in between. Otherwise it is that for the stops before the first
call that is not accepted, then what this call sends, and then, as the last, the diagnostic that its
part of the candidate was rejected: the whole candidate, or the value of an own entry. The properties
of the notices are the own keys that have no validator and whose notice is not left out, if no
validator is given for the whole; they stand in order and none stands twice. -/
theorem captured_record (schema : String) (ss : List BuildStep) (candidate : Candidate)
    (s : Session)
    (hon : EnabledThroughout s.settings
      (((recordGuard schema ss).check candidate.value).history s)) :
    let v := candidate.value
    ∃ verdict ds,
      (Run.capture ((recordGuard schema ss).verdict v) s).1 = some (verdict, ds) ∧
      Account schema (plan ss v) s ds ∧
      (∀ c, .call c ∈ plan ss v →
        (c.target = .root ∧ c.value = v) ∨
          ∃ entries key, v.entries? = some entries ∧ c.target = .property key ∧
            (key, c.value) ∈ entries) ∧
      noticesOf (plan ss v) = v.ownKeys.filter (isNoticed ss) ∧
      (noticesOf (plan ss v)).Nodup := by
  intro v
  obtain ⟨verdict, hverdict, -⟩ := verdict_record schema ss v s
  have hrun : (((recordGuard schema ss).check v).run s).1 = some verdict := hverdict
  have hsent : sent s.settings (((recordGuard schema ss).check v).history s) =
      sent s.settings (transcript schema (plan ss v) s) := by
    rw [history_record, sent_append]
    exact List.append_nil _
  have hcapture : (Run.capture ((recordGuard schema ss).verdict v) s).1 =
      some (verdict, sent s.settings (transcript schema (plan ss v) s)) := by
    have hcollects := ((recordGuard schema ss).check v).traced.collects s
    rw [hsent, hrun] at hcollects
    exact congrArg Prod.fst hcollects
  -- the question and its answer around the walk send nothing and change no settings
  have hwalk : EnabledThroughout s.settings (transcript schema (plan ss v) s) := by
    rw [history_record] at hon
    exact (enabledThroughout_append.mp hon).1.2
  have hnotices : noticesOf (plan ss v) = v.ownKeys.filter (isNoticed ss) := noticesOf_plan ss v
  refine ⟨verdict, _, hcapture, sent_transcript schema (plan ss v) s hwalk, ?_, hnotices, ?_⟩
  · intro c hc
    exact part_of_mem_plan hc
  · rw [hnotices]
    exact candidate.nodup_ownKeys.filter _

/-- A record of which the second property has a validator that sends a diagnostic and unwinds. The
first gets a notice, the third is not reached. -/
theorem captured_record_unwound :
    let ss : List BuildStep :=
      [.property "id" (.code fun _ => .perform (.emit .memberFailed) fun _ => .panic)]
    let candidate : Candidate :=
      .object ⟨[("name", .null), ("id", .null), ("age", .null)], by decide⟩
    let v := candidate.value
    let s := Session.start .standard
    EnabledThroughout s.settings (((recordGuard "User" ss).check v).history s) ∧
    ∃ verdict ds,
      (Run.capture ((recordGuard "User" ss).verdict v) s).1 = some (verdict, ds) ∧
      ds = [.missing "User" "name", .memberFailed,
        .failed .standard "User" (.property "id") .null] ∧
      ¬AcceptedInTurn (queue ss v) s := by
  intro ss candidate v s
  have hon : EnabledThroughout s.settings (((recordGuard "User" ss).check v).history s) := by
    decide
  obtain ⟨verdict, ds, hcapture, -, -, -, -⟩ := captured_record "User" ss candidate s hon
  have hds : some (false, [.missing "User" "name", .memberFailed,
      .failed .standard "User" (.property "id") .null]) = some (verdict, ds) := hcapture
  refine ⟨hon, verdict, ds, hcapture, ?_, ?_⟩
  · exact (Prod.ext_iff.mp (Option.some.inj hds)).2.symm
  · rintro ⟨haccepts, -⟩
    exact absurd haccepts (by decide)

end RecordGuard
