import Qlong.Lead.Staging
import Qlong.Lead.Deliveries
import Qlong.Lead.Records
import Qlong.Node.ExactlyOnce

/-!
# A project is done only on a judged delivery

What makes a judgement usable is that it names what it is about: the digest of the envelope, and
the digest of everything in the persisted task that the acceptance depends on. The invariant
`Traced` says where each `true` among the judgements comes from: a call that was begun, answered
by the collector and answered by the resolver in the past of the run, whose delivery passed.
When a result completes the task, both digests agree with the envelope and the task at hand
(**`project_done_verified`**), so none of the interleavings between a call and the delivery
matters.
-/

namespace Qlong
namespace Lead

open Lib Node Collab

/-! ## The digests -/

/-- What `acceptanceContext` is the digest of. -/
def contextJson (task : DurableLeadTask) : Json :=
  let r := task.record
  .object
    [("task_id", some (.str r.task_id)), ("attempt", some (.num r.attempt)),
      ("target", some (nodeOrNull r.target)), ("kind", some (.str (kindText r.kind))),
      ("state", some (.str r.state.text)), ("task_seq", some (.num task.task_seq)),
      ("drainClosed", some (.bool (r.drainClosed.getD false))),
      ("contract", some (r.contract.getD .null))]

/-- The fields of the task in the order of their names. -/
theorem canonical_contextJson (task : DurableLeadTask) : (contextJson task).canonical = .obj
    [("attempt", .num task.record.attempt), ("contract", (task.record.contract.getD .null).canonical),
      ("drainClosed", .bool (task.record.drainClosed.getD false)),
      ("kind", .str (kindText task.record.kind)), ("state", .str task.record.state.text),
      ("target", nodeOrNull task.record.target), ("task_id", .str task.record.task_id),
      ("task_seq", .num task.task_seq)] := by
  have htarget : (nodeOrNull task.record.target).canonical = nodeOrNull task.record.target := by
    cases task.record.target <;> rfl
  simp only [contextJson, Json.object, List.filterMap_cons, Option.map_some, List.filterMap_nil, Json.canonical,
    Json.canonicalFields, htarget]
  simp (disch := decide) only [Json.insertField, if_pos, if_neg]

theorem nodeOrNull_inj {a b : Option String} (h : nodeOrNull a = nodeOrNull b) : a = b := by
  cases a <;> cases b <;> simp_all [nodeOrNull]

/-- Two tasks with the same acceptance context, read back field by field. -/
structure SameContext (a b : DurableLeadTask) : Prop where
  task_id : a.record.task_id = b.record.task_id
  attempt : a.record.attempt = b.record.attempt
  target : a.record.target = b.record.target
  state : a.record.state = b.record.state
  task_seq : a.task_seq = b.task_seq
  drainClosed : a.record.drainClosed.getD false = b.record.drainClosed.getD false
  contract : a.record.contract.map Json.canonical = b.record.contract.map Json.canonical

theorem text_inj {a b : LeadState} (h : a.text = b.text) : a = b := by
  have := LeadState.ofText_text a
  rw [h, LeadState.ofText_text b] at this
  exact (Option.some.inj this).symm

/-- A contract that passes the admission test is not `null`. -/
theorem contract_not_null {c : Json} (h : isLeadContract (some c) = true) : c.canonical ≠ .null := by
  cases c with
  | null => exact absurd h (by simp [isLeadContract, Json.isRecord])
  | bool | num | str => exact absurd h (by simp [isLeadContract, Json.isRecord])
  | arr => exact absurd h (by simp [isLeadContract, Json.isRecord])
  | obj fields => simp [Json.canonical]

theorem sameContext_of_canonical {a b : DurableLeadTask} (ha : a.Valid) (hb : b.Valid)
    (h : (contextJson a).canonical = (contextJson b).canonical) : SameContext a b := by
  rw [canonical_contextJson, canonical_contextJson] at h
  simp only [Json.obj.injEq, List.cons.injEq, Prod.mk.injEq, true_and, Json.num.injEq, Json.str.injEq,
    Json.bool.injEq, and_true] at h
  obtain ⟨hatt, hcontract, hdrain, -, hstate, htarget, hid, hseq⟩ := h
  refine ⟨hid, hatt, nodeOrNull_inj htarget, text_inj hstate, hseq, hdrain, ?_⟩
  have hac := ha.contract
  have hbc := hb.contract
  cases hca : a.record.contract with
  | none =>
    cases hcb : b.record.contract with
    | none => rfl
    | some c =>
      rw [hca, hcb] at hcontract
      rw [hcb] at hbc
      exact absurd hcontract.symm (contract_not_null hbc)
  | some c =>
    rw [hca] at hac hcontract
    cases hcb : b.record.contract with
    | none =>
      rw [hcb] at hcontract
      exact absurd hcontract (contract_not_null hac)
    | some d =>
      rw [hcb] at hcontract
      exact congrArg some hcontract

/-! ## Where judgements come from -/

abbrev StagingHistory := List (Entry StagingLead StagingLabel)

/-- The call was begun in `past`. -/
def Begun (cfg : LeadConfig) (ports : ArtifactPorts) (x : Entry StagingLead StagingLabel) (st : Stage) : Prop :=
  ∃ now, x.label = .begin st.e now ∧ StagingLead.newStage cfg ports x.pre st.e now = some { st with files := none }

/-- A call that waits was begun in the past and, when it waits for the key, answered by the
    collector since. -/
def InFlight (cfg : LeadConfig) (ports : ArtifactPorts) (past : StagingHistory) (st : Stage) : Prop :=
  match st.files with
  | none => ∃ x, [x].Sublist past ∧ Begun cfg ports x st
  | some files => ∃ x y, [y, x].Sublist past ∧ Begun cfg ports x st ∧
      y.label = .collected st.token (.answered true (some files))

/-- A call that has run to a judgement: begun, answered by the collector, answered by the
    resolver, in this order in `past`, with the delivery `input` passing. -/
def Obtained (cfg : LeadConfig) (ports : ArtifactPorts) (past : StagingHistory) (st : Stage)
    (input : DeliveryInput) : Prop :=
  ∃ x y z files pub, [z, y, x].Sublist past ∧ Begun cfg ports x st ∧
    y.label = .collected st.token (.answered true (some files)) ∧
    z.label = .resolved st.token (.answered (some pub)) ∧
    input = st.input files pub ∧ verifyArtifactDelivery ports.host input = true

/-- Every call in flight has a past, and so has every `true` among the judgements. -/
structure Traced (cfg : LeadConfig) (ports : ArtifactPorts) (past : StagingHistory) (s : StagingLead) : Prop where
  stages : ∀ st ∈ s.stages, InFlight cfg ports past st
  verdicts : ∀ v ∈ s.lead.verdicts, v.2.verdict = some true →
    ∃ st input, Obtained cfg ports past st input ∧ v = (st.request.taskId, st.entry cfg (some true))

section

variable {cfg : LeadConfig} {ports : ArtifactPorts} {past : StagingHistory} {s : StagingLead}

theorem InFlight.later {st : Stage} (h : InFlight cfg ports past st) (x : Entry StagingLead StagingLabel) :
    InFlight cfg ports (x :: past) st := by
  unfold InFlight at h ⊢
  split at h
  · obtain ⟨b, hsub, hb⟩ := h
    exact ⟨b, hsub.cons x, hb⟩
  · obtain ⟨b, c, hsub, hb⟩ := h
    exact ⟨b, c, hsub.cons x, hb⟩

theorem Obtained.later {st : Stage} {input : DeliveryInput} (h : Obtained cfg ports past st input)
    (x : Entry StagingLead StagingLabel) : Obtained cfg ports (x :: past) st input := by
  obtain ⟨a, b, c, files, pub, hsub, h⟩ := h
  exact ⟨a, b, c, files, pub, hsub.cons x, h⟩

/-- Nothing new in flight and nothing new judged. -/
theorem Traced.less {s' : StagingLead} (h : Traced cfg ports past s) (x : Entry StagingLead StagingLabel)
    (hstages : ∀ st ∈ s'.stages, st ∈ s.stages) (hverdicts : ∀ v ∈ s'.lead.verdicts, v ∈ s.lead.verdicts) :
    Traced cfg ports (x :: past) s' := by
  refine ⟨fun st hst => (h.stages st (hstages st hst)).later x, fun v hv htrue => ?_⟩
  obtain ⟨st, input, hob, heq⟩ := h.verdicts v (hverdicts v hv) htrue
  exact ⟨st, input, hob.later x, heq⟩

theorem abandon_less (st : Stage) : (∀ x ∈ (s.abandon st).stages, x ∈ s.stages) ∧
    ∀ v ∈ (s.abandon st).lead.verdicts, v ∈ s.lead.verdicts := by
  unfold StagingLead.abandon
  split
  · exact ⟨fun x hx => (List.mem_filter.mp hx).1, fun v hv => (List.mem_filter.mp hv).1⟩
  · exact ⟨fun x hx => (List.mem_filter.mp hx).1, fun v hv => hv⟩

theorem newStage_waits {e : Json} {now : Int} {st : Stage}
    (h : StagingLead.newStage cfg ports s e now = some st) : st.e = e ∧ st.files = none := by
  unfold StagingLead.newStage at h
  split at h
  · simp only [Option.bind_eq_bind, Option.bind_eq_some_iff] at h
    obtain ⟨signed, -, taskId, -, task, -, h⟩ := h
    split at h
    · simp only [Option.bind_eq_some_iff] at h
      obtain ⟨repo, -, h⟩ := h
      obtain rfl := Option.some.inj h
      exact ⟨rfl, rfl⟩
    · exact absurd h (by simp)
  · exact absurd h (by simp)

theorem waiting_mem {token : Nat} {st : Stage} (h : s.waiting token = some st) :
    st ∈ s.stages ∧ st.token = token :=
  ⟨List.mem_of_find?_eq_some h, by simpa using List.find?_some h⟩

/-- Whatever a call waits for, it was begun. -/
theorem InFlight.begun {st : Stage} (h : InFlight cfg ports past st) :
    ∃ x, [x].Sublist past ∧ Begun cfg ports x st := by
  unfold InFlight at h
  split at h
  · exact h
  · obtain ⟨x, y, hsub, hb, -⟩ := h
    exact ⟨x, (List.sublist_cons_self y [x]).trans hsub, hb⟩

theorem Traced.begin {e : Json} {now : Int} (h : Traced cfg ports past s) :
    Traced cfg ports (⟨s, .begin e now, s.beginStage cfg ports e now⟩ :: past)
      (s.beginStage cfg ports e now) := by
  unfold StagingLead.beginStage
  split
  · rename_i st hnew
    split
    · exact h.less _ (fun _ hst => hst) fun _ hv => hv
    · obtain ⟨he, hfiles⟩ := newStage_waits hnew
      refine ⟨fun x hx => ?_, fun v hv htrue => ?_⟩
      · rcases List.mem_append.mp hx with hx | hx
        · exact (h.stages x hx).later _
        · rw [List.mem_singleton] at hx
          subst hx
          have hself : { x with files := none } = x := by rw [← hfiles]
          unfold InFlight
          rw [hfiles]
          refine ⟨_, List.singleton_sublist.mpr List.mem_cons_self, now, by rw [he], ?_⟩
          rw [hself, he]
          exact hnew
      · rcases List.mem_cons.mp hv with rfl | hv
        · exact absurd htrue (by simp [Stage.entry])
        · obtain ⟨st', input, hob, heq⟩ := h.verdicts v (List.mem_filter.mp hv).1 htrue
          exact ⟨st', input, hob.later _, heq⟩
  · exact h.less _ (fun _ hst => hst) fun _ hv => hv

theorem Traced.collected {token : Nat} {reply : CollectReply} (h : Traced cfg ports past s) :
    Traced cfg ports (⟨s, .collected token reply, s.onCollected token reply⟩ :: past)
      (s.onCollected token reply) := by
  unfold StagingLead.onCollected
  split
  · rename_i st hst
    split
    · exact h.less _ (fun _ hst => hst) fun _ hv => hv
    · split
      · rename_i files _
        refine ⟨fun x hx => ?_, fun v hv htrue => ?_⟩
        · obtain ⟨x0, hx0, rfl⟩ := List.mem_map.mp hx
          by_cases htoken : x0.token = token
          · rw [if_pos htoken]
            obtain ⟨b, hsub, now, hlabel, hnew⟩ := (h.stages x0 hx0).begun
            refine ⟨b, _, hsub.cons_cons _, ⟨now, hlabel, hnew⟩, ?_⟩
            rw [htoken]
          · rw [if_neg htoken]
            exact (h.stages x0 hx0).later _
        · obtain ⟨st', input, hob, heq⟩ := h.verdicts v hv htrue
          exact ⟨st', input, hob.later _, heq⟩
      · exact h.less _ (abandon_less st).1 (abandon_less st).2
  · exact h.less _ (fun _ hst => hst) fun _ hv => hv

theorem Traced.resolved {token : Nat} {reply : ResolveReply} (h : Traced cfg ports past s) :
    Traced cfg ports (⟨s, .resolved token reply, s.onResolved cfg ports token reply⟩ :: past)
      (s.onResolved cfg ports token reply) := by
  unfold StagingLead.onResolved
  split
  · rename_i st hst
    obtain ⟨hmem, htoken⟩ := waiting_mem hst
    split
    · rename_i files pub hfiles
      dsimp only
      split
      · refine ⟨fun x hx => (h.stages x (List.mem_filter.mp hx).1).later _, fun v hv htrue => ?_⟩
        rcases List.mem_cons.mp hv with rfl | hv
        · -- the judgement this call has just come to
          have hflight := h.stages st hmem
          unfold InFlight at hflight
          rw [hfiles] at hflight
          obtain ⟨x, y, hsub, hb, hy⟩ := hflight
          have hpass : verifyArtifactDelivery ports.host (st.input files pub) = true := by
            simpa [Stage.entry] using htrue
          refine ⟨st, _, ⟨x, y, _, files, pub, hsub.cons_cons _, hb, hy, ?_, rfl, hpass⟩, ?_⟩
          · rw [htoken]
          · rw [hpass]
        · obtain ⟨st', input, hob, heq⟩ := h.verdicts v (List.mem_filter.mp hv).1 htrue
          exact ⟨st', input, hob.later _, heq⟩
      · exact h.less _ (abandon_less st).1 (abandon_less st).2
    · exact h.less _ (abandon_less st).1 (abandon_less st).2
    · exact h.less _ (fun _ hst => hst) fun _ hv => hv
  · exact h.less _ (fun _ hst => hst) fun _ hv => hv

theorem run_traced {hist : StagingHistory} (run : Run (stagingSystem cfg ports) hist s) :
    Traced cfg ports hist s := by
  refine run.history ?_ ?_
  · intro s hs
    simp only [stagingSystem] at hs
    subst hs
    exact ⟨fun st hst => absurd hst (by simp), fun v hv => absurd hv (by simp)⟩
  · intro past x _ _ hstep ih
    obtain ⟨pre, label, post⟩ := x
    cases label with
    -- an operation may use up verdicts; a restart loses the stages with them, a fault the verdicts only
    | op op =>
      simp only [stagingSystem] at hstep
      subst hstep
      exact ih.less _ (fun _ hst => hst) fun v hv => DurableLead.execute_trims op v hv
    | elsewhere call =>
      simp only [stagingSystem] at hstep
      obtain ⟨-, rfl⟩ := hstep
      exact ih.less _ (fun _ hst => hst) fun _ hv => hv
    | fault =>
      simp only [stagingSystem] at hstep
      subst hstep
      exact ih.less _ (fun _ hst => hst) fun v hv => absurd hv (by simp)
    | restart =>
      simp only [stagingSystem] at hstep
      subst hstep
      exact ih.less _ (fun st hst => absurd hst (by simp)) fun v hv => absurd hv (by simp)
    | begin e now =>
      simp only [stagingSystem] at hstep
      subst hstep
      exact ih.begin
    | collected token reply =>
      simp only [stagingSystem] at hstep
      subst hstep
      exact ih.collected
    | resolved token reply =>
      simp only [stagingSystem] at hstep
      subst hstep
      exact ih.resolved

/-! ## What a begun call has seen -/

/-- The checks of the first stretch, read back. -/
structure Seen (s : StagingLead) (st : Stage) : Prop where
  persisted : Holds s.lead (leadStateKey st.request.taskId) st.task
  attempt : Env.attempt st.e = some st.task.record.attempt
  target : st.task.record.target = some (Env.fromNode st.e)

theorem persisted_holds {l : DurableLead} {taskId : String} {task : DurableLeadTask}
    (h : StagingLead.persisted l taskId = some task) : Holds l (leadStateKey taskId) task := by
  unfold StagingLead.persisted at h
  split at h
  · rename_i row hread
    have hrow := readState_ok hread
    subst hrow
    split at h
    · rename_i t hdec
      subst h
      obtain ⟨row, hrow⟩ := DurableLead.decode_some_row hdec
      exact ⟨row, hrow, hrow ▸ hdec⟩
    · exact absurd h (by simp)
  · exact absurd h (by simp)

theorem newStage_seen {e : Json} {now : Int} {st : Stage}
    (h : StagingLead.newStage cfg ports s e now = some st) : Seen s st := by
  unfold StagingLead.newStage at h
  split at h
  · simp only [Option.bind_eq_bind, Option.bind_eq_some_iff] at h
    obtain ⟨signed, -, taskId, -, task, htask, h⟩ := h
    split at h
    · rename_i hchecks
      simp only [Bool.and_eq_true, decide_eq_true_eq] at hchecks
      simp only [Option.bind_eq_some_iff] at h
      obtain ⟨repo, -, h⟩ := h
      obtain rfl := Option.some.inj h
      exact ⟨persisted_holds htask, hchecks.1.2, hchecks.2⟩
    · exact absurd h (by simp)
  · exact absurd h (by simp)

/-! ## The digests of a run -/

/-- The acceptance contexts of the tasks a lead holds. -/
def contexts (s : DurableLead) : List Json :=
  s.tables.state.filterMap fun row =>
    match DurableLead.decode (some row) with
    | .ok (some task) => some (contextJson task)
    | _ => none

/-- The envelope a step is about. -/
def StagingLabel.envelopes : StagingLabel → List Json
  | .op (.consume _ e _ _) => [e]
  | .begin e _ => [e]
  | _ => []

/-- What a run takes digests of: its envelopes and the contexts of its tasks. -/
def digested (hist : StagingHistory) : List Json :=
  hist.flatMap fun x => x.label.envelopes ++ contexts x.pre.lead

theorem context_digested {hist : StagingHistory} {x : Entry StagingLead StagingLabel} (hx : x ∈ hist)
    {key : String} {task : DurableLeadTask} (h : Holds x.pre.lead key task) :
    contextJson task ∈ digested hist := by
  obtain ⟨row, hrow, hdec⟩ := h
  refine List.mem_flatMap.mpr ⟨x, hx, List.mem_append_right _ ?_⟩
  exact List.mem_filterMap.mpr ⟨row, Table.lookup_some_mem hrow, by simp only [hdec]⟩

theorem envelope_digested {hist : StagingHistory} {x : Entry StagingLead StagingLabel} (hx : x ∈ hist)
    {e : Json} (h : e ∈ x.label.envelopes) : e ∈ digested hist :=
  List.mem_flatMap.mpr ⟨x, hx, List.mem_append_left _ h⟩

/-- What the judgement of a delivery was made on is what is in force for the task at hand. -/
structure InForce (input : DeliveryInput) (task : DurableLeadTask) : Prop where
  taskId : input.taskId = task.record.task_id
  attempt : input.attempt = task.record.attempt
  target : task.record.target = some input.fromNodeId
  contract : input.contract.map Json.canonical = task.record.contract.map Json.canonical

/-- The validator of a project passes on a judgement of this envelope in this context only. -/
theorem validator_project {l : DurableLead} {task : DurableLeadTask} {e body : Json}
    (hval : cfg.validateAcceptance = none) (hkind : task.record.kind = .project)
    (h : DurableLead.validator cfg l.verdicts task e body = true) :
    ∃ v ∈ l.verdicts, v.1 = task.record.task_id ∧ v.2.verdict = some true ∧
      v.2.context = DurableLead.acceptanceContext cfg task ∧ v.2.delivery = cfg.store.host.digest e := by
  unfold DurableLead.validator DurableLead.projectValidator at h
  rw [hval, Option.getD_none, hkind] at h
  dsimp only at h
  split at h
  · rename_i id v hfind
    simp only [decide_eq_true_eq] at h
    exact ⟨(id, v), List.mem_of_find?_eq_some hfind, by simpa using List.find?_some hfind, h.2.2, h.1, h.2.1⟩
  · exact absurd h (by simp)

/-- A judgement of the run that agrees with an envelope and a task in both digests is in force
    for them. -/
theorem inForce_of_obtained {hist : StagingHistory} {x : Entry StagingLead StagingLabel} {st : Stage}
    {input : DeliveryInput} {e : Json} {task : DurableLeadTask} {key : String}
    (hfree : CollisionFree cfg.store.host (digested hist)) (hpast : ∀ y ∈ past, y ∈ hist) (hx : x ∈ hist)
    (hobtained : Obtained cfg ports past st input) (he : e ∈ x.label.envelopes) (htask : Holds x.pre.lead key task)
    (hid : st.request.taskId = task.record.task_id)
    (hcontext : (st.entry cfg (some true)).context = DurableLead.acceptanceContext cfg task)
    (hdelivery : (st.entry cfg (some true)).delivery = cfg.store.host.digest e) :
    st.e.canonical = e.canonical ∧ SameContext st.task task ∧ InForce input task := by
  obtain ⟨b, y, z, files, pub, hsub, ⟨now, hlabel, hnew⟩, -, -, rfl, -⟩ := hobtained
  have hb : b ∈ hist := hpast b (hsub.subset (by simp))
  have hseen := newStage_seen hnew
  have hsame : SameContext st.task task := by
    refine sameContext_of_canonical ?_ ?_ ?_
    · obtain ⟨row, -, hdec⟩ := hseen.persisted
      exact decode_valid hdec
    · obtain ⟨row, -, hdec⟩ := htask
      exact decode_valid hdec
    · exact hfree _ (context_digested hb hseen.persisted) _ (context_digested hx htask) hcontext
  refine ⟨hfree _ (envelope_digested hb ?_) _ (envelope_digested hx he) hdelivery, hsame, ?_⟩
  · rw [hlabel]
    exact List.mem_singleton.mpr rfl
  · exact ⟨hid, hsame.attempt, hsame.target ▸ hseen.target, hsame.contract⟩

/-- A step that completes a task is a delivery or a takeover. -/
theorem completes_by {x : Entry StagingLead StagingLabel} {hist : StagingHistory} {s : StagingLead}
    (run : Run (stagingSystem cfg ports) hist s) (hx : x ∈ hist) {key : String}
    (hkey : isLeadKey key = true) (hpost : DoneAt x.post.lead key) (hpre : ¬ DoneAt x.pre.lead key) :
    (∃ bundle, x.label = .op (.importTasks bundle)) ∨
    ∃ amb e authorized now, x.label = .op (.consume amb e authorized now) := by
  have hstep := run.step_of_mem x hx
  obtain ⟨newer, older, rfl⟩ := List.append_of_mem hx
  obtain ⟨hist', run'⟩ := staging_lead run.before
  have hkeyed := lead_keyed run'
  -- a step that leaves the tables alone completes nothing
  have hsame : x.post.lead.tables = x.pre.lead.tables → False := by
    intro htables
    obtain ⟨task, hholds, hdone⟩ := hpost
    exact hpre ⟨task, holds_congr (by rw [htables]) hholds, hdone⟩
  obtain ⟨pre, label, post⟩ := x
  dsimp only at *
  cases label with
  | op op =>
    simp only [stagingSystem] at hstep
    subst hstep
    by_contra hno
    simp only [StagingLabel.op.injEq, not_or, not_exists] at hno
    refine hpre (execute_done_kept ?_ ?_ hkeyed hpost)
    · exact fun amb e authorized now => hno.2 amb e authorized now
    · exact hno.1
  | elsewhere call =>
    simp only [stagingSystem] at hstep
    obtain ⟨hforeign, rfl⟩ := hstep
    obtain ⟨task, hholds, hdone⟩ := hpost
    have hframe : LeadFrame pre.lead.tables (Node.perform cfg.store pre.lead.tables call).2 :=
      leadFrame_of_write (perform_write (Prod.ext rfl rfl)).1 hforeign
    exact absurd ⟨task, holds_congr (hframe.state key hkey) hholds, hdone⟩ hpre
  | fault | restart =>
    simp only [stagingSystem] at hstep
    subst hstep
    exact (hsame rfl).elim
  | begin e now =>
    simp only [stagingSystem] at hstep
    subst hstep
    exact (hsame (by rw [beginStage_lead])).elim
  | collected token reply =>
    simp only [stagingSystem] at hstep
    subst hstep
    exact (hsame (by rw [onCollected_lead])).elim
  | resolved token reply =>
    simp only [stagingSystem] at hstep
    subst hstep
    exact (hsame (by rw [onResolved_lead])).elim

/-- **A project is done only on a judged delivery.** In every run of a lead without an injected
    validator, with any number of `stageArtifactVerification` calls in flight: when a project
    becomes done, other than by a takeover of its archive, then by the delivery of an authorized
    envelope `e`, and a call for that very envelope has come to a passing judgement in the past
    of the run, made on the task id, the attempt, the target and the contract that the persisted
    task has when `e` is consumed, and begun on the state revision (the state, the report counter,
    the drain) it has then. -/
theorem project_done_verified {hist : StagingHistory} {s : StagingLead}
    (run : Run (stagingSystem cfg ports) hist s) (hval : cfg.validateAcceptance = none)
    (hfree : CollisionFree cfg.store.host (digested hist)) :
    ∀ later x past, hist = later ++ x :: past → ∀ taskId before after,
      Holds x.pre.lead (leadStateKey taskId) before → Holds x.post.lead (leadStateKey taskId) after →
      before.record.kind = .project → before.record.state ≠ .done → after.record.state = .done →
      (∃ bundle, x.label = .op (.importTasks bundle)) ∨
      ∃ amb e now st input, x.label = .op (.consume amb e true now) ∧
        Obtained cfg ports past st input ∧ st.e.canonical = e.canonical ∧
        SameContext st.task before ∧ InForce input before := by
  rintro later x past rfl taskId before after hbefore hafter hkind hpre hpost
  have hx : x ∈ later ++ x :: past := by simp
  -- one value is held at a key, so `before` is what the step read
  have huniq : ∀ task, Holds x.pre.lead (leadStateKey taskId) task → task = before := by
    rintro task ⟨row, hrow, hdec⟩
    obtain ⟨row', hrow', hdec'⟩ := hbefore
    obtain rfl := Option.some.inj (hrow.symm.trans hrow')
    exact Option.some.inj (Except.ok.inj (hdec.symm.trans hdec'))
  have hnotdone : ¬ DoneAt x.pre.lead (leadStateKey taskId) := by
    rintro ⟨task, hholds, hdone⟩
    exact hpre (huniq task hholds ▸ hdone)
  rcases completes_by run hx (isLeadKey_leadStateKey taskId) ⟨after, hafter, hpost⟩ hnotdone with
    himport | ⟨amb, e, authorized, now, hlabel⟩
  · exact Or.inl himport
  · right
    have hstep := run.step_of_mem x hx
    rw [show x.label = .op (.consume amb e authorized now) from hlabel] at hstep
    have hlead : x.post.lead = Command.after (DurableLead.consume cfg amb e authorized now x.pre.lead) :=
      congrArg StagingLead.lead hstep
    have htraced := run_traced run.before
    rcases @DurableLead.consume_state cfg amb e authorized now x.pre.lead with
      hsame | ⟨id, task, result, t', hdel, hstate⟩
    · refine absurd ⟨after, holds_congr ?_ hafter, hpost⟩ hnotdone
      rw [hlead, hsame]
    · have hread : ∀ task, Holds x.post.lead (leadStateKey taskId) task →
          Holds { x.post.lead with tables := t' } (leadStateKey taskId) task := fun _ hh =>
        holds_congr (by rw [hlead, hstate]) hh
      obtain ⟨revision, hstored⟩ := hdel.stored
      by_cases hid : taskId = id
      · subst hid
        obtain rfl := huniq task hdel.holds
        have hafter' : after = result.value := holds_stored hstored (hread after hafter)
        obtain ⟨hheeded, -, -, -, hpass⟩ :=
          DurableLead.consumeEvent_done hdel.computed (hafter' ▸ hpost) hpre
        have hauth : authorized = true := by
          simp only [DurableLead.isHeeded, Bool.and_eq_true] at hheeded
          exact hheeded.1.1.2
        subst hauth
        -- a project passes only with a verdict of `true`, which a staged delivery left behind
        obtain ⟨v, hv, hvid, hvtrue, hcontext, hdelivery⟩ := validator_project hval hkind hpass
        obtain ⟨st, input, hobtained, rfl⟩ := htraced.verdicts v hv hvtrue
        have hforce := inForce_of_obtained hfree (fun y hy => by simp [hy]) hx hobtained
          (by rw [hlabel]; exact List.mem_singleton.mpr rfl) hbefore hvid hcontext hdelivery
        exact ⟨amb, e, now, st, input, hlabel, hobtained, hforce.1, hforce.2.1, hforce.2.2⟩
      · -- the delivery was about another task
        refine absurd ⟨after, ?_, hpost⟩ hnotdone
        refine holds_congr ?_ (hread after hafter)
        rw [hstored.lookup, if_neg fun h => hid (leadStateKey_injective h)]

end

/-! ## A project that is delivered and judged -/

namespace JudgedRun

/-- What drives the sample: calls of the lead, arrivals, and the three stretches of a call. -/
inductive Input where
  | op (op : Op)
  | receive (e : Json)
  | begin (e : Json) (now : Int)
  | collected (token : Nat) (reply : CollectReply)
  | resolved (token : Nat) (reply : ResolveReply)

/-- One input as a labelled step. -/
def feed (cfg : LeadConfig) (ports : ArtifactPorts) (s : StagingLead) : Input → StagingLabel × StagingLead
  | .op op => (.op op, { s with lead := Command.after (DurableLead.execute cfg op s.lead) })
  | .receive e => (.elsewhere (.receive e),
      { s with lead := { s.lead with tables := (Node.perform cfg.store s.lead.tables (.receive e)).2 } })
  | .begin e now => (.begin e now, s.beginStage cfg ports e now)
  | .collected token reply => (.collected token reply, s.onCollected token reply)
  | .resolved token reply => (.resolved token reply, s.onResolved cfg ports token reply)

theorem feed_step (cfg : LeadConfig) (ports : ArtifactPorts) (s : StagingLead) (i : Input) :
    (stagingSystem cfg ports).step s (feed cfg ports s i).1 (feed cfg ports s i).2 := by
  cases i with
  | receive e => exact ⟨fun key hkey => absurd hkey (by simp [writesKey]), rfl⟩
  | op | begin | collected | resolved => rfl

def now : Int := 1767225600000

/-- What the executor seals at midnight. -/
def reply (n : Nat) (type : String) (body : Json) : Json :=
  let host := Host.ofTables [] Sample.calendar
  signEnvelope host (unsigned host Sample.identityB defaultParams ⟨now, Sample.msg n, Sample.task⟩
    ⟨type, Sample.nodeA, some Sample.task, some 1, none, body⟩)

def manifest : Json := .object
  [("task_id", some (.str Sample.task)), ("attempt", some (.num 1)), ("node_id", some (.str Sample.nodeB)),
    ("key_epoch", some (.num 1)), ("deliverables", some (.arr []))]

/-- The signature of the manifest under the key of 32 zero bytes. -/
def sigText : String :=
  "U8M4oh5vrjKy+7aRBn9RS05742Z1vz7lAW1o1Bjp/ZnN916Z7NHEFDGGj8bF/60YY94Y4lb8zdb64AEOe1x7Cg=="

def sigBytes : Bytes :=
  [83, 195, 56, 162, 30, 111, 174, 50, 178, 251, 182, 145, 6, 127, 81, 75, 78, 123, 227, 102, 117, 191, 62,
    229, 1, 109, 104, 212, 24, 233, 253, 153, 205, 247, 94, 153, 236, 209, 196, 20, 49, 134, 143, 198, 197,
    255, 173, 24, 99, 222, 24, 226, 86, 252, 205, 214, 250, 224, 1, 14, 123, 92, 123, 10]

/-- The public key of 32 zero bytes. -/
def pub : Bytes :=
  [59, 106, 39, 188, 206, 182, 164, 45, 98, 163, 168, 208, 42, 111, 13, 115, 101, 50, 21, 119, 29, 226, 67,
    166, 58, 192, 72, 161, 139, 89, 218, 41]

def manifestText : String :=
  "\x7b\"attempt\":1,\"deliverables\":[],\"key_epoch\":1,\"node_id\":\"bbbbbbbb-bbbb-4bbb-8bbb-bbbbbbbbbbbb\"," ++
    "\"task_id\":\"cccccccc-cccc-4ccc-8ccc-cccccccccccc\"\x7d"

def ports : ArtifactPorts where
  host :=
    { hashBytes := fun _ => ""
      jcsBytes := fun m => if m.canonical = manifest.canonical then manifestText.toByteArray.data.toList else []
      fromBase64 := fun text => if text = sigText then some sigBytes else none
      verifyBytes := fun sig data key =>
        some (sig == sigBytes && data == manifestText.toByteArray.data.toList && key == pub) }
  collects := true
  resolves := true

def accept : Json := reply 21 "task.accept" (.object [("lease_ms", some (.num 900000))])

def result : Json := reply 22 "task.result" (.object
  [("artifacts", some (.arr [.object [("repo", some (.str "/srv/artifacts")),
    ("manifest", some (.object [("alg", some (.str "ed25519")), ("manifest", some manifest),
      ("sig", some (.str sigText))]))]]))])

def offerBody : Json :=
  .object [("kind", some (.str "project")), ("summary", some (.str "look at the build"))]

def offer : Json :=
  let host := Host.ofTables [] Sample.calendar
  signEnvelope host (unsigned host Sample.identityA defaultParams ⟨now, Sample.msg 3, Sample.task⟩
    ⟨"task.offer", Sample.nodeB, some Sample.task, some 1, none, offerBody⟩)

def ambient (n : Nat) : Ambient := Sample.ambient n now fun _ => none

/-- The inputs, latest first. -/
def inputs : List Input :=
  [.op (.consume (ambient 5) result true now), .resolved 0 (.answered (some pub)),
    .collected 0 (.answered true (some [])), .begin result now, .receive result,
    .op (.consume (ambient 4) accept true now), .receive accept,
    .op (.dispatch (ambient 3) Sample.task Sample.nodeB offerBody now), .op (.originate Sample.task .project)]

def start : StagingLead :=
  { lead := { tables := .empty, verdicts := [], faulted := false, sent := [] }, stages := [], owners := [], next := 0 }

/-- The acceptance context of the project, from its attempt on. -/
def context (attempt : Int) (target : Option String) (state : LeadState) (task_seq : Int) : Json := .object
  [("task_id", some (.str Sample.task)), ("attempt", some (.num attempt)), ("target", some (nodeOrNull target)),
    ("kind", some (.str "project")), ("state", some (.str state.text)), ("task_seq", some (.num task_seq)),
    ("drainClosed", some (.bool false)), ("contract", some .null)]

def digests : List (Json × String) :=
  [(accept, "14bde6a4b0822265efcd5e0771fe823d66adc4812868bde18273e118faf63863"),
    (Env.body accept, "d3744c4dc7871348339f10727a8e6d5cdf0b32eebbbca72b7201c2f865278184"),
    (result, "621d8e6f9ce4fcf7ed7a03b5baa3fdc186ed276a1a9787330a210845c52a9be8"),
    (Env.body result, "f2032af89fc2d8071868057827e45056f04776da9ef4aecb4aa9fd8758010415"),
    (context 0 none .drafting 0, "b05ddc7d8e7b187c7be8d42c41c18e3d0697121e18adc8beb7ec1e7947fb34db"),
    (context 1 (some Sample.nodeB) .offered 1,
      "4bf4980bf7501cee0710fa1ecadc5cddc6603ee9bfd51606a6f78329815707c2"),
    (context 1 (some Sample.nodeB) .running 2,
      "8baac4b806ed6bcdc8ee4d290c69a68f2c23c48f9e700164688ed8c6d710024c"),
    (offer, "815042d5aed8917775a556dc356882eee276350e3e708802a1f5ee7ccec02172")]

def config : LeadConfig := Sample.lead Sample.identityA digests Sample.calendar Qlong.Sample.nodeA_uuid Qlong.Sample.team_ne

/-- The state before the last input. -/
def before : StagingLead := (play (feed config ports) start inputs.tail).2

end JudgedRun

open JudgedRun in
theorem project_done_verified_judged : ∃ st input,
    Obtained config ports (play (feed config ports) start inputs.tail).1 st input ∧
      st.e.canonical = result.canonical := by
  have run : Run (stagingSystem config ports) (play (feed config ports) start inputs).1
      (play (feed config ports) start inputs).2 := run_play rfl (feed_step config ports) inputs
  obtain ⟨hbefore, hafter, hfree⟩ :
      (StagingLead.persisted before.lead Sample.task).any
        (fun t => decide (t.record.kind = .project ∧ t.record.state ≠ .done)) = true ∧
      (StagingLead.persisted (play (feed config ports) start inputs).2.lead Sample.task).any
        (fun t => decide (t.record.state = .done)) = true ∧
      CollisionFree config.store.host (digested (play (feed config ports) start inputs).1) := by
    unfold CollisionFree
    decide +kernel
  obtain ⟨t, ht, hlive⟩ := (Option.any_eq_true _ _).mp hbefore
  obtain ⟨t', ht', hdone⟩ := (Option.any_eq_true _ _).mp hafter
  simp only [decide_eq_true_eq] at hlive hdone
  rcases project_done_verified run rfl hfree [] _ _ rfl Sample.task t t' (persisted_holds ht)
    (persisted_holds ht') hlive.1 hlive.2 hdone with ⟨bundle, himport⟩ | ⟨amb, e, n, st, input, hlabel, hob, hsame, -⟩
  · exact absurd himport (by simp [feed])
  · have he : e = result := by
      simp only [feed, StagingLabel.op.injEq, Op.consume.injEq] at hlabel
      exact hlabel.2.1.symm
    exact ⟨st, input, hob, he ▸ hsame⟩

end Lead
end Qlong
