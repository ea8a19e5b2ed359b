import Qlong.Remote.Peers

/-!
# Whose task an envelope is about

The machines leave it to their caller to bind the task of a message: the lead's asks for the sender and the
attempt, and so does the executor's of a cancel. The session does not look at the task either. **`isolated_iff`**:
an envelope of another task leaves a machine alone exactly when it is dropped at the doors, or the machine is deaf
to the sender, the attempt or the type as it stands.
-/

namespace Qlong
namespace Remote

open Lib Lead Dedup

namespace Session

/-- The types that come to the lead's machine. -/
def LeadBound (env : Json) : Prop :=
  (familyOf (Env.type env) = "task" ∨ familyOf (Env.type env) = "rpc") ∧ Env.type env ≠ "task.offer" ∧
    Env.type env ≠ "task.cancel" ∧ Env.type env ≠ "rpc.ask" ∧ Env.type env ≠ "rpc.answer"

/-- An envelope of another task changes nothing of the machine it comes to, and has it do nothing. -/
def Isolated (host : Host) (moment : Moment) (s : Session) (env : Json) : Prop :=
  (LeadBound env → Env.taskId env ≠ s.lead.map (fun lead => lead.record.task_id) →
    (s.onEnvelope host moment env).session.lead = s.lead ∧ (s.onEnvelope host moment env).leadActions = []) ∧
  (Env.type env = "task.cancel" → Env.taskId env ≠ s.exec.record.task_id →
    (s.onEnvelope host moment env).session.exec = s.exec ∧ (s.onEnvelope host moment env).execActions = some [])

/-- The types a state of the lead's machine answers. -/
def answersTo (r : LeadRecord) : List String :=
  match r.state with
  | .offered => ["task.accept", "task.reject"]
  | .running => ["task.progress", "task.result", "task.fail"]
  | .reclaiming => if r.drainClosed = some true then [] else ["task.result", "task.fail", "task.cancel.ack"]
  | .cancelling => ["task.result", "task.fail", "task.cancel.ack"]
  | _ => []

/-- The lead's machine does nothing with a message. -/
def LeadDeaf (m : LeadTaskMachine) (env : Json) : Prop :=
  m.terminal = true ∨ some (Env.fromNode env) ≠ m.record.target ∨
    ((Env.attempt env).getD 0 = m.record.attempt ∧ Env.type env ∉ answersTo m.record)

/-- The executor's machine does nothing with a cancel. -/
def ExecDeaf (m : ExecutorMachine) (env : Json) : Prop :=
  m.record.from_node ≠ some (Env.fromNode env) ∨ m.record.attempt ≠ some ((Env.attempt env).getD 0) ∨
    m.record.state ∉ [ExecState.running, .offered, .result_sent]

/-- The envelope is for another node or of another team, or its key is taken. -/
def Dropped (s : Session) (now : Int) (env : Json) : Prop :=
  s.isAddressed env = false ∨ ∃ key, keyOf env = some key ∧ s.dedup.recent.takenSince key now ≠ none

section

variable {host : Host} {moment : Moment} {s : Session} {env : Json} {m : LeadTaskMachine} {x : ExecutorMachine}
  {validate : Json → Bool} {now : Int}

/-! ## The machines -/

theorem onCancel_deaf : x.onCancel (Env.fromNode env) ((Env.attempt env).getD 0) = (x, []) ↔ ExecDeaf x env := by
  unfold ExecutorMachine.onCancel ExecDeaf
  by_cases hother : x.record.from_node ≠ some (Env.fromNode env) ∨ x.record.attempt ≠ some ((Env.attempt env).getD 0)
  · rw [if_pos hother]
    exact ⟨fun _ => or_assoc.mp (Or.inl hother), fun _ => rfl⟩
  · rw [if_neg hother, ← or_assoc, or_iff_right hother]
    cases hstate : x.record.state <;> simp
    split <;> simp

/-- A machine that acts is not deaf. -/
theorem ne_of_acts {r : LeadTaskMachine × List LeadAction} (h : r.2 ≠ []) : r ≠ (m, []) := fun heq => h (congrArg Prod.snd heq)

theorem finish_acts {state : LeadState} : (m.finish state).2 ≠ [] := List.cons_ne_nil _ _

theorem beginReclaim_acts {reason : String} {entry : Option LeadHistoryEntry} : (m.beginReclaim reason now entry).2 ≠ [] := by
  unfold LeadTaskMachine.beginReclaim
  simp

theorem budgetOrEscalate_acts {accepted : Bool} : (m.budgetOrEscalate accepted).2 ≠ [] := by
  unfold LeadTaskMachine.budgetOrEscalate
  cases accepted with
  | false =>
    simp only [Bool.false_eq_true, ↓reduceIte]
    split <;> exact List.cons_ne_nil _ _
  | true =>
    simp only [↓reduceIte]
    split <;> exact List.cons_ne_nil _ _

/-- A note in the history is a change. -/
theorem ne_of_note {r : LeadRecord} {outcome : Lead.Outcome} {reason : Option String} {actions : List LeadAction}
    (h : r.history = m.record.history) : ((LeadTaskMachine.note { m with record := r } outcome reason), actions) ≠ (m, []) := by
  intro heq
  have hlength := congrArg (fun p : LeadTaskMachine × List LeadAction => p.1.record.history.length) heq
  simp [LeadTaskMachine.note, LeadRecord.push, h] at hlength

theorem onOffered_deaf {type peer : String} {body : Json} :
    m.onOfferedMessage type peer body now = (m, []) ↔ type ∉ ["task.accept", "task.reject"] := by
  unfold LeadTaskMachine.onOfferedMessage
  split
  · rename_i htype
    exact ⟨fun h => absurd h (ne_of_acts (List.cons_ne_nil _ _)), fun h => absurd (htype ▸ List.mem_cons_self) h⟩
  split
  · rename_i htype
    exact ⟨fun h => absurd h (ne_of_acts budgetOrEscalate_acts), fun h => absurd (by simp [htype]) h⟩
  · rename_i haccept hreject
    exact ⟨fun _ => by simp [haccept, hreject], fun _ => rfl⟩

theorem onRunning_deaf {type peer : String} {body : Json} : m.onRunningMessage validate type peer body now none = (m, []) ↔
    type ∉ ["task.progress", "task.result", "task.fail"] := by
  unfold LeadTaskMachine.onRunningMessage
  split
  · rename_i htype
    refine ⟨fun h => ?_, fun h => absurd (by simp [htype]) h⟩
    dsimp only at h
    split at h
    · exact absurd h (ne_of_acts (by simp))
    · exact absurd h (ne_of_acts (by simp))
  split
  · rename_i htype
    refine ⟨fun h => ?_, fun h => absurd (by simp [htype]) h⟩
    dsimp only at h
    split at h
    · exact absurd h (ne_of_acts finish_acts)
    · exact absurd h (ne_of_acts beginReclaim_acts)
  split
  · rename_i htype
    refine ⟨fun h => ?_, fun h => absurd (by simp [htype]) h⟩
    split at h
    · exact absurd h (ne_of_acts finish_acts)
    · exact absurd h (ne_of_acts beginReclaim_acts)
  · rename_i hprogress hresult hfail
    exact ⟨fun _ => by simp [hprogress, hresult, hfail], fun _ => rfl⟩

theorem onReclaiming_deaf {type : String} {body : Json} : m.onReclaimingMessage validate type body = (m, []) ↔
    m.record.drainClosed = some true ∨ type ∉ ["task.result", "task.fail", "task.cancel.ack"] := by
  unfold LeadTaskMachine.onReclaimingMessage
  by_cases hclosed : m.record.drainClosed = some true
  · rw [if_pos hclosed]
    exact ⟨fun _ => Or.inl hclosed, fun _ => rfl⟩
  rw [if_neg hclosed, or_iff_right hclosed]
  split
  · rename_i htype
    refine ⟨fun h => ?_, fun h => absurd (by simp [htype]) h⟩
    dsimp only at h
    split at h
    · exact absurd h (ne_of_acts finish_acts)
    · exact absurd h (ne_of_note rfl)
  split
  · rename_i htype
    refine ⟨fun h => ?_, fun h => absurd (by simp [htype]) h⟩
    split at h
    · exact absurd h (ne_of_acts finish_acts)
    · exact absurd h (ne_of_note rfl)
  split
  · rename_i htype
    exact ⟨fun h => absurd h (ne_of_acts budgetOrEscalate_acts), fun h => absurd (by simp [htype]) h⟩
  · rename_i hresult hfail hack
    exact ⟨fun _ => by simp [hresult, hfail, hack], fun _ => rfl⟩

theorem onCancelling_deaf {type : String} {body : Json} : m.onCancellingMessage validate type body = (m, []) ↔
    type ∉ ["task.result", "task.fail", "task.cancel.ack"] := by
  unfold LeadTaskMachine.onCancellingMessage
  split
  · rename_i htype
    refine ⟨fun h => ?_, fun h => absurd (by simp [htype]) h⟩
    dsimp only at h
    split at h
    · exact absurd h (ne_of_acts finish_acts)
    · exact absurd h (ne_of_note rfl)
  split
  · rename_i htype
    exact ⟨fun h => absurd h (ne_of_acts finish_acts), fun h => absurd (by simp [htype]) h⟩
  split
  · rename_i htype
    exact ⟨fun h => absurd h (ne_of_acts finish_acts), fun h => absurd (by simp [htype]) h⟩
  · rename_i hresult hfail hack
    exact ⟨fun _ => by simp [hresult, hfail, hack], fun _ => rfl⟩

theorem onMessage_deaf : m.onMessage validate (Env.type env) (Env.fromNode env) ((Env.attempt env).getD 0) (Env.body env)
    now none = (m, []) ↔ LeadDeaf m env := by
  unfold LeadTaskMachine.onMessage LeadDeaf
  by_cases hterminal : m.terminal = true
  · rw [if_pos hterminal]
    exact ⟨fun _ => Or.inl hterminal, fun _ => rfl⟩
  rw [if_neg hterminal, or_iff_right hterminal]
  by_cases hother : some (Env.fromNode env) ≠ m.record.target
  · rw [if_pos hother]
    exact ⟨fun _ => Or.inl hother, fun _ => rfl⟩
  rw [if_neg hother, or_iff_right hother]
  split
  · rename_i hlower
    exact ⟨fun h => absurd h (ne_of_acts (List.cons_ne_nil _ _)), fun h => absurd h.1 (ne_of_lt hlower)⟩
  rename_i hlower
  split
  · rename_i hhigher
    exact ⟨fun h => absurd h (ne_of_acts (List.cons_ne_nil _ _)), fun h => absurd h.1 (ne_of_gt hhigher)⟩
  rename_i hhigher
  have hattempt : (Env.attempt env).getD 0 = m.record.attempt := le_antisymm (not_lt.mp hhigher) (not_lt.mp hlower)
  rw [and_iff_right hattempt]
  unfold answersTo
  cases hstate : m.record.state with
  | offered => exact onOffered_deaf
  | running => exact onRunning_deaf
  | reclaiming =>
    refine onReclaiming_deaf.trans ?_
    dsimp only
    split
    · rename_i hclosed
      exact ⟨fun _ => List.not_mem_nil, fun _ => Or.inl hclosed⟩
    · rename_i hopen
      exact or_iff_right hopen
  | cancelling => exact onCancelling_deaf
  | _ => exact ⟨fun _ => List.not_mem_nil, fun _ => rfl⟩

/-! ## The session -/

theorem dispatch_lead (h : LeadBound env) : s.dispatch host moment env = s.onLeadEnvelope moment env := by
  obtain ⟨hfamily, hoffer, hcancel, hask, hanswer⟩ := h
  unfold dispatch
  rw [if_neg fun hnot => hfamily.elim hnot.1 hnot.2, if_neg hoffer, if_neg hcancel, if_neg fun h => h.elim hask hanswer]

theorem dispatch_cancel (h : Env.type env = "task.cancel") :
    (s.dispatch host moment env).session.exec = (s.exec.onCancel (Env.fromNode env) ((Env.attempt env).getD 0)).1 ∧
      (s.dispatch host moment env).execActions = some (s.exec.onCancel (Env.fromNode env) ((Env.attempt env).getD 0)).2 := by
  unfold dispatch
  have hfamily : familyOf (Env.type env) = "task" := by
    rw [h]
    decide
  rw [if_neg fun hnot => hnot.1 hfamily, if_neg (by rw [h]; decide), if_pos h]
  exact ⟨rfl, rfl⟩

/-- No action of the machine is lost. -/
theorem callLead_silent {r : LeadTaskMachine × List LeadAction} (h : (s.callLead moment r).2 = []) :
    r.2 = [] ∧ (s.callLead moment r).1.lead = some r.1 := by
  unfold callLead at h ⊢
  cases hacts : r.2 with
  | nil => exact ⟨rfl, rfl⟩
  | cons action rest =>
    rw [hacts, processLead] at h
    exact absurd h (List.cons_ne_nil _ _)

/-- **What comes to the lead's machine** leaves it alone where it is deaf. -/
theorem onLead_isolated : ((s.onLeadEnvelope moment env).session.lead = s.lead ∧
    (s.onLeadEnvelope moment env).leadActions = []) ↔ ∀ lead, s.lead = some lead → LeadDeaf lead env := by
  unfold onLeadEnvelope
  cases hlead : s.lead with
  | none => exact ⟨fun _ lead h => absurd h (by simp), fun _ => ⟨hlead, rfl⟩⟩
  | some lead =>
    dsimp only
    constructor
    · rintro ⟨hsame, hsilent⟩ lead' heq
      obtain ⟨hacts, hafter⟩ := callLead_silent hsilent
      have hmachine := Option.some.inj (hafter.symm.trans hsame)
      cases heq
      exact onMessage_deaf.mp (Prod.ext hmachine hacts)
    · intro hdeaf
      rw [onMessage_deaf.mpr (hdeaf lead rfl)]
      exact ⟨rfl, rfl⟩

/-- An envelope is dropped at the doors, or handed on. -/
theorem onEnvelope_cases : (Dropped s moment.now env ∧ (s.onEnvelope host moment env).session.lead = s.lead ∧
      (s.onEnvelope host moment env).leadActions = [] ∧ (s.onEnvelope host moment env).session.exec = s.exec ∧
      (s.onEnvelope host moment env).execActions = some []) ∨
    (¬ Dropped s moment.now env ∧ ∃ d, s.onEnvelope host moment env = dispatch host moment { s with dedup := d } env) := by
  cases haddressed : s.isAddressed env with
  | false =>
    refine Or.inl ⟨Or.inl haddressed, ?_⟩
    unfold onEnvelope
    rw [haddressed]
    exact ⟨rfl, rfl, rfl, rfl⟩
  | true =>
    have hdoor : ¬ s.isAddressed env = false := by rw [haddressed]; exact Bool.true_eq_false_eq_False
    cases hkey : keyOf env with
    | none =>
      refine Or.inr ⟨?_, s.dedup, onEnvelope_keyless haddressed hkey⟩
      rintro (h | ⟨key, h, -⟩)
      · exact hdoor h
      · exact absurd (hkey.symm.trans h) (by simp)
    | some key =>
      have hprogress := (keyOf_type hkey).2
      have hfree := @check_first_iff host s.dedup key (Env.body env) moment.now hprogress
      by_cases hfirst : (checkAndRecord host s.dedup key (Env.body env) moment.now).2 = .first
      · refine Or.inr ⟨?_, _, onEnvelope_first haddressed hkey hfirst⟩
        rintro (h | ⟨key', h, htaken⟩)
        · exact hdoor h
        · cases hkey.symm.trans h
          exact htaken (hfree.mp hfirst)
      · refine Or.inl ⟨Or.inr ⟨key, hkey, fun h => hfirst (hfree.mpr h)⟩, ?_⟩
        rw [onEnvelope_second haddressed hkey hfirst]
        exact ⟨rfl, rfl, rfl, rfl⟩

/-- **An envelope of another task leaves a machine alone** exactly when it is dropped, or finds the machine deaf. -/
theorem isolated_iff : Isolated host moment s env ↔
    (LeadBound env → Env.taskId env ≠ s.lead.map (fun lead => lead.record.task_id) →
      Dropped s moment.now env ∨ ∀ lead, s.lead = some lead → LeadDeaf lead env) ∧
    (Env.type env = "task.cancel" → Env.taskId env ≠ s.exec.record.task_id →
      Dropped s moment.now env ∨ ExecDeaf s.exec env) := by
  unfold Isolated
  rcases @onEnvelope_cases host moment s env with ⟨hdropped, hlead, hleadActs, hexec, hexecActs⟩ | ⟨hpassed, d, heq⟩
  · exact ⟨fun _ => ⟨fun _ _ => Or.inl hdropped, fun _ _ => Or.inl hdropped⟩,
      fun _ => ⟨fun _ _ => ⟨hlead, hleadActs⟩, fun _ _ => ⟨hexec, hexecActs⟩⟩⟩
  refine and_congr (forall_congr' fun hbound => forall_congr' fun _ => ?_)
    (forall_congr' fun hcancel => forall_congr' fun _ => ?_)
  · rw [heq, or_iff_right hpassed, dispatch_lead hbound]
    exact onLead_isolated
  · obtain ⟨hexec, hacts⟩ := @dispatch_cancel host moment { s with dedup := d } env hcancel
    rw [heq, or_iff_right hpassed, hexec, hacts, ← onCancel_deaf]
    exact ⟨fun ⟨hm, ha⟩ => Prod.ext hm (Option.some.inj ha), fun h => ⟨congrArg Prod.fst h, congrArg (some ∘ Prod.snd) h⟩⟩

end

/-! ## An acceptance of another task -/

section

/-- The acceptance of another task by the node the lead waits for. -/
def otherAccept : Json :=
  signEnvelope peersHost (unsigned peersHost ⟨Sample.nodeB, "team", 1⟩ defaultParams
    ⟨Sample.now, Sample.msg 1, nodeC⟩
    ⟨"task.accept", Sample.nodeA, some "ffffffff-ffff-4fff-8fff-ffffffffffff", some 1, none, .obj [("lease_ms", .num 60000)]⟩)

/-- **The acceptance of another task sets the held one running.** -/
theorem other_task_accepted : ¬ Isolated peersHost quietMoment (after peersHost leadSession beginTask) otherAccept := by
  intro h
  have hbound : LeadBound otherAccept := by
    unfold LeadBound
    decide +kernel
  have hlead := h.1 hbound (by decide +kernel)
  exact absurd hlead.2 (by decide +kernel)

end

end Session

end Remote
end Qlong
