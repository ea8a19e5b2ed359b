import Qlong.Lead.Reporter

/-!
# The reports a lead has logged

A lead logs a report when the *state* of a task has changed, and a report also carries the attempt
and the executor. `Shown` is what that comes to: among the logged reports of a task is the one of
the task as it stands, and attempts never fall along the log. Three things break it: an offer that
answers a rejection at once (the state is `offered` before and after), a `dispatch` that restarts
the count, and an import in the place of a task that has been reported.

**`execute_own`** says what every operation does to the log, **`execute_shown`** what an operation
without these three does to `Shown`.
-/

namespace Qlong
namespace Lead

open Lib Node DurableLead

/-! ## The log of a lead -/

/-- The report of a task as it stands. -/
def DurableLeadTask.report (cfg : LeadConfig) (task : DurableLeadTask) : TaskReport :=
  { task_id := task.record.task_id, team_id := cfg.me.team_id, lead := cfg.me.node_id,
    exec := task.record.target, attempt := task.record.attempt, status := task.record.state,
    type := task.record.kind, task_seq := task.task_seq }

/-- A report intent of the task, done or not. -/
def Logged (s : DurableLead) (taskId : String) (revision : Int) (r : TaskReport) : Prop :=
  ∃ row ∈ s.tables.effects, isReport row = true ∧ row.state_key = leadStateKey taskId ∧
    row.revision = revision ∧ row.payload = r.toJson

/-- The lead has reported the task. -/
def HasReport (s : DurableLead) (taskId : String) : Prop := ∃ revision r, Logged s taskId revision r

/-- Every report intent is this lead's own. -/
structure Own (cfg : LeadConfig) (s : DurableLead) : Prop where
  report : ∀ row ∈ s.tables.effects, isReport row = true →
    ∃ r : TaskReport, row.payload = r.toJson ∧ row.state_key = leadStateKey r.task_id ∧ r.lead = cfg.me.node_id
  distinct : Table.Keyed EffectRow.effect_id s.tables.effects

/-- The log of a task that stands in `row`. -/
structure Chronicle (cfg : LeadConfig) (s : DurableLead) (taskId : String) (row : StateRow)
    (task : DurableLeadTask) : Prop where
  latest : ∃ revision, Logged s taskId revision (task.report cfg)
  past : ∀ revision r, Logged s taskId revision r → revision ≤ row.revision ∧ r.task_seq ≤ task.task_seq ∧
    r.attempt ≤ task.record.attempt ∧ r.type = task.record.kind
  one : ∀ revision r r', Logged s taskId revision r → Logged s taskId revision r' → r = r'
  order : ∀ revision revision' r r', Logged s taskId revision r → Logged s taskId revision' r' →
    (r.task_seq ≤ r'.task_seq → r.attempt ≤ r'.attempt) ∧ (r.task_seq = r'.task_seq → r = r')

/-- A task that has been reported is shown as it stands by its log. -/
def Shown (cfg : LeadConfig) (s : DurableLead) (taskId : String) : Prop :=
  HasReport s taskId → ∃ row task,
    Table.lookup StateRow.state_key (leadStateKey taskId) s.tables.state = some row ∧
    DurableLeadTask.ofJson row.value = some task ∧ Chronicle cfg s taskId row task

/-- The intents of `s'` are those of `s` and some that nobody has delivered yet. -/
structure Grows (s s' : DurableLead) : Prop where
  kept : ∀ row ∈ s.tables.effects, isReport row = true → row ∈ s'.tables.effects
  fresh : ∀ row ∈ s'.tables.effects, isReport row = true → row ∈ s.tables.effects ∨ row.done = false

theorem Grows.refl (s : DurableLead) : Grows s s := ⟨fun _ h _ => h, fun _ h _ => Or.inl h⟩

theorem Grows.trans {s1 s2 s3 : DurableLead} (h : Grows s1 s2) (h' : Grows s2 s3) : Grows s1 s3 := by
  refine ⟨fun row hrow hr => h'.kept row (h.kept row hrow hr) hr, fun row hrow hr => ?_⟩
  rcases h'.fresh row hrow hr with hrow | hdone
  · exact h.fresh row hrow hr
  · exact Or.inr hdone

theorem Grows.logged {s s' : DurableLead} (h : Grows s s') {taskId : String} {revision : Int} {r : TaskReport}
    (hr : Logged s taskId revision r) : Logged s' taskId revision r := by
  obtain ⟨row, hrow, hreport, hkey, hrev, hpayload⟩ := hr
  exact ⟨row, h.kept row hrow hreport, hreport, hkey, hrev, hpayload⟩

theorem grows_of_same {s s' : DurableLead} (h : s'.tables.effects = s.tables.effects) : Grows s s' := by
  refine ⟨fun row hrow _ => ?_, fun row hrow _ => Or.inl ?_⟩
  · rw [h]
    exact hrow
  · rw [← h]
    exact hrow

/-- The same intents: the same log. -/
theorem logged_of_same {s s' : DurableLead} (h : s'.tables.effects = s.tables.effects) {taskId : String}
    {revision : Int} {r : TaskReport} : Logged s' taskId revision r ↔ Logged s taskId revision r := by
  unfold Logged
  rw [h]

theorem shown_of_same {cfg : LeadConfig} {s s' : DurableLead}
    (hstate : ∀ key, isLeadKey key = true → Table.lookup StateRow.state_key key s'.tables.state
      = Table.lookup StateRow.state_key key s.tables.state)
    (hlog : ∀ taskId revision r, Logged s' taskId revision r ↔ Logged s taskId revision r) {taskId : String}
    (h : Shown cfg s taskId) : Shown cfg s' taskId := by
  intro ⟨revision, r, hr⟩
  obtain ⟨row, task, hrow, htask, hchron⟩ := h ⟨revision, r, (hlog _ _ _).mp hr⟩
  refine ⟨row, task, by rw [hstate _ (isLeadKey_leadStateKey taskId)]; exact hrow, htask, ?_⟩
  obtain ⟨latest, past, one, order⟩ := hchron
  refine ⟨?_, ?_, ?_, ?_⟩
  · obtain ⟨v, hv⟩ := latest
    exact ⟨v, (hlog _ _ _).mpr hv⟩
  · intro v r hr
    exact past v r ((hlog _ _ _).mp hr)
  · intro v r r' hr hr'
    exact one v r r' ((hlog _ _ _).mp hr) ((hlog _ _ _).mp hr')
  · intro v v' r r' hr hr'
    exact order v v' r r' ((hlog _ _ _).mp hr) ((hlog _ _ _).mp hr')

/-! ## One write -/

section

variable {cfg : LeadConfig} {s s' : DurableLead} {id taskId : String} {revision : Int} {value : Json}

/-- A commit without a report. -/
theorem logged_quiet (hst : Stored s.tables (leadStateKey id) revision value [] s'.tables) {v : Int}
    {r : TaskReport} : Logged s' taskId v r ↔ Logged s taskId v r := by
  obtain ⟨rows, heffects, hrows⟩ := hst.effects
  cases hrows
  exact logged_of_same (by rw [heffects, List.append_nil])

/-- A commit with one. -/
theorem logged_reporting {report : TaskReport} {effectId : String}
    (hst : Stored s.tables (leadStateKey id) revision value [taskReportEffect report effectId] s'.tables) {v : Int}
    {r : TaskReport} : Logged s' taskId v r ↔
      Logged s taskId v r ∨ taskId = id ∧ v = revision + 1 ∧ r = report := by
  obtain ⟨rows, heffects, hrows⟩ := hst.effects
  obtain ⟨row, rest, hintent, hrest, rfl⟩ := List.forall₂_cons_left_iff.mp hrows
  cases hrest
  obtain ⟨-, hkind, hpayload, hkey, hrev, -⟩ := hintent
  have hkind' : row.kind = taskReportKind := by
    simp [taskReportEffect, Json.getStr, Json.get_object_cons, Json.asStr] at hkind
    exact hkind.symm
  have hpayload' : row.payload = report.toJson := by
    simp [taskReportEffect, Json.get_object_cons] at hpayload
    exact hpayload.symm
  constructor
  · rintro ⟨x, hx, hreport, hxkey, hxrev, hxpayload⟩
    rw [heffects, List.mem_append, List.mem_singleton] at hx
    rcases hx with hx | rfl
    · exact Or.inl ⟨x, hx, hreport, hxkey, hxrev, hxpayload⟩
    · refine Or.inr ⟨leadStateKey_injective (hxkey.symm.trans hkey), hxrev.symm.trans hrev, ?_⟩
      exact TaskReport.toJson_injective (hxpayload.symm.trans hpayload')
  · rintro (⟨x, hx, hreport, hxkey, hxrev, hxpayload⟩ | ⟨rfl, rfl, rfl⟩)
    · exact ⟨x, by rw [heffects]; exact List.mem_append_left _ hx, hreport, hxkey, hxrev, hxpayload⟩
    · refine ⟨row, by rw [heffects]; simp, ?_, hkey, hrev, hpayload'⟩
      rw [isReport, hkind']
      decide

/-- Another task's write is no concern of this one. -/
theorem shown_other {effects : List Json}
    (hst : Stored s.tables (leadStateKey id) revision value effects s'.tables) (hne : taskId ≠ id)
    (hlog : ∀ v r, Logged s' taskId v r ↔ Logged s taskId v r) (h : Shown cfg s taskId) :
    Shown cfg s' taskId := by
  intro ⟨v, r, hr⟩
  obtain ⟨row, task, hrow, htask, latest, past, one, order⟩ := h ⟨v, r, (hlog _ _).mp hr⟩
  refine ⟨row, task, ?_, htask, ?_, ?_, ?_, ?_⟩
  · rw [hst.lookup, if_neg fun h => hne (leadStateKey_injective h)]
    exact hrow
  · obtain ⟨v, hv⟩ := latest
    exact ⟨v, (hlog _ _).mpr hv⟩
  · intro v r hr
    exact past v r ((hlog _ _).mp hr)
  · intro v r r' hr hr'
    exact one v r r' ((hlog _ _).mp hr) ((hlog _ _).mp hr')
  · intro v v' r r' hr hr'
    exact order v v' r r' ((hlog _ _).mp hr) ((hlog _ _).mp hr')

/-- A write that leaves nothing to report. -/
theorem shown_quiet {row : StateRow} {task task' : DurableLeadTask}
    (hrow : Table.lookup StateRow.state_key (leadStateKey id) s.tables.state = some row)
    (htask : DurableLeadTask.ofJson row.value = some task)
    (hst : Stored s.tables (leadStateKey id) row.revision value [] s'.tables)
    (hvalue : DurableLeadTask.ofJson value = some task')
    (hsame : HasReport s id → task'.report cfg = task.report cfg) (h : Shown cfg s id) :
    Shown cfg s' id := by
  intro ⟨v, r, hr⟩
  have hlogged : HasReport s id := ⟨v, r, (logged_quiet hst).mp hr⟩
  have heq := hsame hlogged
  obtain ⟨row', known, hrow', hknown, latest, past, one, order⟩ := h hlogged
  rw [hrow] at hrow'
  obtain rfl := Option.some.inj hrow'
  rw [htask] at hknown
  obtain rfl := Option.some.inj hknown
  have hfields := congrArg TaskReport.projection heq
  simp only [DurableLeadTask.report, TaskReport.projection, Registry.TaskProjection.mk.injEq] at hfields
  refine ⟨_, task', by rw [hst.lookup, if_pos rfl], hvalue, ?_, ?_, ?_, ?_⟩
  · obtain ⟨w, hw⟩ := latest
    exact ⟨w, (logged_quiet hst).mpr (heq ▸ hw)⟩
  · intro w x hx
    obtain ⟨h1, h2, h3, h4⟩ := past w x ((logged_quiet hst).mp hx)
    have h5 := hfields.2.2.2.2.2.1
    have h6 := hfields.2.2.2.2.2.2.2
    exact ⟨by dsimp only; omega, by omega, by omega, h4.trans hfields.2.1.symm⟩
  · intro w x x' hx hx'
    exact one w x x' ((logged_quiet hst).mp hx) ((logged_quiet hst).mp hx')
  · intro w w' x x' hx hx'
    exact order w w' x x' ((logged_quiet hst).mp hx) ((logged_quiet hst).mp hx')

/-- A write with a report of what it leaves. -/
theorem shown_reporting {row : StateRow} {task task' : DurableLeadTask} {effectId : String}
    (hrow : Table.lookup StateRow.state_key (leadStateKey id) s.tables.state = some row)
    (htask : DurableLeadTask.ofJson row.value = some task)
    (hst : Stored s.tables (leadStateKey id) row.revision value [taskReportEffect (task'.report cfg) effectId]
      s'.tables)
    (hvalue : DurableLeadTask.ofJson value = some task') (hseq : task'.task_seq = task.task_seq + 1)
    (hkind : task'.record.kind = task.record.kind)
    (hatt : HasReport s id → task.record.attempt ≤ task'.record.attempt) (h : Shown cfg s id) :
    Shown cfg s' id := by
  intro _
  have hlog := fun v r => @logged_reporting _ _ _ id _ _ _ _ hst v r
  -- what the reports of before have to do with the new one
  have hbefore : ∀ v r, Logged s id v r → v ≤ row.revision ∧ r.task_seq ≤ task.task_seq ∧
      r.attempt ≤ task'.record.attempt ∧ r.type = task'.record.kind := by
    intro v r hr
    obtain ⟨row', known, hrow', hknown, -, past, -, -⟩ := h ⟨v, r, hr⟩
    rw [hrow] at hrow'
    obtain rfl := Option.some.inj hrow'
    rw [htask] at hknown
    obtain rfl := Option.some.inj hknown
    obtain ⟨h1, h2, h3, h4⟩ := past v r hr
    have := hatt ⟨v, r, hr⟩
    exact ⟨h1, h2, by omega, h4.trans hkind.symm⟩
  have hchron : HasReport s id → (∀ v r r', Logged s id v r → Logged s id v r' → r = r') ∧
      ∀ v v' r r', Logged s id v r → Logged s id v' r' →
        (r.task_seq ≤ r'.task_seq → r.attempt ≤ r'.attempt) ∧ (r.task_seq = r'.task_seq → r = r') := by
    intro hlogged
    obtain ⟨_, _, _, _, -, -, one, order⟩ := h hlogged
    exact ⟨one, order⟩
  have hnew : (task'.report cfg).task_seq = task.task_seq + 1 := hseq
  have hnewatt : (task'.report cfg).attempt = task'.record.attempt := rfl
  refine ⟨_, task', by rw [hst.lookup, if_pos rfl], hvalue, ⟨_, (hlog _ _).mpr (Or.inr ⟨rfl, rfl, rfl⟩)⟩,
    ?_, ?_, ?_⟩
  · intro v r hr
    rcases (hlog v r).mp hr with hr | ⟨-, rfl, rfl⟩
    · obtain ⟨h1, h2, h3, h4⟩ := hbefore v r hr
      exact ⟨by dsimp only; omega, by omega, h3, h4⟩
    · exact ⟨Int.le_refl _, Int.le_refl _, Int.le_refl _, rfl⟩
  · intro v r r' hr hr'
    rcases (hlog v r).mp hr with hr | ⟨-, rfl, rfl⟩
    · rcases (hlog v r').mp hr' with hr' | ⟨-, rfl, rfl⟩
      · exact (hchron ⟨v, r, hr⟩).1 v r r' hr hr'
      · have := (hbefore _ r hr).1
        omega
    · rcases (hlog _ r').mp hr' with hr' | ⟨-, -, rfl⟩
      · have := (hbefore _ r' hr').1
        omega
      · rfl
  · intro v v' r r' hr hr'
    rcases (hlog v r).mp hr with hr | ⟨-, rfl, rfl⟩
    · obtain ⟨-, h2, h3, -⟩ := hbefore v r hr
      rcases (hlog v' r').mp hr' with hr' | ⟨-, rfl, rfl⟩
      · exact (hchron ⟨v, r, hr⟩).2 v v' r r' hr hr'
      · exact ⟨fun _ => by rw [hnewatt]; exact h3, fun heq => by omega⟩
    · rcases (hlog v' r').mp hr' with hr' | ⟨-, rfl, rfl⟩
      · obtain ⟨-, h2, -, -⟩ := hbefore v' r' hr'
        exact ⟨fun hle => by omega, fun heq => by omega⟩
      · exact ⟨fun _ => Int.le_refl _, fun _ => rfl⟩

end

/-! ## One event -/

/-- The selector has a target for the task at once after this rejection of its offer. -/
def Replaces (cfg : LeadConfig) (amb : Ambient) (r : LeadRecord) (fromNode : String) (attempt : Int)
    (body : Json) : Prop :=
  r.state = .offered ∧ r.target = some fromNode ∧ attempt = r.attempt ∧
    ¬ Exhausted cfg.params (charged r false r.drainClosed) ∧
    ∃ target offerBody, isLeadContract (offerBody.get "contract") = true ∧
      amb.selectTarget
        { task_id := r.task_id, nextAttempt := r.attempt + 1, kind := r.kind
          excluded := (LeadTaskMachine.applyExclusion r
            (normalizeRejectCode ((body.getStr "reason_code").getD "other"))).excluded }
        = some (target, offerBody)

theorem applyExclusion_push (r : LeadRecord) (e : LeadHistoryEntry) (code : String) :
    LeadTaskMachine.applyExclusion (r.push e) code
      = { LeadTaskMachine.applyExclusion r code with history := r.history ++ [e.toJson] } := by
  have hexclude : ∀ scope, (r.push e).exclude scope
      = { r.exclude scope with history := r.history ++ [e.toJson] } := by
    intro scope
    unfold LeadRecord.exclude
    have hsame : (r.push e).hasTarget = r.hasTarget := rfl
    rw [hsame]
    cases r.hasTarget with
    | none => rfl
    | some node => rfl
  unfold LeadTaskMachine.applyExclusion
  split
  · exact hexclude .permanent
  · split
    · rfl
    · exact hexclude .once

section

variable {m : LeadTaskMachine} {amb : Ambient} {now : Int}

/-- The rejection of an offer, and the answer to it. -/
theorem rejected_offer {validate : Json → Bool} {fromNode : String} {body : Json} {now' : Int}
    {msgId : Option String} {cfg : LeadConfig} {task : DurableLeadTask}
    (hs : task.record.state = .offered) (ht : task.record.target = some fromNode)
    (hafter : (driveRedispatch amb now ((machine cfg task).applyEvent
      (.onMessage validate "task.reject" fromNode task.record.attempt body now' msgId))).1.record.state
        = .offered) : Replaces cfg amb task.record fromNode task.record.attempt body := by
  refine ⟨hs, ht, rfl, ?_⟩
  have hlive : task.record.state.isTerminal = false := by rw [hs]; rfl
  -- a rejection marks the sender and asks the budget
  have hevent : (machine cfg task).applyEvent
      (.onMessage validate "task.reject" fromNode task.record.attempt body now' msgId)
      = ({ machine cfg task with
          record := LeadTaskMachine.applyExclusion (task.record.push ⟨fromNode, task.record.attempt, .rejected,
            some (normalizeRejectCode ((body.getStr "reason_code").getD "other"))⟩)
            (normalizeRejectCode ((body.getStr "reason_code").getD "other")) }
          : LeadTaskMachine).budgetOrEscalate false := by
    simp [LeadTaskMachine.applyEvent, LeadTaskMachine.onMessage, machine, ht, hs, LeadState.isTerminal,
      LeadTaskMachine.onOfferedMessage]
  rw [hevent, applyExclusion_push] at hafter
  generalize hcode : normalizeRejectCode ((body.getStr "reason_code").getD "other") = code at hafter ⊢
  rw [applyExclusion_eq] at hafter
  unfold LeadTaskMachine.budgetOrEscalate at hafter
  simp only [Bool.false_eq_true, if_false, machine] at hafter
  split at hafter
  · -- the budget is used up: the task is escalated
    simp [driveRedispatch, DurableLead.answer, LeadTaskMachine.stopTimers] at hafter
  · rename_i hbudget
    refine ⟨hbudget, ?_⟩
    simp only [driveRedispatch, List.foldl_cons, List.foldl_nil, DurableLead.answer, request] at hafter
    cases hsel : amb.selectTarget ⟨task.record.task_id, task.record.attempt + 1,
        (LeadTaskMachine.applyExclusion task.record code).excluded, task.record.kind⟩ with
    | none =>
      rw [hsel] at hafter
      exact absurd hafter (by simp)
    | some p =>
      obtain ⟨target, offerBody⟩ := p
      refine ⟨target, offerBody, ?_, rfl⟩
      rw [hsel] at hafter
      -- an offer body that is no contract keeps the task in `drafting`
      by_contra hcontract
      rw [Bool.not_eq_true] at hcontract
      simp [LeadTaskMachine.redispatchTo, LeadTaskMachine.offerTo, hlive, hcontract] at hafter

end

section

variable {cfg : LeadConfig} {amb : Ambient} {now : Int} {task : DurableLeadTask} {o : Option Event}
  {result : EventResult}

/-- The move of an offer either makes it or changes nothing. -/
theorem redispatch_move {m m' : LeadTaskMachine} {target : String} {offerBody : Json} {actions : List LeadAction}
    (h : Move m (.redispatchTo target offerBody now) m' actions) (hs : m.record.state = .drafting) :
    m' = m ∨ m'.record.state = .offered := by
  cases h with
  | absorbed | silent | audited | stale | rearm => exact Or.inl rfl
  | offer => exact Or.inr rfl
  | wait _ _ he | cancel _ _ he => exact absurd he (by simp)
  | noted _ h | fatal _ h | reclaim _ h => rcases h with h | h <;> exact absurd (hs.symm.trans h) (by simp)
  | accept _ h | heartbeat _ h | renewal _ h | close _ h => exact absurd (hs.symm.trans h) (by simp)
  | deliver _ h =>
    rcases h with h | h | h
    · exact absurd (hs.symm.trans h) (by simp)
    · exact absurd (hs.symm.trans h.1) (by simp)
    · exact absurd (hs.symm.trans h) (by simp)
  | retry _ h | escalate _ h =>
    rcases h with h | h <;> exact absurd (hs.symm.trans h.1) (by simp)

/-- A move that asks for the next dispatch finds a draft, or ends a round. -/
theorem requesting_move {m m' : LeadTaskMachine} {e : Event} {actions : List LeadAction}
    (h : Move m e m' actions) {n : Int} (hask : LeadAction.requestDispatch n ∈ actions) :
    m'.record.target = m.record.target ∧ (m.record.state = .drafting ∨ endsRound m e = true) := by
  rcases move_requests h with ⟨hacts, -⟩ | hnone
  · cases h with
    | wait _ hs => exact ⟨rfl, Or.inl hs⟩
    | retry _ _ hcause => exact ⟨charged_target .., Or.inr hcause⟩
    | absorbed | silent | noted | audited | stale | rearm | offer | accept | heartbeat | renewal | deliver
    | fatal | close | escalate =>
      exact absurd hacts (by simp [LeadTaskMachine.stopTimers, LeadTaskMachine.out])
    | reclaim _ _ _ _ ha =>
      rcases ha with rfl | rfl <;> exact absurd hacts (by simp [LeadTaskMachine.stopTimers])
    | cancel => exact absurd hacts (by simp [LeadTaskMachine.stopTimers])
  · exact absurd hask (hnone n)

/-- **An event that leaves the state leaves the round**, unless it is the rejection of an offer
    that is replaced at once. -/
theorem DurableLead.Ran.quiet (h : Ran cfg amb now task o result)
    (hstate : result.value.record.state = task.record.state)
    (hno : ∀ validate fromNode attempt body now' msgId,
      o = some (.onMessage validate "task.reject" fromNode attempt body now' msgId) →
      ¬ Replaces cfg amb task.record fromNode attempt body) :
    result.value.record.attempt = task.record.attempt ∧ result.value.record.target = task.record.target := by
  obtain ⟨m', actions, hturn, hvalue, -⟩ := h.turn
  rw [hvalue] at hstate ⊢
  dsimp only at hstate ⊢
  cases hturn with
  | idle => exact ⟨rfl, rfl⟩
  | alone hmove =>
    cases hmove with
    | absorbed | silent | audited | stale | rearm | wait | noted | heartbeat | renewal => exact ⟨rfl, rfl⟩
    | accept | deliver | fatal | close | reclaim | cancel => exact ⟨rfl, rfl⟩
    | offer _ hs => exact absurd (hstate.trans hs) (by simp)
    | retry | escalate => exact ⟨charged_attempt .., charged_target ..⟩
  | @answered e m1 m2 actions target offerBody h1 hsel h2 =>
    have hdraft : m1.record.state = .drafting ∧ m1.record.attempt = task.record.attempt ∧
        m1.record.target = task.record.target := by
      rcases move_requests h1 with ⟨-, -, hd, ha⟩ | hnone
      · exact ⟨hd, ha, (requesting_move h1 List.mem_cons_self).1⟩
      · exact absurd List.mem_cons_self (hnone _)
    rcases redispatch_move h2 hdraft.1 with rfl | hoffered
    · exact hdraft.2
    -- the offer was made, and the task was offered before
    · exfalso
      have hs : task.record.state = .offered := hstate.symm.trans hoffered
      rcases (requesting_move h1 List.mem_cons_self).2 with hd | hcause
      · exact absurd (hs.symm.trans hd) (by simp)
      · have hreject : ∃ validate fromNode body now' msgId, e = .onMessage validate "task.reject" fromNode
            task.record.attempt body now' msgId ∧ task.record.target = some fromNode := by
          cases e with
          | onMessage validate type fromNode attempt body now' msgId =>
            simp only [endsRound, hears, machine, hs, Bool.and_eq_true, Bool.or_eq_true, decide_eq_true_eq,
              reduceCtorEq, decide_false, Bool.false_and, Bool.false_eq_true, or_false, true_and] at hcause
            obtain ⟨⟨ht, rfl⟩, rfl⟩ := hcause
            exact ⟨validate, fromNode, body, now', msgId, rfl, ht⟩
          | onTimer timer now' =>
            cases timer <;> simp [endsRound, machine, hs] at hcause
          | dispatchTo | redispatchTo | cancelByUser | redispatchByOwner =>
            exact absurd hcause (by simp [endsRound])
        obtain ⟨validate, fromNode, body, now', msgId, rfl, ht⟩ := hreject
        refine hno _ _ _ _ _ _ rfl (@rejected_offer amb now validate _ _ now' msgId _ _ hs ht ?_)
        rw [← h.computed _ rfl, hvalue]
        exact hoffered

/-- What an event logs. -/
theorem DurableLead.Ran.logs (h : Ran cfg amb now task o result) :
    result.value.record.state = task.record.state ∧ result.value.task_seq = task.task_seq ∧
      result.effects = [] ∨
    result.value.task_seq = task.task_seq + 1 ∧
      result.effects = [taskReportEffect (result.value.report cfg) amb.effectId] := by
  obtain ⟨m', actions, -, hvalue, -, heffects, -⟩ := h.turn
  rw [hvalue]
  unfold reportIf nextSeq at heffects
  unfold nextSeq
  by_cases hstate : m'.record.state = task.record.state
  · simp only [hstate, ne_eq, not_true_eq_false, decide_false, Bool.false_eq_true, if_false,
      Except.ok.injEq] at heffects ⊢
    exact Or.inl ⟨trivial, trivial, heffects.symm⟩
  · simp only [ne_eq, hstate, not_false_eq_true, decide_true, if_true, report, bind_ok_iff, pure_ok_iff]
      at heffects ⊢
    obtain ⟨-, -, heffects⟩ := heffects
    exact Or.inr ⟨trivial, heffects.symm⟩

theorem DurableLead.Ran.fixed (h : Ran cfg amb now task o result) :
    result.value.record.task_id = task.record.task_id ∧ result.value.record.kind = task.record.kind := by
  obtain ⟨m', actions, hturn, hvalue, -⟩ := h.turn
  rw [hvalue]
  exact hturn.fixed.2

end

/-! ## One operation -/

section

variable {cfg : LeadConfig} {s s' : DurableLead}

theorem own_of_stored {id : String} {revision : Int} {value : Json} {effects : List Json}
    (hst : Stored s.tables (leadStateKey id) revision value effects s'.tables)
    (heffects : effects = [] ∨ ∃ report effectId, effects = [taskReportEffect report effectId] ∧
      report.task_id = id ∧ report.lead = cfg.me.node_id) (ho : Own cfg s) : Own cfg s' ∧ Grows s s' := by
  obtain ⟨rows, happend, hrows⟩ := hst.effects
  have hnew : ∀ row ∈ rows, row.done = false ∧
      ∃ r : TaskReport, row.payload = r.toJson ∧ row.state_key = leadStateKey r.task_id ∧
        r.lead = cfg.me.node_id := by
    intro row hrow
    obtain ⟨effect, heffect, -, -, hpayload, hkey, -, hdone⟩ := hrows.of_mem hrow
    rcases heffects with rfl | ⟨report, effectId, rfl, hid, hlead⟩
    · exact absurd heffect (by simp)
    · rw [List.mem_singleton] at heffect
      subst heffect
      refine ⟨hdone, report, ?_, by rw [hkey, hid], hlead⟩
      simp [taskReportEffect, Json.get_object_cons] at hpayload
      exact hpayload.symm
  refine ⟨⟨fun row hrow hreport => ?_, hst.distinct ho.distinct⟩, fun row hrow _ => ?_, fun row hrow _ => ?_⟩
  · rw [happend, List.mem_append] at hrow
    rcases hrow with hrow | hrow
    · exact ho.report row hrow hreport
    · exact (hnew row hrow).2
  · rw [happend]
    exact List.mem_append_left _ hrow
  · rw [happend, List.mem_append] at hrow
    rcases hrow with hrow | hrow
    · exact Or.inl hrow
    · exact Or.inr (hnew row hrow).1

theorem own_of_same (h : s'.tables.effects = s.tables.effects) (ho : Own cfg s) : Own cfg s' ∧ Grows s s' := by
  refine ⟨⟨fun row hrow => ?_, ?_⟩, grows_of_same h⟩
  · rw [h] at hrow
    exact ho.report row hrow
  · rw [h]
    exact ho.distinct

/-- A small step logs this lead's reports only. -/
theorem Advance.own {ok : Trigger → Prop} (h : Advance cfg ok s s') (ht : Titled s) (ho : Own cfg s) :
    Own cfg s' ∧ Grows s s' := by
  cases h with
  | memory => exact own_of_same rfl ho
  | decided _ heffects => exact own_of_same heffects ho
  | originated _ _ hst => exact own_of_stored (s := s) hst (Or.inl rfl) ho
  | @turned key row task amb now o result t' hkey hrow hdec hran hok hans hst =>
    obtain ⟨taskId, rfl⟩ := isLeadKey_iff.mp hkey
    have hid := ht taskId task ⟨row, hrow, (decode_ok hdec).2⟩
    refine own_of_stored (s := s) hst ?_ ho
    rcases hran.logs with ⟨-, -, heffects⟩ | ⟨-, heffects⟩
    · exact Or.inl heffects
    · exact Or.inr ⟨_, _, heffects, hran.fixed.1.trans hid, rfl⟩
  | @kept key row task t' hkey hrow hdec hst =>
    obtain ⟨taskId, rfl⟩ := isLeadKey_iff.mp hkey
    exact own_of_stored (s := s) hst (Or.inl rfl) ho
  | archived _ _ _ hst => exact own_of_stored (s := s) hst (Or.inl rfl) ho
  | imported _ _ _ _ hst => exact own_of_stored (s := s) hst (Or.inl rfl) ho

/-- **An operation logs this lead's reports only**, and takes none back. -/
theorem execute_own (op : Op) (hk : Kept s) (ho : Own cfg s) :
    Own cfg (Command.after (execute cfg op s)) ∧ Grows s (Command.after (execute cfg op s)) := by
  have hstep : ∀ s1 s2, Advance cfg (fun _ => True) s1 s2 → Titled s1 ∧ Own cfg s1 ∧ Grows s s1 →
      Titled s2 ∧ Own cfg s2 ∧ Grows s s2 := by
    intro s1 s2 h ⟨ht, ho, hg⟩
    obtain ⟨ho', hg'⟩ := h.own ht ho
    exact ⟨h.titled ht, ho', hg.trans hg'⟩
  have hpath : Command.Path (Advance cfg fun _ => True) s (Command.after (execute cfg op s)) :=
    execute_path (fun _ _ => trivial) hk.keyed
  exact (Command.path_keeps hstep hpath ⟨hk.titled, ho, .refl s⟩).2

/-- An operation that the registry can follow: no rejected offer is replaced at once, no `dispatch`
    restarts the count of a draft, no import takes a task that has been reported. -/
structure Projecting (cfg : LeadConfig) (s : DurableLead) (op : Op) : Prop where
  rejections : ∀ amb e authorized now taskId task, op = .consume amb e authorized now →
    isHeeded cfg e authorized now = true → Env.type e = "task.reject" → Env.taskId e = some taskId →
    Holds s (leadStateKey taskId) task →
    ¬ Replaces cfg amb task.record (Env.fromNode e) ((Env.attempt e).getD 0) (Env.body e)
  dispatches : ∀ amb taskId target offerBody now, op = .dispatch amb taskId target offerBody now →
    isLeadContract (offerBody.get "contract") = true →
    ∀ task, Holds s (leadStateKey taskId) task → task.record.state = .drafting → task.record.attempt ≤ 1
  imports : ∀ bundle entries task, op = .importTasks bundle → bundleTasks bundle = some entries →
    TakesOver cfg task s.tables entries → ¬ HasReport s task.record.task_id

/-- What `Shown` asks of an operation's small steps. -/
def KeepsShown (cfg : LeadConfig) (s s' : DurableLead) : Prop :=
  (∀ taskId, Shown cfg s taskId) → ∀ taskId, Shown cfg s' taskId

theorem keepsShown_memory {verdicts : List (String × Verdict)} {faulted : Bool} :
    KeepsShown cfg s { s with verdicts, faulted } := by
  intro h taskId
  exact @shown_of_same cfg s { s with verdicts, faulted } (fun _ _ => rfl)
    (fun _ _ _ => logged_of_same rfl) taskId (h taskId)

/-- A write without a report, over a task the log shows as it will stand, or does not show. -/
theorem keepsShown_quiet {id : String} {revision : Int} {value : Json}
    (hst : Stored s.tables (leadStateKey id) revision value [] s'.tables)
    (hown : Shown cfg s id → Shown cfg s' id) : KeepsShown cfg s s' := by
  intro h taskId
  by_cases heq : taskId = id
  · subst heq
    exact hown (h taskId)
  · exact shown_other hst heq (fun _ _ => logged_quiet hst) (h taskId)

theorem shown_unreported {id : String} {revision : Int} {value : Json}
    (hst : Stored s.tables (leadStateKey id) revision value [] s'.tables) (hno : ¬ HasReport s id) :
    Shown cfg s' id := by
  intro ⟨v, r, hr⟩
  exact absurd ⟨v, r, (logged_quiet hst).mp hr⟩ hno

/-- A turn of the lead keeps the tasks shown, if it keeps the round it does not report and lets the attempt
    of the task it reports only rise. -/
theorem keepsShown_turned {key : String} {row : StateRow} {task : DurableLeadTask} {amb : Ambient} {now : Int}
    {o : Option Event} {result : EventResult} (hkey : isLeadKey key = true)
    (hrow : Table.lookup StateRow.state_key key s.tables.state = some row)
    (hdec : decode (some row) = .ok (some task)) (hran : Ran cfg amb now task o result)
    (hcount : ∀ e, o = some e → Counting (machine cfg task) e)
    (hno : ∀ validate fromNode attempt body now' msgId,
      o = some (.onMessage validate "task.reject" fromNode attempt body now' msgId) →
      ¬ Replaces cfg amb task.record fromNode attempt body)
    (hst : Stored s.tables key row.revision result.value.toJson result.effects s'.tables) :
    KeepsShown cfg s s' := by
  obtain ⟨id, rfl⟩ := isLeadKey_iff.mp hkey
  obtain ⟨hsameId, hsameKind⟩ := hran.fixed
  rcases hran.logs with ⟨hstate, hseq, heffects⟩ | ⟨hseq, heffects⟩
  · rw [heffects] at hst
    refine keepsShown_quiet hst (shown_quiet hrow (decode_ok hdec).2 hst (ofJson_toJson _) fun _ => ?_)
    obtain ⟨hatt, htarget⟩ := hran.quiet hstate hno
    unfold DurableLeadTask.report
    rw [hsameId, hsameKind, hstate, hseq, hatt, htarget]
  · rw [heffects] at hst
    intro h taskId
    by_cases heq : taskId = id
    · subst heq
      refine shown_reporting hrow (decode_ok hdec).2 hst (ofJson_toJson _) hseq hsameKind (fun _ => ?_) (h taskId)
      obtain ⟨m', actions, hturn, hvalue, -⟩ := hran.turn
      rw [hvalue]
      exact (hturn.rise (synced_machine cfg task) hcount).attempt
    · refine shown_other hst heq (fun v r => ?_) (h taskId)
      rw [logged_reporting hst]
      exact or_iff_left fun hx => heq hx.1

/-- An operation other than an import. -/
theorem carries_shown {op : Op} (himport : ∀ bundle, op ≠ .importTasks bundle) (hp : Projecting cfg s op) :
    Carries cfg s op (KeepsShown cfg) where
  memory _ _ _ := keepsShown_memory
  decided s1 t' hstate heffects h taskId := @shown_of_same cfg s1 { s1 with tables := t' }
    (fun key _ => congrArg _ hstate) (fun _ _ _ => logged_of_same heffects) taskId (h taskId)
  originated s1 id kind t' hid hnew hst := by
    refine keepsShown_quiet (s := s1) hst fun h hlogged => ?_
    obtain ⟨v, r, hr⟩ := hlogged
    obtain ⟨row, task, hrow, -⟩ := h ⟨v, r, (logged_quiet (s := s1) hst).mp hr⟩
    rw [hnew] at hrow
    exact absurd hrow (by simp)
  turned := by
    intro s1 key row task amb now o result t' h0 hop hkey hrow hdec hran hst
    refine keepsShown_turned (s := s1) hkey hrow hdec hran ?_ ?_ hst
    · intro e he
      exact steady_triggers himport hp.dispatches _ (.event h0 (hop.first e he).1)
    · intro validate fromNode attempt body now' msgId he
      -- a message reaches the machine through `consume` only, and there `hp` excludes the replacement
      obtain ⟨hfirst, -⟩ := hop.first _ he
      have hsel := hop.selector
      cases op with
      | consume amb' e authorized now'' =>
        simp only [firstEvent] at hfirst
        split at hfirst
        · rename_i hheeded
          obtain ⟨hid, hheeded⟩ := hheeded
          obtain ⟨taskId, htask, hkey'⟩ := Option.map_eq_some_iff.mp hid
          simp only [Option.some.injEq, Event.onMessage.injEq] at hfirst
          obtain ⟨-, htype, rfl, rfl, rfl, -, -⟩ := hfirst
          intro hreplaces
          refine hp.rejections amb' e authorized now'' taskId task rfl hheeded htype htask (hkey' ▸ h0) ?_
          unfold Replaces at hreplaces ⊢
          rw [show amb'.selectTarget = amb.selectTarget from hsel]
          exact hreplaces
        · exact absurd hfirst (by simp)
      | tick amb' now'' =>
        simp only [firstEvent] at hfirst
        split at hfirst
        · exact absurd hfirst (by simp)
        · split at hfirst
          · obtain ⟨p, -, hp⟩ := Option.map_eq_some_iff.mp hfirst
            exact absurd hp (by simp)
          · exact absurd hfirst (by simp)
      | originate | importTasks => exact absurd hfirst (by simp [firstEvent])
      | dispatch | cancel | redispatch =>
        simp only [firstEvent] at hfirst
        split at hfirst
        · exact absurd hfirst (by simp)
        · exact absurd hfirst (by simp)
  kept := by
    intro s1 key row task t' hkey hrow hdec hst
    obtain ⟨id, rfl⟩ := isLeadKey_iff.mp hkey
    refine keepsShown_quiet (s := s1) hst (shown_quiet (s := s1) hrow (decode_ok hdec).2 hst (ofJson_toJson _) ?_)
    intro _
    rfl
  archived := fun _ bundle _ _ _ _ _ _ hop => absurd hop (himport bundle)
  imported := fun _ bundle _ _ _ _ _ _ hop => absurd hop (himport bundle)

/-- Imports of tasks that have not been reported. -/
theorem each_shown : ∀ {entries : List Json} {s : DurableLead} {r : ImportResult},
    (∀ task, TakesOver cfg task s.tables entries → ¬ HasReport s task.record.task_id) →
    KeepsShown cfg s (Command.after (Command.each (importEntry cfg) r entries s)) := by
  intro entries
  induction entries with
  | nil => exact fun _ h => h
  | cons entry rest ih =>
    intro s r hno
    have hone := @importEntry_fate cfg s entry r
    simp only [TakesOver] at hno
    unfold Command.each
    cases hfate : fate cfg s.tables entry with
    | refused =>
      rw [hfate] at hone
      obtain ⟨e, hrun⟩ := hone
      rw [Command.bind_of_error hrun]
      exact fun h => h
    | fenced =>
      rw [hfate] at hno hone
      obtain ⟨value, task, -, hrun⟩ := hone
      rw [Command.bind_of_ok hrun]
      exact ih hno
    | taken t =>
      rw [hfate] at hno hone
      obtain ⟨value, task, hentry, hrun⟩ := hone
      rw [Command.bind_of_ok hrun]
      obtain ⟨value', task', hentry', -, rfl⟩ := fate_taken hfate
      rw [hentry] at hentry'
      obtain ⟨rfl, rfl⟩ := Prod.mk.inj (Option.some.inj hentry')
      have hst : Stored s.tables (leadStateKey task.record.task_id)
          (revisionOf (Table.lookup StateRow.state_key (leadStateKey task.record.task_id) s.tables.state))
          (takenValue value task) [] (written s.tables (leadStateKey task.record.task_id)
            (Table.lookup StateRow.state_key (leadStateKey task.record.task_id) s.tables.state)
            (takenValue value task)) :=
        ⟨rfl, ⟨[], (List.append_nil _).symm, .nil⟩, id⟩
      have hlog : ∀ id v x, Logged (afterTaken s task _) id v x ↔ Logged s id v x :=
        fun id v x => @logged_quiet s (afterTaken s task _) _ _ _ _ hst v x
      intro h
      refine ih (s := afterTaken s task _) ?_ ?_
      · rintro other htakes ⟨v, x, hx⟩
        exact hno other (Or.inr htakes) ⟨v, x, (hlog _ _ _).mp hx⟩
      · refine @keepsShown_quiet cfg s (afterTaken s task _) _ _ _ hst (fun _ => ?_) h
        exact @shown_unreported cfg s (afterTaken s task _) _ _ _ hst (hno task (Or.inl ⟨value, hentry⟩))

/-- A lead that has faulted leaves its store alone. -/
theorem execute_faulted (op : Op) (h : s.faulted = true) : SameStore s (Command.after (execute cfg op s)) := by
  have hbare : ∀ f : PUnit → Command PUnit, SameStore s (Command.after (checked (assertHealthy >>= f) s)) := by
    intro f
    have hrun : (assertHealthy >>= f) s = .error (.error "Lead faulted; explicit recovery required") s :=
      Command.bind_of_error (by rw [assertHealthy_eq, h]; rfl)
    unfold checked
    rw [hrun]
    exact ⟨rfl, rfl⟩
  cases op with
  | tick | consume => exact hbare _
  | originate | dispatch | cancel | redispatch | importTasks => exact sameStore_faulted h

/-- **An operation the registry can follow keeps the tasks shown.** -/
theorem execute_shown {op : Op} (hk : Kept s) (hp : s.faulted = false → Projecting cfg s op) :
    KeepsShown cfg s (Command.after (execute cfg op s)) := by
  have hsame : ∀ {s' : DurableLead}, SameStore s s' → KeepsShown cfg s s' := by
    intro s' hs h taskId
    refine shown_of_same (fun key _ => by rw [hs.tables]) (fun _ _ _ => logged_of_same ?_) (h taskId)
    rw [hs.tables]
  cases hfaulted : s.faulted with
  | true => exact hsame (execute_faulted op hfaulted)
  | false =>
    have hp := hp hfaulted
    by_cases himport : ∃ bundle, op = .importTasks bundle
    · obtain ⟨bundle, rfl⟩ := himport
      have hrun := @execute_import cfg s bundle
      rw [hfaulted] at hrun
      cases hentries : bundleTasks bundle with
      | none =>
        rw [hentries] at hrun
        exact hsame hrun
      | some entries =>
        rw [hentries] at hrun
        have htrace := @each_shown cfg entries s ⟨[], [], []⟩ fun task =>
          hp.imports bundle entries task rfl hentries
        intro h taskId
        refine shown_of_same (fun key _ => by rw [hrun.tables]) (fun _ _ _ => logged_of_same ?_)
          (htrace h taskId)
        rw [hrun.tables]
    · intro h
      exact Command.path_keeps (R := KeepsShown cfg) (I := fun s' => ∀ taskId, Shown cfg s' taskId)
        (fun _ _ hstep hI => hstep hI)
        (execute_path_of (carries_shown (fun bundle hop => himport ⟨bundle, hop⟩) hp) hk.keyed) h

end

end Lead
end Qlong
