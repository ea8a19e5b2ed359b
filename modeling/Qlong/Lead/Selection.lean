import Qlong.Core.Caps
import Qlong.Lead.Attempts
import Qlong.Lead.Deliveries
import Qlong.Lead.Exclusions

/-!
# Choosing the next target

`packages/node/src/runtime/target-select.ts`: the selector a lead is given to redispatch with. It
answers from the last directory snapshot it has fetched, passes over every node that carries a
mark, `once` or `permanent`, and changes no mark; nor does anything else.

`selectingSystem` is a lead together with its selector. What R8 asks of it is a matter of the
whole run: a node excluded once is out of the selection that follows and in again for the
selections after that one. **`once_lasts_one_round`** says when the selections of a run are served
so, and the run after it shows a draft nobody will ever be offered.
-/

namespace Qlong
namespace Lead

open Lib Node

/-! ## The selector -/

structure DirectoryNode where
  node_id : String
  status : String
  caps : Option (List String) := none
deriving DecidableEq

inductive Strategy where
  | round_robin
  | first
deriving DecidableEq, Repr

structure TargetSelectorOptions where
  selfNodeId : String
  offerTemplate : Json
  strategy : Strategy := .round_robin
  template_ok : offerTemplate.isRecord = true

/-- What the closure keeps: `snapshot` and `cursor`. -/
structure TargetSelector where
  snapshot : List DirectoryNode
  cursor : Nat
deriving DecidableEq

namespace TargetSelector

variable (opts : TargetSelectorOptions)

/-- The strings in `offerTemplate.required_caps`. -/
def requiredCaps : List String :=
  match opts.offerTemplate.get "required_caps" with
  | some (.arr caps) => caps.filterMap Json.asStr
  | _ => []

/-- Another node, active and capable. -/
def qualifies (n : DirectoryNode) : Bool :=
  n.node_id ≠ opts.selfNodeId && n.status = "active" &&
    ((requiredCaps opts).isEmpty || Caps.matchCaps (requiredCaps opts) (n.caps.getD []))

/-- `candidates`. -/
def candidates (snapshot : List DirectoryNode) (request : RedispatchRequest) : List DirectoryNode :=
  snapshot.filter fun n => qualifies opts n && (scopeOf request.excluded n.node_id).isNone

/-- `{ ...opts.offerTemplate, kind: request.kind }`. -/
def offerBody (request : RedispatchRequest) : Json :=
  opts.offerTemplate.set "kind" (.str (kindText request.kind))

/-- `selector(request)`. -/
def select (sel : TargetSelector) (request : RedispatchRequest) : Option (String × Json) × TargetSelector :=
  match candidates opts sel.snapshot request with
  | [] => (none, sel)
  | n :: rest =>
    match opts.strategy with
    | .first => (some (n.node_id, offerBody opts request), sel)
    | .round_robin =>
      let pick := (n :: rest).get ⟨sel.cursor % (rest.length + 1), Nat.mod_lt _ (Nat.succ_pos _)⟩
      (some (pick.node_id, offerBody opts request), { sel with cursor := sel.cursor + 1 })

variable {opts}

theorem mem_candidates {snapshot : List DirectoryNode} {request : RedispatchRequest} {n : DirectoryNode} :
    n ∈ candidates opts snapshot request ↔
      n ∈ snapshot ∧ qualifies opts n = true ∧ scopeOf request.excluded n.node_id = none := by
  simp [candidates]

/-- **The selector's answer** is an offer to one of the candidates, if there is any. -/
theorem select_cases (sel : TargetSelector) (request : RedispatchRequest) :
    (candidates opts sel.snapshot request = [] ∧ (sel.select opts request).1 = none) ∨
    ∃ n ∈ candidates opts sel.snapshot request,
      (sel.select opts request).1 = some (n.node_id, offerBody opts request) := by
  unfold select
  cases hc : candidates opts sel.snapshot request with
  | nil => exact Or.inl ⟨rfl, rfl⟩
  | cons n rest =>
    refine Or.inr ?_
    cases opts.strategy with
    | first => exact ⟨n, List.mem_cons_self, rfl⟩
    | round_robin => exact ⟨_, List.get_mem _ _, rfl⟩

end TargetSelector

/-! ## What an operation asks of it -/

namespace DurableLead

variable {cfg : LeadConfig} {amb : Ambient} {now : Int} {m : LeadTaskMachine} {e : Event}
  {request' : RedispatchRequest}

/-- The request an event puts to the selector. -/
def asksFor (m : LeadTaskMachine) (e : Event) : Option RedispatchRequest :=
  (m.applyEvent e).2.findSome? fun a => match a with
    | .requestDispatch n => some (request (m.applyEvent e).1.record n)
    | _ => none

/-- The request an operation puts to the selector for the task under `key`. -/
def consulted (cfg : LeadConfig) (s : DurableLead) (op : Op) (key : String) (task : DurableLeadTask) :
    Option RedispatchRequest :=
  match op with
  | .tick _ now =>
    match dueTimer task.record now with
    | some timer => asksFor (machine cfg task) (.onTimer timer now)
    | none =>
      if task.record.state = .drafting ∧ 1 ≤ task.record.attempt then
        some (request task.record (task.record.attempt + 1))
      else none
  | _ => (firstEvent cfg s op key task).bind (asksFor (machine cfg task))

/-- A task waiting for a target, or on offer to the one the selector has answered with. -/
def Answered (answer : Option (String × Json)) (t r : LeadRecord) : Prop :=
  match answer.filter fun p => isLeadContract (p.2.get "contract") with
  | some (target, _) => r.state = .offered ∧ r.target = some target ∧ r.attempt = t.attempt + 1
  | none => r.state = .drafting ∧ r.attempt = t.attempt

/-- An event that asks leaves a live draft behind, and asks for it. -/
theorem asksFor_some (hsync : m.Synced) (h : asksFor m e = some request') :
    (m.applyEvent e).2 = [.requestDispatch (m.record.attempt + 1)] ∧ (m.applyEvent e).1.terminal = false ∧
      (m.applyEvent e).1.record.state = .drafting ∧
      (m.applyEvent e).1.record.attempt = m.record.attempt ∧
      request' = request (m.applyEvent e).1.record (m.record.attempt + 1) := by
  rcases move_requests (LeadTaskMachine.applyEvent_move hsync e) with ⟨hact, hlive, hdraft, hatt⟩ | hnone
  · refine ⟨hact, hlive, hdraft, hatt, ?_⟩
    rw [asksFor, hact] at h
    simpa [eq_comm] using h
  · unfold asksFor at h
    obtain ⟨a, ha, hr⟩ := List.exists_of_findSome?_eq_some h
    cases a with
    | requestDispatch n => exact absurd ha (hnone n)
    | _ => exact absurd hr (by simp)

/-- An offer to a live draft. -/
theorem redispatchTo_answered {m' : LeadTaskMachine} {target : String} {offerBody : Json} {t : LeadRecord}
    (hlive : m'.terminal = false) (hdraft : m'.record.state = .drafting) (hatt : m'.record.attempt = t.attempt) :
    Answered (some (target, offerBody)) t (m'.redispatchTo target offerBody now).1.record ∧
      ((m'.redispatchTo target offerBody now).2 = [] → m'.redispatchTo target offerBody now = (m', [])) := by
  unfold LeadTaskMachine.redispatchTo LeadTaskMachine.offerTo Answered
  rw [hlive, if_neg Bool.false_ne_true, if_neg (not_not.mpr hdraft)]
  cases hc : isLeadContract (offerBody.get "contract") with
  | true => simp [Option.filter, hc, hatt]
  | false => simp [Option.filter, hc, hatt, hdraft]

/-- **What a selection comes to.** The machine asks, or a tick asks for it, and the answer is applied. -/
theorem driveRedispatch_answered {task : DurableLeadTask} (h : asksFor (machine cfg task) e = some request') :
    Answered (amb.selectTarget request') task.record
      (driveRedispatch amb now ((machine cfg task).applyEvent e)).1.record ∧
    (driveRedispatch amb now ((machine cfg task).applyEvent e)).2 ≠ [] := by
  obtain ⟨hact, hlive, hdraft, hatt, rfl⟩ := asksFor_some (synced_machine cfg task) h
  rw [show (machine cfg task).applyEvent e = (((machine cfg task).applyEvent e).1,
    [.requestDispatch ((machine cfg task).record.attempt + 1)]) from Prod.ext rfl hact]
  simp only [driveRedispatch, List.foldl_cons, List.foldl_nil, answer]
  cases amb.selectTarget (request ((machine cfg task).applyEvent e).1.record
      ((machine cfg task).record.attempt + 1)) with
  | none => exact ⟨⟨hdraft, hatt⟩, by simp⟩
  | some p => exact ⟨(redispatchTo_answered hlive hdraft hatt).1, by simp⟩

/-- The retry of a tick: an offer, or nothing at all. -/
theorem driveRedispatch_retry {task : DurableLeadTask} (hdraft : task.record.state = .drafting) :
    Answered (amb.selectTarget (request task.record (task.record.attempt + 1))) task.record
      (driveRedispatch amb now (tryRedispatch amb now (machine cfg task))).1.record ∧
    ((driveRedispatch amb now (tryRedispatch amb now (machine cfg task))).2 = [] →
      (driveRedispatch amb now (tryRedispatch amb now (machine cfg task))).1 = machine cfg task) := by
  have hlive : (machine cfg task).terminal = false := by
    simp [machine, hdraft, LeadState.isTerminal]
  unfold tryRedispatch
  show Answered (amb.selectTarget (request task.record (task.record.attempt + 1))) _ _ ∧ _
  cases hsel : amb.selectTarget (request task.record (task.record.attempt + 1)) with
  | none =>
    have hsel' : amb.selectTarget (request (machine cfg task).record ((machine cfg task).record.attempt + 1))
      = none := hsel
    simp only [hsel', driveRedispatch, List.foldl_nil]
    exact ⟨⟨hdraft, rfl⟩, fun _ => trivial⟩
  | some p =>
    have hsel' : amb.selectTarget (request (machine cfg task).record ((machine cfg task).record.attempt + 1))
      = some p := hsel
    obtain ⟨target, offerBody⟩ := p
    have hdrive : driveRedispatch amb now ((machine cfg task).redispatchTo target offerBody now)
        = (machine cfg task).redispatchTo target offerBody now :=
      answer_nothing (fun n => redispatchTo_asks_nothing (machine cfg task) target offerBody now n) _
    simp only [hsel', hdrive]
    obtain ⟨hans, hidle⟩ := redispatchTo_answered hlive hdraft rfl
    exact ⟨hans, fun hnil => congrArg Prod.fst (hidle hnil)⟩

/-! ## What an operation that returns has done -/

/-- The row under a key is the task's, read or just written. -/
def Shows (s : DurableLead) (key : String) (task : DurableLeadTask) : Prop :=
  ∃ row, Table.lookup StateRow.state_key key s.tables.state = some row ∧
    (decode (some row) = .ok (some task) ∨ row.value = task.toJson)

/-- A key holds one task. -/
theorem holds_unique {s : DurableLead} {key : String} {task task' : DurableLeadTask} (h : Holds s key task)
    (h' : Holds s key task') : task = task' := by
  obtain ⟨row, hrow, hdec⟩ := h
  obtain ⟨row', hrow', hdec'⟩ := h'
  rw [hrow] at hrow'
  rw [← Option.some.inj hrow', hdec] at hdec'
  exact Option.some.inj (Except.ok.inj hdec')

theorem Shows.congr {s s' : DurableLead} {key : String} {task : DurableLeadTask} (h : Shows s key task)
    (heq : Table.lookup StateRow.state_key key s'.tables.state = Table.lookup StateRow.state_key key s.tables.state) :
    Shows s' key task := by
  obtain ⟨row, hrow, hvalue⟩ := h
  exact ⟨row, heq.trans hrow, hvalue⟩

theorem shows_of_stored {t : Tables} {s' : DurableLead} {key : String} {revision : Int} {task : DurableLeadTask}
    {effects : List Json} (hst : Stored t key revision task.toJson effects s'.tables) : Shows s' key task := by
  refine ⟨⟨key, revision + 1, task.toJson⟩, ?_, Or.inr rfl⟩
  rw [hst.lookup, if_pos rfl]

variable {s s' : DurableLead} {key : String} {row : StateRow} {task : DurableLeadTask} {runner : Runner}

theorem commitEvent_ok {revision : Int} {result : EventResult} {u : PUnit}
    (h : commitEvent cfg key revision result s = .ok u s') :
    Stored s.tables key revision result.value.toJson result.effects s'.tables := by
  unfold commitEvent at h
  obtain ⟨u1, s1, hwrite, hprune⟩ := Command.bind_ok_iff.mp h
  obtain ⟨t', rfl, hst⟩ := commit_ok hwrite
  rw [pruneVerdict_tables hprune]
  exact hst

/-- What `runEvent` computes, when it returns. -/
theorem runEvent_value {result : EventResult} (h : runEvent cfg amb task runner now = .ok result) :
    result.value.record = (driveRedispatch amb now (runner (machine cfg task))).1.record ∧
      (result.acted = false → (driveRedispatch amb now (runner (machine cfg task))).2 = []) := by
  simp only [runEvent, bind_ok_iff, pure_ok_iff] at h
  obtain ⟨outbox, -, effects, -, rfl⟩ := h
  refine ⟨rfl, fun hidle => ?_⟩
  simpa using (Bool.or_eq_false_iff.mp hidle).2

/-- An event run on the row under `key`, and committed if it acted. -/
def Ends (cfg : LeadConfig) (amb : Ambient) (now : Int) (task : DurableLeadTask) (runner : Runner)
    (s : DurableLead) (key : String) (s' : DurableLead) : Prop :=
  ∃ result, runEvent cfg amb task runner now = .ok result ∧
    if result.acted then Shows s' key result.value
    else Table.lookup StateRow.state_key key s'.tables.state = Table.lookup StateRow.state_key key s.tables.state

/-- `readRow`, when it returns. -/
theorem readRow_reads {r : Option StateRow} (h : readRow key s = .ok r s') :
    r = Table.lookup StateRow.state_key key s.tables.state ∧ s' = s := by
  have h' : (Command.lift (fromStore (readState s.tables key)) : Command (Option StateRow)) s = .ok r s' := h
  obtain ⟨hread, rfl⟩ := Command.lift_ok_iff.mp h'
  rw [fromStore_ok] at hread
  exact ⟨readState_ok hread, rfl⟩

theorem transitionEvent_ok {taskId : String} {changed : Bool}
    (h : transitionEvent cfg amb taskId runner now s = .ok changed s') (hholds : Holds s (leadStateKey taskId) task) :
    Ends cfg amb now task runner s (leadStateKey taskId) s' := by
  obtain ⟨row, hrow, hdec⟩ := hholds
  unfold transitionEvent at h
  obtain ⟨r, s1, hread, hbody⟩ := Command.bind_ok_iff.mp h
  obtain ⟨rfl, rfl⟩ := readRow_reads hread
  obtain ⟨t, s2, hlift, hbody⟩ := Command.bind_ok_iff.mp hbody
  obtain ⟨hdec', hsame⟩ := Command.lift_ok_iff.mp hlift
  rw [hrow, hdec] at hdec'
  rw [hrow, ← Except.ok.inj hdec', hsame] at hbody
  obtain ⟨result, s3, hcompute, hcommit⟩ := Command.bind_ok_iff.mp hbody
  obtain ⟨hrun, hsame'⟩ := Command.lift_ok_iff.mp hcompute
  rw [hsame'] at hcommit
  refine ⟨result, hrun, ?_⟩
  by_cases hacted : result.acted = true
  · simp only [hacted, if_true] at hcommit ⊢
    obtain ⟨u, s4, hwrite, hreturn⟩ := Command.bind_ok_iff.mp hcommit
    injection hreturn with _ hreturn
    rw [← hreturn]
    exact shows_of_stored (commitEvent_ok hwrite)
  · simp only [if_neg hacted] at hcommit ⊢
    injection hcommit with _ hreturn
    rw [← hreturn]

theorem tickRow_ok {amb : String → Ambient} {u : PUnit} (h : tickRow cfg amb now row s = .ok u s')
    (hdec : decode (some row) = .ok (some task)) (hrunner : tickRunner (amb row.state_key) task.record now = some runner) :
    Ends cfg (amb row.state_key) now task runner s row.state_key s' := by
  unfold tickRow at h
  obtain ⟨t, s1, hlift, hbody⟩ := Command.bind_ok_iff.mp h
  obtain ⟨hdec', hsame⟩ := Command.lift_ok_iff.mp hlift
  rw [hdec] at hdec'
  rw [← Except.ok.inj hdec', hsame] at hbody
  simp only [hrunner] at hbody
  obtain ⟨result, s2, hcompute, hcommit⟩ := Command.bind_ok_iff.mp hbody
  obtain ⟨hrun, hsame'⟩ := Command.lift_ok_iff.mp hcompute
  rw [hsame'] at hcommit
  refine ⟨result, hrun, ?_⟩
  by_cases hacted : result.acted = true
  · simp only [hacted, if_true] at hcommit ⊢
    exact shows_of_stored (commitEvent_ok hcommit)
  · simp only [if_neg hacted] at hcommit ⊢
    injection hcommit with _ hreturn
    rw [← hreturn]

theorem tickRows_frame {amb : String → Ambient} : ∀ {rows : List StateRow} {u u' : PUnit} {s : DurableLead},
    Command.each (fun _ row => tickRow cfg amb now row) u rows s = .ok u' s' →
    (∀ row ∈ rows, key ≠ row.state_key) →
    Table.lookup StateRow.state_key key s'.tables.state = Table.lookup StateRow.state_key key s.tables.state := by
  intro rows
  induction rows with
  | nil =>
    intro u u' s h _
    injection h with _ h
    rw [h]
  | cons first rest ih =>
    intro u u' s h hother
    obtain ⟨u1, s1, hfirst, hloop⟩ := Command.bind_ok_iff.mp h
    rw [ih hloop fun row hrow => hother row (List.mem_cons_of_mem _ hrow)]
    exact tickRow_frame hfirst (hother first List.mem_cons_self)

/-- The loop of a tick, cut at one of its rows. -/
theorem tickRows_ok {amb : String → Ambient} : ∀ {rows : List StateRow} {u : PUnit} {s : DurableLead},
    Command.each (fun _ row => tickRow cfg amb now row) u rows s = .ok u s' →
    rows.Pairwise (fun a b => a.state_key ≠ b.state_key) → row ∈ rows →
    ∃ s1 s2, Table.lookup StateRow.state_key row.state_key s1.tables.state
        = Table.lookup StateRow.state_key row.state_key s.tables.state ∧
      tickRow cfg amb now row s1 = .ok u s2 ∧
      Table.lookup StateRow.state_key row.state_key s'.tables.state
        = Table.lookup StateRow.state_key row.state_key s2.tables.state := by
  intro rows
  induction rows with
  | nil => intro u s _ _ hmem; exact absurd hmem List.not_mem_nil
  | cons first rest ih =>
    intro u s h hdistinct hmem
    obtain ⟨hne, hrest⟩ := List.pairwise_cons.mp hdistinct
    obtain ⟨u1, s1, hfirst, hloop⟩ := Command.bind_ok_iff.mp h
    rcases List.mem_cons.mp hmem with rfl | hmem
    · refine ⟨s, s1, rfl, hfirst, ?_⟩
      exact tickRows_frame hloop fun r hr => hne r hr
    · obtain ⟨s2, s3, hbefore, hbody, hafter⟩ := ih hloop hrest hmem
      exact ⟨s2, s3, hbefore.trans (tickRow_frame hfirst (Ne.symm (hne row hmem))), hbody, hafter⟩

/-- A tick reads at most `maxEntries` rows. -/
def Visits (cfg : LeadConfig) (s : DurableLead) (op : Op) (key : String) : Prop :=
  match op with
  | .tick _ _ => ∃ rows, states s.tables (leadStateKey "") cfg.store.maxEntries.toNat = .ok rows ∧
      ∃ row ∈ rows, row.state_key = key
  | _ => True

theorem tick_ok {amb : String → Ambient} {u : PUnit} (h : tick cfg amb now s = .ok u s')
    (hkeyed : Table.Keyed StateRow.state_key s.tables.state) (hvisits : Visits cfg s (.tick amb now) key)
    (hholds : Holds s key task) (hrunner : tickRunner (amb key) task.record now = some runner) :
    Ends cfg (amb key) now task runner s key s' := by
  obtain ⟨rows, hrows, row, hmem, rfl⟩ := hvisits
  obtain ⟨row', hrow, hdec⟩ := hholds
  obtain ⟨u1, s1, hhealthy, hbody⟩ := Command.bind_ok_iff.mp (of_checked_ok h)
  rw [assertHealthy_ok hhealthy] at hbody
  have hbody' : (Command.lift (fromStore (states s.tables (leadStateKey "") cfg.store.maxEntries.toNat)) >>=
      fun rows => Command.each (fun _ row => tickRow cfg amb now row) PUnit.unit rows : Command PUnit) s = .ok u s' :=
    hbody
  obtain ⟨rows', s2, hlift, hloop⟩ := Command.bind_ok_iff.mp hbody'
  obtain ⟨hlist, hsame⟩ := Command.lift_ok_iff.mp hlift
  rw [fromStore_ok, hrows] at hlist
  rw [← Except.ok.inj hlist, hsame] at hloop
  obtain ⟨hstates, hdistinct⟩ := states_ok hkeyed hrows
  have hrow' : Table.lookup StateRow.state_key row.state_key s.tables.state = some row :=
    Table.lookup_of_mem hkeyed (hstates row hmem).1
  rw [hrow'] at hrow
  obtain rfl := Option.some.inj hrow
  obtain ⟨s3, s4, hbefore, hrun, hafter⟩ := tickRows_ok hloop hdistinct hmem
  obtain ⟨result, hresult, hend⟩ := tickRow_ok hrun hdec hrunner
  refine ⟨result, hresult, ?_⟩
  by_cases hacted : result.acted = true
  · rw [if_pos hacted] at hend ⊢
    exact hend.congr hafter
  · rw [if_neg hacted] at hend ⊢
    exact hafter.trans (hend.trans hbefore)

/-- The event that asked, computed. -/
theorem asked_value {result : EventResult} (hrun : runEvent cfg amb task runner now = .ok result)
    (hruns : runner (machine cfg task) = (machine cfg task).applyEvent e)
    (hasks : asksFor (machine cfg task) e = some request') :
    result.acted = true ∧ Answered (amb.selectTarget request') task.record result.value.record := by
  obtain ⟨hrecord, hidle⟩ := runEvent_value hrun
  obtain ⟨hans, hacts⟩ := @driveRedispatch_answered cfg amb now e request' task hasks
  rw [hruns] at hrecord hidle
  refine ⟨?_, hrecord ▸ hans⟩
  rw [← Bool.not_eq_false]
  exact fun hno => hacts (hidle hno)

/-- The task that asked, after the event that asked. -/
theorem Ends.answered_event (h : Ends cfg amb now task runner s key s')
    (hruns : runner (machine cfg task) = (machine cfg task).applyEvent e)
    (hasks : asksFor (machine cfg task) e = some request') :
    ∃ task', Shows s' key task' ∧ Answered (amb.selectTarget request') task.record task'.record := by
  obtain ⟨result, hrun, hend⟩ := h
  obtain ⟨hacted, hans⟩ := asked_value hrun hruns hasks
  rw [if_pos hacted] at hend
  exact ⟨result.value, hend, hans⟩

/-- The draft a tick has asked for, after the tick. -/
theorem Ends.answered_retry (h : Ends cfg amb now task (tryRedispatch amb now) s key s')
    (hholds : Holds s key task) (hdraft : task.record.state = .drafting) :
    ∃ task', Shows s' key task' ∧
      Answered (amb.selectTarget (request task.record (task.record.attempt + 1))) task.record task'.record := by
  obtain ⟨result, hrun, hend⟩ := h
  obtain ⟨hrecord, hidle⟩ := runEvent_value hrun
  obtain ⟨hans, hnothing⟩ := @driveRedispatch_retry cfg amb now task hdraft
  by_cases hacted : result.acted = true
  · rw [if_pos hacted] at hend
    rw [← hrecord] at hans
    exact ⟨result.value, hend, hans⟩
  · rw [if_neg hacted] at hend
    -- nothing was committed, and nothing was to be
    rw [hnothing (hidle (by simpa using hacted))] at hans
    obtain ⟨row, hrow, hdec⟩ := hholds
    exact ⟨task, ⟨row, hend.trans hrow, Or.inl hdec⟩, hans⟩

/-- A call on one task, after its event. -/
theorem transition_answered {taskId : String} {changed : Bool} {op : Op}
    (h : transitionEvent cfg amb taskId runner now s = .ok changed s') (hruns : ∀ m, runner m = m.applyEvent e)
    (hop : consulted cfg s op key task = (if key = leadStateKey taskId then some e else none).bind
      (asksFor (machine cfg task)))
    (hholds : Holds s key task) (hasks : consulted cfg s op key task = some request') :
    ∃ task', Shows s' key task' ∧ Answered (amb.selectTarget request') task.record task'.record := by
  rw [hop] at hasks
  by_cases hkey : key = leadStateKey taskId
  · subst hkey
    rw [if_pos rfl] at hasks
    exact (transitionEvent_ok h hholds).answered_event (hruns _) hasks
  · rw [if_neg hkey] at hasks
    exact absurd hasks (by simp)

/-- **The task an operation has asked for, after the operation**: on offer to the node the selector has
    answered with, or waiting. A delivery may have been decided before; then it applies nothing. -/
theorem execute_answered {op : Op} {u : PUnit} (h : execute cfg op s = .ok u s')
    (hkeyed : Table.Keyed StateRow.state_key s.tables.state) (hholds : Holds s key task)
    (hasks : consulted cfg s op key task = some request') (hvisits : Visits cfg s op key)
    (happlied : ∀ amb e authorized now, op = .consume amb e authorized now →
      Table.lookup StateRow.state_key key s'.tables.state ≠ Table.lookup StateRow.state_key key s.tables.state) :
    ∃ task', Shows s' key task' ∧ Answered (selectorOf op key request') task.record task'.record := by
  cases op with
  | originate taskId kind => exact absurd hasks (by simp [consulted, firstEvent])
  | importTasks bundle => exact absurd hasks (by simp [consulted, firstEvent])
  | dispatch amb taskId target offerBody now =>
    obtain ⟨changed, s1, hcall, hreturn⟩ := Command.bind_ok_iff.mp h
    injection hreturn with _ hreturn
    rw [hreturn] at hcall
    obtain ⟨u1, s2, hhealthy, hbody⟩ := Command.bind_ok_iff.mp (of_checked_ok hcall)
    rw [assertHealthy_ok hhealthy] at hbody
    obtain ⟨u2, s3, hid, hbody⟩ := Command.bind_ok_iff.mp hbody
    obtain ⟨-, hsame⟩ := Command.lift_ok_iff.mp hid
    obtain ⟨u3, s4, hto, hbody⟩ := Command.bind_ok_iff.mp hbody
    obtain ⟨-, hsame'⟩ := Command.lift_ok_iff.mp hto
    rw [hsame', hsame] at hbody
    exact transition_answered (e := .dispatchTo target offerBody now) hbody (fun _ => rfl) rfl hholds hasks
  | cancel amb taskId now =>
    obtain ⟨changed, s1, hcall, hreturn⟩ := Command.bind_ok_iff.mp h
    injection hreturn with _ hreturn
    rw [hreturn] at hcall
    obtain ⟨u1, s2, hhealthy, hbody⟩ := Command.bind_ok_iff.mp (of_checked_ok hcall)
    rw [assertHealthy_ok hhealthy] at hbody
    obtain ⟨u2, s3, hid, hbody⟩ := Command.bind_ok_iff.mp hbody
    obtain ⟨-, hsame⟩ := Command.lift_ok_iff.mp hid
    rw [hsame] at hbody
    exact transition_answered (e := .cancelByUser now) hbody (fun _ => rfl) rfl hholds hasks
  | redispatch amb taskId now =>
    obtain ⟨changed, s1, hcall, hreturn⟩ := Command.bind_ok_iff.mp h
    injection hreturn with _ hreturn
    rw [hreturn] at hcall
    obtain ⟨u1, s2, hhealthy, hbody⟩ := Command.bind_ok_iff.mp (of_checked_ok hcall)
    rw [assertHealthy_ok hhealthy] at hbody
    obtain ⟨u2, s3, hid, hbody⟩ := Command.bind_ok_iff.mp hbody
    obtain ⟨-, hsame⟩ := Command.lift_ok_iff.mp hid
    rw [hsame] at hbody
    exact transition_answered (e := .redispatchByOwner now) hbody (fun _ => rfl) rfl hholds hasks
  -- a due timer asks through its event, a drafted task through its retry
  | tick amb now =>
    have hends := fun runner => @tick_ok cfg now s s' key task runner amb u h hkeyed hvisits hholds
    unfold consulted at hasks
    dsimp only at hasks
    cases hdue : dueTimer task.record now with
    | some timer =>
      simp only [hdue] at hasks
      exact (hends (fun m => m.onTimer timer now) (by simp only [tickRunner, hdue])).answered_event (by rfl) hasks
    | none =>
      simp only [hdue] at hasks
      split at hasks
      · rename_i hdraft
        obtain rfl := Option.some.inj hasks
        exact (hends _ (by simp only [tickRunner, hdue, if_pos hdraft])).answered_retry hholds hdraft.1
      · exact absurd hasks (by simp)
  | consume amb e authorized now =>
    have hafter : Command.after (DurableLead.consume cfg amb e authorized now s) = s' := by
      have hcall : DurableLead.consume cfg amb e authorized now s = .ok u s' := h
      rw [hcall]
      rfl
    have hmoved := happlied amb e authorized now rfl
    rcases consume_state amb e authorized now s with hsame | ⟨taskId, task', result, t', hdel, hstate⟩
    · rw [hafter] at hsame
      exact absurd (by rw [hsame]) hmoved
    · rw [hafter] at hstate
      simp only [consulted, firstEvent, Option.bind_eq_some_iff] at hasks
      obtain ⟨e', he', hasks⟩ := hasks
      split at he'
      · rename_i hfor
        obtain rfl := Option.some.inj he'
        rw [hdel.named, Option.map_some, Option.some.injEq] at hfor
        obtain ⟨rfl, hheeded⟩ := hfor
        -- the delivery named this task, and one value stands at its key
        obtain rfl := holds_unique hdel.holds hholds
        have hrun := hdel.computed
        simp only [consumeEvent, if_pos hheeded] at hrun
        obtain ⟨-, hans⟩ := asked_value hrun (by rfl) hasks
        obtain ⟨revision, hst⟩ := hdel.stored
        refine ⟨result.value, ⟨⟨leadStateKey taskId, revision + 1, result.value.toJson⟩, ?_, Or.inr rfl⟩, hans⟩
        rw [hstate, hst.lookup, if_pos rfl]
      · exact absurd he' (by simp)

end DurableLead

/-! ## A lead and its selector -/

structure SelectingLead where
  lead : DurableLead
  selector : TargetSelector

inductive SelectingLabel where
  | lead (l : LeadLabel)
  /-- `refresh()`, with the directory it fetched; a fetch that fails is no step. -/
  | refresh (nodes : List DirectoryNode)

/-- The operations that are handed the selector. -/
def Op.isSelecting : Op → Bool
  | .originate .. | .importTasks _ => false
  | _ => true

/-- The operation selects with the node's selector. A tick asks it for one draft after another, so each
    of its requests finds the cursor somewhere between where the call finds and where it leaves it. -/
def Consults (opts : TargetSelectorOptions) (before after : TargetSelector) (op : Op) : Prop :=
  after.snapshot = before.snapshot ∧ before.cursor ≤ after.cursor ∧
    (op.isSelecting = true → ∀ key, ∃ cursor, before.cursor ≤ cursor ∧ cursor ≤ after.cursor ∧
      ∀ request, selectorOf op key request = (TargetSelector.select opts ⟨before.snapshot, cursor⟩ request).1)

/-- The selector lives in the process: a restart empties it. -/
def selectingSystem (cfg : LeadConfig) (opts : TargetSelectorOptions) : System SelectingLead SelectingLabel where
  init s := (leadSystem cfg).init s.lead ∧ s.selector = ⟨[], 0⟩
  step s l s' :=
    match l with
    | .refresh nodes => s' = { s with selector := { s.selector with snapshot := nodes } }
    | .lead l => (leadSystem cfg).step s.lead l s'.lead ∧
      match l with
      | .op op => Consults opts s.selector s'.selector op
      | .restart => s'.selector = ⟨[], 0⟩
      | _ => s'.selector = s.selector

variable {cfg : LeadConfig} {opts : TargetSelectorOptions}

theorem selecting_keyed {hist : List (Entry SelectingLead SelectingLabel)} {s : SelectingLead}
    (run : Run (selectingSystem cfg opts) hist s) : Table.Keyed StateRow.state_key s.lead.tables.state := by
  refine run.invariant (I := fun s => Table.Keyed StateRow.state_key s.lead.tables.state) ?_ ?_
  · intro s hs
    have hinit : s.lead = { tables := .empty, verdicts := [], faulted := false, sent := [] } := hs.1
    rw [hinit]
    exact Table.Keyed.nil
  · intro x _ hstep hk
    obtain ⟨pre, label, post⟩ := x
    cases label with
    | refresh nodes =>
      have hpost : post = { pre with selector := { pre.selector with snapshot := nodes } } := hstep
      rw [hpost]
      exact hk
    | lead l => exact step_keyed (x := ⟨pre.lead, l, post.lead⟩) hstep.1 hk

/-! ## Rounds -/

/-- An operation of the run asks the selector for the task under `key`, returns, and is applied. -/
structure Selects (cfg : LeadConfig) (x : Entry SelectingLead SelectingLabel) (op : Op) (key : String)
    (task : DurableLeadTask) (request : RedispatchRequest) : Prop where
  called : x.label = .lead (.op op)
  returned : ∃ u, DurableLead.execute cfg op x.pre.lead = .ok u x.post.lead
  holds : Holds x.pre.lead key task
  asked : DurableLead.consulted cfg x.pre.lead op key task = some request
  visited : DurableLead.Visits cfg x.pre.lead op key
  applied : ∀ amb e authorized now, op = .consume amb e authorized now →
    Table.lookup StateRow.state_key key x.post.lead.tables.state
      ≠ Table.lookup StateRow.state_key key x.pre.lead.tables.state

/-- The step excludes the node again, or replaces the task by one led elsewhere before. -/
def Renews (cfg : LeadConfig) (x : Entry SelectingLead SelectingLabel) (key node : String) : Prop :=
  ∃ op, x.label = .lead (.op op) ∧ ((∃ bundle, op = .importTasks bundle) ∨
    ∃ task e, Holds x.pre.lead key task ∧ firstEvent cfg x.pre.lead op key task = some e ∧
      Leaves (DurableLead.machine cfg task) e node)

/-- The node's mark has already kept it out of a selection: the round it was excluded for is over. -/
def Spent (cfg : LeadConfig) (key node : String) : List (Entry SelectingLead SelectingLabel) → Prop
  | [] => False
  | x :: past =>
    (∃ op task request, Selects cfg x op key task request ∧ scopeOf request.excluded node = some .once) ∨
      (Spent cfg key node past ∧ ¬ Renews cfg x key node)

/-- R8: who may be chosen by the selection of `x`, after the history `past`. -/
def Eligible (cfg : LeadConfig) (opts : TargetSelectorOptions) (x : Entry SelectingLead SelectingLabel)
    (past : List (Entry SelectingLead SelectingLabel)) (key : String) (request : RedispatchRequest)
    (n : DirectoryNode) : Prop :=
  n ∈ x.pre.selector.snapshot ∧ TargetSelector.qualifies opts n = true ∧
    (scopeOf request.excluded n.node_id = none ∨ scopeOf request.excluded n.node_id = some .once ∧
      Spent cfg key n.node_id past ∧ ¬ Renews cfg x key n.node_id)

/-- A selection served as R8 has it: the task is offered to somebody eligible if there is anybody, and
    waits if there is nobody. -/
structure Served (opts : TargetSelectorOptions) (eligible : DirectoryNode → Prop) (task task' : DurableLeadTask) :
    Prop where
  offered : isLeadContract (opts.offerTemplate.get "contract") = true → (∃ n, eligible n) →
    ∃ n, eligible n ∧ task'.record.state = .offered ∧ task'.record.target = some n.node_id ∧
      task'.record.attempt = task.record.attempt + 1
  waits : (∀ n, ¬ eligible n) → task'.record.state = .drafting ∧ task'.record.attempt = task.record.attempt

/-- At the selection of `x`, no capable node carries a mark from a round that is over. -/
def AllFresh (cfg : LeadConfig) (opts : TargetSelectorOptions) (x : Entry SelectingLead SelectingLabel)
    (past : List (Entry SelectingLead SelectingLabel)) (key : String) (request : RedispatchRequest) : Prop :=
  ∀ n ∈ x.pre.selector.snapshot, TargetSelector.qualifies opts n = true →
    scopeOf request.excluded n.node_id = some .once →
    ¬ (Spent cfg key n.node_id past ∧ ¬ Renews cfg x key n.node_id)

theorem eligible_iff {x : Entry SelectingLead SelectingLabel} {past : List (Entry SelectingLead SelectingLabel)}
    {key : String} {request : RedispatchRequest} (hfresh : AllFresh cfg opts x past key request) (n : DirectoryNode) :
    Eligible cfg opts x past key request n ↔
      n ∈ TargetSelector.candidates opts x.pre.selector.snapshot request := by
  rw [TargetSelector.mem_candidates]
  constructor
  · rintro ⟨hmem, hqual, hnone | ⟨honce, hspent⟩⟩
    · exact ⟨hmem, hqual, hnone⟩
    · exact absurd hspent (hfresh n hmem hqual honce)
  · rintro ⟨hmem, hqual, hnone⟩
    exact ⟨hmem, hqual, Or.inl hnone⟩

/-- **Once-exclusion lasts one round**, in every run in which no capable node is left with a mark from a
    round that is over when the selector is asked. -/
theorem once_lasts_one_round {hist : List (Entry SelectingLead SelectingLabel)} {s : SelectingLead}
    (run : Run (selectingSystem cfg opts) hist s)
    (hfresh : ∀ newer x past, hist = newer ++ x :: past → ∀ op key task request,
      Selects cfg x op key task request → AllFresh cfg opts x past key request) :
    ∀ newer x past, hist = newer ++ x :: past → ∀ op key task request, Selects cfg x op key task request →
      ∃ task', DurableLead.Shows x.post.lead key task' ∧
        Served opts (Eligible cfg opts x past key request) task task' := by
  intro newer x past hsplit op key task request hsel
  have heligible := eligible_iff (hfresh newer x past hsplit op key task request hsel)
  rw [hsplit] at run
  obtain ⟨u, hreturned⟩ := hsel.returned
  obtain ⟨task', hshows, hans⟩ := DurableLead.execute_answered hreturned (selecting_keyed run.before) hsel.holds
    hsel.asked hsel.visited hsel.applied
  refine ⟨task', hshows, ?_⟩
  have hstep := run.step_of_mem x (List.mem_append_right _ List.mem_cons_self)
  rw [hsel.called] at hstep
  obtain ⟨-, -, -, hselector⟩ := hstep
  have hselecting : op.isSelecting = true := by
    have hasked := hsel.asked
    cases op with
    | originate | importTasks => exact absurd hasked (by simp [DurableLead.consulted, firstEvent])
    | _ => rfl
  obtain ⟨cursor, -, -, hanswer⟩ := hselector hselecting key
  rw [hanswer] at hans
  -- the selector found nobody, or a candidate, and its candidates are the eligible nodes
  rcases TargetSelector.select_cases ⟨x.pre.selector.snapshot, cursor⟩ request with
    ⟨hnobody, hnone⟩ | ⟨n, hn, hsome⟩
  · rw [hnone] at hans
    refine ⟨fun _ hsomebody => ?_, fun _ => hans⟩
    obtain ⟨n, hn⟩ := hsomebody
    rw [heligible] at hn
    have hnil : TargetSelector.candidates opts x.pre.selector.snapshot request = [] := hnobody
    rw [hnil] at hn
    exact absurd hn List.not_mem_nil
  · rw [hsome] at hans
    refine ⟨fun hcontract _ => ⟨n, (heligible n).mpr hn, ?_⟩, fun hnobody => ?_⟩
    · have hbody : (TargetSelector.offerBody opts request).get "contract" = opts.offerTemplate.get "contract" :=
        Json.get_set_other (by decide)
      simpa [DurableLead.Answered, Option.filter, hbody, hcontract] using hans
    · exact absurd ((heligible n).mpr hn) (hnobody n)

/-! ## A draft that starves

A directory of one node. The node does not answer its offer; when the drain is over the task asks for
another node, and rightly gets none. It gets none at any later tick either. -/

namespace DurableLead

variable {cfg : LeadConfig} {s : DurableLead}

/-- A draft that has been dispatched before, and has a selector that finds nobody. -/
def Starves (amb : Ambient) (row : StateRow) : Prop :=
  ∃ task, decode (some row) = .ok (some task) ∧ task.record.state = .drafting ∧
    amb.selectTarget (request task.record (task.record.attempt + 1)) = none

theorem tickRow_starves {amb : String → Ambient} {now : Int} {row : StateRow} (h : Starves (amb row.state_key) row) :
    tickRow cfg amb now row s = .ok ⟨⟩ s := by
  obtain ⟨task, hdec, hdraft, hnone⟩ := h
  have hdue : dueTimer task.record now = none := by simp only [dueTimer, hdraft]
  unfold tickRow
  rw [Command.bind_lift_ok hdec]
  dsimp only
  unfold tickRunner
  rw [hdue]
  dsimp only
  by_cases hattempt : 1 ≤ task.record.attempt
  · rw [if_pos ⟨hdraft, hattempt⟩]
    dsimp only
    have hrun : runEvent cfg (amb row.state_key) task (tryRedispatch (amb row.state_key) now) now
        = .ok ⟨task, [], [], false, false⟩ := by
      have hnone' : (amb row.state_key).selectTarget
          (request (machine cfg task).record ((machine cfg task).record.attempt + 1)) = none := hnone
      have hidle : tryRedispatch (amb row.state_key) now (machine cfg task) = (machine cfg task, []) := by
        simp only [tryRedispatch, hnone']
      unfold runEvent
      rw [hidle]
      simp [driveRedispatch, messages, sealFrom, reportIf, machine]
    rw [Command.bind_lift_ok hrun]
    rfl
  · rw [if_neg fun h => hattempt h.2]
    rfl

/-- **A tick that finds only such drafts changes nothing.** -/
theorem tick_starves {amb : String → Ambient} {now : Int} {rows : List StateRow} (hhealthy : s.faulted = false)
    (hrows : states s.tables (leadStateKey "") cfg.store.maxEntries.toNat = .ok rows)
    (hstarve : ∀ row ∈ rows, Starves (amb row.state_key) row) : tick cfg amb now s = .ok ⟨⟩ s := by
  have hloop : ∀ rest : List StateRow, (∀ row ∈ rest, Starves (amb row.state_key) row) →
      Command.each (fun _ row => tickRow cfg amb now row) PUnit.unit rest s = .ok ⟨⟩ s := by
    intro rest
    induction rest with
    | nil => intro _; rfl
    | cons row rest ih =>
      intro h
      rw [Command.each, Command.bind_of_ok (tickRow_starves (h row List.mem_cons_self))]
      exact ih fun r hr => h r (List.mem_cons_of_mem _ hr)
  have hbody : (Command.lift (fromStore (states s.tables (leadStateKey "") cfg.store.maxEntries.toNat)) >>=
      fun rows => Command.each (fun _ row => tickRow cfg amb now row) PUnit.unit rows : Command PUnit) s
      = .ok ⟨⟩ s := by
    rw [Command.bind_lift_ok (by rw [hrows]; rfl)]
    exact hloop rows hstarve
  have hassert : assertHealthy s = .ok ⟨⟩ s := by
    simp [assertHealthy, Command.bind_apply, Command.get_apply, hhealthy, pure,
      EStateM.pure]
  exact checked_ok ((Command.bind_of_ok hassert).trans hbody)

end DurableLead

namespace Starving

open ByHand

def options : TargetSelectorOptions where
  selfNodeId := Sample.nodeA
  offerTemplate := ByHand.offerBody
  template_ok := by decide

/-- The only other node of the team. -/
def peer : DirectoryNode := { node_id := Sample.nodeB, status := "active" }

inductive Input where
  | refresh
  | originate
  | dispatch (n : Nat) (now : Int)
  | tick (n : Nat) (now : Int)

/-- The `n`-th call, at the time `now`, with the node's selector. -/
def ambient (sel : TargetSelector) (n : Nat) (now : Int) : Ambient :=
  { ByHand.ambient n now with selectTarget := fun request => (sel.select options request).1 }

def opOf (sel : TargetSelector) : Input → Option Op
  | .refresh => none
  | .originate => some (.originate Sample.task .aid)
  | .dispatch n now => some (.dispatch (ambient sel n now) Sample.task Sample.nodeB ByHand.offerBody now)
  | .tick n now => some (.tick (fun _ => ambient sel n now) now)

def carryOut (s : SelectingLead) (input : Input) : SelectingLabel × SelectingLead :=
  match opOf s.selector input with
  | none => (.refresh [peer], { s with selector := { s.selector with snapshot := [peer] } })
  | some op => (.lead (.op op), { s with lead := Command.after (DurableLead.execute config op s.lead) })

def start : SelectingLead := ⟨ByHand.start, ⟨[], 0⟩⟩

/-- The offer runs out after ten seconds, the drain after thirty more. -/
def drained : List Input :=
  [.tick 4 1767225640000, .tick 3 1767225610000, .dispatch 2 1767225600000, .originate, .refresh]

theorem step_carryOut (s : SelectingLead) (input : Input) :
    (selectingSystem config options).step s (carryOut s input).1 (carryOut s input).2 := by
  cases input with
  | refresh => rfl
  | originate => exact ⟨rfl, rfl, le_refl _, fun h => absurd h (by decide)⟩
  | dispatch n now => exact ⟨rfl, rfl, le_refl _, fun _ _ => ⟨s.selector.cursor, le_refl _, le_refl _, fun _ => rfl⟩⟩
  | tick n now => exact ⟨rfl, rfl, le_refl _, fun _ _ => ⟨s.selector.cursor, le_refl _, le_refl _, fun _ => rfl⟩⟩

theorem run_carryOut (inputs : List Input) :
    Run (selectingSystem config options) (play carryOut start inputs).1 (play carryOut start inputs).2 :=
  run_play (S := selectingSystem config options) (f := carryOut) (s := start) ⟨rfl, rfl⟩ step_carryOut inputs

/-- The tasks of a lead, row by row. -/
def tasks (s : DurableLead) : List (StateRow × DurableLeadTask) :=
  s.tables.state.filterMap fun row =>
    match DurableLead.decode (some row) with
    | .ok (some task) => some (row, task)
    | _ => none

theorem mem_tasks {s : DurableLead} {key : String} {task : DurableLeadTask} (h : Holds s key task) :
    ∃ row, row.state_key = key ∧ (row, task) ∈ tasks s := by
  obtain ⟨row, hrow, hdec⟩ := h
  refine ⟨row, Table.lookup_some_key hrow, List.mem_filterMap.mpr ⟨row, Table.lookup_some_mem hrow, ?_⟩⟩
  rw [hdec]

theorem decode_tasks {s : DurableLead} {p : StateRow × DurableLeadTask} (h : p ∈ tasks s) :
    DurableLead.decode (some p.1) = .ok (some p.2) := by
  obtain ⟨row, -, hp⟩ := List.mem_filterMap.mp h
  split at hp
  · rename_i task hdec
    obtain rfl := Option.some.inj hp
    exact hdec
  · exact absurd hp (by simp)

/-- Nothing the operation does asks for a target. -/
def isQuiet (s : DurableLead) (op : Op) : Bool :=
  (tasks s).all fun p => (DurableLead.consulted config s op p.1.state_key p.2).isNone

theorem quiet {s : DurableLead} {op : Op} (h : isQuiet s op = true) {key : String} {task : DurableLeadTask}
    (hholds : Holds s key task) : DurableLead.consulted config s op key task = none := by
  obtain ⟨row, rfl, hmem⟩ := mem_tasks hholds
  exact Option.isNone_iff_eq_none.mp (List.all_eq_true.mp h _ hmem)

/-- The drained draft and its lead. -/
def stuck : SelectingLead := (play carryOut start drained).2

/-- One draft, marked once, with budgets left, and a directory that has nobody else. -/
theorem stuck_facts :
    (states stuck.lead.tables (leadStateKey "") config.store.maxEntries.toNat = .ok stuck.lead.tables.state ∧
      stuck.lead.faulted = false ∧ ∀ row ∈ stuck.lead.tables.state, ∃ p ∈ tasks stuck.lead, p.1 = row) ∧
    (∀ p ∈ tasks stuck.lead, p.2.record.state = .drafting ∧
      (stuck.selector.select options (DurableLead.request p.2.record (p.2.record.attempt + 1))).1 = none) ∧
    stuck.selector.snapshot = [peer] ∧ TargetSelector.qualifies options peer = true ∧
    (tasks stuck.lead).map (fun p => (p.2.record.state, p.2.record.excluded)) = [(.drafting, [(Sample.nodeB, .once)])] ∧
    (tasks stuck.lead).all (fun p => !decide (Exhausted config.params p.2.record)) = true := by
  decide +kernel

/-- What the listing of a tick finds there: drafts the selector has nobody for. -/
theorem stuck_starves (n : Nat) (now : Int) {row : StateRow} (hrow : row ∈ stuck.lead.tables.state) :
    DurableLead.Starves (ambient stuck.selector n now) row := by
  obtain ⟨⟨-, -, hall⟩, hdraft, -⟩ := stuck_facts
  obtain ⟨p, hp, rfl⟩ := hall row hrow
  obtain ⟨hstate, hnone⟩ := hdraft p hp
  exact ⟨p.2, decode_tasks hp, hstate, hnone⟩

theorem tick_stuck (n : Nat) (now : Int) :
    DurableLead.execute config (.tick (fun _ => ambient stuck.selector n now) now) stuck.lead = .ok ⟨⟩ stuck.lead :=
  DurableLead.tick_starves stuck_facts.1.2.1 stuck_facts.1.1 fun _ hrow => stuck_starves n now hrow

theorem carryOut_tick {s : SelectingLead} {n : Nat} {now : Int}
    (h : DurableLead.execute config (.tick (fun _ => ambient s.selector n now) now) s.lead = .ok ⟨⟩ s.lead) :
    (carryOut s (.tick n now)).2 = s := by
  show ({ s with lead := Command.after (DurableLead.execute config (.tick (fun _ => ambient s.selector n now) now)
    s.lead) } : SelectingLead) = s
  rw [h]
  rfl

theorem play_cons (s : SelectingLead) (input : Input) (earlier : List Input) :
    (play carryOut s (input :: earlier)).2 = (carryOut (play carryOut s earlier).2 input).2 := rfl

/-- However often the lead ticks from then on. -/
theorem ticks_stuck (n : Nat) (nows : List Int) :
    (play carryOut start ((nows.map fun now => Input.tick n now) ++ drained)).2 = stuck := by
  induction nows with
  | nil => rfl
  | cons now rest ih =>
    rw [List.map_cons, List.cons_append, play_cons, ih]
    exact carryOut_tick (tick_stuck n now)

end Starving

open Starving ByHand in
/-- The only capable node was excluded once and has been passed over once; budgets are left, and no
    later tick offers it the task. -/
theorem once_forever :
    (∀ (n : Nat) (nows : List Int), Run (selectingSystem config options)
      (play carryOut start ((nows.map fun now => Input.tick n now) ++ drained)).1 stuck) ∧
    stuck.selector.snapshot = [peer] ∧ TargetSelector.qualifies options peer = true ∧
    (tasks stuck.lead).map (fun p => (p.2.record.state, p.2.record.excluded)) = [(.drafting, [(Sample.nodeB, .once)])] ∧
    (tasks stuck.lead).all (fun p => !decide (Exhausted config.params p.2.record)) = true := by
  obtain ⟨-, -, hfacts⟩ := stuck_facts
  refine ⟨fun n nows => ?_, hfacts⟩
  have hrun := run_carryOut ((nows.map fun now => Input.tick n now) ++ drained)
  rw [ticks_stuck] at hrun
  exact hrun

/-! The selection that passes the node over is served as it should be. -/

theorem spent_of_quiet {cfg : LeadConfig} {key node : String} :
    ∀ {past : List (Entry SelectingLead SelectingLabel)},
      (∀ x ∈ past, ∀ op key task request, ¬ Selects cfg x op key task request) → ¬ Spent cfg key node past := by
  intro past
  induction past with
  | nil => intro _ h; exact h
  | cons x rest ih =>
    rintro hquiet (⟨op, task, request, hsel, -⟩ | ⟨hspent, -⟩)
    · exact hquiet x List.mem_cons_self op key task request hsel
    · exact ih (fun y hy => hquiet y (List.mem_cons_of_mem _ hy)) hspent

namespace Starving

open ByHand

/-- A step that asks for nothing. -/
def isQuietStep (x : Entry SelectingLead SelectingLabel) : Bool :=
  match x.label with
  | .lead (.op op) => isQuiet x.pre.lead op
  | _ => true

theorem quiet_step {x : Entry SelectingLead SelectingLabel} (h : isQuietStep x = true) (op : Op) (key : String)
    (task : DurableLeadTask) (request : RedispatchRequest) : ¬ Selects config x op key task request := by
  intro hsel
  unfold isQuietStep at h
  rw [hsel.called] at h
  have hasked := hsel.asked
  rw [quiet h hsel.holds] at hasked
  exact absurd hasked (by simp)

/-- The history before the drain is over. -/
def before : List (Entry SelectingLead SelectingLabel) := (play carryOut start (drained.drop 1)).1

/-- The lead when the drain is over. -/
def draining : SelectingLead := (play carryOut start (drained.drop 1)).2

/-- The step that asks for the next node. -/
def asking : Entry SelectingLead SelectingLabel :=
  ⟨draining, (carryOut draining (.tick 4 1767225640000)).1, (carryOut draining (.tick 4 1767225640000)).2⟩

def drainTick : Op := .tick (fun _ => ambient draining.selector 4 1767225640000) 1767225640000

theorem carryOut_lead (s : SelectingLead) (n : Nat) (now : Int) : (carryOut s (.tick n now)).2.lead
    = Command.after (DurableLead.execute config (.tick (fun _ => ambient s.selector n now) now) s.lead) := by
  simp only [carryOut, opOf]

theorem carryOut_label (s : SelectingLead) (n : Nat) (now : Int) :
    (carryOut s (.tick n now)).1 = .lead (.op (.tick (fun _ => ambient s.selector n now) now)) := by
  simp only [carryOut, opOf]

/-- The call returns. -/
def isOk : EStateM.Result LeadError DurableLead PUnit → Bool
  | .ok _ _ => true
  | .error _ _ => false

/-- A call that returns, returns in the state it leaves. -/
theorem returns {x : Command PUnit} {s : DurableLead} (h : isOk (x s) = true) :
    ∃ u, x s = .ok u (Command.after (x s)) := by
  cases hx : x s with
  | ok u s' => exact ⟨u, rfl⟩
  | error e s' =>
    rw [hx] at h
    exact absurd h (by simp [isOk])

/-- A tick that returns and asks for the task of one of the rows it lists. -/
theorem tick_selects {s : SelectingLead} {n : Nat} {now : Int} {key : String} {p : StateRow × DurableLeadTask}
    {request : RedispatchRequest} (hp : p ∈ tasks s.lead)
    (hlookup : Table.lookup StateRow.state_key key s.lead.tables.state = some p.1)
    (hasked : DurableLead.consulted config s.lead (.tick (fun _ => ambient s.selector n now) now) key p.2 = some request)
    (hok : isOk (DurableLead.execute config (.tick (fun _ => ambient s.selector n now) now) s.lead) = true)
    (hstates : states s.lead.tables (leadStateKey "") config.store.maxEntries.toNat = .ok s.lead.tables.state) :
    Selects config ⟨s, (carryOut s (.tick n now)).1, (carryOut s (.tick n now)).2⟩
      (.tick (fun _ => ambient s.selector n now) now) key p.2 request := by
  refine ⟨carryOut_label s n now, ?_, ⟨p.1, hlookup, decode_tasks hp⟩, hasked, ?_, ?_⟩
  · rw [carryOut_lead]
    exact returns hok
  · exact ⟨s.lead.tables.state, hstates, p.1, Table.lookup_some_mem hlookup, Table.lookup_some_key hlookup⟩
  · intro amb e authorized now hconsume
    exact absurd hconsume (by simp)

theorem history_cons (s : SelectingLead) (input : Input) (earlier : List Input) :
    (play carryOut s (input :: earlier)).1 = ⟨(play carryOut s earlier).2,
      (carryOut (play carryOut s earlier).2 input).1, (carryOut (play carryOut s earlier).2 input).2⟩
        :: (play carryOut s earlier).1 := rfl

theorem run_asking : Run (selectingSystem config options) (asking :: before) stuck := by
  have hrun := run_carryOut drained
  rw [drained, history_cons] at hrun
  exact hrun

theorem draining_facts :
    (∃ p ∈ tasks draining.lead,
      Table.lookup StateRow.state_key (leadStateKey Sample.task) draining.lead.tables.state = some p.1 ∧
      (DurableLead.consulted config draining.lead drainTick (leadStateKey Sample.task) p.2).isSome = true) ∧
    isOk (DurableLead.execute config drainTick draining.lead) = true ∧
    states draining.lead.tables (leadStateKey "") config.store.maxEntries.toNat = .ok draining.lead.tables.state ∧
    ∀ x ∈ before, isQuietStep x = true := by
  decide +kernel

theorem asking_selects :
    ∃ task request, Selects config asking drainTick (leadStateKey Sample.task) task request := by
  obtain ⟨⟨p, hp, hlookup, hasked⟩, hok, hstates, -⟩ := draining_facts
  obtain ⟨request, hrequest⟩ := Option.isSome_iff_exists.mp hasked
  exact ⟨p.2, request, tick_selects hp hlookup hrequest hok hstates⟩

end Starving

open Starving ByHand in
theorem once_lasts_one_round_drained :
    ∃ task request, Selects config asking drainTick (leadStateKey Sample.task) task request ∧
      ∃ task', DurableLead.Shows asking.post.lead (leadStateKey Sample.task) task' ∧
        Served options (Eligible config options asking before (leadStateKey Sample.task) request) task task' := by
  obtain ⟨task, request, hsel⟩ := asking_selects
  have hquiet : ∀ x ∈ before, ∀ op key task request, ¬ Selects config x op key task request :=
    fun x hx => quiet_step (draining_facts.2.2.2 x hx)
  refine ⟨task, request, hsel, once_lasts_one_round run_asking ?_ [] asking before (List.nil_append _).symm _ _ _
    _ hsel⟩
  intro newer x past hsplit op key task request hx n _ _ _ hspent
  cases newer with
  | nil =>
    obtain ⟨rfl, rfl⟩ := List.cons.inj hsplit
    exact spent_of_quiet hquiet hspent.1
  | cons y rest =>
    have hbefore : before = rest ++ x :: past := (List.cons.inj hsplit).2
    have hmem : x ∈ before := by
      rw [hbefore]
      exact List.mem_append_right _ List.mem_cons_self
    exact hquiet x hmem op key task request hx

end Lead
end Qlong
