import Qlong.Lead.System
import Qlong.Lead.Completion
import Qlong.Lead.Records

/-!
# What a call leaves alone, and what a delivery writes

Two facts about the operations that the small steps of `execute_path` do not tell: an operation
never adds to the staged judgements (`execute_trims`), and a delivery writes at most one thing,
the result of the machine's run on the envelope and the task it has read (`consume_state`).
-/

namespace Qlong
namespace Lead

open Lib Node

namespace DurableLead

variable {cfg : LeadConfig} {s : DurableLead}

/-! ## Judgements are only taken away -/

/-- No judgement is new. -/
def Trims (s s' : DurableLead) : Prop := ∀ v ∈ s'.verdicts, v ∈ s.verdicts

theorem trims_fault (s : DurableLead) : Trims s { s with faulted := true, verdicts := [] } := by
  intro v hv
  exact absurd hv (by simp)

theorem trims_filter (s : DurableLead) (p : String × Verdict → Bool) :
    Trims s { s with verdicts := s.verdicts.filter p } := fun _ hv => (List.mem_filter.mp hv).1

theorem commit_trims {key : String} {revision : Int} {value : Json} {outbox effects : List Json} :
    Command.Path Trims s (Command.after (commit cfg key revision value outbox effects s)) := by
  refine Relation.ReflTransGen.single ?_
  unfold commit
  rcases Command.after_attempt _ s with h | ⟨u, s', hrun, h⟩
  · rw [h]
    exact fun v hv => hv
  · rw [h]
    simp only [Lib.bind_ok_iff, pure_ok_iff, Prod.mk.injEq] at hrun
    obtain ⟨p, -, -, rfl⟩ := hrun
    exact fun v hv => hv

theorem commitEvent_trims {key : String} {revision : Int} {result : EventResult} :
    Command.Path Trims s (Command.after (commitEvent cfg key revision result s)) :=
  Command.path_bind commit_trims fun _ _ _ => pruneVerdict_path trims_filter _

theorem transitionEvent_trims {amb : Ambient} {taskId : String} {runner : Runner} {now : Int} :
    Command.Path Trims s (Command.after (transitionEvent cfg amb taskId runner now s)) := by
  unfold transitionEvent
  refine readRow_path (Command.path_lift_bind fun task _ => ?_)
  cases Table.lookup StateRow.state_key (leadStateKey taskId) s.tables.state with
  | none => exact Relation.ReflTransGen.refl
  | some row =>
    cases task with
    | none => exact Relation.ReflTransGen.refl
    | some task =>
      refine Command.path_lift_bind fun result _ => ?_
      split
      · exact Command.path_bind commitEvent_trims fun _ _ _ => Relation.ReflTransGen.refl
      · exact Relation.ReflTransGen.refl

theorem tickRow_trims {amb : String → Ambient} {now : Int} {row : StateRow} :
    Command.Path Trims s (Command.after (tickRow cfg amb now row s)) := by
  unfold tickRow
  refine Command.path_lift_bind fun task _ => ?_
  cases task with
  | none => exact Relation.ReflTransGen.refl
  | some task =>
    dsimp only
    cases tickRunner (amb row.state_key) task.record now with
    | none => exact Relation.ReflTransGen.refl
    | some runner =>
      refine Command.path_lift_bind fun result _ => ?_
      split
      · exact commitEvent_trims
      · exact Relation.ReflTransGen.refl

theorem importEntry_trims {entry : Json} {result : ImportResult} :
    Command.Path Trims s (Command.after (importEntry cfg result entry s)) := by
  unfold importEntry
  refine Command.path_lift_bind fun value _ => Command.path_lift_bind fun task _ => ?_
  refine readRow_path (Command.path_lift_bind fun fenced _ => ?_)
  split
  · exact Relation.ReflTransGen.refl
  · dsimp only
    split
    all_goals
      exact Command.path_bind commit_trims fun _ _ _ =>
        Command.path_bind (deleteVerdict_path trims_filter _) fun _ _ _ => Relation.ReflTransGen.refl

theorem consume_trims {amb : Ambient} {e : Json} {authorized : Bool} {now : Int} :
    Command.Path Trims s (Command.after (DurableLead.consume cfg amb e authorized now s)) :=
  consume_path_of trims_fault trims_filter (fun _ _ _ _ hv => hv) fun _ _ _ _ _ _ _ _ _ _ _ hv => hv

theorem execute_trims_path {op : Op} : Command.Path Trims s (Command.after (execute cfg op s)) := by
  cases op with
  | originate taskId kind =>
    refine Command.path_bind (checked_path trims_fault (assertHealthy_path ?_)) fun _ _ _ =>
      Relation.ReflTransGen.refl
    refine Command.path_lift_bind fun _ _ => readRow_path ?_
    cases Table.lookup StateRow.state_key (leadStateKey taskId) s.tables.state with
    | some row => exact Relation.ReflTransGen.refl
    | none => exact Command.path_bind commit_trims fun _ _ _ => Relation.ReflTransGen.refl
  | dispatch amb taskId target offerBody now =>
    refine Command.path_bind (checked_path trims_fault (assertHealthy_path ?_)) fun _ _ _ =>
      Relation.ReflTransGen.refl
    exact Command.path_lift_bind fun _ _ => Command.path_lift_bind fun _ _ => transitionEvent_trims
  | cancel amb taskId now =>
    refine Command.path_bind (checked_path trims_fault (assertHealthy_path ?_)) fun _ _ _ =>
      Relation.ReflTransGen.refl
    exact Command.path_lift_bind fun _ _ => transitionEvent_trims
  | redispatch amb taskId now =>
    refine Command.path_bind (checked_path trims_fault (assertHealthy_path ?_)) fun _ _ _ =>
      Relation.ReflTransGen.refl
    exact Command.path_lift_bind fun _ _ => transitionEvent_trims
  | tick amb now =>
    refine checked_path trims_fault (assertHealthy_path ?_)
    refine Command.path_bind Relation.ReflTransGen.refl fun a s1 _ =>
      Command.path_lift_bind fun rows _ => ?_
    exact Command.path_each (J := fun _ _ => True)
      (fun _ row _ _ _ => ⟨tickRow_trims, fun _ _ _ => trivial⟩) rows _ _ trivial
  | importTasks bundle =>
    refine Command.path_bind (checked_path trims_fault (assertHealthy_path ?_)) fun _ _ _ =>
      Relation.ReflTransGen.refl
    refine Command.path_lift_bind fun entries _ => ?_
    exact Command.path_each (J := fun _ _ => True)
      (fun _ entry _ _ _ => ⟨importEntry_trims, fun _ _ _ => trivial⟩) entries _ _ trivial
  | consume amb e authorized now => exact consume_trims

/-- **An operation never adds to the judgements.** -/
theorem execute_trims (op : Op) : Trims s (Command.after (execute cfg op s)) := by
  intro v
  exact Command.path_keeps (I := fun s' => v ∈ s'.verdicts → v ∈ s.verdicts)
    (fun _ _ h hI hv => hI (h v hv)) execute_trims_path id

/-! ## What a delivery writes -/

/-- A delivery that writes the machine's result. -/
structure Delivers (cfg : LeadConfig) (amb : Ambient) (e : Json) (authorized : Bool) (now : Int)
    (s : DurableLead) (taskId : String) (task : DurableLeadTask) (result : EventResult) (t' : Tables) :
    Prop where
  named : Env.taskId e = some taskId
  holds : Holds s (leadStateKey taskId) task
  computed : consumeEvent cfg amb s.verdicts task e authorized now = .ok result
  stored : ∃ revision, Stored s.tables (leadStateKey taskId) revision result.value.toJson result.effects t'

/-- One step of a delivery, started in `s0`: the states stay, or the result is written. -/
def Writes (cfg : LeadConfig) (amb : Ambient) (e : Json) (authorized : Bool) (now : Int)
    (s0 s s' : DurableLead) : Prop :=
  s'.tables.state = s.tables.state ∨
    s.tables = s0.tables ∧ ∃ taskId task result, Delivers cfg amb e authorized now s0 taskId task result s'.tables

theorem consume_writes {amb : Ambient} {e : Json} {authorized : Bool} {now : Int} :
    Command.Path (Writes cfg amb e authorized now s) s
      (Command.after (DurableLead.consume cfg amb e authorized now s)) := by
  refine consume_path_of (fun _ => Or.inl rfl) (fun _ _ => Or.inl rfl)
    (fun t' hstate _ => Or.inl hstate) ?_
  intro taskId row task result t' hid hrow hdec hresult hst
  exact Or.inr ⟨rfl, taskId, task, result, hid, ⟨row, hrow, hdec⟩, hresult, row.revision, hst⟩

/-- **A delivery leaves the states as they are, or writes the machine's result.** -/
theorem consume_state (amb : Ambient) (e : Json) (authorized : Bool) (now : Int) (s : DurableLead) :
    let s' := Command.after (DurableLead.consume cfg amb e authorized now s)
    s'.tables.state = s.tables.state ∨
      ∃ taskId task result t', Delivers cfg amb e authorized now s taskId task result t' ∧
        s'.tables.state = t'.state := by
  have hkeep : ∀ s1 s2 : DurableLead, Writes cfg amb e authorized now s s1 s2 →
      (s1.tables.state = s.tables.state ∨ ∃ taskId task result t',
        Delivers cfg amb e authorized now s taskId task result t' ∧ s1.tables.state = t'.state) →
      (s2.tables.state = s.tables.state ∨ ∃ taskId task result t',
        Delivers cfg amb e authorized now s taskId task result t' ∧ s2.tables.state = t'.state) := by
    rintro s1 s2 (hstay | ⟨-, taskId, task, result, hdel⟩) hI
    · rw [hstay]
      exact hI
    · exact Or.inr ⟨taskId, task, result, s2.tables, hdel, rfl⟩
  exact Command.path_keeps hkeep consume_writes (Or.inl rfl)

end DurableLead

/-! ## How a task becomes done -/

/-- A turn that completes the task is a result its validator accepts. -/
theorem DurableLead.Turn.enters_done {amb : Ambient} {now : Int} {m m' : LeadTaskMachine}
    {o : Option Event} {actions : List LeadAction} (h : Turn amb now m o m' actions)
    (hpost : m'.record.state = .done) (hpre : m.record.state ≠ .done) :
    ∃ e body, o = some e ∧ Accepted m e body ∧ awaitsResult m.record := by
  cases h with
  | idle => exact absurd hpost hpre
  | alone h =>
    obtain ⟨body, hacc, haw⟩ := h.enters_done hpost hpre
    exact ⟨_, body, rfl, hacc, haw⟩
  | answered h1 hsel h2 =>
    -- the task that asks for a dispatch is a draft, and an offer accepts no result
    obtain ⟨-, -, hdraft, -⟩ | hnone := DurableLead.move_requests h1
    · obtain ⟨body, hacc, -⟩ := h2.enters_done hpost (by rw [hdraft]; simp)
      obtain ⟨validate, fromNode, msgId, hev, -⟩ := hacc.event
      exact absurd hev (by simp)
    · exact absurd List.mem_cons_self (hnone _)

/-- The result of a delivery completes the task only by a message its validator accepts. -/
theorem DurableLead.consumeEvent_done {cfg : LeadConfig} {amb : Ambient}
    {verdicts : List (String × Verdict)} {task : DurableLeadTask} {e : Json} {authorized : Bool} {now : Int}
    {result : EventResult} (h : consumeEvent cfg amb verdicts task e authorized now = .ok result)
    (hpost : result.value.record.state = .done) (hpre : task.record.state ≠ .done) :
    isHeeded cfg e authorized now = true ∧ Env.type e = "task.result" ∧
      task.record.target = some (Env.fromNode e) ∧ (Env.attempt e).getD 0 = task.record.attempt ∧
      validator cfg verdicts task e (Env.body e) = true := by
  unfold consumeEvent at h
  split at h
  · rename_i hheeded
    have hran : Ran cfg amb now task (some (.onMessage (validator cfg verdicts task e) (Env.type e)
        (Env.fromNode e) ((Env.attempt e).getD 0) (Env.body e) now (some (Env.msgId e)))) result :=
      runEvent_ok (by rfl) h
    obtain ⟨m', actions, hturn, hvalue, -⟩ := hran.turn
    rw [hvalue] at hpost
    obtain ⟨ev, body, hev, hacc, -⟩ := hturn.enters_done hpost hpre
    obtain rfl := Option.some.inj hev
    obtain ⟨validate, fromNode, msgId, hev, ht, hv⟩ := hacc.event
    simp only [Event.onMessage.injEq] at hev
    obtain ⟨rfl, htype, rfl, hattempt, rfl, -⟩ := hev
    exact ⟨hheeded, htype, ht, hattempt, hv⟩
  · simp only [Except.ok.injEq] at h
    subst h
    exact absurd hpost hpre

/-- The task under a key is done. -/
def DoneAt (s : DurableLead) (key : String) : Prop := ∃ task, Holds s key task ∧ task.record.state = .done

theorem holds_congr {s s' : DurableLead} {key : String} {task : DurableLeadTask}
    (h : Table.lookup StateRow.state_key key s'.tables.state = Table.lookup StateRow.state_key key s.tables.state)
    (hh : Holds s' key task) : Holds s key task := by
  obtain ⟨row, hrow, hdec⟩ := hh
  exact ⟨row, h ▸ hrow, hdec⟩

/-- What a commit has written is what is read. -/
theorem holds_stored {t : Tables} {s' : DurableLead} {key : String} {revision : Int} {v task : DurableLeadTask}
    {effects : List Json} (hst : Stored t key revision v.toJson effects s'.tables) (h : Holds s' key task) :
    task = v := by
  obtain ⟨row, hrow, hdec⟩ := h
  rw [hst.lookup, if_pos rfl] at hrow
  obtain rfl := Option.some.inj hrow
  exact decode_toJson rfl hdec

/-- Only a message can complete a task. -/
theorem firstEvent_quiet {cfg : LeadConfig} {s : DurableLead} {op : Op} {key : String}
    {task : DurableLeadTask} {m : LeadTaskMachine} {e : Event} {body : Json}
    (hop : ∀ amb e authorized now, op ≠ .consume amb e authorized now)
    (he : firstEvent cfg s op key task = some e) (hacc : Accepted m e body) : False := by
  obtain ⟨validate, fromNode, msgId, hev, -⟩ := hacc.event
  rw [hev] at he
  cases op with
  | consume amb e authorized now => exact hop amb e authorized now rfl
  | dispatch | cancel | redispatch =>
    simp only [firstEvent] at he
    split at he
    · exact absurd he (by simp)
    · exact absurd he (by simp)
  | tick amb now =>
    simp only [firstEvent] at he
    split at he
    · exact absurd he (by simp)
    · split at he
      · simp [Option.map_eq_some_iff] at he
      · exact absurd he (by simp)
  | originate | importTasks => exact absurd he (by simp [firstEvent])

theorem triggers_event {cfg : LeadConfig} {s : DurableLead} {op : Op} {m : LeadTaskMachine} {e : Event}
    (h : Triggers cfg s op (.event m e)) : ∃ key task, Holds s key task ∧
      firstEvent cfg s op key task = some e ∧ m = DurableLead.machine cfg task := by
  cases h with
  | event hholds he => exact ⟨_, _, hholds, he, rfl⟩

/-- A small step of a call that is neither a delivery nor a takeover completes nothing. -/
theorem Advance.done_kept {cfg : LeadConfig} {s0 s s' : DurableLead} {op : Op}
    (hcons : ∀ amb e authorized now, op ≠ .consume amb e authorized now)
    (himp : ∀ bundle, op ≠ .importTasks bundle)
    (h : Advance cfg (Triggers cfg s0 op) s s') {key : String} (hdone : DoneAt s' key) : DoneAt s key := by
  obtain ⟨task', hholds, hstate⟩ := hdone
  cases h with
  | memory => exact ⟨task', hholds, hstate⟩
  | decided hsame => exact ⟨task', holds_congr (by rw [hsame]) hholds, hstate⟩
  | @originated taskId kind t' hid hnew hst =>
    by_cases hkey : key = leadStateKey taskId
    · subst hkey
      rw [holds_stored hst hholds] at hstate
      exact absurd hstate (by simp [LeadTaskMachine.create])
    · exact ⟨task', holds_congr (by rw [hst.lookup, if_neg hkey]) hholds, hstate⟩
  | @turned key' row task amb now o result t' hlead hrow hdec hran hok hans hst =>
    by_cases hkey : key = key'
    · subst hkey
      rw [holds_stored hst hholds] at hstate
      by_cases hpre : task.record.state = .done
      · exact ⟨task, ⟨row, hrow, hdec⟩, hpre⟩
      -- a turn enters `done` only on an accepted result, and the operation carries none
      · obtain ⟨m', actions, hturn, hvalue, -⟩ := hran.turn
        rw [hvalue] at hstate
        obtain ⟨e, body, he, hacc, -⟩ := hturn.enters_done hstate hpre
        obtain ⟨key', task', -, he', -⟩ := triggers_event (hok e he).1
        exact (firstEvent_quiet hcons he' hacc).elim
    · exact ⟨task', holds_congr (by rw [hst.lookup, if_neg hkey]) hholds, hstate⟩
  | @kept key' row task t' hlead hrow hdec hst =>
    by_cases hkey : key = key'
    · subst hkey
      rw [holds_stored hst hholds] at hstate
      exact ⟨task, ⟨row, hrow, hdec⟩, hstate⟩
    · exact ⟨task', holds_congr (by rw [hst.lookup, if_neg hkey]) hholds, hstate⟩
  | archived hvalid htask hok hst =>
    cases hok with
    | takeover hop => exact absurd hop (himp _)
  | imported hvalid htask hlive hok hst =>
    cases hok with
    | takeover hop => exact absurd hop (himp _)

/-- **Deliveries and takeovers apart, no operation completes a task.** -/
theorem execute_done_kept {cfg : LeadConfig} {s : DurableLead} {op : Op}
    (hcons : ∀ amb e authorized now, op ≠ .consume amb e authorized now)
    (himp : ∀ bundle, op ≠ .importTasks bundle) (hkeyed : Table.Keyed StateRow.state_key s.tables.state)
    {key : String} (hdone : DoneAt (Command.after (DurableLead.execute cfg op s)) key) : DoneAt s key :=
  Command.path_keeps (I := fun s' => DoneAt s' key → DoneAt s key)
    (fun _ _ h hI hd => hI (h.done_kept hcons himp hd))
    (DurableLead.execute_path (fun _ htr => htr) hkeyed) id hdone

end Lead
end Qlong
