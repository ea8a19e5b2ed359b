import Qlong.Lead.Moves
import Qlong.Lead.Records

/-!
# One event of the durable lead

`runEvent` runs the machine once and lets the selector answer a request at once, so the record it
hands to the commit is one move away from the persisted one, or two. A `Turn` is that: the move of
the event, and after a request the move of the offer that answers it.
-/

namespace Qlong
namespace Lead

open Lib Node

namespace DurableLead

variable {amb : Ambient} {now : Int} {m m' : LeadTaskMachine} {e : Event} {actions : List LeadAction}

/-- One run of the machine inside `runEvent`. `e` is the event the runner stands for; a tick that
    finds no target runs none. -/
inductive Turn (amb : Ambient) (now : Int) (m : LeadTaskMachine) :
    Option Event → LeadTaskMachine → List LeadAction → Prop
  | idle : Turn amb now m none m []
  | alone {e : Event} {m' : LeadTaskMachine} {actions : List LeadAction} (h : Move m e m' actions)
      (hask : ∀ n, LeadAction.requestDispatch n ∈ actions →
        amb.selectTarget (request m'.record n) = none) :
      Turn amb now m (some e) m' actions
  | answered {e : Event} {m1 m2 : LeadTaskMachine} {actions : List LeadAction} {target : String}
      {offerBody : Json} (h1 : Move m e m1 [.requestDispatch (m.record.attempt + 1)])
      (hsel : amb.selectTarget (request m1.record (m.record.attempt + 1)) = some (target, offerBody))
      (h2 : Move m1 (.redispatchTo target offerBody now) m2 actions) :
      Turn amb now m (some e) m2 (.requestDispatch (m.record.attempt + 1) :: actions)

/-- A move asks for a dispatch as its only action, and leaves a live draft behind, or not at
    all. -/
theorem move_requests (h : Move m e m' actions) :
    (actions = [.requestDispatch (m.record.attempt + 1)] ∧ m'.terminal = false ∧
      m'.record.state = .drafting ∧ m'.record.attempt = m.record.attempt) ∨
    ∀ n, LeadAction.requestDispatch n ∉ actions := by
  have hcancel : ∀ reason n, LeadAction.requestDispatch n ∉ cancelMessage m reason := by
    intro reason n hn
    unfold cancelMessage at hn
    split at hn
    · rw [List.mem_singleton] at hn
      exact absurd hn (by simp [LeadTaskMachine.out])
    · exact absurd hn (by simp)
  cases h with
  | wait h hs he => exact Or.inl ⟨rfl, h, hs, rfl⟩
  | @retry h acc drain hr hcause hist ex hb =>
    refine Or.inl ⟨rfl, h, rfl, ?_⟩
    cases acc <;> rfl
  | absorbed | silent | noted => exact Or.inr fun n => by simp
  | audited | stale | rearm | offer | accept | heartbeat | renewal | deliver | fatal | close
  | escalate =>
    exact Or.inr fun n => by simp [LeadTaskMachine.stopTimers, LeadTaskMachine.out]
  | @reclaim h hs hcause hist ex rb hrb audits ha reason hreason =>
    refine Or.inr fun n hn => ?_
    simp only [List.mem_append, List.mem_cons, List.not_mem_nil, or_false, LeadTaskMachine.stopTimers,
      reduceCtorEq, false_or] at hn
    rcases hn with hn | hn
    · rcases ha with rfl | rfl
      · exact absurd hn (by simp)
      · exact absurd hn (by simp)
    · exact hcancel reason n hn
  | cancel h hs he =>
    refine Or.inr fun n hn => ?_
    simp only [List.mem_append, List.mem_cons, List.not_mem_nil, or_false, LeadTaskMachine.stopTimers,
      reduceCtorEq, false_or] at hn
    exact hcancel "user" n hn

/-- What the loop of `driveRedispatch` appends asks for nothing. -/
theorem redispatchTo_asks_nothing (m : LeadTaskMachine) (target : String) (offerBody : Json) (now n : Int) :
    LeadAction.requestDispatch n ∉ (m.redispatchTo target offerBody now).2 := by
  unfold LeadTaskMachine.redispatchTo LeadTaskMachine.offerTo
  split
  · simp
  · split
    · simp
    · split
      · simp
      · simp [LeadTaskMachine.stopTimers, LeadTaskMachine.out]

/-- Nothing asked, nothing answered. -/
theorem answer_nothing {xs : List LeadAction} (h : ∀ n, LeadAction.requestDispatch n ∉ xs)
    (x : LeadTaskMachine × List LeadAction) : xs.foldl (answer amb now) x = x := by
  induction xs generalizing x with
  | nil => rfl
  | cons a rest ih =>
    have ha : answer amb now x a = x := by
      cases a with
      | requestDispatch n => exact absurd List.mem_cons_self (h n)
      | _ => rfl
    rw [List.foldl_cons, ha]
    exact ih (fun n hn => h n (List.mem_cons_of_mem _ hn)) x

/-- **One event and its answer make a turn.** -/
theorem driveRedispatch_turn (h : Move m e m' actions) :
    Turn amb now m (some e) (driveRedispatch amb now (m', actions)).1
      (driveRedispatch amb now (m', actions)).2 := by
  rcases move_requests h with ⟨rfl, hlive, hdraft, hatt⟩ | hnone
  · unfold driveRedispatch
    simp only [List.foldl_cons, List.foldl_nil, answer]
    cases hsel : amb.selectTarget (request m'.record (m.record.attempt + 1)) with
    | none =>
      refine .alone h fun n hn => ?_
      rw [List.mem_singleton] at hn
      injection hn with hn
      exact hn ▸ hsel
    | some p =>
      exact .answered h hsel (LeadTaskMachine.offerTo_move (Or.inr ⟨rfl, rfl⟩))
  · unfold driveRedispatch
    rw [answer_nothing hnone]
    exact .alone h fun n hn => absurd hn (hnone n)

/-- A turn that found nothing to run is still a turn. -/
theorem driveRedispatch_idle :
    Turn amb now m none (driveRedispatch amb now (m, [])).1 (driveRedispatch amb now (m, [])).2 := .idle

theorem synced_machine (cfg : LeadConfig) (task : DurableLeadTask) : (machine cfg task).Synced := rfl

theorem Turn.fixed {o : Option Event} (h : Turn amb now m o m' actions) :
    m'.params = m.params ∧ m'.record.task_id = m.record.task_id ∧ m'.record.kind = m.record.kind := by
  cases h with
  | idle => exact ⟨rfl, rfl, rfl⟩
  | alone h => exact h.fixed
  | answered h1 hsel h2 =>
    obtain ⟨hp1, hi1, hk1⟩ := h1.fixed
    obtain ⟨hp2, hi2, hk2⟩ := h2.fixed
    exact ⟨hp2.trans hp1, hi2.trans hi1, hk2.trans hk1⟩

/-! ## What `runEvent` hands to the commit -/

/-- A runner that makes the move of one event, or none. -/
def RunsAs (runner : Runner) (m : LeadTaskMachine) : Option Event → Prop
  | some e => runner m = m.applyEvent e
  | none => runner m = (m, [])

/-- The report counter after a turn. -/
def nextSeq (task : DurableLeadTask) (m : LeadTaskMachine) : Int :=
  if m.record.state ≠ task.record.state then task.task_seq + 1 else task.task_seq

/-- **`runEvent`, taken apart.** -/
structure Ran (cfg : LeadConfig) (amb : Ambient) (now : Int) (task : DurableLeadTask)
    (o : Option Event) (result : EventResult) : Prop where
  turn : ∃ m' actions, Turn amb now (machine cfg task) o m' actions ∧
    result.value = ⟨m'.record, nextSeq task m'⟩ ∧
    sealFrom cfg amb 0 (messages actions) = .ok result.outbox ∧
    reportIf cfg (decide (m'.record.state ≠ task.record.state)) m'.record (nextSeq task m')
      amb.effectId = .ok result.effects ∧
    (result.acted = true ↔ m'.record.state ≠ task.record.state ∨ actions ≠ [])
  computed : ∀ e, o = some e →
    result.value.record = (driveRedispatch amb now ((machine cfg task).applyEvent e)).1.record

theorem runEvent_ok {cfg : LeadConfig} {task : DurableLeadTask} {runner : Runner} {o : Option Event}
    {result : EventResult} (hrun : RunsAs runner (machine cfg task) o)
    (h : runEvent cfg amb task runner now = .ok result) : Ran cfg amb now task o result := by
  simp only [runEvent, bind_ok_iff, pure_ok_iff] at h
  obtain ⟨outbox, hout, effects, heff, rfl⟩ := h
  have hturn : Turn amb now (machine cfg task) o
      (driveRedispatch amb now (runner (machine cfg task))).1
      (driveRedispatch amb now (runner (machine cfg task))).2 := by
    cases o with
    | none =>
      rw [show runner (machine cfg task) = (machine cfg task, []) from hrun]
      exact driveRedispatch_idle
    | some e =>
      rw [show runner (machine cfg task) = (machine cfg task).applyEvent e from hrun]
      exact driveRedispatch_turn (LeadTaskMachine.applyEvent_move (synced_machine cfg task) e)
  refine ⟨⟨_, _, hturn, ?_, hout, ?_, ?_⟩, fun e he => ?_⟩
  · simp only [nextSeq, decide_eq_true_eq]
  · simpa only [nextSeq, decide_eq_true_eq] using heff
  · simp
  · subst he
    rw [show runner (machine cfg task) = (machine cfg task).applyEvent e from hrun]

theorem runsAs_tryRedispatch (amb : Ambient) (now : Int) (m : LeadTaskMachine) :
    RunsAs (tryRedispatch amb now) m
      ((amb.selectTarget (request m.record (m.record.attempt + 1))).map
        fun p => .redispatchTo p.1 p.2 now) := by
  cases hsel : amb.selectTarget (request m.record (m.record.attempt + 1)) with
  | none => simp only [Option.map_none, RunsAs, tryRedispatch, hsel]
  | some p => simp only [Option.map_some, RunsAs, tryRedispatch, hsel, LeadTaskMachine.applyEvent]

end DurableLead

end Lead
end Qlong
