import Qlong.Lib.Runs
import Qlong.Lead.Moves

/-!
# Completion and terminal absorption

A run of the machine starts from a fresh task and lets any event happen at any time: calls of
the owner, timers of any name, messages from any node of any type, attempt and body.

**`completion_sound`** says what such a run can do at its end. `done` is entered on an accepted
result of the current target and attempt only; a user's cancel is final in the sense that what
follows ends in `done` or `closed` and sends no further offer; one terminal action at most is
emitted; and a terminal state absorbs every later event. Each of the four is a fact about one
`Move`, carried over the run by the rules of `Lib.Run`.
-/

namespace Qlong
namespace Lead

open Lib

/-- One event of a run, with the actions it caused. -/
structure Occurrence where
  event : Event
  actions : List LeadAction

/-- The machine under any sequence of calls. -/
def machineSystem : System LeadTaskMachine Occurrence where
  init m := ∃ task_id kind params, m = .create task_id kind params
  step m o m' := m.applyEvent o.event = (m', o.actions)

/-- A `task.offer` goes out. -/
def LeadAction.isOffer : LeadAction → Bool
  | .send msg => msg.type = "task.offer"
  | _ => false

/-- A terminal action. -/
def LeadAction.isTerminal : LeadAction → Bool
  | .terminal _ => true
  | _ => false

/-- Where a task can be once the user has cancelled it. -/
def LeadState.isCancelled : LeadState → Bool
  | .cancelling | .done | .closed => true
  | _ => false

theorem run_synced {hist : List (Entry LeadTaskMachine Occurrence)} {m : LeadTaskMachine}
    (run : Run machineSystem hist m) : ∀ e ∈ hist, e.pre.Synced ∧ e.post.Synced := by
  refine run.invariant_mem ?_ ?_
  · rintro m ⟨task_id, kind, params, rfl⟩
    exact LeadTaskMachine.synced_create
  · intro e he step hsync
    have hmove := LeadTaskMachine.applyEvent_move hsync e.label.event
    rw [show e.pre.applyEvent e.label.event = (e.post, e.label.actions) from step] at hmove
    exact LeadTaskMachine.synced_move hsync hmove

/-- Every entry of a run is a move. -/
theorem run_moves {hist : List (Entry LeadTaskMachine Occurrence)} {m : LeadTaskMachine}
    (run : Run machineSystem hist m) :
    ∀ e ∈ hist, Move e.pre e.label.event e.post e.label.actions := by
  intro e he
  have hmove := LeadTaskMachine.applyEvent_move (run_synced run e he).1 e.label.event
  rw [show e.pre.applyEvent e.label.event = (e.post, e.label.actions) from
    run.step_of_mem e he] at hmove
  exact hmove

/-! ## Facts about one move -/

/-- A cancel is neither an offer nor a terminal action. -/
theorem cancelMessage_plain {m : LeadTaskMachine} {reason : String} :
    ∀ a ∈ cancelMessage m reason, a.isOffer = false ∧ a.isTerminal = false := by
  intro a ha
  unfold cancelMessage at ha
  split at ha
  · rw [List.mem_singleton] at ha
    subst ha
    exact ⟨rfl, rfl⟩
  · exact absurd ha (by simp)

namespace Move

variable {m m' : LeadTaskMachine} {e : Event} {actions : List LeadAction}

/-- `done` is entered by delivery only. -/
theorem enters_done (hmove : Move m e m' actions) (hpost : m'.record.state = .done)
    (hpre : m.record.state ≠ .done) :
    ∃ body, Accepted m e body ∧ awaitsResult m.record := by
  cases hmove with
  | deliver h hs hm => exact ⟨_, hm, hs⟩
  | absorbed | silent | audited | stale | rearm | wait | noted => exact absurd hpost hpre
  | heartbeat | renewal => exact absurd hpost hpre
  | offer | accept | fatal | close | reclaim | retry | escalate | cancel =>
    exact absurd hpost (by simp)

/-- A terminal state absorbs. -/
theorem absorbs (hmove : Move m e m' actions) (hsync : m.Synced)
    (hterm : m.record.state.isTerminal = true) : m' = m ∧ actions = [] := by
  have ht : m.terminal = true := by rw [hsync]; exact hterm
  cases hmove with
  | absorbed => exact ⟨rfl, rfl⟩
  | silent => exact ⟨rfl, rfl⟩
  | audited h | stale h | rearm h | wait h | noted h | offer h | accept h | heartbeat h | renewal h
  | deliver h | fatal h | close h | reclaim h | retry h | escalate h | cancel h =>
    rw [ht] at h
    exact absurd h (by simp)

/-- A cancelled task stays cancelled and sends no offer. -/
theorem stays_cancelled (hmove : Move m e m' actions) (hsync : m.Synced)
    (hc : m.record.state.isCancelled = true) :
    m'.record.state.isCancelled = true ∧ ∀ a ∈ actions, a.isOffer = false := by
  cases hmove with
  | absorbed | silent => exact ⟨hc, by simp⟩
  | audited | stale | rearm =>
    refine ⟨hc, ?_⟩
    simp [LeadAction.isOffer, LeadTaskMachine.out]
  | noted => exact ⟨hc, by simp⟩
  | deliver | close => exact ⟨rfl, by simp [LeadAction.isOffer, LeadTaskMachine.stopTimers]⟩
  | cancel h hs he =>
    -- not cancelling, so already terminal, which the flag denies
    unfold LeadTaskMachine.Synced at hsync
    rw [h] at hsync
    cases hst : m.record.state <;> simp_all [LeadState.isCancelled, LeadState.isTerminal]
  | wait h hs | offer h hs | accept h hs | heartbeat h hs | renewal h hs =>
    rw [hs] at hc
    exact absurd hc (by simp [LeadState.isCancelled])
  | fatal h hs | reclaim h hs =>
    rcases hs with hs | hs <;> rw [hs] at hc <;> exact absurd hc (by simp [LeadState.isCancelled])
  | retry h hr | escalate h hr =>
    rcases hr with ⟨hs, -⟩ | ⟨hs, -⟩ <;> rw [hs] at hc <;>
      exact absurd hc (by simp [LeadState.isCancelled])

/-- A move emits one terminal action exactly when it ends the task. -/
theorem terminal_actions (hmove : Move m e m' actions) :
    actions.countP LeadAction.isTerminal + (if m.terminal then 1 else 0)
      = if m'.terminal then 1 else 0 := by
  have hcancel : ∀ reason, (cancelMessage m reason).countP LeadAction.isTerminal = 0 := by
    intro reason
    rw [List.countP_eq_zero]
    intro a ha
    rw [(cancelMessage_plain a ha).2]
    exact Bool.false_ne_true
  cases hmove with
  | absorbed | silent => rw [List.countP_nil, Nat.zero_add]
  | wait h | noted h | offer h | accept h | heartbeat h | renewal h | retry h | audited h | stale h
  | rearm h =>
    simp [h, LeadAction.isTerminal, LeadTaskMachine.stopTimers, LeadTaskMachine.out]
  | deliver h | fatal h | close h | escalate h =>
    simp [h, LeadAction.isTerminal, LeadTaskMachine.stopTimers]
  | cancel h =>
    simp [h, hcancel, LeadAction.isTerminal, LeadTaskMachine.stopTimers]
  | reclaim h hs hcause hrb ha =>
    rcases ha with rfl | rfl <;>
      simp [h, hcancel, LeadAction.isTerminal, LeadTaskMachine.stopTimers]

end Move

/-- The user's cancel of a live task: the one move that is not left open by the inversion,
    because in no live state is the call without effect. -/
theorem cancelByUser_cancels {m : LeadTaskMachine} (now : Int) (hsync : m.Synced)
    (hlive : m.record.state.isTerminal = false) :
    (m.cancelByUser now).1.record.state = .cancelling ∧
      ∀ a ∈ (m.cancelByUser now).2, a.isOffer = false := by
  have ht : m.terminal = false := by rw [hsync]; exact hlive
  unfold LeadTaskMachine.cancelByUser
  rw [if_neg (by rw [ht]; exact Bool.false_ne_true)]
  split
  · rename_i hs
    exact ⟨hs, by simp⟩
  · refine ⟨rfl, ?_⟩
    intro a ha
    simp only [List.mem_append, List.mem_singleton] at ha
    rcases ha with (rfl | ha) | rfl
    · rfl
    · exact (cancelMessage_plain a (show a ∈ cancelMessage m "user" from ha)).1
    · rfl

/-! ## Facts about a run -/

variable {hist : List (Entry LeadTaskMachine Occurrence)} {m : LeadTaskMachine}

/-- The number of terminal actions of a run is 0 while the task lives and 1 afterwards. -/
theorem run_terminal_actions (run : Run machineSystem hist m) :
    (hist.flatMap fun x => x.label.actions).countP LeadAction.isTerminal
      = if m.terminal then 1 else 0 := by
  have hmoves := run_moves run
  refine run.history
    (P := fun past m => (past.flatMap fun x => x.label.actions).countP LeadAction.isTerminal
      = if m.terminal then 1 else 0) ?_ ?_
  · rintro m ⟨task_id, kind, params, rfl⟩
    rfl
  · intro past e he _ _ ih
    rw [List.flatMap_cons, List.countP_append, ih]
    exact (hmoves e he).terminal_actions

/-- Once cancelled, the later part of a run stays cancelled and sends no offer. -/
theorem run_stays_cancelled : ∀ {later past : List (Entry LeadTaskMachine Occurrence)}
    {c : Entry LeadTaskMachine Occurrence} {m : LeadTaskMachine},
    Run machineSystem (later ++ c :: past) m → c.post.record.state.isCancelled = true →
    m.record.state.isCancelled = true ∧
      ∀ x ∈ later, x.post.record.state.isCancelled = true ∧ ∀ a ∈ x.label.actions, a.isOffer = false := by
  intro later
  induction later with
  | nil =>
    intro past c m run hc
    cases run with
    | next run step => exact ⟨hc, by simp⟩
  | cons x rest ih =>
    intro past c m run hc
    have hmove := run_moves run x List.mem_cons_self
    have hsync := (run_synced run x List.mem_cons_self).1
    cases run with
    | next run step =>
      obtain ⟨hpre, hrest⟩ := ih run hc
      have hx := hmove.stays_cancelled hsync hpre
      refine ⟨hx.1, ?_⟩
      intro y hy
      rcases List.mem_cons.mp hy with rfl | hy
      · exact hx
      · exact hrest y hy

/-- **Completion soundness and terminal absorption.** In every run of the machine from a fresh
    task:

    1. `done` is entered only by a `task.result` from the current target with the current
       attempt that the validator accepts, in running, in reclaiming with the drain still
       open, or in cancelling;
    2. from a user's cancel of a live task on, every state is cancelling, done or closed and no
       offer is sent;
    3. at most one terminal action is emitted;
    4. an event in a terminal state changes nothing and emits nothing. -/
theorem completion_sound (run : Run machineSystem hist m) :
    (∀ x ∈ hist, x.post.record.state = .done → x.pre.record.state ≠ .done →
      (∃ validate fromNode body now msgId,
        x.label.event = .onMessage validate "task.result" fromNode x.pre.record.attempt body now msgId ∧
        x.pre.record.target = some fromNode ∧ validate body = true) ∧
      (x.pre.record.state = .running ∨
        x.pre.record.state = .reclaiming ∧ x.pre.record.drainClosed ≠ some true ∨
        x.pre.record.state = .cancelling)) ∧
    (∀ later c past, hist = later ++ c :: past → (∃ now, c.label.event = .cancelByUser now) →
      c.pre.record.state.isTerminal = false →
      (m.record.state = .cancelling ∨ m.record.state = .done ∨ m.record.state = .closed) ∧
      ∀ x ∈ later ++ [c], (x.post.record.state = .cancelling ∨ x.post.record.state = .done ∨
          x.post.record.state = .closed) ∧
        ∀ a ∈ x.label.actions, a.isOffer = false) ∧
    (hist.flatMap fun x => x.label.actions).countP LeadAction.isTerminal ≤ 1 ∧
    (∀ x ∈ hist, x.pre.record.state.isTerminal = true →
      x.post = x.pre ∧ x.label.actions = []) := by
  have hmoves := run_moves run
  have hsync := run_synced run
  have hcases : ∀ s : LeadState, s.isCancelled = true → s = .cancelling ∨ s = .done ∨ s = .closed := by
    intro s
    cases s <;> simp [LeadState.isCancelled]
  refine ⟨?_, ?_, ?_, ?_⟩
  · intro x hx hpost hpre
    obtain ⟨body, hacc, haw⟩ := (hmoves x hx).enters_done hpost hpre
    obtain ⟨validate, fromNode, msgId, hev, ht, hv⟩ := hacc.event
    exact ⟨⟨validate, fromNode, body, _, msgId, hev, ht, hv⟩, haw⟩
  · rintro later c past rfl ⟨now, hev⟩ hlive
    have hc : c ∈ later ++ c :: past := by simp
    -- the cancel takes a live task to `cancelling`, and no later step leads out of the three states
    have hcancel := cancelByUser_cancels now (hsync c hc).1 hlive
    have hstep : c.pre.cancelByUser now = (c.post, c.label.actions) := by
      have := run.step_of_mem c hc
      simp only [machineSystem, hev] at this
      exact this
    rw [hstep] at hcancel
    have hcc : c.post.record.state.isCancelled = true := by rw [hcancel.1]; rfl
    obtain ⟨hm, hlater⟩ := run_stays_cancelled run hcc
    refine ⟨hcases _ hm, ?_⟩
    intro x hx
    rcases List.mem_append.mp hx with hx | hx
    · exact ⟨hcases _ (hlater x hx).1, (hlater x hx).2⟩
    · rw [List.mem_singleton] at hx
      subst hx
      exact ⟨Or.inl hcancel.1, hcancel.2⟩
  -- the count of final actions is read off the last state
  · rw [run_terminal_actions run]
    split <;> omega
  · intro x hx hterm
    exact (hmoves x hx).absorbs (hsync x hx).1 hterm

/-- One event as a labelled step. -/
def occur (m : LeadTaskMachine) (e : Event) : Occurrence × LeadTaskMachine :=
  (⟨e, (m.applyEvent e).2⟩, (m.applyEvent e).1)

/-- A task that is dispatched, accepted and delivered. -/
def deliveredEvents : List Event :=
  [.onMessage (fun _ => true) "task.result" "b" 1 (.obj []) 30 none,
    .onMessage (fun _ => true) "task.accept" "b" 1 (.obj []) 20 none,
    .dispatchTo "b" (.obj []) 10]

theorem completion_sound_delivered :
    (play occur (.create "t" .aid defaultParams) deliveredEvents).2.record.state = .done ∧
    ((play occur (.create "t" .aid defaultParams) deliveredEvents).1.flatMap fun x =>
      x.label.actions).countP LeadAction.isTerminal ≤ 1 :=
  ⟨by decide, (completion_sound (run_play (S := machineSystem) (f := occur)
    ⟨"t", .aid, defaultParams, rfl⟩ (fun _ _ => rfl) deliveredEvents)).2.2.1⟩

end Lead
end Qlong
