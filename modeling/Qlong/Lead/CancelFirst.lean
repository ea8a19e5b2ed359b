import Qlong.Lead.Completion
import Qlong.Lead.Durable

/-!
# Cancel before the next offer

R4: a lead that takes a task back from an executor tells it so before it offers the task again.
`Outstanding` is what the run remembers of its last offer, from that offer to the next one: the
record still carries its attempt and target; while the task is being reclaimed the cancel is
out; and once it waits for a new target, the executor has rejected the offer, or the cancel has
been acknowledged or waited out.

**`cancel_first`** reads this at the next offer, which finds the task in drafting.
-/

namespace Qlong
namespace Lead

open Lib

/-- The offer of attempt `n` to `target` goes out. -/
def SendsOffer (x : Entry LeadTaskMachine Occurrence) (n : Int) (target : String) : Prop :=
  ∃ msg, LeadAction.send msg ∈ x.label.actions ∧ msg.type = "task.offer" ∧ msg.attempt = some n ∧
    msg.to_node = target

/-- The cancel of attempt `n` goes out to `target`. -/
def SendsCancel (x : Entry LeadTaskMachine Occurrence) (n : Int) (target : String) : Prop :=
  ∃ msg, LeadAction.send msg ∈ x.label.actions ∧ msg.type = "task.cancel" ∧ msg.attempt = some n ∧
    msg.to_node = target

/-- A message of a type about attempt `n` arrives from `target` in a state. -/
def Receives (x : Entry LeadTaskMachine Occurrence) (type : String) (n : Int) (target : String)
    (state : LeadState) : Prop :=
  x.pre.record.state = state ∧
    ∃ validate body now msgId, x.label.event = .onMessage validate type target n body now msgId

/-- The drain timer fires. The drain deadline is the drain period after the reclaim `c`, and when
    it is `tick` that drives the timer, it has come. -/
def DrainFires (x c : Entry LeadTaskMachine Occurrence) : Prop :=
  ∃ now deadline, x.label.event = .onTimer .drain now ∧ x.pre.record.state = .reclaiming ∧
    x.pre.record.drainUntil = some deadline ∧
    deadline = c.label.event.now + c.pre.params.drainMs ∧
    (DurableLead.dueTimer x.pre.record now = some .drain → deadline ≤ now)

/-- What has to lie between the offer of attempt `n` to `target` and the next offer. -/
def Released (n : Int) (target : String) (between : List (Entry LeadTaskMachine Occurrence)) : Prop :=
  (∃ r ∈ between, Receives r "task.reject" n target .offered) ∨
  ∃ after d before, between = after ++ d :: before ∧
    ∃ c ∈ before, SendsCancel c n target ∧
      (Receives d "task.cancel.ack" n target .reclaiming ∨ DrainFires d c)

/-- What a run knows of its last offer. -/
structure Outstanding (n : Int) (target : String) (between : List (Entry LeadTaskMachine Occurrence))
    (m : LeadTaskMachine) : Prop where
  numbered : m.record.attempt = n
  addressed : m.record.target = some target
  cancelled : m.record.state = .reclaiming → ∃ c ∈ between, SendsCancel c n target ∧
    m.record.drainUntil = some (c.label.event.now + c.pre.params.drainMs)
  released : m.record.state = .drafting → Released n target between

theorem Released.later {n : Int} {target : String} {between : List (Entry LeadTaskMachine Occurrence)}
    (h : Released n target between) (x : Entry LeadTaskMachine Occurrence) :
    Released n target (x :: between) := by
  rcases h with ⟨r, hr, hrec⟩ | ⟨after, d, before, rfl, hc⟩
  · exact Or.inl ⟨r, List.mem_cons_of_mem _ hr, hrec⟩
  · exact Or.inr ⟨x :: after, d, before, rfl, hc⟩

/-! ## One move -/

variable {m m' : LeadTaskMachine} {e : Event} {actions : List LeadAction} {n : Int} {target : String}
  {between : List (Entry LeadTaskMachine Occurrence)}

/-- The cancel of a reclaim names the attempt and the target that are taken back. -/
theorem cancelMessage_sends (ht : m.record.target = some target) (hne : target ≠ "") (reason : String) :
    ∃ msg, LeadAction.send msg ∈ cancelMessage m reason ∧ msg.type = "task.cancel" ∧
      msg.attempt = some m.record.attempt ∧ msg.to_node = target := by
  have hhas : m.record.hasTarget = some target := by
    simp [LeadRecord.hasTarget, ht, Option.filter, hne]
  refine ⟨⟨"task.cancel", target, some m.record.task_id, some m.record.attempt, none,
    .object [("reason", some (.str reason))]⟩, ?_, rfl, rfl, rfl⟩
  simp [cancelMessage, hhas, LeadTaskMachine.out]

/-- A round ends by a reject of the open offer, or by the end of the drain. -/
theorem endsRound_cases (h : endsRound m e = true) (ht : m.record.target = some target) :
    (m.record.state = .offered ∧ ∃ validate body now msgId,
      e = .onMessage validate "task.reject" target m.record.attempt body now msgId) ∨
    (m.record.state = .reclaiming ∧ ∃ validate body now msgId,
      e = .onMessage validate "task.cancel.ack" target m.record.attempt body now msgId) ∨
    (m.record.state = .reclaiming ∧ ∃ now, e = .onTimer .drain now) := by
  cases e with
  | onMessage validate type fromNode attempt body now msgId =>
    simp only [endsRound, hears, Bool.and_eq_true, Bool.or_eq_true, decide_eq_true_eq, ht,
      Option.some.injEq] at h
    obtain ⟨⟨rfl, rfl⟩, ⟨hs, rfl⟩ | ⟨⟨hs, -⟩, rfl⟩⟩ := h
    · exact Or.inl ⟨hs, validate, body, now, msgId, rfl⟩
    · exact Or.inr (Or.inl ⟨hs, validate, body, now, msgId, rfl⟩)
  | onTimer timer now =>
    cases timer with
    | drain =>
      simp only [endsRound, Bool.and_eq_true, decide_eq_true_eq] at h
      exact Or.inr (Or.inr ⟨h.1, now, rfl⟩)
    | offer_ttl | lease | cancel_wait => exact absurd h (by simp [endsRound])
  | dispatchTo | redispatchTo | cancelByUser | redispatchByOwner => exact absurd h (by simp [endsRound])

/-- One move sends one offer, from drafting, or none. -/
theorem Move.offers (hmove : Move m e m' actions) :
    (m.record.state = .drafting ∧ m'.record.state = .offered ∧
      ∃ target offerBody ttl, m'.record.target = some target ∧
        actions = [LeadTaskMachine.stopTimers,
          .send ⟨"task.offer", target, some m.record.task_id, some m'.record.attempt, none, offerBody⟩,
          .schedule .offer_ttl ttl]) ∨
    ∀ a ∈ actions, a.isOffer = false := by
  cases hmove with
  | offer h hs => exact Or.inl ⟨hs, rfl, _, _, _, rfl, rfl⟩
  | reclaim h hs hcause hrb ha =>
    right
    intro a hmem
    simp only [List.mem_append, List.mem_cons, List.not_mem_nil, or_false] at hmem
    rcases hmem with hmem | (rfl | hmem) | rfl | rfl
    · rcases ha with rfl | rfl
      · exact absurd hmem (by simp)
      · rw [List.mem_singleton.mp hmem]
        rfl
    · rfl
    · exact (cancelMessage_plain a hmem).1
    · rfl
    · rfl
  | cancel =>
    right
    intro a hmem
    simp only [List.mem_append, List.mem_cons, List.not_mem_nil, or_false] at hmem
    rcases hmem with (rfl | hmem) | rfl
    · rfl
    · exact (cancelMessage_plain a hmem).1
    · rfl
  | _ => exact Or.inr (by simp [LeadAction.isOffer, LeadTaskMachine.stopTimers, LeadTaskMachine.out])

/-- A drain timer that `tick` drives is due. -/
theorem dueTimer_drain {r : LeadRecord} {now deadline : Int} (hs : r.state = .reclaiming)
    (hd : r.drainUntil = some deadline) (h : DurableLead.dueTimer r now = some .drain) :
    deadline ≤ now := by
  simp only [DurableLead.dueTimer, hs, hd, Option.any_some] at h
  split at h
  · rename_i hdue
    simp only [Bool.and_eq_true, decide_eq_true_eq] at hdue
    exact hdue.2
  · exact absurd h (by simp)

/-- While a task is being reclaimed a tick runs nothing on it but the drain timer, once the drain
    is over. -/
theorem tickRunner_drain {amb : Ambient} {r : LeadRecord} {now deadline : Int}
    {runner : DurableLead.Runner} (hs : r.state = .reclaiming) (hd : r.drainUntil = some deadline)
    (h : DurableLead.tickRunner amb r now = some runner) :
    (runner = fun m => m.onTimer .drain now) ∧ deadline ≤ now := by
  unfold DurableLead.tickRunner at h
  cases hdue : DurableLead.dueTimer r now with
  | none => simp [hdue, hs] at h
  | some timer =>
    rw [hdue] at h
    -- no other timer is due of a task in this state
    have hdrain : timer = .drain := by
      simp only [DurableLead.dueTimer, hs] at hdue
      split at hdue
      · exact (Option.some.inj hdue).symm
      · exact absurd hdue (by simp)
    subst hdrain
    exact ⟨(Option.some.inj h).symm, dueTimer_drain hs hd hdue⟩

/-- **The drain that `DurableLead.tick` fires is one**: after the cancel of the outstanding offer, and
    no sooner than the drain period after it. -/
theorem Outstanding.tick_drains {x : Entry LeadTaskMachine Occurrence} {amb : Ambient}
    {now : Int} {runner : DurableLead.Runner} (h : Outstanding n target between x.pre)
    (hs : x.pre.record.state = .reclaiming)
    (htick : DurableLead.tickRunner amb x.pre.record now = some runner)
    (hevent : x.label.event = .onTimer .drain now) :
    ∃ c ∈ between, SendsCancel c n target ∧ DrainFires x c ∧
      c.label.event.now + c.pre.params.drainMs ≤ now := by
  obtain ⟨c, hc, hsend, huntil⟩ := h.cancelled hs
  obtain ⟨-, hdue⟩ := tickRunner_drain hs huntil htick
  exact ⟨c, hc, hsend, ⟨now, _, hevent, hs, huntil, rfl, fun _ => hdue⟩, hdue⟩

/-- An entry that sends no offer leaves the last offer outstanding. -/
theorem Outstanding.step {x : Entry LeadTaskMachine Occurrence} (hne : target ≠ "")
    (hmove : Move x.pre x.label.event x.post x.label.actions)
    (hquiet : ∀ a ∈ x.label.actions, a.isOffer = false) (h : Outstanding n target between x.pre) :
    Outstanding n target (x :: between) x.post := by
  obtain ⟨m, ⟨e, actions⟩, m'⟩ := x
  dsimp only at hmove hquiet h ⊢
  -- what leaves the attempt, the target, the state and the drain alone
  have hstay : ∀ r : LeadRecord, r.attempt = m.record.attempt → r.target = m.record.target →
      r.state = m.record.state → r.drainUntil = m.record.drainUntil →
      Outstanding n target (⟨m, ⟨e, actions⟩, { m with record := r }⟩ :: between) { m with record := r } := by
    intro r hatt htar hs hd
    refine ⟨hatt.trans h.numbered, htar.trans h.addressed, fun hr => ?_, fun hdr => ?_⟩
    · obtain ⟨c, hc, hsend, huntil⟩ := h.cancelled (hs ▸ hr)
      exact ⟨c, List.mem_cons_of_mem _ hc, hsend, hd.trans huntil⟩
    · exact (h.released (hs ▸ hdr)).later _
  -- what moves on to a state that neither reclaims nor waits
  have hleave : ∀ x : LeadTaskMachine, x.record.attempt = m.record.attempt →
      x.record.target = m.record.target → x.record.state ≠ .reclaiming → x.record.state ≠ .drafting →
      Outstanding n target (⟨m, ⟨e, actions⟩, x⟩ :: between) x := fun x hatt htar hr hdr =>
    ⟨hatt.trans h.numbered, htar.trans h.addressed, fun hs => absurd hs hr, fun hs => absurd hs hdr⟩
  cases hmove with
  | absorbed | silent | audited | stale | rearm | wait | noted | heartbeat | renewal =>
    exact hstay _ rfl rfl rfl rfl
  | offer =>
    have hoffer := hquiet _ (List.mem_cons_of_mem _ List.mem_cons_self)
    exact absurd hoffer (by simp [LeadAction.isOffer])
  | accept | deliver | fatal | close | cancel => exact hleave _ rfl rfl (by simp) (by simp)
  | @escalate hlive acc drain => exact hleave _ (charged_attempt ..) (charged_target ..) (by simp) (by simp)
  | reclaim hlive hs hcause hrb ha hreason =>
    refine ⟨h.numbered, h.addressed, fun _ => ?_, fun hs => absurd hs (by simp)⟩
    obtain ⟨msg, hmsg, htype, hatt, hto⟩ := cancelMessage_sends h.addressed hne _
    refine ⟨_, List.mem_cons_self, ⟨msg, ?_, htype, hatt.trans (congrArg some h.numbered), hto⟩, rfl⟩
    exact List.mem_append_right _ (List.mem_append_left _ (List.mem_append_right _ hmsg))
  | @retry hlive acc drain hr hcause =>
    refine ⟨(charged_attempt ..).trans h.numbered, (charged_target ..).trans h.addressed,
      fun hs => absurd hs (by simp), fun _ => ?_⟩
    obtain rfl := h.numbered
    rcases endsRound_cases hcause h.addressed with ⟨hs, hev⟩ | ⟨hs, hev⟩ | ⟨hs, now, hev⟩
    · exact Or.inl ⟨_, List.mem_cons_self, hs, hev⟩
    · obtain ⟨c, hc, hsend, -⟩ := h.cancelled hs
      exact Or.inr ⟨[], _, between, rfl, c, hc, hsend, Or.inl ⟨hs, hev⟩⟩
    · obtain ⟨c, hc, hsend, huntil⟩ := h.cancelled hs
      exact Or.inr ⟨[], _, between, rfl, c, hc, hsend, Or.inr ⟨now, _, hev, hs, huntil, rfl, dueTimer_drain hs huntil⟩⟩

/-- The offer itself: the task is offered, to its target, at its attempt. -/
theorem Outstanding.fresh (hmove : Move m e m' actions) {msg : Outbound}
    (hsend : LeadAction.send msg ∈ actions) (htype : msg.type = "task.offer")
    (hatt : msg.attempt = some n) : Outstanding n msg.to_node [] m' := by
  rcases hmove.offers with ⟨-, hs, target, offerBody, ttl, ht, rfl⟩ | hnone
  · simp only [LeadTaskMachine.stopTimers, List.mem_cons, LeadAction.send.injEq, List.not_mem_nil,
      reduceCtorEq, false_or, or_false] at hsend
    subst hsend
    refine ⟨Option.some.inj hatt, ht, fun hr => ?_, fun hdr => ?_⟩
    · exact absurd (hs.symm.trans hr) (by simp)
    · exact absurd (hs.symm.trans hdr) (by simp)
  · have hoffer := hnone _ hsend
    exact absurd htype (by simpa [LeadAction.isOffer] using hoffer)

/-! ## Runs -/

/-- From an offer on, until the next one, the offer is outstanding. -/
theorem run_outstanding {o : Entry LeadTaskMachine Occurrence} :
    ∀ {between past : List (Entry LeadTaskMachine Occurrence)} {m : LeadTaskMachine},
    Run machineSystem (between ++ o :: past) m → SendsOffer o n target → target ≠ "" →
    (∀ x ∈ between, ∀ a ∈ x.label.actions, a.isOffer = false) → Outstanding n target between m := by
  intro between
  induction between with
  | nil =>
    rintro past m run ⟨msg, hsend, htype, hatt, rfl⟩ - -
    have hmove := run_moves run o List.mem_cons_self
    cases run with
    | next => exact Outstanding.fresh hmove hsend htype hatt
  | cons x rest ih =>
    intro past m run ho hne hquiet
    have hmove := run_moves run x List.mem_cons_self
    cases run with
    | next run step =>
      have hrest := ih run ho hne fun y hy => hquiet y (List.mem_cons_of_mem _ hy)
      exact hrest.step hne hmove (hquiet _ List.mem_cons_self)

/-- **Cancel before the next offer.** In every run of the machine from a fresh task, between an
    offer of attempt `n` to `target` and the next offer to anyone, the target has rejected attempt
    `n` while it was offered; or a cancel of attempt `n` has gone out to it and after that its
    acknowledgement has come in while the task was reclaiming, or the drain timer has fired: if it
    was `tick` that fired it, not before the end of the drain. No event sends two offers. An empty
    `target` names no node; `dispatch` and the sealer refuse it. -/
theorem cancel_first {hist later between past : List (Entry LeadTaskMachine Occurrence)}
    {next o : Entry LeadTaskMachine Occurrence} (run : Run machineSystem hist m)
    (hhist : hist = later ++ next :: between ++ o :: past) (ho : SendsOffer o n target)
    (htarget : target ≠ "") (hnext : ∃ a ∈ next.label.actions, a.isOffer = true)
    (hquiet : ∀ x ∈ between, ∀ a ∈ x.label.actions, a.isOffer = false) :
    Released n target between ∧ ∀ x ∈ hist, x.label.actions.countP LeadAction.isOffer ≤ 1 := by
  subst hhist
  constructor
  · have hdrafting : next.pre.record.state = .drafting := by
      obtain ⟨a, ha, hoffer⟩ := hnext
      rcases (run_moves run next (by simp)).offers with ⟨hs, -⟩ | hnone
      · exact hs
      · rw [hnone a ha] at hoffer
        exact absurd hoffer (by simp)
    rw [List.append_assoc, List.cons_append] at run
    exact (run_outstanding run.before ho htarget hquiet).released hdrafting
  · intro x hx
    rcases (run_moves run x hx).offers with ⟨-, -, target, offerBody, ttl, -, hactions⟩ | hnone
    · rw [hactions]
      exact Nat.le_refl 1
    · rw [List.countP_eq_zero.mpr fun a ha => by simp [hnone a ha]]
      exact Nat.zero_le 1

/-- Offered, never answered, reclaimed, drained and offered again. -/
def reofferedEvents : List Event :=
  [.redispatchTo "c" (.obj []) 40, .onTimer .drain 30, .onTimer .offer_ttl 20, .dispatchTo "b" (.obj []) 10]

theorem cancel_first_reoffered :
    Released 1 "b"
      ((play occur (.create "t" .aid defaultParams) reofferedEvents).1.tail.dropLast) := by
  refine (@cancel_first _ 1 "b" _ [] _ [] _ _ (run_play (S := machineSystem) (f := occur)
    ⟨"t", .aid, defaultParams, rfl⟩ (fun _ _ => rfl) reofferedEvents) rfl ?_ (by decide) ?_ ?_).1
  · exact ⟨_, List.mem_cons_of_mem _ List.mem_cons_self, rfl, rfl, rfl⟩
  · exact ⟨_, List.mem_cons_of_mem _ List.mem_cons_self, rfl⟩
  · decide

end Lead
end Qlong
