import Qlong.Executor.System
import Qlong.Lead.Machine

/-!
# The lease both sides confirm

An executor answers an offer with the lease it grants, and the lead counts from that answer when the run is
lost. `assertLeaseInvariant` of `packages/core/src/params.ts` says which leases are long enough for the
lead's verdict not to come after the executor's own lease has ended; neither side calls it.
`confirmed_lease` says for which offers it would not throw.
-/

namespace Qlong
namespace Executor

open Lib Lead

/-- The lease an offer asks for. -/
def offeredLease (cfg : ExecutorConfig) (e : Json) : Int :=
  ((orElse ((Env.body e).get "lease_ms") cfg.params.leaseMsAid).asNum).getD 0

/-- The lease left after the clamp is at least about three times the grace. -/
def LongEnough (lease : Int) (p : QlongParams) : Prop := 3 * p.graceMs - 4 ≤ lease ∧ lease ≠ 3 * p.graceMs - 3

/-- **R3, in closed form.** -/
theorem leaseInvariant_iff {lease : Int} {p : QlongParams} : leaseInvariant lease p = true ↔ LongEnough lease p := by
  unfold leaseInvariant heartbeatIntervalMs LongEnough
  rw [decide_eq_true_eq]
  omega

/-- The invariant says that the lead's verdict falls within the lease. -/
theorem leaseInvariant_iff_lost {lease : Int} {p : QlongParams} : leaseInvariant lease p = true ↔ lostAfterMs lease p ≤ lease := by
  unfold leaseInvariant lostAfterMs
  rw [decide_eq_true_eq]
  omega

section

variable {cfg : ExecutorConfig} {amb : Ambient} {ready closing authorized : Bool} {s : Snapshot} {e msg : Json} {o : Output}
  {run : DurableRun} {m : LeadTaskMachine} {validate : Json → Bool} {later : Int}

/-- The offer was accepted: the slot was empty, `run` is in it now, and `msg` is its acceptance. -/
structure Accepted (cfg : ExecutorConfig) (amb : Ambient) (ready closing : Bool) (s : Snapshot) (e : Json)
    (authorized : Bool) (run : DurableRun) (msg : Json) : Prop where
  vacant : s.slot = none
  handled : ∃ o, handle cfg amb ready closing s e authorized = .ok o ∧ o.state.slot = some run ∧ msg ∈ o.outbox

/-- The lead waits for the answer to the offer of this attempt, and has the executor's parameters. -/
structure Awaits (cfg : ExecutorConfig) (m : LeadTaskMachine) (msg : Json) : Prop where
  params : m.params = cfg.params
  live : m.terminal = false
  offered : m.record.state = .offered
  target : m.record.target = some (Env.fromNode msg)
  attempt : Env.attempt msg = some m.record.attempt

/-- The lead after the acceptance has arrived. -/
def confirmed (m : LeadTaskMachine) (validate : Json → Bool) (msg : Json) (later : Int) : LeadTaskMachine :=
  (m.onMessage validate (Env.type msg) (Env.fromNode msg) m.record.attempt (Env.body msg) later (some (Env.msgId msg))).1

/-- What an accepted offer leaves, and what its acceptance says. -/
theorem accepted_reads (h : Accepted cfg amb ready closing s e authorized run msg) :
    run.leaseMs = min (offeredLease cfg e) cfg.params.leaseMsAid ∧ run.leaseDeadline = amb.now + run.leaseMs ∧
    Env.type msg = "task.accept" ∧ (Env.body msg).getNum "lease_ms" = some run.leaseMs := by
  obtain ⟨o, hhandle, hslot, hmsg⟩ := h.handled
  cases handle_handled hhandle with
  | accepted haccepts hsealed =>
    cases hslot
    rw [List.mem_singleton] at hmsg
    subst hmsg
    refine ⟨rfl, rfl, message_type hsealed, ?_⟩
    rw [sealed_body (sealOut_ok.mp hsealed)]
    show ((((Json.object _).set "generation" _).set "run_id" _).get "lease_ms").bind Json.asNum = _
    rw [Json.get_set_other (by decide), Json.get_set_other (by decide), Json.get_object_cons]
    rfl
  | controlled hrun =>
    rw [h.vacant] at hrun
    exact absurd hrun (by simp)
  | answered =>
    rw [h.vacant] at hslot
    exact absurd hslot (by simp)

/-- The lead takes the lease from the acceptance. -/
theorem confirmed_reads (h : Awaits cfg m msg) (htype : Env.type msg = "task.accept") {lease : Int}
    (hlease : (Env.body msg).getNum "lease_ms" = some lease) :
    (confirmed m validate msg later).record.leaseMs = lease ∧
    (confirmed m validate msg later).record.leaseDeadline = some (later + lostAfterMs lease cfg.params) := by
  unfold confirmed LeadTaskMachine.onMessage
  rw [h.live, h.offered, ← h.target]
  simp only [Bool.false_eq_true, if_false, ne_eq, not_true_eq_false, lt_irrefl]
  unfold LeadTaskMachine.onOfferedMessage
  rw [if_pos htype, hlease, h.params]
  exact ⟨rfl, rfl⟩

/-- **The confirmed lease.** Both sides hold the lease the executor granted; the executor's ends no earlier
    than the lead's verdict, counted from the same instant, exactly for the offers whose lease is long
    enough after the clamp. -/
theorem confirmed_lease (haccepted : Accepted cfg amb ready closing s e authorized run msg) (hawaits : Awaits cfg m msg) :
    (confirmed m validate msg later).record.leaseMs = run.leaseMs ∧
    (confirmed m validate msg later).record.leaseDeadline = some (later + lostAfterMs run.leaseMs cfg.params) ∧
    ((leaseInvariant run.leaseMs cfg.params = true ∧ lostAfterMs run.leaseMs cfg.params ≤ run.leaseMs ∧
        ∀ deadline, (confirmed m validate msg amb.now).record.leaseDeadline = some deadline → deadline ≤ run.leaseDeadline) ↔
      LongEnough (min (offeredLease cfg e) cfg.params.leaseMsAid) cfg.params) := by
  obtain ⟨hlease, hdeadline, htype, hbody⟩ := accepted_reads haccepted
  have hconfirmed := @confirmed_reads cfg msg m validate later hawaits htype _ hbody
  have hatOnce := @confirmed_reads cfg msg m validate amb.now hawaits htype _ hbody
  refine ⟨hconfirmed.1, hconfirmed.2, ?_⟩
  rw [← hlease, ← leaseInvariant_iff]
  constructor
  · intro h
    exact h.1
  · intro h
    have hlost := leaseInvariant_iff_lost.mp h
    refine ⟨h, hlost, fun deadline hd => ?_⟩
    rw [hatOnce.2] at hd
    cases hd
    omega

end

/-! ## Two offers -/

namespace Confirmed

def config : ExecutorConfig := Sample.executor [] false

/-- An offer of an aid for a lease. -/
def offer (lease : Int) : Json :=
  Sample.envelope Qlong.Sample.identityA 1 0 ⟨"task.offer", Qlong.Sample.nodeB, some Qlong.Sample.task, some 1, none,
    .object [("kind", some (.str "aid")), ("summary", some (.str "look at the build")), ("lease_ms", some (.num lease))]⟩

def acceptance (lease : Int) : Json :=
  Sample.envelope Qlong.Sample.identityB 2 0 ⟨"task.accept", Qlong.Sample.nodeA, some Qlong.Sample.task, some 1,
    some (Qlong.Sample.msg 1), .object [("lease_ms", some (.num lease)), ("started_at", some (.str "2026-01-01T00:00:00.000Z")),
      ("generation", some (.num 1)), ("run_id", some (.str (Qlong.Sample.msg 52)))]⟩

def run (lease : Int) : DurableRun := acceptedRun config (Sample.ambient 2 0) .empty (offer lease)

/-- The lead that made the offer. -/
def lead : LeadTaskMachine :=
  ((LeadTaskMachine.create Qlong.Sample.task .aid defaultParams).applyEvent (.dispatchTo Qlong.Sample.nodeB (.obj []) 1767225600000)).1

/-- What the offer is answered with. -/
def answer (lease : Int) : Option (Option DurableRun × List Json) :=
  match handle config (Sample.ambient 2 0) true false .empty (offer lease) true with
  | .ok o => some (o.state.slot, o.outbox)
  | .error _ => none

theorem accepted_of_answer {lease granted : Int} (h : answer lease = some (some (run lease), [acceptance granted])) :
    Accepted config (Sample.ambient 2 0) true false .empty (offer lease) true (run lease) (acceptance granted) := by
  refine ⟨rfl, ?_⟩
  unfold answer at h
  split at h
  · rename_i o ho
    obtain ⟨hslot, houtbox⟩ := Prod.mk.inj (Option.some.inj h)
    exact ⟨o, ho, hslot, houtbox ▸ List.mem_singleton_self _⟩
  · exact absurd h (by simp)

/-- An offer for five minutes, which are clamped to two. -/
theorem accepted_long : Accepted config (Sample.ambient 2 0) true false .empty (offer 300000) true (run 300000)
    (acceptance 120000) := accepted_of_answer (by decide +kernel)

/-- An offer for one minute. -/
theorem accepted_short : Accepted config (Sample.ambient 2 0) true false .empty (offer 60000) true (run 60000)
    (acceptance 60000) := accepted_of_answer (by decide +kernel)

theorem awaits {granted : Int} (h : (Env.fromNode (acceptance granted), Env.attempt (acceptance granted)) =
    (Qlong.Sample.nodeB, some 1)) : Awaits config lead (acceptance granted) := by
  obtain ⟨hnode, hattempt⟩ := Prod.mk.inj h
  exact ⟨rfl, rfl, rfl, by rw [hnode]; rfl, hattempt⟩

theorem confirmed_lease_long : leaseInvariant (run 300000).leaseMs config.params = true ∧
    (confirmed lead (fun _ => true) (acceptance 120000) 1767225640000).record.leaseDeadline = some 1767225750000 := by
  have hlease := @confirmed_lease config _ true false true _ _ (acceptance 120000) (run 300000) lead (fun _ => true)
    1767225640000 accepted_long (awaits (by decide +kernel))
  have hgranted : (run 300000).leaseMs = 120000 := by decide +kernel
  have hlong : LongEnough (min (offeredLease config (offer 300000)) config.params.leaseMsAid) config.params := by
    have hoffered : offeredLease config (offer 300000) = 300000 := by decide +kernel
    rw [hoffered]
    exact ⟨by decide, by decide⟩
  refine ⟨(hlease.2.2.mpr hlong).1, ?_⟩
  rw [hlease.2.1, hgranted]
  rfl

/-- **A lease of one minute is granted and confirmed**, though it ends before the lead's verdict. -/
theorem short_lease_confirmed :
    Accepted config (Sample.ambient 2 0) true false .empty (offer 60000) true (run 60000) (acceptance 60000) ∧
    Awaits config lead (acceptance 60000) ∧
    (confirmed lead (fun _ => true) (acceptance 60000) (Sample.ambient 2 0).now).record.leaseDeadline = some 1767225670000 ∧
    (run 60000).leaseDeadline = 1767225660000 ∧ leaseInvariant (run 60000).leaseMs config.params = false := by
  exact ⟨accepted_short, awaits (by decide +kernel), by decide +kernel, by decide +kernel, by decide +kernel⟩

end Confirmed

end Executor
end Qlong
