import Qlong.Executor.System

/-!
# What a stretch says of a run

The small steps of `Change` do not say where the outcome of a run comes from. Here a stretch that takes no
envelope is cut into `Commit`s: what a commit does to the run in the slot, what it puts into the outbox, and
where the outcome it ends the run with was before. An outcome was held by the live run when the stretch
began, or the label brings it, or it is a failure of the executor itself.
-/

namespace Qlong
namespace Executor

open Lib Node

/-- The label brings an outcome of the run of a fence, from its driver or from the publisher. -/
inductive Brings (x : DurableExecutor) : Label → LeaseFence → Value → Prop
  | closed {live : LiveRun} {value outcome : Value} (h : x.live = some live) (hclone : value.clone = some outcome) :
      Brings x (.closed (some value)) live.fence outcome
  | proved {live : LiveRun} {outcome : Value} (h : x.live = some live) : Brings x (.proved outcome) live.fence outcome
  | quieted {amb : Ambient} {live : LiveRun} {outcome : Value} (h : x.live = some live) :
      Brings x (.settleReply amb (.quiet outcome)) live.fence outcome
  | stopped {amb : Ambient} {pass : Nat} {f : LeaseFence} {outcome : Value} (h : x.settling = some (.stopping pass f)) :
      Brings x (.settleReply amb (.quiet outcome)) f outcome
  | lateQuieted {amb : Ambient} {i : Nat} {live : LiveRun} {outcome : Value} (h : x.live = some live) :
      Brings x (.lateReply amb i (.quiet outcome)) live.fence outcome
  | lateStopped {amb : Ambient} {i : Nat} {f : LeaseFence} {outcome : Value} (h : x.late[i]? = some (.quieting f)) :
      Brings x (.lateReply amb i (.quiet outcome)) f outcome
  | published {amb : Ambient} {pass : Nat} {f : LeaseFence} {outcome : Value}
      (h : x.settling = some (.publishing pass f)) : Brings x (.settleReply amb (.published (some outcome))) f outcome
  | latePublished {amb : Ambient} {i : Nat} {f : LeaseFence} {outcome : Value}
      (h : x.late[i]? = some (.publishing f)) : Brings x (.lateReply amb i (.published (some outcome))) f outcome

/-- The failures of the executor itself. -/
def ownFailures : List String :=
  ["driver_unavailable", "workspace_prepare_failed", "execution_interrupted", "artifact_publish_failed"]

/-- Where an outcome comes from, in a stretch that begins at `x0`. -/
inductive From (x0 : DurableExecutor) (l : Label) (f : LeaseFence) (outcome : Value) : Prop
  | known (h : Known x0 f outcome)
  | brought (h : Brings x0 l f outcome)
  | own {reason : String} (h : reason ∈ ownFailures) (heq : outcome = failed reason)

/-- What a commit makes of a snapshot that has a run. -/
inductive Edited (cfg : ExecutorConfig) (x0 : DurableExecutor) (l : Label) (s : Snapshot) : Snapshot → List Json → Prop
  | tended {run run' : DurableRun} {outbox : List Json} (hslot : s.slot = some run) (h : Tend cfg l run run' outbox) :
      Edited cfg x0 l s { s with slot := some run' } outbox
  | launched {run : DurableRun} (hslot : s.slot = some run) (hphase : run.phase = .prepared) :
      Edited cfg x0 l s { s with slot := some { run with phase := .starting, mayHaveStarted := true } } []
  | ended {amb : Ambient} {run : DurableRun} {outcome : Value} {msg last : Json} (hl : l.ambient = some amb)
      (hslot : s.slot = some run) (hvalid : s.isValid = true)
      (hfrom : run.stopReason = none → From x0 l run.fence outcome)
      (hmsg : finalMessage cfg amb run (finalOutcome run outcome) = .ok msg)
      (hlast : tombstone (finalOutcome run outcome) = some last) :
      Edited cfg x0 l s { s with slot := none, last := some ⟨run.fence, run.lead, last⟩ } [msg]

/-- One commit, or a small step that is none. -/
inductive Commit (cfg : ExecutorConfig) (x0 : DurableExecutor) (l : Label) (x x' : DurableExecutor) : Prop
  | still (hstate : current cfg x'.tables = current cfg x.tables) (hsent : x'.sent = x.sent)
      (hlive : ∀ f outcome, Known x' f outcome → Known x f outcome ∨ Brings x0 l f outcome)
  | edited {outbox : List Json} (h : Edited cfg x0 l (current cfg x.tables) (current cfg x'.tables) outbox)
      (hsent : x'.sent = x.sent ++ outbox) (hlive : x'.live = x.live)

section

variable {cfg : ExecutorConfig} {l : Label} {x0 x : DurableExecutor} {amb : Ambient} {fence : LeaseFence} {outcome : Value}

/-! ## Steps that commit nothing -/

theorem after_snapshot : Command.after (snapshot cfg x) = x := by
  unfold snapshot readRow
  cases h : readState x.tables stateKey with
  | error e => simp [Command.bind_apply, h, fromStore, Except.mapError, Command.lift, Command.get_apply, Command.after]
  | ok row =>
    cases h2 : decode cfg row <;>
      simp [Command.bind_apply, h, h2, fromStore, Except.mapError, Command.lift, Command.get_apply, Command.after]

/-- A step that neither the snapshot nor the outbox nor the live run is touched by. -/
structure Idle (cfg : ExecutorConfig) (x x' : DurableExecutor) : Prop where
  state : current cfg x'.tables = current cfg x.tables
  sent : x'.sent = x.sent
  live : x'.live = x.live

theorem completeOldEffects_idle : Command.Path (Idle cfg) x (Command.after (completeOldEffects cfg x)) := by
  unfold completeOldEffects
  refine Command.path_bind (by rw [after_snapshot]) fun s x1 _ => ?_
  refine Command.path_bind Relation.ReflTransGen.refl fun x2 x3 _ => ?_
  refine Command.path_lift_bind fun effects _ => ?_
  refine Command.path_each (J := fun _ _ => True) (fun b e rest y _ => ⟨?_, fun _ _ _ => trivial⟩) _ _ _ trivial
  rcases Command.after_attempt _ y with h | ⟨a, y', h, hafter⟩
  · rw [h]
  · rw [hafter]
    simp only [Lib.bind_ok_iff, fromStore_ok, pure_ok_iff, Prod.mk.injEq] at h
    obtain ⟨⟨hit, t'⟩, hcomplete, -, rfl⟩ := h
    have hbeside := @committed_of_write cfg _ _ _ _ (completeEffect_ok hcomplete) (by simp [writesKey])
    exact Relation.ReflTransGen.single ⟨hbeside.state, rfl, rfl⟩

end

end Executor
end Qlong
