import Qlong.Executor.Moves

/-!
# Every stretch is a path

**`perform_path`: whatever a label does, returning or throwing, is a path of `Change`s.** The
module follows `Qlong.Executor.Process` method by method: for each command the path it takes, and
for the commands others go on from, what they leave when they return.
-/

namespace Qlong
namespace Executor

open Lib Node

variable {cfg : ExecutorConfig}

section Paths

variable {l : Label} {x : DurableExecutor}

/-- What a commit of the executor's own keeps: everything but tables and messages. -/
def Framed (x x' : DurableExecutor) : Prop := x' = { x with tables := x'.tables, sent := x'.sent }

theorem Framed.refl (x : DurableExecutor) : Framed x x := rfl

theorem path_of_eq {x' : DurableExecutor} (h : x' = x) : Command.Path (Change cfg l) x x' := by
  rw [h]

/-- Flags may change together: the latch only on, `starting` only off, and what is known of an outcome from the
    label or from before. -/
theorem path_flags {ready closing faulted starting : Bool} {live : Option LiveRun}
    (hfaulted : x.faulted = true → faulted = true) (hready : x.ready = true → ready = true ∨ faulted = true)
    (hstarting : starting = true → x.starting = true)
    (hlive : ∀ f outcome, Known { x with live } f outcome → Known x f outcome ∨ l.hands) :
    Command.Path (Change cfg l) x { x with ready, closing, faulted, starting, live } :=
  Relation.ReflTransGen.single (.flags hfaulted hready hstarting hlive)

/-- Failing closed touches the flags only. -/
theorem path_failClosed : Command.Path (Change cfg l) x (failClosed x) :=
  path_flags (fun _ => rfl) (fun _ => Or.inr rfl) id fun _ _ h => Or.inl h

/-- What `checked` adds on an error is the latch. -/
theorem checked_path {α : Type} {c : Command α} (h : Command.Path (Change cfg l) x (Command.after (c x))) :
    Command.Path (Change cfg l) x (Command.after (checked c x)) := by
  unfold checked
  cases hc : c x with
  | ok a x' =>
    rw [hc] at h
    exact h
  | error e x' =>
    rw [hc] at h
    exact h.trans path_failClosed

theorem checked_ok {α : Type} {c : Command α} {x' : DurableExecutor} {a : α} (h : checked c x = .ok a x') :
    c x = .ok a x' := by
  unfold checked at h
  split at h
  · rename_i h'
    rw [h']
    exact h
  · exact absurd h (by simp)

/-- Past the latch nothing has changed, and it is open. -/
theorem assertHealthy_ok {x' : DurableExecutor} {u : PUnit} (h : assertHealthy x = .ok u x') :
    x.faulted = false ∧ x' = x := by
  obtain ⟨y, x1, hget, h⟩ := Command.bind_ok_iff.mp h
  injection hget with hget hx
  subst hget hx
  cases hf : x.faulted with
  | true =>
    rw [hf] at h
    exact absurd h (by simp [Command.throw_apply])
  | false =>
    rw [hf] at h
    simp only [Bool.false_eq_true, if_false] at h
    injection h with _ h
    exact ⟨rfl, h.symm⟩

theorem assertHealthy_error {x' : DurableExecutor} {err : ExecutorError} (h : assertHealthy x = .error err x') :
    x' = x := by
  unfold assertHealthy at h
  cases hf : x.faulted with
  | true =>
    simp only [Command.bind_apply, Command.get_apply, hf, if_true] at h
    injection h with _ h
    exact h.symm
  | false =>
    simp only [Command.bind_apply, Command.get_apply, hf, Bool.false_eq_true,
      if_false] at h
    exact absurd h (by simp [pure, EStateM.pure])

theorem assertHealthy_path : Command.Path (Change cfg l) x (Command.after (assertHealthy x)) := by
  refine path_of_eq ?_
  unfold assertHealthy
  cases hf : x.faulted <;>
    simp [Command.bind_apply, Command.get_apply, hf, Command.after, Command.throw_apply, pure, EStateM.pure]

/-- Reading the record changes nothing, or latches. -/
theorem snapshot_path : Command.Path (Change cfg l) x (Command.after (snapshot cfg x)) := by
  refine path_of_eq ?_
  unfold snapshot readRow
  cases h : readState x.tables stateKey with
  | error e => simp [Command.bind_apply, h, fromStore, Except.mapError, Command.lift, Command.get_apply, Command.after]
  | ok row =>
    cases h2 : decode cfg row <;>
      simp [Command.bind_apply, h, h2, fromStore, Except.mapError, Command.lift, Command.get_apply, Command.after]

/-- A commit that is a small step when it succeeds. -/
theorem change_path {edit : Edit}
    (hstep : ∀ s' outbox t', (current cfg x.tables).isValid = true →
      edit (current cfg x.tables) = .ok (some (s', outbox)) → Committed cfg x.tables s' t' →
      Change cfg l x { x with tables := t', sent := x.sent ++ outbox }) :
    Command.Path (Change cfg l) x (Command.after (change cfg edit x)) := by
  rcases @change_cases cfg edit x with ⟨err, h⟩ | ⟨h, -, -⟩ | ⟨s', outbox, t', hv, hedit, hc, h⟩
  · rw [h]
    exact Relation.ReflTransGen.refl
  · rw [h]
    exact Relation.ReflTransGen.refl
  · rw [h]
    exact Relation.ReflTransGen.single (hstep s' outbox t' hv hedit hc)

/-- An edit writes the tables and the messages sent, nothing else of the executor. -/
theorem change_framed {edit : Edit} {b : Bool} {x' : DurableExecutor} (h : change cfg edit x = .ok b x') :
    Framed x x' := by
  rcases @change_cases cfg edit x with ⟨err, h'⟩ | ⟨h', -, -⟩ | ⟨s', outbox, t', hv, hedit, hc, h'⟩
  · rw [h'] at h
    exact absurd h (by simp)
  · rw [h'] at h
    injection h with _ h
    rw [← h]
    exact .refl x
  · rw [h'] at h
    injection h with _ h
    rw [← h]
    rfl

/-! ### `tick` -/

/-- A tick leaves the slot alone, or stops a run whose lease is over, or sends a beat. An unstopped run has its
    lease open after it. -/
theorem tickEdit_cases {amb : Ambient} {s : Snapshot} {answer : Option (Snapshot × List Json)}
    (hl : l.ambient = some amb) (hv : s.isValid = true) (h : tickEdit cfg amb s = .ok answer) :
    (answer = none ∧ ∀ run, s.slot = some run → run.stopReason = none → amb.now < run.leaseDeadline) ∨
    ∃ run run' outbox, answer = some ({ s with slot := some run' }, outbox) ∧ s.slot = some run ∧
      Tend cfg l run run' outbox ∧
      (run'.stopReason = none → amb.now < run'.leaseDeadline ∧ run.stopReason = none) := by
  unfold tickEdit at h
  split at h
  · rename_i hslot
    simp only [Except.ok.injEq] at h
    refine Or.inl ⟨h.symm, fun run hrun => ?_⟩
    rw [hslot] at hrun
    exact absurd hrun (by simp)
  · rename_i run hslot
    have hstop := DurableRun.valid_stop (Snapshot.valid_slot hv hslot)
    by_cases hphase : run.phase = .stopping ∨ run.phase = .recovery_required
    · rw [if_pos hphase] at h
      simp only [Except.ok.injEq] at h
      refine Or.inl ⟨h.symm, fun run' hrun' hnone => ?_⟩
      obtain rfl := Option.some.inj (hslot.symm.trans hrun')
      rw [← hstop, hnone] at hphase
      exact absurd hphase (by simp)
    rw [if_neg hphase] at h
    have hreason : run.stopReason = none := by
      rw [← hstop] at hphase
      simpa using hphase
    -- the deadline is read before the heartbeat, so a beat is sent in the lease only
    by_cases hdue : run.leaseDeadline ≤ amb.now
    · rw [if_pos hdue] at h
      simp only [Except.ok.injEq] at h
      exact Or.inr ⟨run, _, [], h.symm, hslot, .expired hl hdue hreason, fun hno => absurd hno (by simp)⟩
    have hlive : amb.now < run.leaseDeadline := by simpa using hdue
    rw [if_neg hdue] at h
    by_cases hwait : run.phase = .prepared ∨ amb.now < run.heartbeatAt
    · rw [if_pos hwait] at h
      simp only [Except.ok.injEq] at h
      refine Or.inl ⟨h.symm, fun run' hrun' _ => ?_⟩
      obtain rfl := Option.some.inj (hslot.symm.trans hrun')
      exact hlive
    · rw [if_neg hwait] at h
      simp only [bind_ok_iff, require_ok_iff, pure_ok_iff] at h
      obtain ⟨-, -, -, -, msg, hmsg, rfl⟩ := h
      refine Or.inr ⟨run, _, _, rfl, hslot, .beaten hl ?_ hmsg, fun _ => ⟨hlive, hreason⟩⟩
      cases hp : run.phase <;> simp_all

/-- A tick is one edit of the slot. -/
theorem tick_path {amb : Ambient} (hl : l.ambient = some amb) :
    Command.Path (Change cfg l) x (Command.after (tick cfg amb x)) := by
  unfold tick
  refine checked_path (Command.path_bind assertHealthy_path fun _ x1 h1 => ?_)
  obtain ⟨-, rfl⟩ := assertHealthy_ok h1
  refine Command.path_lift_bind fun _ _ => Command.path_bind (change_path ?_) fun b x2 h2 =>
    Relation.ReflTransGen.refl
  intro s' outbox t' hv hedit hc
  rcases tickEdit_cases hl hv hedit with ⟨hnone, -⟩ | ⟨run, run', out, hsome, hslot, htend, -⟩
  · exact absurd hnone (by simp)
  · simp only [Option.some.injEq, Prod.mk.injEq] at hsome
    obtain ⟨rfl, rfl⟩ := hsome
    exact .tended hslot hv htend hc

/-- After a tick the run in the slot is under its lease, or has a reason to stop; one that was to be
    stopped still is. -/
theorem tick_ok {amb : Ambient} {x' : DurableExecutor} {u : PUnit} (h : tick cfg amb x = .ok u x') :
    Framed x x' ∧ x.faulted = false ∧ ∀ run, (current cfg x'.tables).slot = some run →
      run.stopReason = none → amb.now < run.leaseDeadline ∧
        ∃ run0, (current cfg x.tables).slot = some run0 ∧ run0.stopReason = none := by
  obtain ⟨_, x1, h1, hrest⟩ := Command.bind_ok_iff.mp (checked_ok h)
  obtain ⟨hhealthy, rfl⟩ := assertHealthy_ok h1
  obtain ⟨_, x2, h2, hchange⟩ := Command.bind_ok_iff.mp hrest
  obtain ⟨-, rfl⟩ := Command.lift_ok_iff.mp h2
  obtain ⟨b, x3, h3, hend⟩ := Command.bind_ok_iff.mp hchange
  injection hend with _ hend
  subst hend
  refine ⟨change_framed h3, hhealthy, ?_⟩
  have hl : (Label.tick amb).ambient = some amb := rfl
  rcases @change_cases cfg (tickEdit cfg amb) x2 with
    ⟨err, h'⟩ | ⟨h', hv, hedit⟩ | ⟨s', outbox, t', hv, hedit, hc, h'⟩
  · rw [h'] at h3
    exact absurd h3 (by simp)
  · rw [h'] at h3
    injection h3 with _ h3
    rw [← h3]
    rcases tickEdit_cases hl hv hedit with ⟨-, hfresh⟩ | ⟨_, _, _, hsome, -⟩
    · exact fun run hrun hno => ⟨hfresh run hrun hno, run, hrun, hno⟩
    · exact absurd hsome (by simp)
  · rw [h'] at h3
    injection h3 with _ h3
    rw [← h3]
    rcases tickEdit_cases hl hv hedit with ⟨hnone, -⟩ | ⟨run, run', out, hsome, hslot, htend, hfresh⟩
    · exact absurd hnone (by simp)
    · simp only [Option.some.injEq, Prod.mk.injEq] at hsome
      obtain ⟨rfl, rfl⟩ := hsome
      intro run'' hrun'' hno
      rw [hc.state] at hrun''
      obtain rfl := Option.some.inj hrun''
      exact ⟨(hfresh hno).1, run, hslot, (hfresh hno).2⟩

/-! ### What a stretch keeps besides -/

/-- The program counters and the flags that matter to them. -/
structure Steady (x x' : DurableExecutor) : Prop where
  settling : x'.settling = x.settling
  recovering : x'.recovering = x.recovering
  late : x'.late = x.late
  ready : x'.ready = x.ready
  faulted : x'.faulted = x.faulted

theorem Steady.refl (x : DurableExecutor) : Steady x x := ⟨rfl, rfl, rfl, rfl, rfl⟩

theorem Steady.trans {x' x'' : DurableExecutor} (h : Steady x x') (h' : Steady x' x'') : Steady x x'' :=
  ⟨h'.settling.trans h.settling, h'.recovering.trans h.recovering, h'.late.trans h.late,
    h'.ready.trans h.ready, h'.faulted.trans h.faulted⟩

theorem Framed.steady {x' : DurableExecutor} (h : Framed x x') : Steady x x' := by
  rw [show x' = _ from h]
  exact ⟨rfl, rfl, rfl, rfl, rfl⟩

theorem InLoop.steady {x' : DurableExecutor} (h : InLoop x) (hs : Steady x x') : InLoop x' := by
  unfold InLoop
  rw [hs.settling, hs.ready, hs.recovering]
  exact h

theorem HasLate.steady {x' : DurableExecutor} {fence : LeaseFence} (h : HasLate x fence) (hs : Steady x x') :
    HasLate x' fence := by
  unfold HasLate
  rw [hs.late]
  exact h

/-! ### Ends of a run -/

/-- An edit for a fence finds its run in the slot, and changes that run only. -/
theorem onFence_cases {fence : LeaseFence} {edit : DurableRun → Option DurableRun} {s s' : Snapshot}
    {outbox : List Json} (h : onFence fence edit s = .ok (some (s', outbox))) :
    ∃ run run', s.slot = some run ∧ run.fence = fence ∧ edit run = some run' ∧
      s' = { s with slot := some run' } ∧ outbox = [] := by
  unfold onFence at h
  simp only [Except.ok.injEq] at h
  obtain ⟨run, hslot, h⟩ := Option.bind_eq_some_iff.mp h
  split at h
  · rename_i hfence
    obtain ⟨run', hrun', h⟩ := Option.bind_eq_some_iff.mp h
    simp only [pure, Option.some.injEq, Prod.mk.injEq] at h
    exact ⟨run, run', hslot, hfence, hrun', h.1.symm, h.2.symm⟩
  · exact absurd h (by simp)

/-- Finishing empties the slot and leaves the last run with its message. -/
theorem finishEdit_cases {amb : Ambient} {fence : LeaseFence} {outcome : Value} {s s' : Snapshot}
    {outbox : List Json} (h : finishEdit cfg amb fence outcome s = .ok (some (s', outbox))) :
    ∃ run msg last, s.slot = some run ∧ run.fence = fence ∧
      finalMessage cfg amb run (finalOutcome run outcome) = .ok msg ∧
      tombstone (finalOutcome run outcome) = some last ∧ outbox = [msg] ∧
      s' = { s with slot := none, last := some ⟨run.fence, run.lead, last⟩ } := by
  unfold finishEdit at h
  split at h
  · exact absurd h (by simp)
  · rename_i run hslot
    split at h
    · exact absurd h (by simp)
    · rename_i hfence
      simp only [bind_ok_iff, demand_ok_iff, pure_ok_iff, Option.some.injEq, Prod.mk.injEq] at h
      obtain ⟨msg, hmsg, last, hlast, rfl, rfl⟩ := h
      have hf : run.fence = fence := by simpa using hfence
      exact ⟨run, msg, last, hslot, hf, hmsg, hlast, rfl, by rw [hf]⟩

variable {amb : Ambient} {fence : LeaseFence} {outcome : Value}

/-- An end with this outcome is one the steps allow. -/
def Decided (cfg : ExecutorConfig) (l : Label) (x : DurableExecutor) (now : Int) (fence : LeaseFence)
    (outcome : Value) : Prop :=
  MayEnd x fence ∧ (isResult outcome = true → ∀ run, (current cfg x.tables).slot = some run →
    run.fence = fence → run.stopReason = none → ResultBy cfg l x now run)

/-- A failure may end a run whether or not its result was on the way. -/
theorem Decided.failed {now : Int} (h : MayEnd x fence) (reason : String) :
    Decided cfg l x now fence (failed reason) := ⟨h, fun hk => absurd hk (by simp [isResult_failed])⟩

/-- The end of a run is one step, made where it is `Decided`. -/
theorem finish_path (hl : l.ambient = some amb) (h : Decided cfg l x amb.now fence outcome) :
    Command.Path (Change cfg l) x (Command.after (finish cfg amb fence outcome x)) := by
  unfold finish
  refine Command.path_bind (change_path ?_) fun b x1 h1 => ?_
  · intro s' outbox t' hv hedit hc
    obtain ⟨run, msg, last, hslot, hf, hmsg, hlast, rfl, rfl⟩ := finishEdit_cases hedit
    exact .finished hl hslot hv (hf ▸ h.1) (fun hk hno => h.2 hk run hslot hf hno) hmsg hlast hc
  · refine path_flags (x := x1) id (fun hr => Or.inl hr) id fun f o hknown => Or.inl ?_
    obtain ⟨live, hlive, hrest⟩ := hknown
    exact ⟨live, (Option.filter_eq_some_iff.mp hlive).1, hrest⟩

/-- The calls that are open stay open over the end of a run. -/
theorem finish_steady {x' : DurableExecutor} {u : PUnit} (h : finish cfg amb fence outcome x = .ok u x') :
    Steady x x' := by
  obtain ⟨b, x1, h1, h2⟩ := Command.bind_ok_iff.mp h
  injection h2 with _ h2
  rw [← h2]
  have hs := (change_framed h1).steady
  exact ⟨hs.settling, hs.recovering, hs.late, hs.ready, hs.faulted⟩

/-- Setting a run aside is one edit of the slot. -/
theorem unknown_path {reason : StopReason} :
    Command.Path (Change cfg l) x (Command.after (unknown cfg fence reason x)) := by
  unfold unknown
  refine Command.path_bind (change_path ?_) fun b x1 h1 => Relation.ReflTransGen.refl
  intro s' outbox t' hv hedit hc
  obtain ⟨run, run', hslot, hf, hrun', rfl, rfl⟩ := onFence_cases hedit
  simp only [unknownRun, Option.some.injEq] at hrun'
  subst hrun'
  exact .tended hslot hv .lost hc

/-- After `unknown` the run, if it is still there, has a reason to stop. -/
theorem unknown_ok {reason : StopReason} {x' : DurableExecutor} {u : PUnit}
    (h : unknown cfg fence reason x = .ok u x') :
    Framed x x' ∧ ∀ run, (current cfg x'.tables).slot = some run → run.fence = fence →
      run.stopReason.isSome = true := by
  obtain ⟨b, x1, h1, h2⟩ := Command.bind_ok_iff.mp h
  injection h2 with _ h2
  subst h2
  refine ⟨change_framed h1, ?_⟩
  rcases @change_cases cfg (onFence fence (unknownRun reason)) x with
    ⟨err, h'⟩ | ⟨h', hv, hedit⟩ | ⟨s', outbox, t', hv, hedit, hc, h'⟩
  · rw [h'] at h1
    exact absurd h1 (by simp)
  · rw [h'] at h1
    injection h1 with _ h1
    rw [← h1]
    intro run hslot hf
    exfalso
    simp [onFence, hslot, hf, unknownRun] at hedit
  · rw [h'] at h1
    injection h1 with _ h1
    rw [← h1]
    obtain ⟨run, run', hslot, hf, hrun', rfl, rfl⟩ := onFence_cases hedit
    intro run'' hslot'' _
    rw [hc.state] at hslot''
    obtain rfl := Option.some.inj hslot''
    simp only [unknownRun, Option.some.injEq] at hrun'
    rw [← hrun']
    rfl

/-! ### Effects that are over -/

/-- A call that writes other keys is beside the executor. -/
theorem committed_of_write {t t' : Tables} {call : Call} {reply : Node.Reply}
    (h : Write cfg.store t call reply t') (hkey : writesKey call ≠ some stateKey) :
    Committed cfg t (current cfg t) t' :=
  ⟨current_congr (h.state_other hkey), fun _ _ hrow => h.dedup_kept hrow⟩

/-- Effects that are completed are no part of the record. -/
theorem completeOldEffects_path :
    Command.Path (Change cfg l) x (Command.after (completeOldEffects cfg x)) := by
  unfold completeOldEffects
  refine Command.path_bind snapshot_path fun s x1 _ => ?_
  refine Command.path_bind Relation.ReflTransGen.refl fun x2 x3 _ => ?_
  refine Command.path_lift_bind fun effects _ => ?_
  refine Command.path_each (J := fun _ _ => True) (fun b e rest y _ => ⟨?_, fun _ _ _ => trivial⟩) _ _ _ trivial
  rcases Command.after_attempt _ y with h | ⟨a, y', h, hafter⟩
  · rw [h]
  · rw [hafter]
    simp only [Lib.bind_ok_iff, fromStore_ok, pure_ok_iff, Prod.mk.injEq] at h
    obtain ⟨⟨hit, t'⟩, hcomplete, -, rfl⟩ := h
    exact Relation.ReflTransGen.single
      (.aside (@committed_of_write cfg _ _ _ _ (completeEffect_ok hcomplete) (by simp [writesKey])))

/-! ### `settle` -/

/-- A pass comes to rest at a call, if that call may be awaited there. -/
theorem waitFor_path {pc : SettlePc} (hloop : pc ≠ .recovering → InLoop x)
    (hpc : ∀ pass f, pc ≠ .startQueued pass f ∧ pc ≠ .startWaiting pass f)
    (hrecovering : pc = .recovering → x.recovering = none → x.ready = true ∨ x.starting = true)
    (hstopping : ∀ pass f, pc = .stopping pass f → ∃ run, (current cfg x.tables).slot = some run ∧
      run.fence = f ∧ run.stopReason.isSome = true)
    (hpublishing : ∀ pass f, pc = .publishing pass f → ¬ l.publishes) :
    Command.Path (Change cfg l) x (Command.after (waitFor pc x)) :=
  Relation.ReflTransGen.single (.waits hloop hpc hrecovering hstopping hpublishing)

/-- The waits without a condition of their own. -/
theorem waitPlain_path {pc : SettlePc} (hloop : InLoop x)
    (hpc : ∀ pass f, pc ≠ .startQueued pass f ∧ pc ≠ .startWaiting pass f ∧ pc ≠ .stopping pass f ∧
      pc ≠ .publishing pass f)
    (hrec : pc ≠ .recovering) : Command.Path (Change cfg l) x (Command.after (waitFor pc x)) :=
  waitFor_path (fun _ => hloop) (fun pass f => ⟨(hpc pass f).1, (hpc pass f).2.1⟩)
    (fun h => absurd h hrec) (fun pass f h => absurd h (hpc pass f).2.2.1)
    fun pass f h => absurd h (hpc pass f).2.2.2

theorem settled_path : Command.Path (Change cfg l) x (Command.after (settled cfg x)) :=
  Command.path_bind completeOldEffects_path fun _ _ _ => Relation.ReflTransGen.single .rests

/-- A run that is prepared is launched, and the start call queued behind the commit. -/
theorem beginStart_path {pass : Nat} (hloop : InLoop x) :
    Command.Path (Change cfg l) x (Command.after (beginStart cfg pass fence x)) := by
  unfold beginStart
  rw [Command.bind_apply]
  rcases @change_cases cfg (onFence fence startingRun) x with
    ⟨err, h⟩ | ⟨h, -, -⟩ | ⟨s', outbox, t', hv, hedit, hc, h⟩
  · rw [h]
    exact Relation.ReflTransGen.refl
  · rw [h]
    exact waitPlain_path hloop (by simp) (by simp)
  · rw [h]
    obtain ⟨run, run', hslot, hf, hrun', rfl, rfl⟩ := onFence_cases hedit
    unfold startingRun at hrun'
    split at hrun'
    · rename_i hphase
      simp only [Option.some.injEq] at hrun'
      subst hrun' hf
      have hstep : Change cfg l x { x with
          tables := t', starting := true, settling := some (.startQueued pass run.fence) } :=
        .launched hloop hslot hv hphase hc
      dsimp only
      rw [List.append_nil]
      exact Relation.ReflTransGen.single hstep
    · exact absurd hrun' (by simp)

theorem proveLive_path (hhands : l.hands) : Command.Path (Change cfg l) x (Command.after (proveLive outcome x)) :=
  path_flags (x := x) id (fun h => Or.inl h) id fun _ _ _ => Or.inr hhands

/-- A proof of the outcome changes what the memory knows, and neither the record nor the calls. -/
theorem proveLive_ok {x' : DurableExecutor} {u : PUnit} (h : proveLive outcome x = .ok u x') :
    Steady x x' ∧ x'.tables = x.tables := by
  injection h with _ h
  rw [← h]
  exact ⟨⟨rfl, rfl, rfl, rfl, rfl⟩, rfl⟩

/-- Without the publisher a result is sealed at once. -/
theorem publishAndFinish_path (hl : l.ambient = some amb)
    (h : cfg.hasPublisher = false → Decided cfg l x amb.now fence outcome) (hend : MayEnd x fence) :
    Command.Path (Change cfg l) x (Command.after (publishAndFinish cfg amb fence outcome x)) := by
  unfold publishAndFinish
  refine Command.path_bind snapshot_path fun s x1 h1 => ?_
  obtain ⟨rfl, -, rfl⟩ := snapshot_ok h1
  split
  · exact Relation.ReflTransGen.refl
  · rename_i hasks
    refine Command.path_bind (finish_path hl ⟨hend, fun hk run hslot hf hno => ?_⟩) fun _ _ _ =>
      Relation.ReflTransGen.refl
    have hnone : cfg.hasPublisher = false := by
      cases hpublisher : cfg.hasPublisher with
      | false => rfl
      | true => exact absurd (by simp [hk, hpublisher, hslot, hf, hno]) hasks
    exact (h hnone).2 hk run hslot hf hno

theorem publishAndFinish_steady {x' : DurableExecutor} {b : Bool}
    (h : publishAndFinish cfg amb fence outcome x = .ok b x') : Steady x x' := by
  unfold publishAndFinish at h
  obtain ⟨s, x1, h1, h2⟩ := Command.bind_ok_iff.mp h
  obtain ⟨-, -, rfl⟩ := snapshot_ok h1
  split at h2
  · injection h2 with _ h2
    rw [← h2]
    exact .refl _
  · obtain ⟨_, x2, h3, h4⟩ := Command.bind_ok_iff.mp h2
    injection h4 with _ h4
    rw [← h4]
    exact finish_steady h3

/-- A publisher is asked for a run that is not to be stopped. -/
theorem publishAndFinish_asks {x' : DurableExecutor} (h : publishAndFinish cfg amb fence outcome x = .ok true x') :
    x' = x ∧ ∃ run, (current cfg x.tables).slot = some run ∧ run.fence = fence ∧ run.stopReason = none := by
  unfold publishAndFinish at h
  obtain ⟨s, x1, h1, h2⟩ := Command.bind_ok_iff.mp h
  obtain ⟨rfl, -, rfl⟩ := snapshot_ok h1
  split at h2
  · rename_i hasks
    injection h2 with _ h2
    simp only [Bool.and_eq_true, Option.any_eq_true, decide_eq_true_eq, Option.isNone_iff_eq_none] at hasks
    exact ⟨h2.symm, hasks.2⟩
  · obtain ⟨_, x2, h3, h4⟩ := Command.bind_ok_iff.mp h2
    injection h4 with h4
    exact absurd h4 (by simp)

/-- An outcome goes to the publisher, or where there is none to its end in the same stretch. -/
theorem settlePublish_path {pass : Nat} (hl : l.ambient = some amb) (hnot : ¬ l.publishes) (hloop : InLoop x)
    (h : cfg.hasPublisher = false → Decided cfg l x amb.now fence outcome) (hend : MayEnd x fence) :
    Command.Path (Change cfg l) x (Command.after (settlePublish cfg amb pass fence outcome x)) := by
  unfold settlePublish
  refine Command.path_bind (publishAndFinish_path hl h hend) fun b x1 h1 => ?_
  have hloop1 := hloop.steady (publishAndFinish_steady h1)
  cases b with
  | true => exact waitFor_path (fun _ => hloop1) (by simp) (by simp) (by simp) fun _ _ _ => hnot
  | false => exact waitPlain_path hloop1 (by simp) (by simp)

/-- After the publisher answered the run ends and the pass goes on. -/
theorem settleFinish_path {pass : Nat} (hl : l.ambient = some amb) (hloop : InLoop x)
    (h : Decided cfg l x amb.now fence outcome) :
    Command.Path (Change cfg l) x (Command.after (settleFinish cfg amb pass fence outcome x)) := by
  unfold settleFinish
  refine Command.path_bind (finish_path hl h) fun _ x1 h1 => ?_
  exact waitPlain_path (hloop.steady (finish_steady h1)) (by simp) (by simp)

/-- Without an outcome the pass goes by the phase: start, wait, stop, or leave it aside. -/
theorem settlePhase_path {pass : Nat} {run : DurableRun} {live : Option LiveRun} (hl : l.ambient = some amb)
    (hloop : InLoop x) (hslot : (current cfg x.tables).slot = some run)
    (hvalid : (current cfg x.tables).isValid = true)
    (hqueued : ∀ p f, x.settling ≠ some (.startQueued p f)) :
    Command.Path (Change cfg l) x (Command.after (settlePhase cfg amb pass run live x)) := by
  unfold settlePhase
  cases hphase : run.phase with
  | prepared =>
    dsimp only
    split
    · exact settleFinish_path hl hloop (.failed (Or.inl hqueued) _)
    · split
      · exact waitPlain_path hloop (by simp) (by simp)
      · exact beginStart_path hloop
  | stopping =>
    dsimp only
    split
    · exact settleFinish_path hl hloop (.failed (Or.inl hqueued) _)
    · split
      · refine waitFor_path (fun _ => hloop) (by simp) (by simp) (fun p f heq => ?_) (by simp)
        injection heq with _ heq
        have hstop := (DurableRun.valid_stop (Snapshot.valid_slot hvalid hslot)).mpr (Or.inl hphase)
        exact ⟨run, hslot, heq, hstop⟩
      · exact Command.path_bind unknown_path fun _ _ _ => settled_path
  | recovery_required => exact settled_path
  | starting | running =>
    dsimp only
    split
    · exact Command.path_bind unknown_path fun _ _ _ => settled_path
    · exact settled_path

/-- The run in the slot, if there is one, has a reason to stop. -/
def AllStopped (cfg : ExecutorConfig) (x : DurableExecutor) : Prop :=
  ∀ run, (current cfg x.tables).slot = some run → run.stopReason ≠ none

theorem settlePass_path {pass : Nat} (hl : l.ambient = some amb) (hnot : ¬ l.publishes) (hloop : InLoop x)
    (hqueued : ∀ p f, x.settling ≠ some (.startQueued p f)) (hturns : l.turns ∨ AllStopped cfg x) :
    Command.Path (Change cfg l) x (Command.after (settlePass cfg amb pass x)) := by
  unfold settlePass
  split
  · exact settled_path
  · refine Command.path_bind (tick_path hl) fun _ x1 h1 => ?_
    -- what the tick leaves of the run with its lease open: `hfresh`
    obtain ⟨hframed, -, hfresh⟩ := tick_ok h1
    have hloop1 := hloop.steady hframed.steady
    have hqueued1 : ∀ p f, x1.settling ≠ some (.startQueued p f) := by
      rw [hframed.steady.settling]
      exact hqueued
    refine Command.path_bind snapshot_path fun s x2 h2 => ?_
    obtain ⟨rfl, hvalid, rfl⟩ := snapshot_ok h2
    cases hslot : (current cfg x2.tables).slot with
    | none => exact settled_path
    | some run =>
      dsimp only
      unfold settleRun
      refine Command.path_bind Relation.ReflTransGen.refl fun y x3 h3 => ?_
      injection h3 with h3 h3'
      subst h3 h3'
      dsimp only
      split
      · exact Relation.ReflTransGen.refl
      · rename_i hsame
        -- an outcome is published at once, and it was known before this stretch
        cases hout : x2.live.bind LiveRun.outcome with
        | some outcome =>
          obtain ⟨live, hlive, hout⟩ := Option.bind_eq_some_iff.mp hout
          have hfence : live.fence = run.fence := by simpa [hlive] using hsame
          refine settlePublish_path hl hnot hloop1
            (fun hnone => ⟨Or.inl hqueued1, fun hk run' hrun' hf hno => ?_⟩) (Or.inl hqueued1)
          obtain ⟨hlease, run0, hslot0, hno0⟩ := hfresh run' hrun' hno
          rcases hturns with hturns | hstopped
          · exact Or.inl ⟨hturns, hnone, hlease, outcome, ⟨live, hlive, hfence.trans hf.symm, hout⟩, hk⟩
          · exact absurd hno0 (hstopped run0 hslot0)
        | none => exact settlePhase_path hl hloop1 hslot hvalid hqueued1

/-- A start call that failed sets the run aside. -/
theorem startLost_path {pass : Nat} {reason : StopReason} (hloop : InLoop x) :
    Command.Path (Change cfg l) x (Command.after (startLost cfg pass fence reason x)) :=
  Command.path_bind unknown_path fun _ _ h1 =>
    waitPlain_path (hloop.steady (unknown_ok h1).1.steady) (by simp) (by simp)

/-- A start call that took too long sets it aside, and the call goes on late. -/
theorem startTimedOut_path {pass : Nat} (hpc : x.settling = some (.startWaiting pass fence)) :
    Command.Path (Change cfg l) x (Command.after (startTimedOut cfg pass fence x)) := by
  have hpath := @unknown_path cfg l x fence .driver_start_timeout
  unfold startTimedOut
  cases h : unknown cfg fence .driver_start_timeout x with
  | ok u x1 =>
    rw [h] at hpath
    obtain ⟨hframed, hreason⟩ := unknown_ok h
    have hpc1 : x1.settling = some (.startWaiting pass fence) := by
      rw [hframed.steady.settling]
      exact hpc
    refine (hpath.tail (.outlived hpc1 (Or.inr hreason))).trans ?_
    exact waitPlain_path (Or.inl ⟨_, hpc1, by simp⟩) (by simp) (by simp)
  | error e x1 =>
    rw [h] at hpath
    have hx1 : x1 = x := by
      unfold unknown at h
      rw [Command.bind_apply] at h
      rcases @change_cases cfg (onFence fence (unknownRun .driver_start_timeout)) x with
        ⟨err, h'⟩ | ⟨h', -, -⟩ | ⟨_, _, _, -, -, -, h'⟩
      · rw [h'] at h
        injection h with _ h
        exact h.symm
      · rw [h'] at h
        exact absurd h (by simp [pure, EStateM.pure])
      · rw [h'] at h
        exact absurd h (by simp [pure, EStateM.pure])
    subst hx1
    refine path_failClosed.tail ?_
    exact .outlived (x := failClosed x1) hpc (Or.inl rfl)

/-- A handle is remembered for the run it was returned for. -/
theorem attach_path {handleFence : LeaseFence} :
    Command.Path (Change cfg l) x (Command.after (attach fence handleFence x)) := by
  unfold attach
  refine Command.path_bind (path_flags (x := x) id (fun h => Or.inl h) id fun f outcome hknown => ?_) fun _ x1 _ => ?_
  · -- nothing is known of a handle that has just arrived
    obtain ⟨live, hlive, -, hout⟩ := hknown
    rw [← Option.some.inj hlive] at hout
    exact absurd hout (by simp)
  split
  · exact Command.path_bind path_failClosed fun _ _ _ => Relation.ReflTransGen.refl
  · exact Relation.ReflTransGen.refl

theorem attach_ok {handleFence : LeaseFence} {x' : DurableExecutor} {u : PUnit}
    (h : attach fence handleFence x = .ok u x') : Steady x x' ∧ x'.tables = x.tables := by
  obtain ⟨_, x1, h1, h2⟩ := Command.bind_ok_iff.mp h
  injection h1 with _ h1
  subst h1
  split at h2
  · exact absurd h2 (by simp [Command.bind_apply, Command.modify_apply, Command.throw_apply])
  · injection h2 with _ h2
    rw [← h2]
    exact ⟨⟨rfl, rfl, rfl, rfl, rfl⟩, rfl⟩

theorem settleOn_path {pc : SettlePc} {r : Reply} (hpc : x.settling = some pc)
    (hreply : l = .settleReply amb r) :
    Command.Path (Change cfg l) x (Command.after (settleOn cfg amb pc r x)) := by
  have hl : l.ambient = some amb := by
    rw [hreply]
    rfl
  -- three facts each branch of `settleOn` uses, then the branches in its order
  have hin : pc ≠ .recovering → InLoop x := fun h => Or.inl ⟨pc, hpc, h⟩
  have hnot : (∀ p f, pc ≠ .startQueued p f) → ∀ p f, x.settling ≠ some (.startQueued p f) := by
    intro h p f heq
    rw [hpc] at heq
    exact h p f (Option.some.inj heq)
  have hstarting : Command.Path (Change cfg l) x { x with starting := false } :=
    path_flags (x := x) id (fun h => Or.inl h) (fun h => absurd h (by simp)) fun _ _ h => Or.inl h
  unfold settleOn
  split
  · exact Relation.ReflTransGen.refl
  · refine Command.path_bind Relation.ReflTransGen.refl fun y x1 h1 => ?_
    injection h1 with h1 h1'
    subst h1 h1'
    split
    · exact Relation.ReflTransGen.refl
    · rename_i hrec
      have hlabel : ¬ l.publishes := fun ⟨_, _, h⟩ => by simp [hreply] at h
      exact settlePass_path hl hlabel (Or.inr (Or.inr ⟨hpc, by simpa using hrec⟩)) (hnot (by simp))
        (Or.inl (by rw [hreply]; trivial))
  · exact beginStart_path (hin (by simp))
  · exact settleFinish_path hl (hin (by simp)) (.failed (Or.inl (hnot (by simp))) _)
  · rename_i pass fence
    refine Command.path_bind Relation.ReflTransGen.refl fun y x1 h1 => ?_
    injection h1 with h1 h1'
    subst h1 h1'
    split
    · refine Command.path_bind hstarting fun _ x2 h2 => ?_
      injection h2 with _ h2
      subst h2
      exact startLost_path (Or.inl ⟨_, hpc, by simp⟩)
    · exact Relation.ReflTransGen.single (.called hreply hpc)
  · rename_i pass fence handleFence
    refine Command.path_bind hstarting fun _ x2 h2 => ?_
    injection h2 with _ h2
    subst h2
    refine Command.path_bind attach_path fun _ x3 h3 => ?_
    -- the start call returned with a handle: the run goes on unless it was stopped meanwhile
    have hloop3 : InLoop x3 :=
      InLoop.steady (x := { x with starting := false }) (Or.inl ⟨_, hpc, by simp⟩) (attach_ok h3).1
    refine Command.path_bind Relation.ReflTransGen.refl fun y x4 h4 => ?_
    injection h4 with h4 h4'
    subst h4 h4'
    split
    · exact waitPlain_path hloop3 (by simp) (by simp)
    · refine Command.path_bind (change_path ?_) fun _ x5 h5 => ?_
      · intro s' outbox t' hv hedit hc
        obtain ⟨run, run', hslot, hf, hrun', rfl, rfl⟩ := onFence_cases hedit
        unfold runningRun at hrun'
        split at hrun'
        · simp only [Option.some.injEq] at hrun'
          subst hrun'
          exact .tended hslot hv (.runs ‹_›) hc
        · exact absurd hrun' (by simp)
      · exact waitPlain_path (hloop3.steady (change_framed h5).steady) (by simp) (by simp)
  · refine Command.path_bind hstarting fun _ x2 h2 => ?_
    injection h2 with _ h2
    subst h2
    exact startLost_path (Or.inl ⟨_, hpc, by simp⟩)
  · exact startTimedOut_path hpc
  · exact Command.path_bind (proveLive_path (by rw [hreply]; trivial)) fun _ _ _ => Relation.ReflTransGen.refl
  · exact Relation.ReflTransGen.refl
  · rename_i pass fence outcome
    refine Command.path_bind (proveLive_path (by rw [hreply]; trivial)) fun _ x1 h1 => ?_
    -- the stop call returned: its outcome is published in this same stretch
    have hs := (proveLive_ok h1).1
    have hpc1 : x1.settling = some (.stopping pass fence) := hs.settling.trans hpc
    have hlabel : ¬ l.publishes := fun ⟨_, _, h⟩ => by simp [hreply] at h
    have hend : MayEnd x1 fence := by
      refine Or.inl fun p f heq => ?_
      rw [hpc1] at heq
      exact absurd heq (by simp)
    refine settlePublish_path hl hlabel (Or.inl ⟨_, hpc1, by simp⟩) (fun _ => ⟨hend, fun _ run _ hf _ => ?_⟩) hend
    exact Or.inr (Or.inr (Or.inl ⟨pass, by rw [hf]; exact hpc1⟩))
  · exact startLost_path (hin (by simp))
  · rename_i pass fence answer
    -- the publisher returned: what it answered is committed without another look at the lease
    refine settleFinish_path hl (hin (by simp)) ⟨Or.inl (hnot (by simp)), fun hk run _ hf _ => ?_⟩
    exact Or.inr (Or.inl ⟨amb, answer, pass, hreply, hk, hf ▸ hpc⟩)
  · have hlabel : ¬ l.publishes := fun ⟨_, _, h⟩ => by simp [hreply] at h
    exact settlePass_path hl hlabel (hin (by simp)) (hnot (by simp)) (Or.inl (by rw [hreply]; trivial))
  · exact Relation.ReflTransGen.refl

/-- What a pass throws is latched. -/
theorem runSettle_path {c : Command PUnit} (h : Command.Path (Change cfg l) x (Command.after (c x))) :
    Command.Path (Change cfg l) x (Command.after (runSettle c x)) := by
  unfold runSettle
  cases hc : c x with
  | ok u x' =>
    rw [hc] at h
    exact h
  | error e x' =>
    rw [hc] at h
    exact (h.trans path_failClosed).tail .rests

/-! ### `recover` -/

/-- The end of a recovery makes the executor ready. -/
theorem recovered_path : Command.Path (Change cfg l) x (Command.after (recovered cfg x)) := by
  unfold recovered
  refine Command.path_bind completeOldEffects_path fun _ x1 _ => ?_
  exact path_flags (x := x1) id (fun _ => Or.inl rfl) id fun _ _ h => Or.inl h

theorem recovered_ok {x' : DurableExecutor} {pc : Option RecoverPc} (h : recovered cfg x = .ok pc x') :
    pc = none ∧ x'.ready = true := by
  obtain ⟨_, x1, -, h2⟩ := Command.bind_ok_iff.mp h
  injection h2 with h2 h3
  rw [← h3]
  exact ⟨h2.symm, rfl⟩

/-- A recovery rests at the next call, or latches what it throws. -/
theorem runRecover_path {c : Command (Option RecoverPc)}
    (h : Command.Path (Change cfg l) x (Command.after (c x)))
    (hok : ∀ pc x', c x = .ok pc x' → Command.Path (Change cfg l) x' { x' with recovering := pc }) :
    Command.Path (Change cfg l) x (Command.after (runRecover c x)) := by
  unfold runRecover
  cases hc : c x with
  | ok pc x' =>
    rw [hc] at h
    exact h.trans (hok pc x' hc)
  | error e x' =>
    rw [hc] at h
    exact (h.trans path_failClosed).tail (.recovers (x := failClosed x') (by simp) fun _ => Or.inr rfl)

theorem recoverOn_path {pc : RecoverPc} {r : Reply} (hl : l.ambient = some amb)
    (hpc : x.recovering = some pc) :
    Command.Path (Change cfg l) x (Command.after (runRecover (recoverOn cfg amb pc r) x)) := by
  have hdone : ∀ {y x' : DurableExecutor} {pc' : Option RecoverPc}, recovered cfg y = .ok pc' x' →
      Command.Path (Change cfg l) x' { x' with recovering := pc' } := by
    intro y x' pc' h
    obtain ⟨rfl, hready⟩ := recovered_ok h
    exact Relation.ReflTransGen.single (.recovers (by simp) fun _ => Or.inl hready)
  have hstill : Command.Path (Change cfg l) x { x with recovering := some pc } := path_of_eq (by rw [← hpc])
  unfold recoverOn
  split
  · exact runRecover_path Relation.ReflTransGen.refl fun _ _ h => nomatch h
  · rename_i fence stopped
    cases stopped with
    -- recovered: the slot is failed, and the recovery goes round for what is left
    | true =>
      refine runRecover_path ?_ fun pc' x' h => ?_
      · refine Command.path_bind assertHealthy_path fun _ x1 h1 => ?_
        obtain ⟨-, rfl⟩ := assertHealthy_ok h1
        refine Command.path_bind (finish_path hl (.failed (Or.inr (Or.inr hpc)) _)) fun _ _ _ => ?_
        exact Relation.ReflTransGen.refl
      · obtain ⟨_, x1, -, h2⟩ := Command.bind_ok_iff.mp h
        obtain ⟨_, x2, -, h3⟩ := Command.bind_ok_iff.mp h2
        injection h3 with h3 h4
        subst h3 h4
        exact Relation.ReflTransGen.single (.recovers (by simp) (by simp))
    -- not recovered: the slot is set aside as unknown
    | false =>
      refine runRecover_path ?_ fun pc' x' h => ?_
      · refine Command.path_bind assertHealthy_path fun _ x1 h1 => ?_
        exact Command.path_bind unknown_path fun _ _ _ => recovered_path
      · obtain ⟨_, x1, -, h2⟩ := Command.bind_ok_iff.mp h
        obtain ⟨_, x2, -, h3⟩ := Command.bind_ok_iff.mp h2
        exact hdone h3
  · exact runRecover_path recovered_path fun _ _ h => hdone h
  · refine runRecover_path Relation.ReflTransGen.refl fun _ _ h => ?_
    injection h with h h'
    subst h h'
    exact hstill

/-- A new recovery. -/
theorem recoverBody_path (hhealthy : x.faulted = false) (hfree : x.ready = true → x.settling = none) :
    Command.Path (Change cfg l) x (Command.after (runRecover (recoverBody cfg) x)) := by
  have hcases : ∀ {y : DurableExecutor} {s : Snapshot}, snapshot cfg x = .ok s y →
      y = x ∧ s = current cfg x.tables := fun h => ⟨(snapshot_ok h).2.2, (snapshot_ok h).1⟩
  refine runRecover_path ?_ fun pc x' h => ?_
  · unfold recoverBody
    refine Command.path_bind snapshot_path fun s x1 h1 => ?_
    refine Command.path_bind Relation.ReflTransGen.refl fun y x2 h2 => ?_
    cases s.slot.filter (askable y.live) with
    | some run => exact Relation.ReflTransGen.refl
    | none => exact recovered_path
  · unfold recoverBody at h
    obtain ⟨s, x1, h1, h2⟩ := Command.bind_ok_iff.mp h
    obtain ⟨rfl, rfl⟩ := hcases h1
    obtain ⟨y, x2, h3, h4⟩ := Command.bind_ok_iff.mp h2
    injection h3 with h3 h3'
    subst h3 h3'
    cases hrun : (current cfg x1.tables).slot.filter (askable x1.live) with
    | some run =>
      rw [hrun] at h4
      injection h4 with h4 h4'
      subst h4 h4'
      obtain ⟨hslot, hstarted⟩ := Option.filter_eq_some_iff.mp hrun
      rw [askable, Bool.and_eq_true] at hstarted
      exact Relation.ReflTransGen.single (.asks hfree hhealthy hslot hstarted.1)
    | none =>
      rw [hrun] at h4
      obtain ⟨rfl, hready⟩ := recovered_ok h4
      exact Relation.ReflTransGen.single (.recovers (by simp) fun _ => Or.inl hready)

/-- `recover` begins with the slot, unless it is under way or done. -/
theorem recover_path : Command.Path (Change cfg l) x (Command.after (recover cfg x)) := by
  unfold recover
  refine Command.path_bind assertHealthy_path fun _ x1 h1 => ?_
  obtain ⟨hhealthy, rfl⟩ := assertHealthy_ok h1
  refine Command.path_bind Relation.ReflTransGen.refl fun y x2 h2 => ?_
  injection h2 with h2 h2'
  subst h2 h2'
  split
  · exact Relation.ReflTransGen.refl
  · rename_i hguard
    simp only [Bool.or_eq_true, Bool.and_eq_true, not_or, not_and, Bool.not_eq_true,
      Option.isSome_eq_false_iff, Option.isNone_iff_eq_none] at hguard
    exact recoverBody_path hhealthy hguard.1.2

/-- After `recover` there is a recovery to wait for, or none is needed. -/
theorem recover_ok {x' : DurableExecutor} {u : PUnit} (h : recover cfg x = .ok u x') :
    x'.recovering = none → x'.ready = true ∨ x'.starting = true := by
  unfold recover at h
  obtain ⟨_, x1, h1, h2⟩ := Command.bind_ok_iff.mp h
  obtain ⟨y, x2, h3, h4⟩ := Command.bind_ok_iff.mp h2
  injection h3 with h3 h3'
  subst h3 h3'
  split at h4
  · rename_i hguard
    injection h4 with _ h4
    subst h4
    intro hnone
    simp only [Bool.or_eq_true, Bool.and_eq_true, hnone, Option.isSome_none, Bool.false_eq_true,
      or_false] at hguard
    rcases hguard with hstarting | ⟨hready, -⟩
    · exact Or.inr hstarting
    · exact Or.inl hready
  · unfold runRecover at h4
    split at h4
    · rename_i pc x3 hbody
      injection h4 with _ h4
      subst h4
      intro hnone
      dsimp only at hnone
      subst hnone
      unfold recoverBody at hbody
      obtain ⟨s, x4, -, h5⟩ := Command.bind_ok_iff.mp hbody
      obtain ⟨y, x5, -, h6⟩ := Command.bind_ok_iff.mp h5
      -- the recovery rests at once only where no run is left to ask about
      cases hrun : s.slot.filter (askable y.live) with
      | some run =>
        rw [hrun] at h6
        exact absurd h6 (by simp [pure, EStateM.pure])
      | none =>
        rw [hrun] at h6
        exact Or.inl (recovered_ok h6).2
    · exact absurd h4 (by simp)

/-! ### `settle` and `close` -/

/-- `settle` begins a pass, or a recovery before it where the executor is not ready. -/
theorem settle_path (hl : l.ambient = some amb) (hnot : ¬ l.publishes) (hturns : l.turns ∨ AllStopped cfg x) :
    Command.Path (Change cfg l) x (Command.after (settle cfg amb x)) := by
  unfold settle
  refine Command.path_bind Relation.ReflTransGen.refl fun y x1 h1 => ?_
  injection h1 with h1 h1'
  subst h1 h1'
  split
  · exact Relation.ReflTransGen.refl
  · rename_i hidle
    refine runSettle_path (Command.path_bind assertHealthy_path fun _ x2 h2 => ?_)
    obtain ⟨-, rfl⟩ := assertHealthy_ok h2
    refine Command.path_bind Relation.ReflTransGen.refl fun y x3 h3 => ?_
    injection h3 with h3 h3'
    subst h3 h3'
    split
    · rename_i hready
      refine settlePass_path hl hnot (Or.inr (Or.inl hready)) (fun p f heq => hidle ?_) hturns
      rw [heq]
      rfl
    · refine Command.path_bind recover_path fun _ x4 h4 => ?_
      exact waitFor_path (fun h => absurd rfl h) (by simp) (fun _ => recover_ok h4) (by simp) (by simp)

/-- Once `close` has committed there is no run without a reason to stop. -/
theorem shutdown_ok {x' : DurableExecutor} {u : PUnit}
    (h : checked (do assertHealthy; let _ ← change cfg shutdownEdit) x = .ok u x') : AllStopped cfg x' := by
  obtain ⟨_, x1, h1, h2⟩ := Command.bind_ok_iff.mp (checked_ok h)
  obtain ⟨-, rfl⟩ := assertHealthy_ok h1
  obtain ⟨b, x2, h3, h4⟩ := Command.bind_ok_iff.mp h2
  injection h4 with _ h4
  subst h4
  intro run hrun
  rcases @change_cases cfg shutdownEdit x1 with ⟨err, h'⟩ | ⟨h', hv, hedit⟩ | ⟨s', outbox, t', hv, hedit, hc, h'⟩
  · rw [h'] at h3
    exact absurd h3 (by simp)
  · rw [h'] at h3
    injection h3 with _ h3
    rw [← h3] at hrun
    -- a run that is still to be recovered has its reason
    have hphase : run.phase = .recovery_required := by
      by_contra hne
      simp [shutdownEdit, hrun, hne] at hedit
    have hstop := (DurableRun.valid_stop (Snapshot.valid_slot hv hrun)).mpr (Or.inr hphase)
    exact Option.ne_none_iff_isSome.mpr hstop
  · rw [h'] at h3
    injection h3 with _ h3
    rw [← h3] at hrun
    simp only [shutdownEdit, Except.ok.injEq] at hedit
    obtain ⟨run0, -, hedit⟩ := Option.bind_eq_some_iff.mp hedit
    split at hedit
    · exact absurd hedit (by simp)
    · simp only [pure, Option.some.injEq, Prod.mk.injEq] at hedit
      obtain ⟨rfl, -⟩ := hedit
      rw [hc.state] at hrun
      obtain rfl := Option.some.inj hrun
      simp

/-- Closing marks the run for its stop, and settles. -/
theorem close_path (hl : l.ambient = some amb) (hnot : ¬ l.publishes) :
    Command.Path (Change cfg l) x (Command.after (close cfg amb x)) := by
  unfold close
  refine Command.path_bind (path_flags (x := x) id (fun h => Or.inl h) id fun _ _ h => Or.inl h) fun _ x1 _ => ?_
  refine Command.path_bind (checked_path ?_) fun _ _ h => settle_path hl hnot (Or.inr (shutdown_ok h))
  refine Command.path_bind assertHealthy_path fun _ x2 h2 => ?_
  refine Command.path_bind (change_path ?_) fun _ _ _ => Relation.ReflTransGen.refl
  intro s' outbox t' hv hedit hc
  simp only [shutdownEdit, Except.ok.injEq] at hedit
  obtain ⟨run, hslot, hedit⟩ := Option.bind_eq_some_iff.mp hedit
  split at hedit
  · exact absurd hedit (by simp)
  · rename_i hphase
    simp only [pure, Option.some.injEq, Prod.mk.injEq] at hedit
    obtain ⟨rfl, rfl⟩ := hedit
    exact .tended hslot hv (.shut hphase) hc

/-! ### Starts that timed out -/

theorem lateOn_path {i : Nat} {pc : LatePc} {r : Reply} (hreply : l = .lateReply amb i r) (hmem : pc ∈ x.late) :
    Command.Path (Change cfg l) x (Command.after (lateOn cfg amb pc r x)) := by
  have hl : l.ambient = some amb := by
    rw [hreply]
    rfl
  -- the call on record is what lets it end the run of its fence
  have hlate : HasLate x pc.fence := ⟨pc, hmem, rfl⟩
  unfold lateOn
  split
  · exact Relation.ReflTransGen.refl
  · exact Command.path_bind attach_path fun _ _ _ => Relation.ReflTransGen.refl
  · exact Relation.ReflTransGen.refl
  · rename_i fence outcome
    refine Command.path_bind (proveLive_path (by rw [hreply]; trivial)) fun _ x1 h1 => ?_
    have hlate1 := hlate.steady (proveLive_ok h1).1
    refine Command.path_bind Relation.ReflTransGen.refl fun y x2 h2 => ?_
    injection h2 with h2 h2'
    subst h2 h2'
    split
    · exact Relation.ReflTransGen.refl
    · rename_i hhealthy
      refine Command.path_bind (publishAndFinish_path hl (fun _ => ⟨Or.inr (Or.inl hlate1), fun _ run _ hf _ => ?_⟩)
        (Or.inr (Or.inl hlate1))) fun b _ _ => ?_
      · exact Or.inr (Or.inr (Or.inr (Or.inl ⟨hf ▸ hlate1, by simpa using hhealthy⟩)))
      cases b with
      | true => exact Relation.ReflTransGen.refl
      | false => exact Relation.ReflTransGen.refl
  · refine Command.path_bind Relation.ReflTransGen.refl fun y x1 h1 => ?_
    injection h1 with h1 h1'
    subst h1 h1'
    split
    · exact Command.path_bind unknown_path fun _ _ _ => Relation.ReflTransGen.refl
    · exact Relation.ReflTransGen.refl
  · refine Command.path_bind (finish_path hl ⟨Or.inr (Or.inl hlate), ?_⟩) fun _ _ _ =>
      Relation.ReflTransGen.refl
    intro _ run _ hf _
    exact Or.inr (Or.inr (Or.inr (Or.inr (hf ▸ hmem))))
  · exact Command.path_bind completeOldEffects_path fun _ _ _ => Relation.ReflTransGen.refl
  · exact Relation.ReflTransGen.refl

theorem lateOn_ok {pc pc' : LatePc} {r : Reply} {x' : DurableExecutor}
    (h : lateOn cfg amb pc r x = .ok (some pc') x') :
    x'.late = x.late ∧ pc'.fence = pc.fence ∧ ∀ fence, pc' = .publishing fence → pc = .publishing fence ∨
      x'.faulted = false ∧ ∃ run, (current cfg x'.tables).slot = some run ∧ run.fence = fence ∧
        run.stopReason = none := by
  unfold lateOn at h
  split at h
  · exact nomatch h
  · obtain ⟨_, x1, h1, h2⟩ := Command.bind_ok_iff.mp h
    injection h2 with h2 h2'
    obtain rfl := Option.some.inj h2
    subst h2'
    exact ⟨(attach_ok h1).1.late, rfl, by simp⟩
  · injection h with h
    exact absurd h (by simp)
  · obtain ⟨_, x1, h1, h2⟩ := Command.bind_ok_iff.mp h
    obtain ⟨y, x2, h3, h4⟩ := Command.bind_ok_iff.mp h2
    injection h3 with h3 h3'
    subst h3 h3'
    have hs := (proveLive_ok h1).1
    split at h4
    · injection h4 with h4
      exact absurd h4 (by simp)
    · rename_i hhealthy
      obtain ⟨b, x3, h5, h6⟩ := Command.bind_ok_iff.mp h4
      have hlate := (hs.trans (publishAndFinish_steady h5)).late
      cases b with
      -- it goes on to publish only after reading the record, with no stop on it
      | true =>
        injection h6 with h6 h6'
        obtain rfl := Option.some.inj h6
        subst h6'
        obtain ⟨rfl, hrun⟩ := publishAndFinish_asks h5
        refine ⟨hlate, rfl, fun fence heq => Or.inr ⟨by simpa using hhealthy, ?_⟩⟩
        injection heq with heq
        rw [← heq]
        exact hrun
      | false =>
        injection h6 with h6 h6'
        obtain rfl := Option.some.inj h6
        subst h6'
        exact ⟨hlate, rfl, by simp⟩
  · obtain ⟨y, x1, h1, h2⟩ := Command.bind_ok_iff.mp h
    injection h1 with h1 h1'
    subst h1 h1'
    split at h2
    · obtain ⟨_, x2, -, h3⟩ := Command.bind_ok_iff.mp h2
      injection h3 with h3
      exact absurd h3 (by simp)
    · injection h2 with h2
      exact absurd h2 (by simp)
  · obtain ⟨_, x1, h1, h2⟩ := Command.bind_ok_iff.mp h
    injection h2 with h2 h2'
    obtain rfl := Option.some.inj h2
    subst h2'
    exact ⟨(finish_steady h1).late, rfl, by simp⟩
  · obtain ⟨_, x1, -, h2⟩ := Command.bind_ok_iff.mp h
    injection h2 with h2
    exact absurd h2 (by simp)
  · injection h with h h'
    obtain rfl := Option.some.inj h
    subst h'
    exact ⟨rfl, rfl, fun fence heq => Or.inl heq⟩

/-- A late call is taken from the list, and put back where it stands next. -/
theorem runLate_path {i : Nat} {pc : LatePc} {r : Reply} (hreply : l = .lateReply amb i r)
    (hi : x.late[i]? = some pc) :
    Command.Path (Change cfg l) x (Command.after (runLate i (lateOn cfg amb pc r) x)) := by
  have hpath := @lateOn_path cfg _ _ _ _ _ r hreply (List.mem_of_getElem? hi)
  -- the continuation is gone, and lets go of `starting`
  have hgone : ∀ y : DurableExecutor, Command.Path (Change cfg l) y
      { y with late := y.late.eraseIdx i, starting := false } := by
    intro y
    have hfree : Command.Path (Change cfg l) y { y with starting := false } :=
      path_flags id (fun h => Or.inl h) (fun h => absurd h (by simp)) fun _ _ h => Or.inl h
    refine hfree.tail ?_
    exact .follows (x := { y with starting := false })
      (fun pc hpc => ⟨pc, List.mem_of_mem_eraseIdx hpc, rfl⟩)
      fun _ hf => Or.inl (List.mem_of_mem_eraseIdx hf)
  unfold runLate
  cases h : lateOn cfg amb pc r x with
  | ok answer x1 =>
    rw [h] at hpath
    cases answer with
    | some pc' =>
      obtain ⟨hlate, hfence, hpublishing⟩ := lateOn_ok h
      have hpc : pc ∈ x1.late := by
        rw [hlate]
        exact List.mem_of_getElem? hi
      refine hpath.tail (.follows ?_ ?_)
      · intro pc'' hmem
        rcases List.mem_or_eq_of_mem_set hmem with hmem | rfl
        · exact ⟨pc'', hmem, rfl⟩
        · exact ⟨pc, hpc, hfence.symm⟩
      · intro fence hmem
        rcases List.mem_or_eq_of_mem_set hmem with hmem | heq
        · exact Or.inl hmem
        · rcases hpublishing fence heq.symm with rfl | hrun
          · exact Or.inl hpc
          · exact Or.inr hrun
    | none => exact hpath.trans (hgone x1)
  | error e x1 =>
    rw [h] at hpath
    exact (hpath.trans (hgone x1)).trans path_failClosed

/-! ### `consume` -/

/-- What `pending` gave and the drain hands over: a pending row of these ids holds this envelope. -/
def Handed (t : Tables) (e : Json) : Prop :=
  ∀ row, Table.lookup InboxRow.key (Env.fromNode e, Env.msgId e) t.inbox = some row →
    row.decision = .pending → row.payload = some e

/-- What the transaction of an envelope can do. -/
inductive Took (cfg : ExecutorConfig) (amb : Ambient) (e : Json) (authorized : Bool) (x : DurableExecutor) :
    DurableExecutor → Prop
  | nothing : Took cfg amb e authorized x x
  /-- It is decided without being looked at: the R1 table knows its key. -/
  | swallowed {t' : Tables} (huse : usesR1Dedup (Env.type e) = true)
      (hrow : (Table.lookup DedupRow.key (Env.fromNode e, stateKey, dedupKey e) x.tables.dedup).isSome = true)
      (hc : Committed cfg x.tables (current cfg x.tables) t') : Took cfg amb e authorized x { x with tables := t' }
  | applied {o : Output} {t' : Tables} (hvalid : (current cfg x.tables).isValid = true)
      (h : Handled cfg amb x.ready x.closing (current cfg x.tables) e authorized o)
      (hfree : usesR1Dedup (Env.type e) = true →
        Table.lookup DedupRow.key (Env.fromNode e, stateKey, dedupKey e) x.tables.dedup = none ∧
        (Table.lookup DedupRow.key (Env.fromNode e, stateKey, dedupKey e) t'.dedup).isSome = true)
      (hc : Committed cfg x.tables o.state t')
      (hhandle : handle cfg amb x.ready x.closing (current cfg x.tables) e authorized = .ok o) :
      Took cfg amb e authorized x { x with
        tables := t', sent := x.sent ++ o.outbox, accepted := x.accepted ++ o.accepts }

/-- What a consumed envelope did is at most one step. -/
theorem Took.change {e : Json} {authorized : Bool} {y : DurableExecutor} (hl : l = .consume amb e authorized)
    (h : Took cfg amb e authorized x y) : y = x ∨ Change cfg l x y := by
  cases h with
  | nothing => exact Or.inl rfl
  | swallowed huse hrow hc => exact Or.inr (.aside hc)
  | applied hvalid h hfree hc => exact Or.inr (.consumed hl hvalid h hfree hc)

theorem commitConsumed_took {e : Json} {authorized : Bool} {revision : Int} {o : Output}
    (hhanded : Handed x.tables e) (hvalid : (current cfg x.tables).isValid = true)
    (hhandle : handle cfg amb x.ready x.closing (current cfg x.tables) e authorized = .ok o) :
    Took cfg amb e authorized x (Command.after (commitConsumed cfg e revision o x)) := by
  have h := handle_handled hhandle
  rcases Command.after_attempt _ x with heq | ⟨u, x', hrun, heq⟩
  · unfold commitConsumed
    rw [heq]
    exact .nothing
  · unfold commitConsumed
    rw [heq]
    simp only [Lib.bind_ok_iff, fromStore_ok] at hrun
    obtain ⟨⟨res, t'⟩, hcon, hrun⟩ := hrun
    -- the store's three answers: no row, decided before, decided now
    rcases consume_ok hcon with ⟨rfl, rfl⟩ | ⟨row, hrow, hd, rfl, rfl⟩ | ⟨e', status, rev, rfl, hc⟩
    · simp only [appliesNow, Bool.and_false, Bool.false_eq_true, if_false, pure_ok_iff, Prod.mk.injEq] at hrun
      rw [← hrun.2]
      exact .nothing
    · have hno : appliesNow x.tables e (.decided row.decision (row.revision.getD 0)) = false := by
        simp [appliesNow, hrow, hd]
      simp only [hno, Bool.false_eq_true, if_false, pure_ok_iff, Prod.mk.injEq] at hrun
      rw [← hrun.2]
      exact .nothing
    · obtain ⟨row, hrow, hpending, hpayload, -⟩ := hc.row
      have he : e' = e := Option.some.inj (hpayload.symm.trans (hhanded row hrow hpending))
      subst he
      -- decided now: the key was used by an earlier message, or the output was applied
      rcases hc.outcome with ⟨prior, huse, hprior, hs, -, hsame⟩ | ⟨rfl, -, huse, hexempt, r, before, hr, rfl, hT⟩
      · have hno : appliesNow x.tables e' (.decided status rev) = false := by
          rw [hs]
          split <;> simp [appliesNow]
        simp only [hno, Bool.false_eq_true, if_false, pure_ok_iff, Prod.mk.injEq] at hrun
        obtain ⟨-, rfl⟩ := hrun
        refine .swallowed huse (by rw [hprior]; rfl) ⟨current_congr ?_, fun _ _ hk => hc.dedup_kept hk⟩
        rw [hsame]
      · have hyes : appliesNow x.tables e' (.decided .applied rev) = true := by
          simp [appliesNow, hrow, hpending]
        simp only [hyes, if_true, pure_ok_iff, Prod.mk.injEq] at hrun
        obtain ⟨-, rfl⟩ := hrun
        rw [if_pos rfl] at hr
        obtain rfl := Option.some.inj hr
        refine .applied hvalid h (fun huses => ?_)
          ⟨(current_congr (by rfl)).trans (current_of_transitioned hT), fun _ _ hk => hc.dedup_kept hk⟩ hhandle
        obtain ⟨hnone, hadd⟩ := huse huses
        refine ⟨hnone, ?_⟩
        rw [hadd, Table.lookup_append, hnone]
        simp [Table.lookup, DedupRow.key]

/-- After `checked` the state is the command's own, or that with the latch on. -/
theorem checked_after {α : Type} (c : Command α) (x : DurableExecutor) :
    Command.after (checked c x) = Command.after (c x) ∨
      Command.after (checked c x) = failClosed (Command.after (c x)) := by
  unfold checked
  cases c x with
  | ok a x' => exact Or.inl rfl
  | error e x' => exact Or.inr rfl

/-- **One envelope, one small step**, or none; a throw faults the executor. -/
theorem consume_step {e : Json} {authorized : Bool} (hhanded : Handed x.tables e) :
    ∃ y, Took cfg amb e authorized x y ∧
      (Command.after (consume cfg amb e authorized x) = y ∨
        Command.after (consume cfg amb e authorized x) = failClosed y) := by
  refine ⟨_, ?_, checked_after _ x⟩
  rw [Command.bind_apply]
  -- the latch, the record, its decoding and the handler, each of which can refuse
  cases h1 : assertHealthy x with
  | error err x1 =>
    rw [assertHealthy_error h1]
    exact .nothing
  | ok u x1 =>
    obtain ⟨-, rfl⟩ := assertHealthy_ok h1
    dsimp only
    rw [Command.bind_apply]
    cases h2 : readRow x1 with
    | error err x2 =>
      have hx : Command.after (readRow x1) = x1 := Command.after_lift
      rw [h2] at hx
      rw [show x2 = x1 from hx]
      exact .nothing
    | ok row x2 =>
      obtain ⟨rfl, rfl⟩ := readRow_ok h2
      dsimp only
      rw [Command.bind_apply]
      cases hdec : decode cfg (Table.lookup StateRow.state_key stateKey x2.tables.state) with
      | error err => exact .nothing
      | ok s =>
        obtain ⟨rfl, hvalid⟩ := decode_current hdec
        simp only [Command.lift]
        rw [Command.bind_apply]
        simp only [Command.get_apply]
        rw [Command.bind_apply]
        cases ho : handle cfg amb x2.ready x2.closing (current cfg x2.tables) e authorized with
        | error err => exact .nothing
        | ok o => exact commitConsumed_took hhanded hvalid ho

/-- An envelope is at most one step, and the latch. -/
theorem consume_path {e : Json} {authorized : Bool} (hl : l = .consume amb e authorized)
    (hhanded : Handed x.tables e) :
    Command.Path (Change cfg l) x (Command.after (consume cfg amb e authorized x)) := by
  obtain ⟨y, htook, hafter⟩ := @consume_step cfg _ amb _ authorized hhanded
  have hpath : Command.Path (Change cfg l) x y := by
    rcases htook.change hl with rfl | hstep
    · exact Relation.ReflTransGen.refl
    · exact Relation.ReflTransGen.single hstep
  rcases hafter with hafter | hafter
  · rw [hafter]
    exact hpath
  · rw [hafter]
    exact hpath.trans path_failClosed

/-! ### Labels -/

/-- What the rest of the node keeps to: the drain hands over what `pending` gave, and nobody else
    writes the executor's key. -/
def Enabled (x : DurableExecutor) : Label → Prop
  | .consume _ e _ => Handed x.tables e
  | .elsewhere call => writesKey call ≠ some stateKey
  | _ => True

/-- **Everything a label does.** -/
theorem perform_path (h : Enabled x l) :
    Command.Path (Change cfg l) x (Command.after (perform cfg l x)) := by
  cases l with
  | consume amb e authorized => exact consume_path rfl h
  | tick amb => exact tick_path rfl
  | settle amb => exact settle_path rfl (fun ⟨_, _, h⟩ => by simp at h) (Or.inl trivial)
  | recover => exact recover_path
  | close amb => exact close_path rfl fun ⟨_, _, h⟩ => by simp at h
  -- a reply whose call is not on record finds nothing to go on with
  | settleReply amb r =>
    refine Command.path_bind Relation.ReflTransGen.refl fun y x1 h1 => ?_
    injection h1 with h1 h1'
    subst h1 h1'
    cases hpc : x.settling with
    | some pc => exact runSettle_path (settleOn_path hpc rfl)
    | none => exact Relation.ReflTransGen.refl
  | recoverReply amb r =>
    refine Command.path_bind Relation.ReflTransGen.refl fun y x1 h1 => ?_
    injection h1 with h1 h1'
    subst h1 h1'
    cases hpc : x.recovering with
    | some pc => exact recoverOn_path rfl hpc
    | none => exact Relation.ReflTransGen.refl
  | lateReply amb i r =>
    refine Command.path_bind Relation.ReflTransGen.refl fun y x1 h1 => ?_
    injection h1 with h1 h1'
    subst h1 h1'
    cases hpc : x.late[i]? with
    | some pc => exact runLate_path rfl hpc
    | none => exact Relation.ReflTransGen.refl
  | closed outcome => exact path_flags (x := x) id (fun h => Or.inl h) id fun _ _ _ => Or.inr trivial
  | proved outcome => exact proveLive_path trivial
  | elsewhere call =>
    refine Relation.ReflTransGen.single (.aside ?_)
    exact committed_of_write (perform_write (Prod.ext rfl rfl)).1 h
  | fault => exact path_failClosed
  | restart => exact Relation.ReflTransGen.single (.restarted rfl)

end Paths

end Executor
end Qlong
