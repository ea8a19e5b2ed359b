import Qlong.Executor.System

/-!
# A run is started at most once

The call of `driver.start` is a side effect between two commits. `Begun cfg x f` says that `f`
cannot be launched any more: its generation has been given out, and if the run is in the slot, its
row says that it may have started. `StartInv` is the invariant: whatever has been started, or is
being asked about by a recovery, has begun, and the start that is queued is the slot's, and new.

The crash placements need no case of their own: a restart forgets the continuations, and `Begun`
is about the tables.
-/

namespace Qlong
namespace Executor

open Lib Node

variable {cfg : ExecutorConfig} {l : Label} {x x' : DurableExecutor}

/-- `f` cannot be launched any more. -/
def Begun (cfg : ExecutorConfig) (x : DurableExecutor) (f : LeaseFence) : Prop :=
  Marked cfg (fun run => run.mayHaveStarted = true) x f

theorem Begun.change {f : LeaseFence} (h : Change cfg l x x') (hf : Begun cfg x f) : Begun cfg x' f :=
  Marked.change (fun _ _ hkept => hkept.started) h hf

/-- A prepared run has not begun. -/
theorem not_begun {run : DurableRun} (hslot : (current cfg x.tables).slot = some run)
    (hvalid : (current cfg x.tables).isValid = true) (hphase : run.phase = .prepared) :
    ¬ Begun cfg x run.fence := by
  intro h
  have hno := DurableRun.valid_prepared (Snapshot.valid_slot hvalid hslot) hphase
  rw [h.2 run hslot rfl] at hno
  exact absurd hno (by simp)

/-- `f` is not started from here on. -/
def NeverAgain (cfg : ExecutorConfig) (x : DurableExecutor) (f : LeaseFence) : Prop :=
  Begun cfg x f ∧ ∀ pass, x.settling ≠ some (.startQueued pass f)

theorem NeverAgain.change {f : LeaseFence} (h : Change cfg l x x') (hf : NeverAgain cfg x f) :
    NeverAgain cfg x' f := by
  refine ⟨hf.1.change h, ?_⟩
  have hqueued := hf.2
  cases h with
  | flags | aside | consumed | tended | finished | asks | recovers | outlived | follows => exact hqueued
  | launched hloop hslot hvalid hphase hc =>
    intro pass heq
    injection heq with heq
    injection heq with _ heq
    exact not_begun hslot hvalid hphase (heq ▸ hf.1)
  | called hl h =>
    intro pass heq
    exact absurd heq (by simp)
  | waits hloop hpc hrecovering hstopping hpublishing =>
    intro pass heq
    injection heq with heq
    exact (hpc pass f).1 heq
  | rests =>
    intro pass heq
    exact absurd heq (by simp)
  | restarted hl =>
    intro pass heq
    exact absurd heq (by simp)

/-- The invariant of starts. -/
structure StartInv (cfg : ExecutorConfig) (x : DurableExecutor) : Prop where
  slot : ∀ run, (current cfg x.tables).slot = some run →
    run.fence.generation ≤ (current cfg x.tables).generation
  once : x.starts.Nodup
  begun : ∀ f ∈ x.starts, Begun cfg x f
  queued : ∀ pass f, x.settling = some (.startQueued pass f) → f ∉ x.starts ∧
    ∃ run, (current cfg x.tables).slot = some run ∧ run.fence = f ∧ run.mayHaveStarted = true
  waiting : ∀ pass f, x.settling = some (.startWaiting pass f) → f ∈ x.starts
  late : ∀ pc ∈ x.late, pc.fence ∈ x.starts
  asking : ∀ f, x.recovering = some (.asking f) → NeverAgain cfg x f
  loop : InLoop x ∨ x.starting = true → x.ready = true ∨ x.faulted = true

theorem StartInv.fresh : StartInv cfg .fresh where
  slot := fun run h => absurd h (by simp [Snapshot.empty])
  once := List.nodup_nil
  begun := fun f h => absurd h (by simp [DurableExecutor.fresh])
  queued := fun pass f h => absurd h (by simp [DurableExecutor.fresh])
  waiting := fun pass f h => absurd h (by simp [DurableExecutor.fresh])
  late := fun pc h => absurd h (by simp [DurableExecutor.fresh])
  asking := fun f h => absurd h (by simp [DurableExecutor.fresh])
  loop := fun h => by simp [InLoop, DurableExecutor.fresh] at h

/-! ## What a step keeps -/

theorem slot_le_change (h : Change cfg l x x')
    (hle : ∀ run, (current cfg x.tables).slot = some run →
      run.fence.generation ≤ (current cfg x.tables).generation) :
    ∀ run, (current cfg x'.tables).slot = some run →
      run.fence.generation ≤ (current cfg x'.tables).generation := by
  intro run hrun
  cases h.slotChange with
  | same hgen hslot =>
    rw [hgen]
    exact hle run (hslot ▸ hrun)
  | accepted hgen hfree hslot hfence hphase =>
    obtain rfl := Option.some.inj (hslot.symm.trans hrun)
    rw [hgen, hfence]
  | kept hgen hbefore hslot hkept =>
    obtain rfl := Option.some.inj (hslot.symm.trans hrun)
    rw [hgen, hkept.fence]
    exact hle _ hbefore
  | emptied hgen hslot =>
    rw [hslot] at hrun
    exact absurd hrun (by simp)

/-- A queued start keeps its run in the slot. -/
theorem queued_change {f : LeaseFence} {pass : Nat} (h : Change cfg l x x') (hI : StartInv cfg x)
    (hbefore : x.settling = some (.startQueued pass f)) :
    ∃ run, (current cfg x'.tables).slot = some run ∧ run.fence = f ∧ run.mayHaveStarted = true := by
  obtain ⟨hnew, run, hslot, hfence, hstarted⟩ := hI.queued pass f hbefore
  cases h with
  -- an end needs another call open, and every open call is of an older fence
  | finished hl hslot' hvalid hend hresult hmsg hlast hc =>
    obtain rfl := Option.some.inj (hslot.symm.trans hslot')
    rcases hend with hnot | ⟨pc, hpc, hlate⟩ | hasking
    · exact absurd hbefore (hnot pass f)
    · exact absurd (hI.late pc hpc) (by rw [hlate, hfence]; exact hnew)
    · have hne := (hI.asking _ hasking).2 pass
      rw [hfence] at hne
      exact absurd hbefore hne
  | flags | called | waits | rests | asks | recovers | outlived | follows | restarted =>
    exact ⟨run, hslot, hfence, hstarted⟩
  | aside hc => exact ⟨run, by rw [hc.state]; exact hslot, hfence, hstarted⟩
  | consumed hl hvalid hhandled hfree hc =>
    cases hhandled with
    | accepted h hmsg =>
      have hnone := (accepts_guards h).2.2.1
      rw [hslot] at hnone
      exact absurd hnone (by simp)
    | controlled hslot' hto hallowed hfresh =>
      obtain rfl := Option.some.inj (hslot.symm.trans hslot')
      refine ⟨_, by rw [hc.state], ?_, ?_⟩
      · exact (controlRun_controlled run _ _).kept.fence.trans hfence
      · exact (controlRun_controlled run _ _).kept.started hstarted
    | answered hno hcancel => exact ⟨run, by rw [hc.state]; exact hslot, hfence, hstarted⟩
  | tended hslot' hvalid htend hc =>
    obtain rfl := Option.some.inj (hslot.symm.trans hslot')
    exact ⟨_, by rw [hc.state], htend.kept.fence.trans hfence, htend.kept.started hstarted⟩
  | launched hloop hslot' hvalid hphase hc =>
    obtain rfl := Option.some.inj (hslot.symm.trans hslot')
    rw [hc.state]
    exact ⟨_, rfl, hfence, rfl⟩

/-- Whoever is in the loop, or starts, found the recovery done. -/
theorem loop_change (h : Change cfg l x x') (hI : InLoop x ∨ x.starting = true → x.ready = true ∨ x.faulted = true) :
    InLoop x' ∨ x'.starting = true → x'.ready = true ∨ x'.faulted = true := by
  cases h with
  | aside | consumed | tended | finished | outlived | follows => exact hI
  | flags hfaulted hready hstarting =>
    intro h
    -- the flags that were not on before need nothing
    have hon : x.ready = true ∨ x.faulted = true → _ := fun h => h.elim hready fun h => Or.inr (hfaulted h)
    rcases h with (hpc | hnow | hrec) | hstart
    · exact hon (hI (Or.inl (Or.inl hpc)))
    · exact Or.inl hnow
    · exact hon (hI (Or.inl (Or.inr (Or.inr hrec))))
    · exact hon (hI (Or.inr (hstarting hstart)))
  | launched hloop hslot hvalid hphase hc => exact fun _ => hI (Or.inl hloop)
  | called hl h => exact fun _ => hI (Or.inl (Or.inl ⟨_, h, by simp⟩))
  | @waits pc hloop hpc hrecovering hstopping =>
    intro h
    rcases h with (⟨pc', heq, hne⟩ | hnow | ⟨heq, hnone⟩) | hstart
    · obtain rfl := Option.some.inj heq
      exact hI (Or.inl (hloop hne))
    · exact Or.inl hnow
    · exact (hrecovering (Option.some.inj heq) hnone).elim Or.inl fun h => hI (Or.inr h)
    · exact hI (Or.inr hstart)
  | rests =>
    intro h
    rcases h with (⟨pc, heq, -⟩ | hnow | ⟨heq, -⟩) | hstart
    · exact absurd heq (by simp)
    · exact Or.inl hnow
    · exact absurd heq (by simp)
    · exact hI (Or.inr hstart)
  | asks hfree hhealthy hslot hstarted =>
    intro h
    rcases h with (hpc | hnow | ⟨-, hnone⟩) | hstart
    · exact hI (Or.inl (Or.inl hpc))
    · exact Or.inl hnow
    · exact absurd hnone (by simp)
    · exact hI (Or.inr hstart)
  | recovers hpc hready =>
    intro h
    rcases h with (hpc' | hnow | ⟨-, hnone⟩) | hstart
    · exact hI (Or.inl (Or.inl hpc'))
    · exact Or.inl hnow
    · exact hready hnone
    · exact hI (Or.inr hstart)
  | restarted hl =>
    intro h
    rcases h with (⟨pc, heq, -⟩ | hnow | ⟨heq, -⟩) | hstart
    · exact absurd heq (by simp)
    · exact absurd hnow (by simp)
    · exact absurd heq (by simp)
    · exact absurd hstart (by simp)

/-- A new recovery asks about a run that is not started any more. -/
theorem asks_never {run : DurableRun} (hI : StartInv cfg x) (hfree : x.ready = true → x.settling = none)
    (hhealthy : x.faulted = false) (hslot : (current cfg x.tables).slot = some run)
    (hstarted : run.mayHaveStarted = true) : NeverAgain cfg x run.fence := by
  refine ⟨⟨hI.slot run hslot, fun run' hrun' _ => ?_⟩, fun pass heq => ?_⟩
  · obtain rfl := Option.some.inj (hslot.symm.trans hrun')
    exact hstarted
  · rcases hI.loop (Or.inl (Or.inl ⟨_, heq, by simp⟩)) with hready | hfaulted
    · rw [hfree hready] at heq
      exact absurd heq (by simp)
    · rw [hhealthy] at hfaulted
      exact absurd hfaulted (by simp)

/-- A start that is launched is new. -/
theorem launched_new {run : DurableRun} (hI : StartInv cfg x) (hslot : (current cfg x.tables).slot = some run)
    (hvalid : (current cfg x.tables).isValid = true) (hphase : run.phase = .prepared) :
    run.fence ∉ x.starts :=
  fun hmem => not_begun hslot hvalid hphase (hI.begun _ hmem)

theorem once_change (h : Change cfg l x x') (hI : StartInv cfg x) : x'.starts.Nodup := by
  cases h with
  | called hl h =>
    rw [← List.concat_eq_append]
    exact List.Nodup.concat (hI.queued _ _ h).1 hI.once
  | _ => exact hI.once

theorem begun_change (h : Change cfg l x x') (hI : StartInv cfg x) : ∀ f ∈ x'.starts, Begun cfg x' f := by
  have hold : ∀ f ∈ x.starts, Begun cfg x' f := fun f hf => (hI.begun f hf).change h
  cases h with
  | called hl h =>
    intro f hf
    rcases List.mem_append.mp hf with hf | hf
    · exact hold f hf
    · obtain rfl := List.mem_singleton.mp hf
      obtain ⟨-, run, hslot, hfence, hstarted⟩ := hI.queued _ _ h
      refine ⟨hfence ▸ hI.slot run hslot, fun run' hrun' _ => ?_⟩
      obtain rfl := Option.some.inj (hslot.symm.trans hrun')
      exact hstarted
  | _ => exact hold

/-- A start that is queued was queued before, or has just been launched. -/
theorem queued_cases {f : LeaseFence} {pass : Nat} (h : Change cfg l x x')
    (heq : x'.settling = some (.startQueued pass f)) : x'.starts = x.starts ∧
      (x.settling = some (.startQueued pass f) ∨ ∃ run, (current cfg x.tables).slot = some run ∧
        (current cfg x.tables).isValid = true ∧ run.phase = .prepared ∧ run.fence = f ∧
        (current cfg x'.tables).slot = some { run with phase := .starting, mayHaveStarted := true }) := by
  cases h with
  | flags | aside | consumed | tended | finished | asks | recovers | outlived | follows =>
    exact ⟨rfl, Or.inl heq⟩
  | launched hloop hslot hvalid hphase hc =>
    injection heq with heq
    injection heq with _ heq
    refine ⟨rfl, Or.inr ⟨_, hslot, hvalid, hphase, heq, ?_⟩⟩
    rw [hc.state]
  | called hl h => exact absurd heq (by simp)
  | waits hloop hpc hrecovering hstopping hpublishing => exact absurd (Option.some.inj heq) (hpc pass f).1
  | rests => exact absurd heq (by simp)
  | restarted hl => exact absurd heq (by simp)

theorem new_change {f : LeaseFence} {pass : Nat} (h : Change cfg l x x') (hI : StartInv cfg x)
    (heq : x'.settling = some (.startQueued pass f)) : f ∉ x'.starts ∧
      ∃ run, (current cfg x'.tables).slot = some run ∧ run.fence = f ∧ run.mayHaveStarted = true := by
  obtain ⟨hstarts, hbefore | ⟨run, hslot, hvalid, hphase, rfl, hslot'⟩⟩ := queued_cases h heq
  · rw [hstarts]
    exact ⟨(hI.queued pass f hbefore).1, queued_change h hI hbefore⟩
  · rw [hstarts]
    exact ⟨launched_new hI hslot hvalid hphase, _, hslot', rfl, rfl⟩

theorem waiting_change {f : LeaseFence} {pass : Nat} (h : Change cfg l x x') (hI : StartInv cfg x)
    (heq : x'.settling = some (.startWaiting pass f)) : f ∈ x'.starts := by
  cases h with
  | flags | aside | consumed | tended | finished | asks | recovers | outlived | follows =>
    exact hI.waiting pass f heq
  | launched hloop hslot' hvalid hphase hc => exact absurd heq (by simp)
  | called hl h =>
    injection heq with heq
    injection heq with _ heq
    subst heq
    exact List.mem_append_right _ (List.mem_singleton_self _)
  | waits hloop hpc hrecovering hstopping hpublishing => exact absurd (Option.some.inj heq) (hpc pass f).2
  | rests => exact absurd heq (by simp)
  | restarted hl => exact absurd heq (by simp)

theorem late_change (h : Change cfg l x x') (hI : StartInv cfg x) : ∀ pc ∈ x'.late, pc.fence ∈ x'.starts := by
  cases h with
  | called hl h => exact fun pc hpc => List.mem_append_left _ (hI.late pc hpc)
  | outlived hpc h =>
    intro pc hmem
    rcases List.mem_append.mp hmem with hmem | hmem
    · exact hI.late pc hmem
    · rw [List.mem_singleton.mp hmem]
      exact hI.waiting _ _ hpc
  | follows h hpublishing =>
    intro pc hmem
    obtain ⟨pc0, hmem0, hfence⟩ := h pc hmem
    rw [← hfence]
    exact hI.late pc0 hmem0
  | restarted hl => exact fun pc hpc => absurd hpc (by simp)
  | _ => exact hI.late

theorem asking_change {f : LeaseFence} (h : Change cfg l x x') (hI : StartInv cfg x)
    (heq : x'.recovering = some (.asking f)) : NeverAgain cfg x' f := by
  have hold : x.recovering = some (.asking f) → NeverAgain cfg x' f := fun hf => (hI.asking f hf).change h
  cases h with
  | asks hfree hhealthy hslot hstarted =>
    injection heq with heq
    injection heq with heq
    subst heq
    have hnever := asks_never hI hfree hhealthy hslot hstarted
    exact hnever
  | recovers hpc hready => exact absurd heq (hpc f)
  | restarted hl => exact absurd heq (by simp)
  | _ => exact hold heq

theorem StartInv.change (h : Change cfg l x x') (hI : StartInv cfg x) : StartInv cfg x' where
  slot := slot_le_change h hI.slot
  once := once_change h hI
  begun := begun_change h hI
  queued := fun _ _ => new_change h hI
  waiting := fun _ _ => waiting_change h hI
  late := late_change h hI
  asking := fun _ => asking_change h hI
  loop := loop_change h hI.loop

/-! ## Runs -/

/-- The entry calls `driver.start` with `f`. -/
def Calls (e : Entry DurableExecutor Label) (f : LeaseFence) : Prop := e.post.starts = e.pre.starts ++ [f]

/-- The entry restarts the process, or begins a recovery, over a slot of `f` that may have started. -/
def Recovers (cfg : ExecutorConfig) (e : Entry DurableExecutor Label) (f : LeaseFence) : Prop :=
  (e.label = .restart ∨ e.post.recovering = some (.asking f)) ∧
  ∃ run, (current cfg e.post.tables).slot = some run ∧ run.fence = f ∧ run.mayHaveStarted = true

theorem starts_kept (h : Command.Path (Change cfg l) x x') (hl : ∀ amb, l ≠ .settleReply amb .called) :
    x'.starts = x.starts := by
  refine Command.path_keeps (I := fun y => y.starts = x.starts) (fun y y' hstep hy => ?_) h rfl
  cases hstep with
  | called hcall h => exact absurd hcall (hl _)
  | _ => exact hy

theorem perform_settleReply {amb : Ambient} {r : Reply} {pc : SettlePc} (hpc : x.settling = some pc) :
    perform cfg (.settleReply amb r) x = runSettle (settleOn cfg amb pc r) x := by
  simp only [perform, Command.bind_apply, Command.get_apply, hpc]

/-- The queued call starts its fence, unless the executor is faulted by now. -/
theorem perform_called {amb : Ambient} {pass : Nat} {f : LeaseFence}
    (hpc : x.settling = some (.startQueued pass f)) :
    (Command.after (perform cfg (.settleReply amb .called) x)).starts =
      if x.faulted then x.starts else x.starts ++ [f] := by
  rw [perform_settleReply hpc]
  unfold runSettle settleOn
  cases hfaulted : x.faulted with
  | true =>
    have hlost : ∀ y : DurableExecutor, (Command.after (startLost cfg pass f .execution_interrupted y)).starts =
        y.starts := by
      intro y
      unfold startLost unknown
      simp only [Command.bind_apply]
      rcases @change_cases cfg (onFence f (unknownRun .execution_interrupted)) y with
        ⟨err, h⟩ | ⟨h, -, -⟩ | ⟨s', outbox, t', -, -, -, h⟩ <;>
      · rw [h]
        rfl
    have hx := hlost { x with faulted := true, starting := false }
    simp only [Command.bind_apply, Command.get_apply, Command.modify_apply, hfaulted, if_true]
    cases h : startLost cfg pass f .execution_interrupted { x with faulted := true, starting := false } with
    | ok u x' =>
      rw [h] at hx
      exact hx
    | error e x' =>
      rw [h] at hx
      exact hx
  | false =>
    simp only [Command.bind_apply, Command.get_apply, hfaulted, Bool.false_eq_true,
      if_false]
    rfl

/-- Any other answer to a call that is not queued is not listened to. -/
theorem perform_uncalled {amb : Ambient} (hpc : ∀ pass f, x.settling ≠ some (.startQueued pass f)) :
    (Command.after (perform cfg (.settleReply amb .called) x)).starts = x.starts := by
  cases hsettling : x.settling with
  | none => simp only [perform, Command.bind_apply, Command.get_apply, hsettling]; rfl
  | some pc =>
    rw [perform_settleReply hsettling]
    cases pc with
    | startQueued pass f => exact absurd hsettling (hpc pass f)
    | _ => rfl

/-- An entry starts nothing, or what is queued and in the slot before it. -/
theorem starts_step {e : Entry DurableExecutor Label} (hstep : (executorSystem cfg).step e.pre e.label e.post)
    (hI : StartInv cfg e.pre) :
    e.post.starts = e.pre.starts ∨ ∃ f run, Calls e f ∧ (∃ pass, e.pre.settling = some (.startQueued pass f)) ∧
      (current cfg e.pre.tables).slot = some run ∧ run.fence = f ∧ run.mayHaveStarted = true := by
  by_cases hcall : ∃ amb, e.label = .settleReply amb .called
  · obtain ⟨amb, hlabel⟩ := hcall
    have hpost := hstep.2
    rw [hlabel] at hpost
    by_cases hqueued : ∃ pass f, e.pre.settling = some (.startQueued pass f)
    · obtain ⟨pass, f, hpc⟩ := hqueued
      have hstarts := @perform_called cfg _ amb _ _ hpc
      rw [← hpost] at hstarts
      split at hstarts
      · exact Or.inl hstarts
      · obtain ⟨-, run, hslot, hfence, hstarted⟩ := hI.queued pass f hpc
        exact Or.inr ⟨f, run, hstarts, ⟨pass, hpc⟩, hslot, hfence, hstarted⟩
    · have hstarts := @perform_uncalled cfg _ amb fun pass f hpc => hqueued ⟨pass, f, hpc⟩
      rw [← hpost] at hstarts
      exact Or.inl hstarts
  · exact Or.inl (starts_kept (executor_path hstep) fun amb hl => hcall ⟨amb, hl⟩)

/-- A restart, or the question of a recovery, settles that a run is not started any more. -/
theorem recovers_never {e : Entry DurableExecutor Label} {f : LeaseFence}
    (hstep : (executorSystem cfg).step e.pre e.label e.post) (hI : StartInv cfg e.post)
    (h : Recovers cfg e f) : NeverAgain cfg e.post f := by
  obtain ⟨hwhy, run, hslot, rfl, hstarted⟩ := h
  rcases hwhy with hlabel | hasking
  · refine ⟨⟨hI.slot run hslot, fun run' hrun' _ => ?_⟩, fun pass heq => ?_⟩
    · obtain rfl := Option.some.inj (hslot.symm.trans hrun')
      exact hstarted
    · have hpost := hstep.2
      rw [hlabel] at hpost
      rw [hpost] at heq
      exact absurd heq (by simp [perform, Command.modify_apply,
        Command.after])
  · exact hI.asking _ hasking

/-- **A run is started at most once, and only from the slot.** In every run of the executor: no
    fence is started twice; what is started is in the slot, recorded there as possibly started
    before the call; and what a restart or a recovery finds recorded like that is never started
    again. -/
theorem start_at_most_once {hist : List (Entry DurableExecutor Label)} (run : Run (executorSystem cfg) hist x) :
    x.starts.Nodup ∧
    (∀ e ∈ hist, e.post.starts = e.pre.starts ∨ ∃ f run, Calls e f ∧
      (current cfg e.pre.tables).slot = some run ∧ run.fence = f ∧ run.mayHaveStarted = true) ∧
    ∀ f, hist.Pairwise fun later earlier => ¬ (Calls later f ∧ Recovers cfg earlier f) := by
  have hinv := executor_invariant_mem run StartInv.fresh fun l x x' h hI => StartInv.change h hI
  refine ⟨(executor_invariant run StartInv.fresh fun l x x' h hI => StartInv.change h hI).once, ?_, ?_⟩
  · intro e he
    rcases starts_step (run.step_of_mem e he) (hinv e he).1 with hsame | ⟨f, r, hcalls, -, hslot⟩
    · exact Or.inl hsame
    · exact Or.inr ⟨f, r, hcalls, hslot⟩
  · intro f
    refine run.never (Q := fun x => NeverAgain cfg x f) ?_ ?_ ?_
    · exact fun e he hrecovers => recovers_never (run.step_of_mem e he) (hinv e he).2 hrecovers
    · intro e he hQ
      exact Command.path_keeps (I := fun x => NeverAgain cfg x f) (fun _ _ h hQ => hQ.change h)
        (executor_path (run.step_of_mem e he)) hQ
    · intro e he hcalls hQ
      rcases starts_step (run.step_of_mem e he) (hinv e he).1 with hsame | ⟨f', r, hcalls', ⟨pass, hpc⟩, -⟩
      · rw [Calls, hsame] at hcalls
        exact absurd hcalls (by simp)
      · obtain rfl := List.singleton_inj.mp (List.append_cancel_left (hcalls.symm.trans hcalls'))
        exact hQ.2 pass hpc

namespace Started

def config : ExecutorConfig := Sample.executor
  [(Sample.offer 1 0 Qlong.Sample.task 1,
      "a0f0c31b015149c5c46ef0f0c9788b4a7ec2445fe97b79b8e33e3287375c40b7"),
    (Sample.offerBody, "1d454bf41564d4bcc6228c393122f362e9f35337ba1840f013dcd702f765c3fb"),
    (Sample.acceptance 2 0 Qlong.Sample.task 1 1 1,
      "33bedc92a1284a7bb32e54dbde7f788bc1fcc58d3d01e11f39f3182ef24e3b45")] false

/-- An offer is accepted, and its run is started. -/
def labels : List Label :=
  [.settleReply (Sample.ambient 4 0) .called, .settle (Sample.ambient 3 0),
    .consume (Sample.ambient 2 0) (Sample.offer 1 0 Qlong.Sample.task 1) true,
    .elsewhere (.receive (Sample.offer 1 0 Qlong.Sample.task 1)), .recover]

end Started

open Started in
theorem start_at_most_once_started :
    (play (occur config) .fresh labels).2.starts = [⟨Qlong.Sample.task, 1, 1, Qlong.Sample.msg 52⟩] ∧
    (play (occur config) .fresh labels).2.starts.Nodup :=
  ⟨by decide +kernel, (start_at_most_once (run_occur config labels)).1⟩

end Executor
end Qlong
