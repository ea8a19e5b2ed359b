import Qlong.Executor.Endings
import Qlong.Executor.Handles
import Qlong.Executor.StartOnce

/-!
# What the driver remembers of a run

After a crash the executor asks the driver about the run in the slot, and the driver reads the handle
row. `Traced` is the invariant of a run that has been recorded: while it is in the slot, the row
is its handle. A newer run cannot write over it, since a start is queued for the run in the slot only
and no fence is started twice. `Untraced` is where the `close` event leaves it: no handle of its
fence will ever be there again.

The `close` event comes first, and the executor's commit of the end comes later. **`recovery_complete`**:
a recovery after the process is gone frees the slot exactly when no `close` event of that run has been
handled before.
-/

namespace Qlong
namespace Executor

open Lib Node

variable {cfg : ExecutorConfig} {y : DrivenNode} {f : LeaseFence} {pid : Int}

/-! ## Steps of the driven node -/

theorem aside_rewrites {l : Label} {x : DurableExecutor} {value : Json} {t : Tables}
    (h : Rewrites cfg.store x.tables value t) : Change cfg l x { x with tables := t } := by
  obtain ⟨expected, transform, reply, hwrite⟩ := h.write
  exact .aside (committed_of_write hwrite (by simp [writesKey, runHandleKey, stateKey]))

/-- The tables of a driver's call are those the executor goes on with, or nothing has happened. -/
theorem driverStart_path {l : Label} {p : Option Int} {startedAt : Int} {broken : Bool} :
    Command.Path (Change cfg l) y.executor (driverStart cfg.store f p startedAt broken y).executor := by
  unfold driverStart
  cases p with
  | none => exact Relation.ReflTransGen.refl
  | some p =>
    dsimp only
    cases hr : unlessBroken broken (recordHandle cfg.store y.executor.tables ⟨f, p, startedAt⟩) with
    | error e => exact Relation.ReflTransGen.refl
    | ok t =>
      unfold unlessBroken at hr
      split at hr
      · exact absurd hr (by simp)
      · exact Relation.ReflTransGen.single (aside_rewrites (recordHandle_ok hr))

theorem driverClose_path {l : Label} {broken : Bool} :
    Command.Path (Change cfg l) y.executor (driverClose cfg.store f broken y).executor := by
  unfold driverClose
  dsimp only
  cases hr : unlessBroken broken (clearHandle cfg.store y.executor.tables f) with
  | error e => exact Relation.ReflTransGen.refl
  | ok t =>
    unfold unlessBroken at hr
    split at hr
    · exact absurd hr (by simp)
    · rcases clearHandle_ok hr with ⟨rfl, -⟩ | ⟨hw, -⟩
      · exact Relation.ReflTransGen.refl
      · exact Relation.ReflTransGen.single (aside_rewrites hw)

/-- A step of the driven node is a path of the executor's small steps. -/
theorem drive_path {l : DrivenLabel} (h : CanDrive y l) :
    ∃ l', Command.Path (Change cfg l') y.executor (drive cfg y l).executor := by
  cases l with
  | executor l =>
    refine ⟨l, ?_⟩
    have hpath := @perform_path cfg l y.executor h.1
    cases l <;> exact hpath
  | called amb p startedAt broken =>
    refine ⟨.settleReply amb .called, ?_⟩
    have hpath := @perform_path cfg (.settleReply amb .called) y.executor trivial
    unfold drive
    dsimp only
    split
    · split
      · exact hpath
      · exact hpath.trans (driverStart_path (y := { y with executor := _ }))
    · exact hpath
  | closes fence broken => exact ⟨.fault, driverClose_path⟩
  | exits p => exact ⟨.fault, Relation.ReflTransGen.refl⟩
  | appears p => exact ⟨.fault, Relation.ReflTransGen.refl⟩

/-! ## The invariant of the driven node -/

/-- A start that is queued has a valid fence. -/
def QueuedValid (x : DurableExecutor) : Prop :=
  ∀ pass f, x.settling = some (.startQueued pass f) → isLeaseFence f = true

theorem QueuedValid.change {l : Label} {x x' : DurableExecutor} (h : Change cfg l x x') (hI : QueuedValid x) :
    QueuedValid x' := by
  intro pass f heq
  obtain ⟨-, hbefore | ⟨run, hslot, hvalid, -, rfl, -⟩⟩ := queued_cases h heq
  · exact hI pass f hbefore
  · have hrun := Snapshot.valid_slot hvalid hslot
    simp only [DurableRun.isValid, Bool.and_eq_true] at hrun
    exact hrun.1.1.1.1.1.1.1.1.1.1.1.1.1.1

theorem starts_change {l : Label} {x x' : DurableExecutor} (h : Change cfg l x x') (hf : f ∈ x.starts) :
    f ∈ x'.starts := by
  cases h with
  | called hl h => exact List.mem_append_left _ hf
  | _ => exact hf

structure DrivenInv (cfg : ExecutorConfig) (y : DrivenNode) : Prop where
  starts : StartInv cfg y.executor
  queued : QueuedValid y.executor
  children : ∀ child ∈ y.children, child.fence ∈ y.executor.starts

theorem DrivenInv.fresh (alive : List Int) : DrivenInv cfg ⟨.fresh, alive, [], []⟩ where
  starts := .fresh
  queued := fun pass f h => absurd h (by simp [DurableExecutor.fresh])
  children := fun child h => absurd h (by simp)

/-- What the call of `driver.start` does: nothing the driver notices, or a start of the queued run. -/
theorem called_cases {amb : Ambient} {p : Option Int} {startedAt : Int} {broken : Bool} (cfg : ExecutorConfig)
    (y : DrivenNode) :
    (drive cfg y (.called amb p startedAt broken)).executor =
        Command.after (perform cfg (.settleReply amb .called) y.executor) ∧
      (drive cfg y (.called amb p startedAt broken)).children = y.children ∨
    ∃ pass g, y.executor.settling = some (.startQueued pass g) ∧ y.executor.faulted = false ∧
      (Command.after (perform cfg (.settleReply amb .called) y.executor)).starts = y.executor.starts ++ [g] ∧
      drive cfg y (.called amb p startedAt broken) = driverStart cfg.store g p startedAt broken
        { y with executor := Command.after (perform cfg (.settleReply amb .called) y.executor) } := by
  unfold drive
  dsimp only
  split
  · rename_i pass g hqueued
    cases hfaulted : y.executor.faulted with
    | true => exact Or.inl ⟨rfl, rfl⟩
    | false =>
      have hstarts := @perform_called cfg _ amb _ _ hqueued
      rw [hfaulted] at hstarts
      exact Or.inr ⟨pass, g, hqueued, rfl, hstarts, rfl⟩
  · exact Or.inl ⟨rfl, rfl⟩

/-- A start that is not recorded, or recorded. -/
theorem driverStart_cases (c : Config) (g : LeaseFence) (p : Option Int) (startedAt : Int) (broken : Bool)
    (y : DrivenNode) :
    (driverStart c g p startedAt broken y).executor = y.executor ∧
        ((driverStart c g p startedAt broken y).children = y.children ∨
          p = none ∧ (driverStart c g p startedAt broken y).children = y.children ++ [⟨g, none, true⟩]) ∨
    ∃ pid t, p = some pid ∧ recordHandle c y.executor.tables ⟨g, pid, startedAt⟩ = .ok t ∧
      driverStart c g p startedAt broken y = { y with
        executor := { y.executor with tables := t }
        alive := y.alive ++ [pid]
        children := y.children ++ [⟨g, some pid, false⟩] } := by
  unfold driverStart
  cases p with
  | none => exact Or.inl ⟨rfl, Or.inr ⟨rfl, rfl⟩⟩
  | some pid =>
    dsimp only
    cases hr : unlessBroken broken (recordHandle c y.executor.tables ⟨g, pid, startedAt⟩) with
    | error e => exact Or.inl ⟨rfl, Or.inl rfl⟩
    | ok t =>
      refine Or.inr ⟨pid, t, rfl, ?_, rfl⟩
      unfold unlessBroken at hr
      split at hr
      · exact absurd hr (by simp)
      · exact hr

/-- A `close` event whose clear fails, or goes through. -/
theorem driverClose_cases (c : Config) (g : LeaseFence) (broken : Bool) (y : DrivenNode) :
    (driverClose c g broken y).executor = y.executor ∨
    ∃ t, broken = false ∧ clearHandle c y.executor.tables g = .ok t ∧
      (driverClose c g broken y).executor = { y.executor with tables := t } := by
  unfold driverClose
  dsimp only
  cases hr : unlessBroken broken (clearHandle c y.executor.tables g) with
  | error e => exact Or.inl rfl
  | ok t =>
    unfold unlessBroken at hr
    split at hr
    · exact absurd hr (by simp)
    · rename_i hbroken
      exact Or.inr ⟨t, by simpa using hbroken, hr, rfl⟩

theorem driverClose_children (c : Config) (g : LeaseFence) (broken : Bool) (y : DrivenNode) :
    (driverClose c g broken y).children = y.children.filter fun child => child.fence ≠ g := by
  unfold driverClose
  dsimp only
  split <;> rfl

/-- **The invariant is kept.** -/
theorem DrivenInv.step {l : DrivenLabel} (h : CanDrive y l) (hI : DrivenInv cfg y) : DrivenInv cfg (drive cfg y l) := by
  obtain ⟨l', hpath⟩ := @drive_path cfg y l h
  have hgrown : ∀ f ∈ y.executor.starts, f ∈ (drive cfg y l).executor.starts := fun f hf =>
    Command.path_keeps (I := fun x => f ∈ x.starts) (fun _ _ hc hf => starts_change hc hf) hpath hf
  refine ⟨Command.path_keeps (I := StartInv cfg) (fun _ _ hc hI => hI.change hc) hpath hI.starts,
    Command.path_keeps (I := QueuedValid) (fun _ _ hc hI => hI.change hc) hpath hI.queued, ?_⟩
  intro child hchild
  cases l with
  | executor l =>
    refine hgrown _ (hI.children child ?_)
    cases l <;> first | exact hchild | exact absurd hchild (by simp [drive])
  | called amb p startedAt broken =>
    rcases called_cases cfg y with ⟨-, hchildren⟩ | ⟨pass, g, -, -, hstarts, hdrive⟩
    · rw [hchildren] at hchild
      exact hgrown _ (hI.children child hchild)
    · have hg : g ∈ (drive cfg y (.called amb p startedAt broken)).executor.starts := by
        rw [hdrive]
        have hlast : g ∈ (Command.after (perform cfg (.settleReply amb .called) y.executor)).starts := by
          rw [hstarts]
          exact List.mem_append_right _ (List.mem_singleton_self g)
        rcases driverStart_cases cfg.store g p startedAt broken
            { y with executor := Command.after (perform cfg (.settleReply amb .called) y.executor) } with
          ⟨hexecutor, -⟩ | ⟨pid, t, -, -, heq⟩
        · rw [hexecutor]
          exact hlast
        · rw [heq]
          exact hlast
      have hold : child ∈ y.children ∨ child.fence = g := by
        rw [hdrive] at hchild
        rcases driverStart_cases cfg.store g p startedAt broken
            { y with executor := Command.after (perform cfg (.settleReply amb .called) y.executor) } with
          ⟨-, hsame | ⟨-, hnew⟩⟩ | ⟨pid, t, -, -, heq⟩
        · exact Or.inl (hsame ▸ hchild)
        · rw [hnew] at hchild
          rcases List.mem_append.mp hchild with hchild | hchild
          · exact Or.inl hchild
          · exact Or.inr (by rw [List.mem_singleton.mp hchild])
        · rw [heq] at hchild
          rcases List.mem_append.mp hchild with hchild | hchild
          · exact Or.inl hchild
          · exact Or.inr (by rw [List.mem_singleton.mp hchild])
      rcases hold with hold | rfl
      · exact hgrown _ (hI.children child hold)
      · exact hg
  | closes fence broken =>
    rw [drive, driverClose_children] at hchild
    exact hgrown _ (hI.children child (List.mem_of_mem_filter hchild))
  | exits p =>
    obtain ⟨child', hchild', rfl⟩ := List.mem_map.mp hchild
    have hfence := hgrown _ (hI.children child' hchild')
    split <;> exact hfence
  | appears p => exact hgrown _ (hI.children child hchild)

theorem driven_inv {hist : List (Entry DrivenNode DrivenLabel)} (run : Run (drivenSystem cfg) hist y) :
    DrivenInv cfg y ∧ ∀ e ∈ hist, DrivenInv cfg e.pre ∧ DrivenInv cfg e.post := by
  have hbase : ∀ y, (drivenSystem cfg).init y → DrivenInv cfg y := by
    rintro y ⟨alive, rfl⟩
    exact .fresh alive
  have hcarry : ∀ e ∈ hist, (drivenSystem cfg).step e.pre e.label e.post → DrivenInv cfg e.pre →
      DrivenInv cfg e.post := by
    rintro e - ⟨hcan, hpost⟩ hI
    rw [hpost]
    exact hI.step hcan
  exact ⟨run.invariant hbase hcarry, run.invariant_mem hbase hcarry⟩

/-! ## What is remembered -/

/-- The run of this fence is in the slot. -/
def OnSlot (cfg : ExecutorConfig) (f : LeaseFence) (x : DurableExecutor) : Prop :=
  ∃ run, (current cfg x.tables).slot = some run ∧ run.fence = f

/-- A run whose generation has been given out does not come into the slot any more. -/
theorem onSlot_before {l : Label} {x x' : DurableExecutor} (hpath : Command.Path (Change cfg l) x x')
    (hgen : f.generation ≤ (current cfg x.tables).generation) (hon : OnSlot cfg f x') : OnSlot cfg f x := by
  have hboth : f.generation ≤ (current cfg x'.tables).generation ∧ (OnSlot cfg f x' → OnSlot cfg f x) := by
    refine Command.path_keeps (I := fun x' => f.generation ≤ (current cfg x'.tables).generation ∧
      (OnSlot cfg f x' → OnSlot cfg f x)) ?_ hpath ⟨hgen, id⟩
    intro x1 x2 hstep hI
    cases hstep.slotChange with
    | same hsame hslot =>
      refine ⟨by rw [hsame]; exact hI.1, ?_⟩
      rintro ⟨run, hrun, hfence⟩
      exact hI.2 ⟨run, hslot ▸ hrun, hfence⟩
    | accepted hnext hfree hslot hfence hphase =>
      refine ⟨by rw [hnext]; exact hI.1.trans (by omega), ?_⟩
      rintro ⟨run, hrun, rfl⟩
      obtain rfl := Option.some.inj (hslot.symm.trans hrun)
      exact absurd hI.1 (by omega)
    | kept hsame hbefore hslot hkept =>
      refine ⟨by rw [hsame]; exact hI.1, ?_⟩
      rintro ⟨run, hrun, hfence⟩
      obtain rfl := Option.some.inj (hslot.symm.trans hrun)
      exact hI.2 ⟨_, hbefore, hkept.fence.symm.trans hfence⟩
    | emptied hsame hslot =>
      refine ⟨by rw [hsame]; exact hI.1, ?_⟩
      rintro ⟨run, hrun, -⟩
      rw [hslot] at hrun
      exact absurd hrun (by simp)
  exact hboth.2 hon

/-- The entry spawns a process for `f` and records its pid. -/
def Spawns (e : Entry DrivenNode DrivenLabel) (f : LeaseFence) (pid : Int) : Prop :=
  ∃ amb startedAt broken, e.label = .called amb (some pid) startedAt broken ∧
    e.post.children = e.pre.children ++ [⟨f, some pid, false⟩]

/-- The entry handles the `close` event of the process of `f`, and its handle is cleared. -/
def Clears (cfg : ExecutorConfig) (e : Entry DrivenNode DrivenLabel) (f : LeaseFence) : Prop :=
  e.label = .closes f false ∧ ∃ t, clearHandle cfg.store e.pre.executor.tables f = .ok t

/-- While the run of `f` is in the slot, the handle row holds its pid. -/
structure Traced (cfg : ExecutorConfig) (f : LeaseFence) (pid : Int) (y : DrivenNode) : Prop where
  started : f ∈ y.executor.starts
  handle : OnSlot cfg f y.executor → ∃ h, loadHandle y.executor.tables f = .ok (some h) ∧ h.pid = pid

/-- `f` has been started, and there is no handle of it. -/
structure Untraced (f : LeaseFence) (y : DrivenNode) : Prop where
  started : f ∈ y.executor.starts
  handle : ∀ h, loadHandle y.executor.tables f ≠ .ok (some h)

theorem started_step {l : DrivenLabel} (h : CanDrive y l) (hf : f ∈ y.executor.starts) :
    f ∈ (drive cfg y l).executor.starts := by
  obtain ⟨l', hpath⟩ := @drive_path cfg y l h
  exact Command.path_keeps (I := fun x => f ∈ x.starts) (fun _ _ hc hf => starts_change hc hf) hpath hf

/-- The executor's stretches leave the handle row alone. -/
theorem load_performed {l : Label} {x : DurableExecutor} (hl : ∀ call, l = .elsewhere call → writesKey call ≠ some runHandleKey) :
    loadHandle (Command.after (perform cfg l x)).tables f = loadHandle x.tables f :=
  loadHandle_congr (perform_row (by decide) hl)

theorem load_executor {l : Label} (h : CanDrive y (.executor l)) :
    loadHandle (drive cfg y (.executor l)).executor.tables f = loadHandle y.executor.tables f := by
  have hload : loadHandle (Command.after (perform cfg l y.executor)).tables f = loadHandle y.executor.tables f := by
    refine load_performed ?_
    rintro call rfl
    exact h.2
  cases l <;> exact hload

/-- **A run that has been recorded is remembered until its handle is cleared.** -/
theorem Traced.step {l : DrivenLabel} (h : CanDrive y l) (hI : DrivenInv cfg y) (hf : Traced cfg f pid y)
    (hno : ∀ t, l = .closes f false → clearHandle cfg.store y.executor.tables f ≠ .ok t) :
    Traced cfg f pid (drive cfg y l) := by
  refine ⟨started_step h hf.started, fun hon => ?_⟩
  obtain ⟨l', hpath⟩ := @drive_path cfg y l h
  have hbefore := onSlot_before hpath (hI.starts.begun f hf.started).1 hon
  obtain ⟨handle, hload, hpid⟩ := hf.handle hbefore
  refine ⟨handle, ?_, hpid⟩
  cases l with
  | executor l =>
    rw [load_executor h]
    exact hload
  -- the one step that could write another handle: a start, and it is not of `f`
  | called amb p startedAt broken =>
    have hperformed : loadHandle (Command.after (perform cfg (.settleReply amb .called) y.executor)).tables f =
        .ok (some handle) := by
      rw [load_performed (by simp)]
      exact hload
    rcases called_cases cfg y with ⟨hexecutor, -⟩ | ⟨pass, g, hqueued, -, -, -⟩
    · rw [hexecutor]
      exact hperformed
    · -- what is queued is in the slot and has not been started
      obtain ⟨hnew, run, hslot, hfence, -⟩ := hI.starts.queued pass g hqueued
      obtain ⟨run', hslot', hfence'⟩ := hbefore
      obtain rfl := Option.some.inj (hslot.symm.trans hslot')
      rw [← hfence, hfence'] at hnew
      exact absurd hf.started hnew
  | closes g broken =>
    rcases driverClose_cases cfg.store g broken y with hsame | ⟨t, rfl, hclear, hexecutor⟩
    · rw [drive, hsame]
      exact hload
    · rw [drive, hexecutor]
      -- a handle is deleted for its own fence only
      have hne : f ≠ g := by
        rintro rfl
        exact hno t rfl hclear
      exact clearHandle_other hclear hne hload
  | exits p => exact hload
  | appears p => exact hload

/-- **A run whose handle has been cleared is forgotten for good.** -/
theorem Untraced.step {l : DrivenLabel} (h : CanDrive y l) (hI : DrivenInv cfg y) (hf : Untraced f y) :
    Untraced f (drive cfg y l) := by
  refine ⟨started_step h hf.started, ?_⟩
  cases l with
  | executor l =>
    intro handle
    rw [load_executor h]
    exact hf.handle handle
  | called amb p startedAt broken =>
    have hperformed : ∀ handle, loadHandle (Command.after (perform cfg (.settleReply amb .called) y.executor)).tables f ≠
        .ok (some handle) := by
      intro handle
      rw [load_performed (by simp)]
      exact hf.handle handle
    rcases called_cases cfg y with ⟨hexecutor, -⟩ | ⟨pass, g, hqueued, -, -, hdrive⟩
    · rw [hexecutor]
      exact hperformed
    · rw [hdrive]
      rcases driverStart_cases cfg.store g p startedAt broken
          { y with executor := Command.after (perform cfg (.settleReply amb .called) y.executor) } with
        ⟨hsame, -⟩ | ⟨pid, t, rfl, hrecord, heq⟩
      · rw [hsame]
        exact hperformed
      · -- the handle of another run: no fence is started twice
        intro handle
        have hne : g ≠ f := by
          rintro rfl
          exact (hI.starts.queued pass g hqueued).1 hf.started
        have hvalid := hI.queued pass g hqueued
        rw [heq, (recordHandle_ok hrecord).load,
          decodeHandle_toJson (h := ⟨g, pid, startedAt⟩) hvalid (h pid rfl).1]
        simp [Option.filter, hne]
  -- a clear only takes handles away
  | closes g broken =>
    rcases driverClose_cases cfg.store g broken y with hsame | ⟨t, rfl, hclear, hexecutor⟩
    · rw [drive, hsame]
      exact hf.handle
    · rw [drive, hexecutor]
      exact clearHandle_none hclear hf.handle
  | exits p => exact hf.handle
  | appears p => exact hf.handle

/-- The process of a run is spawned and recorded. -/
theorem traced_of_spawns {e : Entry DrivenNode DrivenLabel} (hstep : (drivenSystem cfg).step e.pre e.label e.post)
    (hI : DrivenInv cfg e.pre) (h : Spawns e f pid) : Traced cfg f pid e.post := by
  obtain ⟨pre, label, post⟩ := e
  obtain ⟨amb, startedAt, broken, hlabel, hchildren⟩ := h
  dsimp only at hlabel hchildren hI
  subst hlabel
  obtain ⟨hcan, hpost⟩ := hstep
  dsimp only at hpost
  subst hpost
  have hnew : (drive cfg pre (.called amb (some pid) startedAt broken)).children ≠ pre.children := by
    rw [hchildren]
    simp
  rcases called_cases cfg pre with ⟨-, hsame⟩ | ⟨pass, g, hqueued, -, hstarts, hdrive⟩
  · exact absurd hsame hnew
  · rcases driverStart_cases cfg.store g (some pid) startedAt broken
        { pre with executor := Command.after (perform cfg (.settleReply amb .called) pre.executor) } with
      ⟨-, hsame | ⟨hnone, -⟩⟩ | ⟨pid', t, hpid, hrecord, heq⟩
    · exact absurd ((congrArg DrivenNode.children hdrive).trans hsame) hnew
    · exact absurd hnone (by simp)
    · obtain rfl := Option.some.inj hpid
      rw [hdrive, heq] at hchildren ⊢
      have hlast := List.append_cancel_left hchildren
      simp only [List.cons.injEq, Child.mk.injEq, and_true] at hlast
      subst hlast
      refine ⟨?_, fun _ => ⟨⟨g, pid, startedAt⟩, ?_, rfl⟩⟩
      · show g ∈ (Command.after (perform cfg (.settleReply amb .called) pre.executor)).starts
        rw [hstarts]
        exact List.mem_append_right _ (List.mem_singleton_self g)
      · rw [(recordHandle_ok hrecord).load,
          decodeHandle_toJson (h := ⟨g, pid, startedAt⟩) (hI.queued pass g hqueued) (hcan pid rfl).1]
        simp

/-- The handle of a run is cleared. -/
theorem untraced_of_clears {e : Entry DrivenNode DrivenLabel} (hstep : (drivenSystem cfg).step e.pre e.label e.post)
    (hI : DrivenInv cfg e.pre) (h : Clears cfg e f) : Untraced f e.post := by
  obtain ⟨pre, label, post⟩ := e
  obtain ⟨hlabel, t, hclear⟩ := h
  dsimp only at hlabel hclear hI
  subst hlabel
  obtain ⟨⟨child, hchild, hfence, -⟩, hpost⟩ := hstep
  dsimp only at hpost
  subst hpost
  have hexecutor : (drive cfg pre (.closes f false)).executor = { pre.executor with tables := t } := by
    simp [drive, driverClose, unlessBroken, hclear]
  refine ⟨?_, ?_⟩
  · rw [hexecutor, ← hfence]
    exact hI.children child hchild
  · rw [hexecutor]
    exact clearHandle_gone hclear

/-! ## Recovery -/

theorem driverRecover_traced (hon : OnSlot cfg f y.executor) (h : Traced cfg f pid y) (hgone : pid ∉ y.alive) :
    driverRecover y f = true := by
  obtain ⟨handle, hload, rfl⟩ := h.handle hon
  rw [driverRecover, hload]
  exact decide_eq_true hgone

theorem driverRecover_untraced (h : Untraced f y) : driverRecover y f = false := by
  unfold driverRecover
  split
  · rename_i handle hload
    exact absurd hload (h.handle handle)
  · rfl

theorem perform_recoverReply {x : DurableExecutor} {amb : Ambient} {pc : RecoverPc} {r : Reply}
    (hpc : x.recovering = some pc) :
    perform cfg (.recoverReply amb r) x = runRecover (recoverOn cfg amb pc r) x := by
  simp only [perform, Command.bind_apply, Command.get_apply, hpc]

/-- A run that is reported stopped ends, where the store can take its end. -/
theorem recovered_slot {x : DurableExecutor} {amb : Ambient} {s : Snapshot} {run : DurableRun} {row : Option StateRow}
    (hasking : x.recovering = some (.asking run.fence)) (hhealthy : x.faulted = false) (hcan : CanSeal cfg amb 1)
    (hplace : HasPlace cfg amb x s run (some (failed "execution_interrupted")) row) (hslot : s.slot = some run)
    (hfits : Fits cfg amb run (failed "execution_interrupted")) :
    (current cfg (Command.after (perform cfg (.recoverReply amb (.recovered true)) x)).tables).slot = none := by
  have hdecodes := hplace.decodes
  rw [readState_ok hplace.read] at hdecodes
  have hrun := Snapshot.valid_slot (decode_current hdecodes).2 hslot
  have hfinish := finish_fits hcan hplace hslot hrun (.failed _) hfits
  have hhealth : assertHealthy x = .ok ⟨⟩ x := by
    simp [assertHealthy, Command.bind_apply, Command.get_apply, hhealthy]
    rfl
  have hrecover : recoverOn cfg amb (.asking run.fence) (.recovered true) x =
      .ok (some .releasing) (ended cfg amb x s run (failed "execution_interrupted") row) := by
    simp only [recoverOn, if_true]
    rw [Command.bind_of_ok hhealth, Command.bind_of_ok hfinish]
    rfl
  rw [perform_recoverReply hasking, runRecover, hrecover]
  exact ended_slot x

/-- **A crashed run is recovered exactly when its `close` event has not been handled.** In every run
    of the node with its driver, take a recovery of the run in the slot whose pid has been recorded
    and is free, on an executor that works and whose store can take the end of the run. The driver
    reports that the process has stopped and the slot becomes free if and only if the handle of the
    run has not been cleared before. -/
theorem recovery_complete {newer past : List (Entry DrivenNode DrivenLabel)} {e : Entry DrivenNode DrivenLabel}
    {amb : Ambient} {stopped : Bool} {s : Snapshot} {run : DurableRun} {row : Option StateRow}
    (hrun : Run (drivenSystem cfg) (newer ++ e :: past) y)
    (hlabel : e.label = .executor (.recoverReply amb (.recovered stopped)))
    (hasking : e.pre.executor.recovering = some (.asking run.fence)) (hhealthy : e.pre.executor.faulted = false)
    (hslot : s.slot = some run) (hcan : CanSeal cfg amb 1)
    (hplace : HasPlace cfg amb e.pre.executor s run (some (failed "execution_interrupted")) row)
    (hfits : Fits cfg amb run (failed "execution_interrupted"))
    (hspawned : ∃ d ∈ past, Spawns d run.fence pid) (hgone : pid ∉ e.pre.alive) :
    (stopped = true ∧ (current cfg e.post.executor.tables).slot = none) ↔
      ∀ d ∈ past, ¬ Clears cfg d run.fence := by
  have hbefore := hrun.before
  have hinv := (driven_inv hbefore).2
  have hstep := hrun.step_of_mem e (by simp)
  -- the reply is the driver's own answer, read from its table of children
  have hanswer : stopped = driverRecover e.pre run.fence := by
    obtain ⟨hcan', -⟩ := hstep
    rw [hlabel] at hcan'
    exact hcan'.2 _ hasking
  constructor
  · -- once it has been cleared, the driver knows nothing of the run
    rintro ⟨rfl, -⟩ d hd hclears
    have huntraced : Untraced run.fence e.pre := by
      have hseen : ∃ d ∈ past, (fun d => Clears cfg d run.fence) d := ⟨d, hd, hclears⟩
      refine hbefore.flag ?_ ?_ hseen
      · intro d hd hclears
        exact untraced_of_clears (hbefore.step_of_mem d hd) (hinv d hd).1 hclears
      · intro d hd huntraced
        obtain ⟨hcan', hpost⟩ := hbefore.step_of_mem d hd
        rw [hpost]
        exact huntraced.step hcan' (hinv d hd).1
    rw [driverRecover_untraced huntraced] at hanswer
    exact absurd hanswer (by simp)
  · intro hkept
    -- the spawn put the run on record, and every later step that is not a clear keeps it there
    have htraced : Traced cfg run.fence pid e.pre := by
      have hseen : ∃ d ∈ past, (fun d => Spawns d run.fence pid) d := hspawned
      refine hbefore.flag ?_ ?_ hseen
      · intro d hd hspawns
        exact traced_of_spawns (hbefore.step_of_mem d hd) (hinv d hd).1 hspawns
      · intro d hd htraced
        obtain ⟨hcan', hpost⟩ := hbefore.step_of_mem d hd
        rw [hpost]
        refine htraced.step hcan' (hinv d hd).1 fun t hcloses hclear => ?_
        exact hkept d hd ⟨hcloses, t, hclear⟩
    -- the record of the slot is the run the call asks about
    have hon : OnSlot cfg run.fence e.pre.executor := by
      have hdecodes := hplace.decodes
      rw [readState_ok hplace.read] at hdecodes
      exact ⟨run, (decode_current hdecodes).1 ▸ hslot, rfl⟩
    have hstopped : stopped = true := hanswer.trans (driverRecover_traced hon htraced hgone)
    subst hstopped
    refine ⟨rfl, ?_⟩
    obtain ⟨-, hpost⟩ := hstep
    rw [hpost, hlabel]
    exact recovered_slot hasking hhealthy hcan hplace hslot hfits

/-! ## A crash around the `close` event

A process is started for an offer and recorded, and it exits. Then the node crashes, before its
`close` event or after it. -/

instance decidableAnswers (y : DrivenNode) : (l : Label) → Decidable (Answers y l)
  | .settleReply _ .called => .isFalse id
  | .settleReply _ (.started f) | .lateReply _ _ (.started f) =>
    inferInstanceAs (Decidable (f ∈ y.closed ∨ f ∈ y.children.map Child.fence))
  | .closed _ => inferInstanceAs (Decidable (∀ live ∈ y.executor.live, live.fence ∈ y.closed))
  | .recoverReply _ (.recovered stopped) =>
    match h : y.executor.recovering with
    | some (.asking f) => decidable_of_iff (stopped = driverRecover y f) (by simp [Answers, h])
    | some .releasing | none => .isTrue (by simp [Answers, h])
  | .elsewhere call => inferInstanceAs (Decidable (writesKey call ≠ some runHandleKey))
  | .settleReply _ .resumed | .settleReply _ .prepared | .settleReply _ .prepareFailed
  | .settleReply _ .startFailed | .settleReply _ .timedOut | .settleReply _ (.quiet _) | .settleReply _ .unquiet
  | .settleReply _ (.published _) | .settleReply _ (.recovered _) | .settleReply _ .broken
  | .lateReply _ _ .resumed | .lateReply _ _ .prepared | .lateReply _ _ .prepareFailed | .lateReply _ _ .called
  | .lateReply _ _ .startFailed | .lateReply _ _ .timedOut | .lateReply _ _ (.quiet _) | .lateReply _ _ .unquiet
  | .lateReply _ _ (.published _) | .lateReply _ _ (.recovered _) | .lateReply _ _ .broken
  | .recoverReply _ .resumed | .recoverReply _ .prepared | .recoverReply _ .prepareFailed
  | .recoverReply _ .called | .recoverReply _ (.started _) | .recoverReply _ .startFailed
  | .recoverReply _ .timedOut | .recoverReply _ (.quiet _) | .recoverReply _ .unquiet
  | .recoverReply _ (.published _) | .recoverReply _ .broken
  | .consume .. | .tick _ | .settle _ | .recover | .close _ | .proved _ | .fault | .restart => .isTrue trivial

instance decidableCanDrive (y : DrivenNode) : (l : DrivenLabel) → Decidable (CanDrive y l)
  | .executor l => inferInstanceAs (Decidable (Enabled y.executor l ∧ Answers y l))
  | .called _ pid _ _ => inferInstanceAs (Decidable (∀ p ∈ pid, Json.isPositive p = true ∧ p ∉ y.alive))
  | .closes fence _ => inferInstanceAs (Decidable (∃ child ∈ y.children, child.fence = fence ∧ child.exited = true))
  | .exits pid => inferInstanceAs (Decidable (pid ∈ y.alive))
  | .appears pid => inferInstanceAs (Decidable (pid ∉ y.alive))

/-- The labels one after another, latest first. -/
def driveAll (cfg : ExecutorConfig) (y : DrivenNode) (labels : List DrivenLabel) :
    List (Entry DrivenNode DrivenLabel) × DrivenNode :=
  play (fun y l => (l, drive cfg y l)) y labels

theorem run_driveAll (labels : List DrivenLabel) (hy : (drivenSystem cfg).init y)
    (h : ∀ e ∈ (driveAll cfg y labels).1, CanDrive e.pre e.label) :
    Run (drivenSystem cfg) (driveAll cfg y labels).1 (driveAll cfg y labels).2 := by
  induction labels with
  | nil => exact .start hy
  | cons l earlier ih =>
    exact .next (ih fun e he => h e (List.mem_cons_of_mem _ he)) ⟨h _ List.mem_cons_self, rfl⟩

theorem driveAll_mem (newer older : List DrivenLabel) (l : DrivenLabel) :
    ⟨(driveAll cfg y older).2, l, (driveAll cfg y (l :: older)).2⟩ ∈ (driveAll cfg y (newer ++ l :: older)).1 := by
  induction newer with
  | nil => exact List.mem_cons_self
  | cons l' rest ih => exact List.mem_cons_of_mem _ ih

theorem driveAll_labels (labels : List DrivenLabel) : (driveAll cfg y labels).1.map Entry.label = labels := by
  induction labels with
  | nil => rfl
  | cons l earlier ih => exact congrArg (l :: ·) ih

namespace Crashed

def machine : DrivenNode := ⟨.fresh, [1], [], []⟩

def spawned : DrivenLabel := .called (Sample.ambient 4 0) (some 4242) 1767225600000 false

/-- An offer is accepted, up to the start of its run. -/
def accepted : List DrivenLabel :=
  [.executor (.settle (Sample.ambient 3 0)),
    .executor (.consume (Sample.ambient 2 0) (Sample.offer 1 0 Qlong.Sample.task 1) true),
    .executor (.elsewhere (.receive (Sample.offer 1 0 Qlong.Sample.task 1))), .executor .recover]

def told : DrivenLabel := .executor (.settleReply (Sample.ambient 5 0) (.started Published.fence))

def exited : List DrivenLabel := .exits 4242 :: told :: spawned :: accepted

def answered (stopped : Bool) : DrivenLabel := .executor (.recoverReply (Sample.ambient 7 0) (.recovered stopped))

def recovers (stopped : Bool) : List DrivenLabel := [answered stopped, .executor .recover, .executor .restart]

/-- The crash comes after the `close` event, and the node is started twice. -/
def lost : List DrivenLabel := recovers false ++ recovers false ++ .closes Published.fence false :: exited

/-- The crash comes before it. -/
def asked : List DrivenLabel := .executor .recover :: .executor .restart :: exited

def found : List DrivenLabel := answered true :: asked

def history (labels : List DrivenLabel) : List (Entry DrivenNode DrivenLabel) :=
  (driveAll Started.config machine labels).1

def after (labels : List DrivenLabel) : DrivenNode := (driveAll Started.config machine labels).2

/-- The row of the executor when the driver is asked. -/
def slotRow : StateRow := { Nested.slotRow with revision := 3 }

end Crashed

open Crashed in
/-- The process is recorded, exits, and its `close` event is handled before the crash: it is free at
    both recoveries after it, and the slot waits for an operator. -/
theorem recovery_lost :
    Run (drivenSystem Started.config) (history lost) (after lost) ∧
    (history lost).map Entry.label = lost ∧
    (∃ d ∈ history lost, Spawns d Published.fence 4242) ∧ 4242 ∉ (after lost).alive ∧
    (after lost).executor.faulted = false ∧
    (current Started.config (after lost).executor.tables).slot.map (fun run => (run.fence, run.phase)) =
      some (Published.fence, .recovery_required) := by
  obtain ⟨hcan, hchild, hends⟩ :
      (∀ e ∈ history lost, CanDrive e.pre e.label) ∧
      (after (spawned :: accepted)).children = (after accepted).children ++ [⟨Published.fence, some 4242, false⟩] ∧
      4242 ∉ (after lost).alive ∧ (after lost).executor.faulted = false ∧
      (current Started.config (after lost).executor.tables).slot.map (fun run => (run.fence, run.phase)) =
        some (Published.fence, .recovery_required) := by
    decide +kernel
  have hspawned : ∃ d ∈ history lost, Spawns d Published.fence 4242 :=
    ⟨_, driveAll_mem (recovers false ++ recovers false ++ [.closes Published.fence false, .exits 4242, told]) accepted
      spawned, _, _, _, rfl, hchild⟩
  exact ⟨run_driveAll lost ⟨[1], rfl⟩ hcan, driveAll_labels lost, hspawned, hends⟩

open Crashed in
/-- Without it the second start of the node ends the run. -/
theorem recovery_complete_found : (current Started.config (after found).executor.tables).slot = none := by
  have hrun : Run (drivenSystem Started.config)
      ([] ++ ⟨after asked, answered true, after found⟩ :: history asked) (after found) :=
    run_driveAll found ⟨[1], rfl⟩ (by decide +kernel)
  -- the node when the driver is asked
  obtain ⟨hasking, hhealthy, hslot, hgone, hread, hdecodes, hrevision, hdelivery, houtbox, hroom⟩ :
      (after asked).executor.recovering = some (.asking Nested.held.fence) ∧
      (after asked).executor.faulted = false ∧ Nested.stored.slot = some Nested.held ∧ 4242 ∉ (after asked).alive ∧
      readState (after asked).executor.tables stateKey = .ok (some slotRow) ∧
      decode Started.config (some slotRow) = .ok Nested.stored ∧
      ((some slotRow).map StateRow.revision).getD 0 < Json.maxSafe ∧
      Table.lookup DeliveryRow.key (Started.config.store.nodeId, (Sample.ambient 7 0).msgId 1)
        (after asked).executor.tables.delivery = none ∧
      Table.lookup OutboxRow.key (Started.config.store.nodeId, (Sample.ambient 7 0).msgId 1)
        (after asked).executor.tables.outbox = none ∧
      (let t := endTables Started.config (Sample.ambient 7 0) (after asked).executor.tables
        (((some slotRow).map StateRow.revision).getD 0) Nested.stored Nested.held
        (finalOutcome Nested.held (failed "execution_interrupted"))
       t.entries ≤ Started.config.store.maxEntries ∧ t.bytes ≤ Started.config.store.maxBytes) := by
    decide +kernel
  have hplace : HasPlace Started.config (Sample.ambient 7 0) (after asked).executor Nested.stored Nested.held
      (some (failed "execution_interrupted")) (some slotRow) :=
    ⟨hread, hdecodes, hrevision, hdelivery, houtbox, fun o ho => Option.mem_some_iff.mp ho ▸ hroom⟩
  have hcan : CanSeal Started.config (Sample.ambient 7 0) 1 :=
    ⟨by decide, by decide, by decide, by decide, by decide, by decide⟩
  have hspawned : ∃ d ∈ history asked, Spawns d Nested.held.fence 4242 :=
    ⟨⟨after accepted, spawned, after (spawned :: accepted)⟩, driveAll_mem [.executor .recover, .executor .restart, .exits 4242, told] accepted spawned, _, _, _, rfl,
      by decide +kernel⟩
  have hkept : ∀ d ∈ history asked, ¬ Clears Started.config d Nested.held.fence := by
    rintro d hd ⟨hlabel, -⟩
    have hmem : d.label ∈ asked := driveAll_labels asked ▸ List.mem_map_of_mem hd
    rw [hlabel] at hmem
    simp [asked, exited, accepted, spawned, told] at hmem
  have hfits : Fits Started.config (Sample.ambient 7 0) Nested.held (failed "execution_interrupted") :=
    ⟨by decide +kernel, by decide +kernel, by decide +kernel, by decide +kernel⟩
  exact ((recovery_complete hrun rfl hasking hhealthy hslot hcan hplace hfits hspawned hgone).mpr hkept).2

end Executor
end Qlong
