import Qlong.Lib.Runs
import Qlong.Registry.Evolution

/-!
# The durable registry

A `Registry` facade over its store. A mutation runs an operation on a draft of the whole state,
commits the differences, and only then publishes the draft; whatever fails before leaves the facade
and the tables as they were. A restart reads the tables back into a new facade.
-/

namespace Qlong
namespace Registry

open Lib Lead Node

variable {V : Type} [DecidableEq V]

/-- What `Registry` holds: its state, who is online, and the revision it has read. -/
structure Facade (V : Type) where
  state : RegistryState V
  presence : String → Bool
  revision : Nat

/-- The draft a mutation starts from. -/
def Facade.draft (r : Facade V) : Draft V := ⟨r.state, r.presence⟩

/-- The facade, its store, and the revisions handed out so far. -/
structure CenterState (V : Type) where
  registry : Facade V
  store : Store V
  revisions : Nat

/-- `mutate(operation)`. -/
def mutate {R : Type} (c : Center V) (fault : Option Fault) (operation : Draft V → Except Failure (R × Draft V))
    (x : CenterState V) : Except Failure R × CenterState V :=
  if x.store.faulted then (.error .storage, x)
  else if x.store.revision ≠ x.registry.revision then (.error .stale, x)
  else
    match operation ⟨x.registry.state, x.registry.presence⟩ with
    | .error e => (.error e, x)
    | .ok (result, draft) =>
      match commitRegistryState c fault x.registry.state draft.toRegistryState x.store with
      | (.error e, store) => (.error e, { x with store })
      | (.ok _, store) =>
        (.ok result, {
          registry := ⟨draft.toRegistryState, draft.presence, x.revisions + 1⟩
          store := { store with revision := x.revisions + 1 }
          revisions := x.revisions + 1 })

/-- The mutation of a call. -/
def Call.run (c : Center V) (opts : Options V) (now : Int) (fault : Option Fault) (call : Call V) (x : CenterState V) :
    Except Failure Unit × CenterState V :=
  mutate c fault (fun d => (perform c opts now d call).map fun d => (⟨⟩, d)) x

inductive CenterLabel (V : Type) where
  | call (call : Call V) (now : Int) (fault : Option Fault)
  /-- The gateway says who is online. -/
  | presence (nodeId : String) (online : Bool)
  /-- The process ends and opens the store again. -/
  | restart

/-- The center: mutations one after another, and restarts at any point between. -/
def centerSystem (c : Center V) (opts : Options V) : System (CenterState V) (CenterLabel V) where
  init x := x = ⟨⟨emptyRegistryState, fun _ => false, 0⟩, ⟨.empty, 0, false⟩, 0⟩
  step x l x' :=
    match l with
    | .call call now fault => call.Drawn ∧ x' = (call.run c opts now fault x).2
    | .presence nodeId online =>
      x' = { x with registry := { x.registry with presence := Function.update x.registry.presence nodeId online } }
    | .restart => ∃ state, loadRegistryState c x.store.db = .ok state ∧
      x' = ⟨⟨state, fun _ => false, x.revisions + 1⟩, ⟨x.store.db, x.revisions + 1, false⟩, x.revisions + 1⟩

/-! ## A mutation -/

section

variable {c : Center V} {opts : Options V} {now : Int} {fault : Option Fault} {x x' : CenterState V}

omit [DecidableEq V] in
/-- The tables hold the state, and the state is one that validates. -/
structure Durable (c : Center V) (x : CenterState V) : Prop where
  db : x.store.db = encode x.registry.state
  valid : Valid c x.registry.state
  plain : Plain x.registry.state
  indexed : Indexed x.registry.state

/-- **A mutation that fails leaves no trace** in the facade or in the tables. -/
theorem mutate_error {R : Type} {operation : Draft V → Except Failure (R × Draft V)} {e : Failure}
    (h : mutate c fault operation x = (.error e, x')) :
    x'.registry = x.registry ∧ x'.store.db = x.store.db ∧ x'.store.revision = x.store.revision := by
  unfold mutate at h
  split at h
  · obtain ⟨-, rfl⟩ := Prod.mk.inj h
    exact ⟨rfl, rfl, rfl⟩
  · split at h
    · obtain ⟨-, rfl⟩ := Prod.mk.inj h
      exact ⟨rfl, rfl, rfl⟩
    · split at h
      · obtain ⟨-, rfl⟩ := Prod.mk.inj h
        exact ⟨rfl, rfl, rfl⟩
      · split at h
        · rename_i hcommit
          obtain ⟨-, rfl⟩ := Prod.mk.inj h
          exact ⟨rfl, commit_error hcommit⟩
        · exact absurd (Prod.mk.inj h).1 (by simp)

/-- A mutation that goes through has committed what its operation left in the draft. -/
theorem mutate_ok {R : Type} {operation : Draft V → Except Failure (R × Draft V)} {r : R}
    (h : mutate c fault operation x = (.ok r, x')) :
    ∃ draft db, operation ⟨x.registry.state, x.registry.presence⟩ = .ok (r, draft) ∧
      Valid c draft.toRegistryState ∧ writeState x.registry.state draft.toRegistryState x.store.db = .ok db ∧
      x'.registry.state = draft.toRegistryState ∧ x'.registry.presence = draft.presence ∧ x'.store.db = db := by
  unfold mutate at h
  split at h
  · exact absurd (Prod.mk.inj h).1 (by simp)
  · split at h
    · exact absurd (Prod.mk.inj h).1 (by simp)
    · split at h
      · exact absurd (Prod.mk.inj h).1 (by simp)
      · rename_i result draft hop
        split at h
        · exact absurd (Prod.mk.inj h).1 (by simp)
        · rename_i hcommit
          obtain ⟨hr, rfl⟩ := Prod.mk.inj h
          obtain rfl := Except.ok.inj hr
          obtain ⟨hvalid, db, hwrite, rfl⟩ := commit_ok hcommit
          exact ⟨draft, db, hop, hvalid, hwrite, rfl, rfl, rfl⟩

theorem run_ok {call : Call V} {r : Unit} (h : call.run c opts now fault x = (.ok r, x')) :
    ∃ draft, perform c opts now ⟨x.registry.state, x.registry.presence⟩ call = .ok draft ∧
      Valid c draft.toRegistryState ∧
      writeState x.registry.state draft.toRegistryState x.store.db = .ok x'.store.db ∧
      x'.registry.state = draft.toRegistryState ∧ x'.registry.presence = draft.presence := by
  obtain ⟨draft, db, hop, hvalid, hwrite, hstate, hpresence, rfl⟩ := mutate_ok h
  cases hperform : perform c opts now ⟨x.registry.state, x.registry.presence⟩ call with
  | error e => simp [hperform, Except.map] at hop
  | ok d =>
    simp only [hperform, Except.map, Except.ok.injEq, Prod.mk.injEq, true_and] at hop
    subst hop
    exact ⟨d, rfl, hvalid, hwrite, hstate, hpresence⟩

/-- **A mutation keeps the tables in step**: they are the new state written out whole. -/
theorem Durable.run (h : Durable c x) {call : Call V} (hdrawn : call.Drawn) {r : Except Failure Unit}
    (hrun : call.run c opts now fault x = (r, x')) : Durable c x' := by
  cases r with
  | error e =>
    obtain ⟨hregistry, hdb, -⟩ := mutate_error hrun
    exact ⟨by rw [hdb, h.db, hregistry], hregistry ▸ h.valid, hregistry ▸ h.plain, hregistry ▸ h.indexed⟩
  | ok r =>
    obtain ⟨draft, hperform, hvalid, hwrite, hstate, -⟩ := run_ok hrun
    have hevolves := perform_evolves hdrawn hperform
    obtain ⟨hindexed, hfree⟩ := hevolves.indexed h.indexed h.valid hvalid
    rw [h.db, writeState_ok hvalid hfree, merged_eq hevolves.follows] at hwrite
    refine ⟨?_, hstate ▸ hvalid, hstate ▸ hevolves.plain h.plain, hstate ▸ hindexed⟩
    rw [hstate]
    exact (Except.ok.inj hwrite).symm

omit [DecidableEq V] in
/-- A restart that goes through finds the state that was committed. -/
theorem Durable.reload (h : Durable c x) {state : RegistryState V} (hload : loadRegistryState c x.store.db = .ok state) :
    state = x.registry.state := by
  rw [h.db] at hload
  have hsame := (load_encode h.valid h.plain h.indexed).mpr (whole_of_load hload)
  rw [hload] at hsame
  exact Except.ok.inj hsame

theorem Durable.step (h : Durable c x) {l : CenterLabel V} (hstep : (centerSystem c opts).step x l x') :
    Durable c x' := by
  cases l with
  | call call now fault =>
    obtain ⟨hdrawn, rfl⟩ := hstep
    exact h.run hdrawn rfl
  | presence nodeId online =>
    obtain rfl := hstep
    exact ⟨h.db, h.valid, h.plain, h.indexed⟩
  | restart =>
    obtain ⟨state, hload, rfl⟩ := hstep
    obtain rfl := h.reload hload
    exact ⟨h.db, h.valid, h.plain, h.indexed⟩

/-- **How the state moves**: it stays, or a call has gone through and left what it performed. -/
theorem Durable.moves (h : Durable c x) {l : CenterLabel V} (hstep : (centerSystem c opts).step x l x') :
    x'.registry.state = x.registry.state ∨ ∃ made now fault draft, l = .call made now fault ∧ made.Drawn ∧
      (made.run c opts now fault x).1 = .ok () ∧ perform c opts now x.registry.draft made = .ok draft ∧
      Valid c draft.toRegistryState ∧ x'.registry.state = draft.toRegistryState := by
  cases l with
  | call call now fault =>
    obtain ⟨hdrawn, rfl⟩ := hstep
    cases hrun : call.run c opts now fault x with
    | mk r x' =>
      cases r with
      | error e => exact Or.inl (congrArg Facade.state (mutate_error hrun).1)
      | ok r =>
        obtain ⟨draft, hperform, hvalid, -, hstate, -⟩ := run_ok hrun
        refine Or.inr ⟨call, now, fault, draft, rfl, hdrawn, ?_, hperform, hvalid, hstate⟩
        rw [hrun]
  | presence nodeId online =>
    obtain rfl := hstep
    exact Or.inl rfl
  | restart =>
    obtain ⟨state, hload, rfl⟩ := hstep
    exact Or.inl (h.reload hload)

omit [DecidableEq V] in
theorem durable_start :
    Durable c (⟨⟨emptyRegistryState, fun _ => false, 0⟩, ⟨.empty, 0, false⟩, 0⟩ : CenterState V) where
  db := rfl
  valid := valid_iff.mp rfl
  plain := ⟨fun _ h => absurd h List.not_mem_nil, fun _ h => absurd h List.not_mem_nil,
    fun _ h => absurd h List.not_mem_nil⟩
  indexed := rfl

end

section

variable {c : Center V} {opts : Options V} {hist : List (Entry (CenterState V) (CenterLabel V))} {x : CenterState V}

/-- **In every state reached the tables are the state written out whole.** -/
theorem run_durable (run : Run (centerSystem c opts) hist x) : Durable c x := by
  apply run.invariant
  · rintro _ rfl
    exact durable_start
  · intro e _ hstep h
    exact h.step hstep

/-! ## Differences and rewrites -/

/-- A table that holds the rows of the new version, the surviving keys before the new ones and in
    their old order. -/
def Rewritten {κ α : Type} [DecidableEq κ] (old next rows : List (Row κ α)) : Prop :=
  rows.Perm next ∧ rows.map Row.id =
    (old.map Row.id).filter (fun k => (Table.lookup Row.id k next).isSome) ++
      (next.map Row.id).filter fun k => (Table.lookup Row.id k old).isNone

omit [DecidableEq V] in
/-- Every table is rewritten. -/
structure Rewrites (old next db : RegistryTables V) : Prop where
  epoch : db.epoch = next.epoch
  audit_offset : db.audit_offset = next.audit_offset
  teams : Rewritten old.teams next.teams db.teams
  nodes : Rewritten old.nodes next.nodes db.nodes
  enrollTokens : Rewritten old.enrollTokens next.enrollTokens db.enrollTokens
  grants : Rewritten old.grants next.grants db.grants
  tasks : Rewritten old.tasks next.tasks db.tasks
  audit : Rewritten old.audit next.audit db.audit

omit [DecidableEq V] in
/-- The label writes no task whose identifier has a NUL. -/
def CenterLabel.Plain : CenterLabel V → Prop
  | .call made _ _ => ∀ id, made.Names id → ∀ ch ∈ id.toList, ch.val ≠ 0
  | _ => True

/-- The tasks of a run in which no identifier has a NUL. -/
theorem run_plain (run : Run (centerSystem c opts) hist x) (h : ∀ e ∈ hist, e.label.Plain) :
    ∀ t ∈ x.registry.state.taskIndex.rows, ∀ ch ∈ t.task_id.toList, ch.val ≠ 0 := by
  induction run with
  | start hinit =>
    obtain rfl := hinit
    exact fun t ht => absurd ht List.not_mem_nil
  | @next hist x x' l run step ih =>
    have hold := ih fun e he => h e (List.mem_cons_of_mem _ he)
    rcases (run_durable run).moves step with hsame | ⟨made, now, fault, draft, rfl, hdrawn, -, hperform, -, hstate⟩
    · rw [hsame]
      exact hold
    · intro t ht
      rw [hstate] at ht
      rcases (perform_evolves hdrawn hperform).tasks t ht with ht | hnamed
      · exact hold t ht
      · exact h _ List.mem_cons_self t.task_id hnamed

/-- **A restart finds the state that was committed**, in every run that writes no task whose identifier
    has a NUL; a task index with such an identifier cannot be opened again at all. -/
theorem reload_closed (run : Run (centerSystem c opts) hist x) :
    ((∀ e ∈ hist, e.label.Plain) → loadRegistryState c x.store.db = .ok x.registry.state) ∧
    (loadRegistryState c x.store.db = .ok x.registry.state ↔
      ∀ t ∈ x.registry.state.taskIndex.rows, ∀ ch ∈ t.task_id.toList, ch.val ≠ 0) ∧
    ∀ t ∈ x.registry.state.taskIndex.rows, (∃ ch ∈ t.task_id.toList, ch.val = 0) →
      ∀ state, loadRegistryState c x.store.db ≠ .ok state := by
  have hx := run_durable run
  have hload := load_encode hx.valid hx.plain hx.indexed
  rw [← hx.db] at hload
  have hiff : loadRegistryState c x.store.db = .ok x.registry.state ↔
      ∀ t ∈ x.registry.state.taskIndex.rows, ∀ ch ∈ t.task_id.toList, ch.val ≠ 0 := by
    rw [hload]
    exact ⟨fun h t ht => noNul_of_columnText (h t ht), fun h t ht => columnText_of_noNul (h t ht)⟩
  refine ⟨fun h => hiff.mpr (run_plain run h), hiff, ?_⟩
  rintro t ht ⟨ch, hch, hnul⟩ state hstate
  rw [hx.db] at hstate
  exact noNul_of_columnText (whole_of_load hstate t ht) ch hch hnul

end

/-! ## Two states that no differences connect, and a task that cannot be read back -/

namespace Recovered

def stamp : String := "2026-01-01T00:00:00.000Z"

def hexes (ch : Char) : String := String.ofList (List.replicate 64 ch)

def center : Center Unit where
  sha token := if token = "first" then hexes 'a' else hexes 'b'
  digest _ := hexes '0'
  dateParse s := if s = stamp then some 0 else none
  toISOString _ := stamp
  finite _ := true
  document _ := true
  past _ _ := false
  plus _ v := v
  truthy _ := true

def options : Options Unit := ⟨(), 5, 100, 1000, 1000⟩

def team : String := "11111111-1111-4111-8111-111111111111"

def nodeA : String := "aaaaaaaa-aaaa-4aaa-8aaa-aaaaaaaaaaaa"

def nodeB : String := "bbbbbbbb-bbbb-4bbb-8bbb-bbbbbbbbbbbb"

def node (id hash : String) : StoredNode Unit :=
  { node_id := id, team_id := team, status := .active, last_seen := none, name := "node", keys := [⟨1, "key"⟩],
    tokenHash := hash, platform := none, qlong_version := none, caps := [], caps_rev := 1, load := none,
    joined_at := stamp }

/-- Two nodes of one team with the given hashes. -/
def two (hashA hashB : String) (h : hashA ≠ hashB) : RegistryState Unit :=
  { emptyRegistryState with
    teams := ⟨[⟨team, "team", none, .active, stamp⟩], by simp [Table.Keyed]⟩
    nodes := ⟨[node nodeA hashA, node nodeB hashB], by simp [Table.Keyed, node, nodeA, nodeB]⟩
    nodeByTokenHash := ⟨[(hashA, nodeA), (hashB, nodeB)], by simpa [Table.Keyed] using h⟩
    directoryEpoch := 2 }

def before : RegistryState Unit := two (hexes 'a') (hexes 'b') (by decide)

/-- The nodes have swapped their token hashes. -/
def after : RegistryState Unit := two (hexes 'b') (hexes 'a') (by decide)

/-- The report of a task. -/
def report (task : String) : Json :=
  .obj [("task_id", .str task), ("type", .str "aid"), ("team_id", .str team), ("lead", .str nodeA), ("exec", .null),
    ("attempt", .num 1), ("status", .str "running"), ("task_seq", .num 1)]

def start : CenterState Unit := ⟨⟨emptyRegistryState, fun _ => false, 0⟩, ⟨.empty, 0, false⟩, 0⟩

def carryOut (x : CenterState Unit) (call : Call Unit) : CenterLabel Unit × CenterState Unit :=
  (.call call 0 none, (call.run center options 0 none x).2)

/-- A node enrols, and reports a task. -/
def reported (task : String) : List (Call Unit) :=
  [.reportTask "first" team (report task), .enroll team nodeA "first" ⟨none, "key", none, none⟩]

theorem run_reported (task : String) :
    Run (centerSystem center options) (play carryOut start (reported task)).1 (play carryOut start (reported task)).2 :=
  .next (.next (.start rfl) ⟨⟨by decide, by decide⟩, rfl⟩) ⟨trivial, rfl⟩

end Recovered

open Recovered in
/-- **A task that keeps the center from starting.** -/
theorem unreadable_task : Run (centerSystem center options) (play carryOut start (reported "a\x00b")).1
      (play carryOut start (reported "a\x00b")).2 ∧
    loadRegistryState center (play carryOut start (reported "a\x00b")).2.store.db ≠
      .ok (play carryOut start (reported "a\x00b")).2.registry.state := by
  refine ⟨run_reported _, fun hload => ?_⟩
  have hids : (play carryOut start (reported "a\x00b")).2.registry.state.taskIndex.rows.map TaskRecord.task_id =
      ["a\x00b"] := by decide +kernel
  obtain ⟨t, ht, hid⟩ := List.mem_map.mp (hids ▸ List.mem_singleton_self "a\x00b")
  rw [(run_durable (run_reported _)).db] at hload
  have := whole_of_load hload t ht
  rw [hid] at this
  exact absurd this (by decide)

open Recovered in
/-- A plain task is read back. -/
theorem reload_closed_reported :
    loadRegistryState center (play carryOut start (reported "task")).2.store.db =
      .ok (play carryOut start (reported "task")).2.registry.state := by
  refine (reload_closed (run_reported "task")).1 ?_
  intro e he
  simp only [reported, play, List.mem_cons, List.not_mem_nil, or_false] at he
  rcases he with rfl | rfl
  · intro id hid
    have hid : some "task" = some id := hid
    obtain rfl := Option.some.inj hid
    simp
  · exact fun _ hid => absurd hid not_false

end Registry
end Qlong
