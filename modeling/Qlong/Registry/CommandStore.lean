import Mathlib.Data.List.Sort
import Mathlib.Data.Prod.Lex
import Mathlib.Data.String.Basic
import Qlong.Auth.Store
import Qlong.Gateway.Claims
import Qlong.Lib.Runs

/-!
# The queue of an owner's commands

`SqliteCommandStore` of `packages/registry/src/command-store.ts`. A lead pulls its pending commands, at
most so many, in the order of their times and ids, and acknowledges one by one; what is acknowledged is
pruned after a while. `command_queue` compares the table with the queue it stands for: the commands of a
lead that were not acknowledged, in the order in which they were given.

The times are texts, compared as such, and the id of a command is drawn at random.
-/

namespace Qlong
namespace Registry

open Lib Auth Gateway

/-! ## The table -/

/-- Given, and acknowledged or not. -/
inductive CommandStatus where
  | pending
  | acked
deriving DecidableEq, Repr

/-- A row of `registry_commands`, and the record it is read as. -/
structure CommandRow where
  id : String
  team_id : String
  lead : String
  task_id : String
  kind : String
  status : CommandStatus
  created_at : String
  acked_at : Option String
deriving DecidableEq

/-- What a user asks a lead for. -/
structure CommandInput where
  team_id : String
  lead : String
  task_id : String
  kind : String

inductive CommandError where
  | type (message : String)
  /-- The row breaks the primary key. -/
  | constraint
  | corrupt
  /-- A date beyond the calendar. -/
  | range
deriving DecidableEq, Repr

/-- The commands, by their ids. -/
abbrev CommandStore := Records CommandRow.id

/-- The two kinds of command there are. -/
def validKind (kind : String) : Bool := kind = "cancel" || kind = "redispatch"

/-- `load(raw)`. -/
def loadCommand (cal : Calendar) (row : CommandRow) : Except CommandError CommandRow := do
  require (isUuid row.id && isUuid row.team_id && isUuid row.lead && isUuid row.task_id && validKind row.kind &&
    isCanonical cal row.created_at && row.acked_at.all (isCanonical cal) &&
    (match row.status with
      | .pending => row.acked_at.isNone
      | .acked => row.acked_at.isSome)) .corrupt
  return row

namespace CommandStore

/-! ## The calls -/

/-- `enqueue(input, now)`, with the id that was drawn. -/
def enqueue (cal : Calendar) (store : CommandStore) (input : CommandInput) (id : String) (now : Int) :
    Except CommandError (CommandRow × CommandStore) := do
  require (isUuid input.team_id && isUuid input.lead && isUuid input.task_id && validKind input.kind)
    (.type "enqueue requires UUID team_id/lead/task_id and a known command kind")
  require (validTime now) (.type "enqueue requires a safe-integer now")
  let record : CommandRow :=
    ⟨id, input.team_id, input.lead, input.task_id, input.kind, .pending, cal.toISOString now, none⟩
  require (!store.has id) .constraint
  return (record, store.set record)

/-- Routed to this lead, and pending. -/
def isPendingFor (leadNodeId : String) (row : CommandRow) : Bool := row.lead = leadNodeId && row.status = .pending

/-- `ORDER BY created_at, id`. -/
def comesBefore (a b : CommandRow) : Prop := toLex (a.created_at, a.id) ≤ toLex (b.created_at, b.id)

instance : DecidableRel comesBefore := fun a b =>
  inferInstanceAs (Decidable (toLex (a.created_at, a.id) ≤ toLex (b.created_at, b.id)))

instance : Std.Total comesBefore := ⟨fun a b => le_total (toLex (a.created_at, a.id)) (toLex (b.created_at, b.id))⟩

instance : IsTrans CommandRow comesBefore := ⟨fun _ _ _ => le_trans⟩

/-- `pendingFor(leadNodeId, limit)`. -/
def pendingFor (cal : Calendar) (store : CommandStore) (leadNodeId : String) (limit : Int) :
    Except CommandError (List CommandRow) :=
  if !isUuid leadNodeId then .ok []
  else if !Json.isSafe limit || decide (limit < 1) then .ok []
  else (((store.rows.filter (isPendingFor leadNodeId)).insertionSort comesBefore).take limit.toNat).mapM (loadCommand cal)

/-- The row that `UPDATE … WHERE id = ? AND lead = ? AND status = 'pending'` changes. -/
def ackedRow (ackedAt : String) (leadNodeId : String) (row : CommandRow) : CommandRow :=
  if isPendingFor leadNodeId row then { row with status := .acked, acked_at := some ackedAt } else row

theorem id_ackedRow {ackedAt leadNodeId : String} (row : CommandRow) : (ackedRow ackedAt leadNodeId row).id = row.id := by
  unfold ackedRow
  split
  · rfl
  · rfl

/-- The command is marked as acknowledged. -/
def ackRows (store : CommandStore) (commandId leadNodeId ackedAt : String) : CommandStore :=
  ⟨Table.modify CommandRow.id commandId (ackedRow ackedAt leadNodeId) store.rows, store.keyed.modify id_ackedRow⟩

/-- `ack(commandId, leadNodeId, now)`. -/
def ack (cal : Calendar) (store : CommandStore) (commandId leadNodeId : String) (now : Int) : Bool × CommandStore :=
  if !isUuid commandId || !isUuid leadNodeId || !validTime now then (false, store)
  else ((store.get commandId).any (isPendingFor leadNodeId), ackRows store commandId leadNodeId (cal.toISOString now))

/-- Acknowledged before the cutoff. -/
def isOld (cutoff : String) (row : CommandRow) : Bool :=
  row.status = .acked && row.acked_at.any fun ackedAt => decide (ackedAt < cutoff)

/-- `prune(now, retentionMs)`. -/
def prune (cal : Calendar) (store : CommandStore) (now retentionMs : Int) : Except CommandError (Nat × CommandStore) :=
  if !validTime now || !Json.isSafe retentionMs || decide (retentionMs < 0) then .ok (0, store)
  else do
    require (validTime (now - retentionMs)) .range
    let cutoff := cal.toISOString (now - retentionMs)
    (store.rows.filter (isOld cutoff)).forM fun row => do
      let _ ← loadCommand cal row
    return ((store.rows.filter (isOld cutoff)).length, store.filter fun row => !isOld cutoff row)

end CommandStore

/-! ## Runs -/

structure CommandState where
  store : CommandStore
  /-- The latest reading of the clock. -/
  clock : Int

inductive CommandLabel where
  | enqueue (input : CommandInput) (id : String) (now : Int)
  | pendingFor (leadNodeId : String) (limit : Int)
  | ack (commandId leadNodeId : String) (now : Int)
  | prune (now retentionMs : Int)

namespace CommandState

/-- The clock after a call. -/
def time (s : CommandState) : CommandLabel → Int
  | .enqueue _ _ now => now
  | .pendingFor _ _ => s.clock
  | .ack _ _ now => now
  | .prune now _ => now

/-- The table after a call; one that throws changes nothing. -/
def after (cal : Calendar) (s : CommandState) : CommandLabel → CommandStore
  | .enqueue input id now =>
    match s.store.enqueue cal input id now with
    | .ok (_, store) => store
    | .error _ => s.store
  | .pendingFor _ _ => s.store
  | .ack commandId leadNodeId now => (s.store.ack cal commandId leadNodeId now).2
  | .prune now retentionMs =>
    match s.store.prune cal now retentionMs with
    | .ok (_, store) => store
    | .error _ => s.store

end CommandState

/-- An empty table, and calls at times that never go back; the ids drawn are UUIDs. -/
def commandSystem (cal : Calendar) : System CommandState CommandLabel where
  init s := s.store = .empty
  step s l s' := s.clock ≤ s.time l ∧ (∀ input id now, l = .enqueue input id now → isUuid id = true) ∧
    s' = ⟨s.after cal l, s.time l⟩

abbrev CommandEntry := Entry CommandState CommandLabel

/-- The record that a step put into the queue, if it is one that did. -/
def enqueuedBy (cal : Calendar) (e : CommandEntry) : Option CommandRow :=
  match e.label with
  | .enqueue input id now => (e.pre.store.enqueue cal input id now).toOption.map Prod.fst
  | _ => none

/-- The command that a step acknowledged: `ack` answered `true`. -/
def ackedBy (cal : Calendar) (e : CommandEntry) : Option String :=
  match e.label with
  | .ack commandId leadNodeId now => if (e.pre.store.ack cal commandId leadNodeId now).1 then some commandId else none
  | _ => none

/-- **What the table stands for**: the commands given to a lead and not acknowledged, first come first. -/
def outstanding (cal : Calendar) (leadNodeId : String) : List CommandEntry → List CommandRow
  | [] => []
  | e :: past =>
    (outstanding cal leadNodeId past).filter (fun row => ackedBy cal e ≠ some row.id) ++
      ((enqueuedBy cal e).filter fun row => row.lead = leadNodeId).toList

/-! ## One call -/

section

variable {cal : Calendar} {store store' : CommandStore} {input : CommandInput} {record row : CommandRow}
  {id lead commandId leadNodeId : String} {now limit retentionMs : Int}

namespace CommandStore

/-- The pending commands of a lead. -/
def pendings (store : CommandStore) (lead : String) : List CommandRow := store.rows.filter (isPendingFor lead)

/-- A command is taken exactly where it is well formed and its id is free. -/
theorem enqueue_ok : store.enqueue cal input id now = .ok (record, store') ↔
    (isUuid input.team_id = true ∧ isUuid input.lead = true ∧ isUuid input.task_id = true ∧ validKind input.kind = true) ∧
    validTime now = true ∧ store.has id = false ∧
    record = ⟨id, input.team_id, input.lead, input.task_id, input.kind, .pending, cal.toISOString now, none⟩ ∧
    store' = store.set record := by
  simp only [enqueue, bind_ok_iff, require_ok_iff, pure_ok_iff, exists_const, Bool.and_eq_true, Bool.not_eq_true',
    Prod.mk.injEq, and_assoc]
  constructor
  · rintro ⟨hteam, hlead, htask, hkind, hnow, hnew, rfl, rfl⟩
    exact ⟨hteam, hlead, htask, hkind, hnow, hnew, rfl, rfl⟩
  · rintro ⟨hteam, hlead, htask, hkind, hnow, hnew, rfl, rfl⟩
    exact ⟨hteam, hlead, htask, hkind, hnow, hnew, rfl, rfl⟩

/-- It goes to the end of its lead's queue, and of no other. -/
theorem pendings_enqueue (h : store.enqueue cal input id now = .ok (record, store')) (lead : String) :
    pendings store' lead = pendings store lead ++ ((some record).filter fun row => row.lead = lead).toList := by
  obtain ⟨-, -, hnew, rfl, rfl⟩ := enqueue_ok.mp h
  unfold pendings
  rw [Records.rows_set_new hnew, List.filter_append]
  congr 1
  by_cases hlead : input.lead = lead
  · simp [isPendingFor, hlead, Option.filter_some]
  · simp [isPendingFor, hlead, Option.filter_some]

/-- `ack` answers `true` for a command that is pending, to its lead. -/
theorem ack_true : (store.ack cal commandId leadNodeId now).1 = true ↔
    (isUuid commandId = true ∧ isUuid leadNodeId = true ∧ validTime now = true) ∧
    ∃ row ∈ pendings store leadNodeId, row.id = commandId := by
  have hfound : (store.get commandId).any (isPendingFor leadNodeId) = true ↔
      ∃ row ∈ pendings store leadNodeId, row.id = commandId := by
    rw [Option.any_eq_true]
    constructor
    · rintro ⟨row, hget, hpending⟩
      obtain ⟨hmem, hid⟩ := (Table.lookup_iff_mem store.keyed).mp hget
      exact ⟨row, List.mem_filter.mpr ⟨hmem, hpending⟩, hid⟩
    · rintro ⟨row, hmem, hid⟩
      obtain ⟨hrow, hpending⟩ := List.mem_filter.mp hmem
      exact ⟨row, (Table.lookup_iff_mem store.keyed).mpr ⟨hrow, hid⟩, hpending⟩
  unfold ack
  split
  · rename_i hbad
    simp only [Bool.or_eq_true, Bool.not_eq_true'] at hbad
    refine iff_of_false Bool.false_ne_true ?_
    rintro ⟨⟨hid, hlead, hnow⟩, -⟩
    rw [hid, hlead, hnow] at hbad
    simp at hbad
  · rename_i hgood
    simp only [Bool.or_eq_true, Bool.not_eq_true', not_or, Bool.not_eq_false] at hgood
    rw [hfound]
    exact ⟨fun h => ⟨⟨hgood.1.1, hgood.1.2, hgood.2⟩, h⟩, fun h => h.2⟩

/-- Two rows of one id are one. -/
theorem row_of_id (hrow : row ∈ store.rows) (hrecord : record ∈ store.rows) (hid : row.id = record.id) : row = record :=
  List.inj_on_of_nodup_map store.keyed hrow hrecord hid

/-- What is acknowledged leaves the queue of its lead, and nothing else leaves a queue. -/
theorem pendings_ack (lead : String) : pendings (store.ack cal commandId leadNodeId now).2 lead =
    (pendings store lead).filter fun row =>
      (if (store.ack cal commandId leadNodeId now).1 then some commandId else none) ≠ some row.id := by
  by_cases hacked : (store.ack cal commandId leadNodeId now).1 = true
  · rw [if_pos hacked]
    obtain ⟨⟨hid, hleadId, hnow⟩, taken, htaken, htakenId⟩ := ack_true.mp hacked
    obtain ⟨htakenMem, htakenPending⟩ := List.mem_filter.mp htaken
    have hrows : (store.ack cal commandId leadNodeId now).2.rows =
        Table.modify CommandRow.id commandId (ackedRow (cal.toISOString now) leadNodeId) store.rows := by
      unfold ack
      rw [if_neg (by simp [hid, hleadId, hnow])]
      rfl
    unfold pendings
    rw [hrows, Table.modify, List.filter_map, List.filter_filter]
    -- the row itself is no longer pending, the others are as they were
    have hone : ∀ row ∈ store.rows, row.id = commandId →
        isPendingFor lead (ackedRow (cal.toISOString now) leadNodeId row) = false := by
      intro row hrow hrowId
      obtain rfl := row_of_id hrow htakenMem (hrowId.trans htakenId.symm)
      unfold ackedRow
      rw [if_pos htakenPending]
      simp [isPendingFor]
    have hsame : ∀ row ∈ store.rows, (isPendingFor lead ∘ fun r : CommandRow =>
        if r.id = commandId then ackedRow (cal.toISOString now) leadNodeId r else r) row =
          (decide (some commandId ≠ some row.id) && isPendingFor lead row) := by
      intro row hrow
      by_cases hrowId : row.id = commandId
      · simp only [Function.comp, if_pos hrowId, hone row hrow hrowId]
        simp [hrowId]
      · simp only [Function.comp, if_neg hrowId]
        have hother : ¬ commandId = row.id := fun heq => hrowId heq.symm
        simp [hother]
    rw [List.filter_congr hsame]
    refine (List.map_congr_left fun row hrow => ?_).trans (List.map_id _)
    have hother := (List.mem_filter.mp hrow).2
    rw [Bool.and_eq_true, decide_eq_true_eq] at hother
    exact if_neg fun hrowId => hother.1 (congrArg some hrowId.symm)
  · rw [if_neg hacked]
    have hall : (pendings store lead).filter (fun row => none ≠ some row.id) = pendings store lead :=
      List.filter_eq_self.mpr fun row _ => by simp
    rw [hall]
    unfold ack at hacked ⊢
    split
    · rfl
    · rename_i hgood
      rw [if_neg hgood] at hacked
      show (Table.modify CommandRow.id commandId (ackedRow (cal.toISOString now) leadNodeId) store.rows).filter _ = _
      unfold pendings Table.modify
      congr 1
      refine (List.map_congr_left fun row hrow => ?_).trans (List.map_id _)
      split
      · rename_i hrowId
        -- it is not pending for this lead
        unfold ackedRow
        rw [if_neg]
        · rfl
        · intro hpending
          exact hacked ((Option.any_eq_true _ _).mpr ⟨row, (Table.lookup_iff_mem store.keyed).mpr ⟨hrow, hrowId⟩, hpending⟩)
      · rfl

/-- Pruning takes nothing that is pending. -/
theorem pendings_prune {n : Nat} (h : store.prune cal now retentionMs = .ok (n, store')) (lead : String) :
    pendings store' lead = pendings store lead := by
  unfold prune at h
  split at h
  · rw [(Prod.mk.inj (Except.ok.inj h)).2]
  · simp only [bind_ok_iff, pure_ok_iff, Prod.mk.injEq] at h
    obtain ⟨_, -, _, -, -, rfl⟩ := h
    unfold pendings
    rw [Records.rows_filter, List.filter_filter]
    refine List.filter_congr fun row _ => ?_
    by_cases hpending : isPendingFor lead row = true
    · have hstatus : row.status = .pending := by
        unfold isPendingFor at hpending
        rw [Bool.and_eq_true] at hpending
        exact of_decide_eq_true hpending.2
      simp [isOld, hstatus]
    · rw [Bool.eq_false_iff.mpr hpending, Bool.false_and]

/-! ## What can be read -/

/-- Every row can be loaded. -/
def Loads (cal : Calendar) (store : CommandStore) : Prop := ∀ row ∈ store.rows, loadCommand cal row = .ok row

/-- A time is stored in the one form the check wants. -/
theorem canonical_iso (hcal : cal.Lawful) (hnow : validTime now = true) : isCanonical cal (cal.toISOString now) = true := by
  obtain ⟨hlow, hhigh⟩ := validTime_iff.mp hnow
  unfold isCanonical
  rw [hcal.parse_iso now hlow hhigh]
  exact decide_eq_true rfl

/-- A new row is readable. -/
theorem Loads.enqueue (hcal : cal.Lawful) (hid : isUuid id = true) (hloads : Loads cal store)
    (h : store.enqueue cal input id now = .ok (record, store')) : Loads cal store' := by
  obtain ⟨⟨hteam, hlead, htask, hkind⟩, hnow, hnew, rfl, rfl⟩ := enqueue_ok.mp h
  intro row hrow
  rw [Records.rows_set_new hnew] at hrow
  rcases List.mem_append.mp hrow with hrow | hrow
  · exact hloads row hrow
  · rw [List.mem_singleton.mp hrow]
    unfold loadCommand
    simp only [hid, hteam, hlead, htask, hkind, canonical_iso hcal hnow, Option.all_none, Option.isNone_none, Bool.and_self]
    rfl

/-- An acknowledged row is readable. -/
theorem Loads.ack (hcal : cal.Lawful) (hloads : Loads cal store) : Loads cal (store.ack cal commandId leadNodeId now).2 := by
  unfold CommandStore.ack
  split
  · exact hloads
  · rename_i hgood
    simp only [Bool.or_eq_true, Bool.not_eq_true', not_or, Bool.not_eq_false] at hgood
    intro row hrow
    obtain ⟨old, hold, rfl⟩ := Table.mem_modify.mp hrow
    split
    · unfold ackedRow
      split
      · have hrow := hloads old hold
        simp only [loadCommand, bind_ok_iff, require_ok_iff, pure_ok_iff, exists_const, Bool.and_eq_true, and_true] at hrow
        obtain ⟨⟨⟨⟨⟨⟨⟨hid, hteam⟩, hlead⟩, htask⟩, hkind⟩, hcreated⟩, -⟩, -⟩ := hrow
        unfold loadCommand
        simp only [hid, hteam, hlead, htask, hkind, hcreated, Option.all_some, canonical_iso hcal hgood.2, Option.isSome_some,
          Bool.and_self]
        rfl
      · exact hloads old hold
    · exact hloads old hold

/-- Pruning leaves readable rows. -/
theorem Loads.prune {n : Nat} (hloads : Loads cal store) (h : store.prune cal now retentionMs = .ok (n, store')) :
    Loads cal store' := by
  unfold CommandStore.prune at h
  split at h
  · rw [← (Prod.mk.inj (Except.ok.inj h)).2]
    exact hloads
  · simp only [bind_ok_iff, pure_ok_iff, Prod.mk.injEq] at h
    obtain ⟨_, -, _, -, -, rfl⟩ := h
    intro row hrow
    exact hloads row (List.mem_filter.mp hrow).1

/-- What a lead is answered: its pending commands in the order of their times and ids, so many of them. -/
theorem pendingFor_eq (hloads : Loads cal store) (hlead : isUuid lead = true) (hlimit : Json.isSafe limit = true)
    (hpositive : 1 ≤ limit) :
    store.pendingFor cal lead limit = .ok (((pendings store lead).insertionSort comesBefore).take limit.toNat) := by
  unfold pendingFor
  rw [if_neg (by simp [hlead]), if_neg]
  · have hmap := @mapM_ok _ _ _ (loadCommand cal) id
      (((store.rows.filter (isPendingFor lead)).insertionSort comesBefore).take limit.toNat) fun row hrow =>
        hloads row (List.mem_filter.mp ((List.mem_insertionSort comesBefore).mp (List.mem_of_mem_take hrow))).1
    rw [hmap, List.map_id]
    rfl
  · rw [hlimit, Bool.not_true, Bool.false_or, decide_eq_true_eq]
    omega

end CommandStore

/-! ## The queue over a run -/

variable {hist older newer : List CommandEntry} {s : CommandState} {e : CommandEntry}

open CommandStore

/-- **What a call does to a queue**: it loses what was acknowledged and gains what was given. -/
theorem pendings_after (lead : String) : pendings (e.pre.after cal e.label) lead =
    (pendings e.pre.store lead).filter (fun row => ackedBy cal e ≠ some row.id) ++
      ((enqueuedBy cal e).filter fun row => row.lead = lead).toList := by
  have hall : ∀ rows : List CommandRow, rows.filter (fun row => none ≠ some row.id) = rows := fun rows =>
    List.filter_eq_self.mpr fun row _ => by simp
  unfold ackedBy enqueuedBy CommandState.after
  cases hlabel : e.label with
  | enqueue input id now =>
    dsimp only
    rw [hall]
    cases henqueue : e.pre.store.enqueue cal input id now with
    | ok r =>
      obtain ⟨record, store'⟩ := r
      exact pendings_enqueue henqueue lead
    | error _ => exact (List.append_nil _).symm
  | pendingFor leadNodeId limit =>
    dsimp only
    rw [hall]
    exact (List.append_nil _).symm
  | ack commandId leadNodeId now =>
    dsimp only
    rw [pendings_ack]
    exact (List.append_nil _).symm
  | prune now retentionMs =>
    dsimp only
    rw [hall]
    cases hprune : e.pre.store.prune cal now retentionMs with
    | ok r =>
      obtain ⟨n, store'⟩ := r
      exact (pendings_prune hprune lead).trans (List.append_nil _).symm
    | error _ => exact (List.append_nil _).symm

theorem loads_after (hcal : cal.Lawful) (hids : ∀ input id now, e.label = .enqueue input id now → isUuid id = true)
    (hloads : Loads cal e.pre.store) : Loads cal (e.pre.after cal e.label) := by
  unfold CommandState.after
  cases hlabel : e.label with
  | enqueue input id now =>
    dsimp only
    cases henqueue : e.pre.store.enqueue cal input id now with
    | ok r =>
      obtain ⟨record, store'⟩ := r
      exact hloads.enqueue hcal (hids input id now hlabel) henqueue
    | error _ => exact hloads
  | pendingFor leadNodeId limit => exact hloads
  | ack commandId leadNodeId now => exact hloads.ack hcal
  | prune now retentionMs =>
    dsimp only
    cases hprune : e.pre.store.prune cal now retentionMs with
    | ok r =>
      obtain ⟨n, store'⟩ := r
      exact hloads.prune hprune
    | error _ => exact hloads

/-- **The table holds the queues**: of every lead exactly what is outstanding, in that order. -/
theorem pendings_run (run : Run (commandSystem cal) hist s) (lead : String) :
    pendings s.store lead = outstanding cal lead hist := by
  refine run.history (P := fun past s => pendings s.store lead = outstanding cal lead past) ?_ ?_
  · intro s hinit
    rw [show s.store = .empty from hinit]
    rfl
  · intro past e _ _ step hpast
    obtain ⟨-, -, hpost⟩ := step
    rw [hpost]
    unfold outstanding
    rw [← hpast]
    exact pendings_after lead

/-- Every row of every run is readable. -/
theorem loads_run (hcal : cal.Lawful) (run : Run (commandSystem cal) hist s) : Loads cal s.store := by
  refine run.invariant (I := fun s => Loads cal s.store) ?_ ?_
  · intro s hinit row hrow
    rw [show s.store = .empty from hinit] at hrow
    exact absurd hrow List.not_mem_nil
  · intro e _ step hloads
    obtain ⟨-, hids, hpost⟩ := step
    rw [hpost]
    exact loads_after hcal hids hloads

/-- A call acknowledges where it answers that it did. -/
theorem ackedBy_iff : ackedBy cal e = some commandId ↔ ∃ leadNodeId now,
    e.label = .ack commandId leadNodeId now ∧ (e.pre.store.ack cal commandId leadNodeId now).1 = true := by
  unfold ackedBy
  cases hlabel : e.label with
  | ack id lead now =>
    dsimp only
    split
    · rename_i hacked
      rw [Option.some.injEq]
      constructor
      · rintro rfl
        exact ⟨lead, now, rfl, hacked⟩
      · rintro ⟨_, _, hsame, -⟩
        exact (CommandLabel.ack.inj hsame).1
    · rename_i hrefused
      refine iff_of_false (by simp) ?_
      rintro ⟨_, _, hsame, hacked⟩
      obtain ⟨rfl, rfl, rfl⟩ := CommandLabel.ack.inj hsame
      exact hrefused hacked
  | enqueue | pendingFor | prune => simp

/-- What is outstanding was given to this lead. -/
theorem lead_of_outstanding (run : Run (commandSystem cal) hist s) (hrow : row ∈ outstanding cal lead hist) :
    row ∈ s.store.rows ∧ row.lead = lead := by
  rw [← pendings_run run lead] at hrow
  obtain ⟨hmem, hpending⟩ := List.mem_filter.mp hrow
  unfold isPendingFor at hpending
  rw [Bool.and_eq_true] at hpending
  exact ⟨hmem, of_decide_eq_true hpending.1⟩

/-- A command that is not outstanding for its lead stays so until one of its id is given. -/
theorem gone_until_given (hgone : ∀ lead, ∀ row ∈ outstanding cal lead older, row.id ≠ commandId)
    (hnone : ∀ e ∈ newer, ∀ record, enqueuedBy cal e = some record → record.id ≠ commandId) :
    ∀ lead, ∀ row ∈ outstanding cal lead (newer ++ older), row.id ≠ commandId := by
  induction newer with
  | nil => exact hgone
  | cons e rest ih =>
    have hrest := ih fun e' he' => hnone e' (List.mem_cons_of_mem _ he')
    intro lead row hrow
    rw [List.cons_append] at hrow
    unfold outstanding at hrow
    rcases List.mem_append.mp hrow with hrow | hrow
    · exact hrest lead row (List.mem_filter.mp hrow).1
    · rw [Option.mem_toList] at hrow
      exact hnone _ List.mem_cons_self row (Option.filter_eq_some_iff.mp hrow).1

/-- Where what is outstanding is in the order of times and ids, every pull answers its front; and where
    every pull does, it is, unless there are more commands than a limit can name. -/
theorem pull_iff (hcal : cal.Lawful) (run : Run (commandSystem cal) hist s) (hlead : isUuid lead = true) :
    ((outstanding cal lead hist).Pairwise comesBefore → ∀ limit, Json.isSafe limit = true → 1 ≤ limit →
      s.store.pendingFor cal lead limit = .ok ((outstanding cal lead hist).take limit.toNat)) ∧
    (((outstanding cal lead hist).length : Int) ≤ Json.maxSafe → (∀ limit, Json.isSafe limit = true → 1 ≤ limit →
      s.store.pendingFor cal lead limit = .ok ((outstanding cal lead hist).take limit.toNat)) →
        (outstanding cal lead hist).Pairwise comesBefore) := by
  have hpull : ∀ limit, Json.isSafe limit = true → 1 ≤ limit → s.store.pendingFor cal lead limit =
      .ok (((outstanding cal lead hist).insertionSort comesBefore).take limit.toNat) := by
    intro limit hlimit hpositive
    rw [pendingFor_eq (loads_run hcal run) hlead hlimit hpositive, pendings_run run]
  constructor
  · intro hsorted limit hlimit hpositive
    rw [hpull limit hlimit hpositive, hsorted.insertionSort_eq]
  · intro hlength hall
    cases hempty : outstanding cal lead hist with
    | nil => exact List.Pairwise.nil
    | cons first rest =>
      rw [← hempty]
      have hpositive : (1 : Int) ≤ (outstanding cal lead hist).length := by
        rw [hempty, List.length_cons]
        omega
      have hsafe : Json.isSafe ((outstanding cal lead hist).length : Int) = true := by
        rw [Json.isSafe_iff]
        have hmax : 0 ≤ Json.maxSafe := by decide
        exact ⟨by omega, hlength⟩
      have hwhole := hall _ hsafe hpositive
      rw [hpull _ hsafe hpositive, Except.ok.injEq, Int.toNat_natCast, List.take_length] at hwhole
      rw [List.take_of_length_le (by rw [List.length_insertionSort])] at hwhole
      rw [← hwhole]
      exact List.pairwise_insertionSort comesBefore _

/-- The command that a step gives comes after those of its lead that are still outstanding. -/
def InOrder (cal : Calendar) (e : CommandEntry) : Prop :=
  ∀ record, enqueuedBy cal e = some record → ∀ row ∈ pendings e.pre.store record.lead, comesBefore row record

/-- Commands that are given in order are outstanding in order. -/
theorem sorted_run (run : Run (commandSystem cal) hist s) (horder : ∀ e ∈ hist, InOrder cal e) (lead : String) :
    (outstanding cal lead hist).Pairwise comesBefore := by
  induction run with
  | start h => exact List.Pairwise.nil
  | @next past s s' l run step ih =>
    unfold outstanding
    rw [List.pairwise_append]
    refine ⟨(ih fun e he => horder e (List.mem_cons_of_mem _ he)).filter _, ?_, ?_⟩
    · cases hgiven : enqueuedBy cal ⟨s, l, s'⟩ with
      | none => exact List.Pairwise.nil
      | some record =>
        rw [Option.filter_some]
        split
        · exact List.pairwise_singleton _ _
        · exact List.Pairwise.nil
    · intro row hrow record hrecord
      rw [Option.mem_toList] at hrecord
      obtain ⟨hgiven, hlead⟩ := Option.filter_eq_some_iff.mp hrecord
      refine horder _ List.mem_cons_self record hgiven row ?_
      rw [of_decide_eq_true hlead]
      show row ∈ pendings s.store lead
      rw [pendings_run run]
      exact (List.mem_filter.mp hrow).1

/-- **The queue of commands over every run.** The table holds of every lead what was given to it and not
    acknowledged; a command is acknowledged by its own lead, and once; and as long as commands are given
    in the order of their times and ids, a pull answers the front of the queue. -/
theorem command_queue (hcal : cal.Lawful) (run : Run (commandSystem cal) hist s) :
    (∀ lead, pendings s.store lead = outstanding cal lead hist) ∧
    (∀ commandId leadNodeId now, isUuid commandId = true → validTime now = true →
      ((s.store.ack cal commandId leadNodeId now).1 = true ↔ ∃ row ∈ outstanding cal leadNodeId hist, row.id = commandId)) ∧
    (∀ newer e older, hist = newer ++ e :: older → ∀ commandId, ackedBy cal e = some commandId →
      (∀ e' ∈ newer, ∀ record, enqueuedBy cal e' = some record → record.id ≠ commandId) →
      ∀ e' ∈ newer, ackedBy cal e' ≠ some commandId) ∧
    (∀ lead, isUuid lead = true → (outstanding cal lead hist).Pairwise comesBefore → ∀ limit, Json.isSafe limit = true → 1 ≤ limit →
      s.store.pendingFor cal lead limit = .ok ((outstanding cal lead hist).take limit.toNat)) ∧
    (∀ lead, isUuid lead = true → ((outstanding cal lead hist).length : Int) ≤ Json.maxSafe →
      (∀ limit, Json.isSafe limit = true → 1 ≤ limit →
        s.store.pendingFor cal lead limit = .ok ((outstanding cal lead hist).take limit.toNat)) →
      (outstanding cal lead hist).Pairwise comesBefore) ∧
    ((∀ e ∈ hist, InOrder cal e) → ∀ lead, (outstanding cal lead hist).Pairwise comesBefore) := by
  refine ⟨pendings_run run, fun commandId leadNodeId now hid hnow => ?_, ?_, fun lead hlead => (pull_iff hcal run hlead).1,
    fun lead hlead => (pull_iff hcal run hlead).2, sorted_run run⟩
  · rw [ack_true, pendings_run run]
    refine ⟨fun h => h.2, fun h => ⟨⟨hid, ?_, hnow⟩, h⟩⟩
    -- what is outstanding was given to a lead with an id
    obtain ⟨row, hrow, -⟩ := h
    obtain ⟨hmem, hlead⟩ := lead_of_outstanding run hrow
    have hloads := loads_run hcal run row hmem
    simp only [loadCommand, bind_ok_iff, require_ok_iff, exists_const, Bool.and_eq_true] at hloads
    rw [← hlead]
    exact hloads.1.1.1.1.1.1.2
  · rintro newer e older rfl commandId hacked hnone e' he' hagain
    obtain ⟨last, middle, rfl⟩ := List.append_of_mem he'
    rw [List.append_assoc] at run
    have hthen : Run (commandSystem cal) (middle ++ e :: older) e'.pre := run.before
    have hgone : ∀ lead, ∀ row ∈ outstanding cal lead (e :: older), row.id ≠ commandId := by
      intro lead row hrow
      unfold outstanding at hrow
      rcases List.mem_append.mp hrow with hrow | hrow
      · have hkept := (List.mem_filter.mp hrow).2
        rw [hacked, decide_eq_true_eq] at hkept
        exact fun heq => hkept (congrArg some heq.symm)
      · obtain ⟨leadNodeId, now, hlabel, -⟩ := ackedBy_iff.mp hacked
        unfold enqueuedBy at hrow
        rw [hlabel] at hrow
        exact absurd hrow List.not_mem_nil
    have hstill := gone_until_given hgone fun x hx record hrecord =>
      hnone x (List.mem_append_right _ (List.mem_cons_of_mem _ hx)) record hrecord
    obtain ⟨leadNodeId, now, -, htrue⟩ := ackedBy_iff.mp hagain
    obtain ⟨-, row, hrow, hrowId⟩ := ack_true.mp htrue
    rw [pendings_run hthen] at hrow
    exact hstill leadNodeId row hrow hrowId

end

/-! ## Two commands in a millisecond -/

/-- A command to cancel, of this id. -/
def gives (s : CommandState) (id : String) : CommandEntry :=
  let input : CommandInput := ⟨Sample.nodeA, Sample.nodeB, Sample.task, "cancel"⟩
  ⟨s, .enqueue input id 0, ⟨s.after strokes (.enqueue input id 0), 0⟩⟩

/-- No command has been given yet. -/
def nothingGiven : CommandState := ⟨.empty, 0⟩

def firstGiven : CommandEntry := gives nothingGiven (Sample.msg 2)

def secondGiven : CommandEntry := gives firstGiven.post (Sample.msg 1)

theorem run_firstGiven : Run (commandSystem strokes) [firstGiven] firstGiven.post :=
  .next (.start rfl) ⟨by decide, fun _ _ _ h => (CommandLabel.enqueue.inj h).2.1 ▸ (by decide +kernel), rfl⟩

/-- A single command is pulled. -/
theorem command_queue_one : firstGiven.post.store.pendingFor strokes Sample.nodeB 10 =
    .ok ((outstanding strokes Sample.nodeB [firstGiven]).take 10) := by
  have hqueue := command_queue lawful_strokes run_firstGiven
  have horder : ∀ e ∈ [firstGiven], InOrder strokes e := by
    intro e he record _ row hrow
    rw [List.mem_singleton.mp he] at hrow
    exact absurd hrow List.not_mem_nil
  exact hqueue.2.2.2.1 Sample.nodeB (by decide +kernel) (hqueue.2.2.2.2.2 horder Sample.nodeB) 10 (by decide) (by decide)

/-- **The second command of a millisecond is pulled first** when its id happens to be the smaller one. -/
theorem younger_pulled_first : ∃ hist s, Run (commandSystem strokes) hist s ∧
    (outstanding strokes Sample.nodeB hist).map CommandRow.id = [Sample.msg 2, Sample.msg 1] ∧
    ((s.store.pendingFor strokes Sample.nodeB 10).toOption.map fun rows => rows.map CommandRow.id) =
      some [Sample.msg 1, Sample.msg 2] := by
  refine ⟨[secondGiven, firstGiven], secondGiven.post, .next run_firstGiven
    ⟨by decide, fun _ _ _ h => (CommandLabel.enqueue.inj h).2.1 ▸ (by decide +kernel), rfl⟩, ?_, ?_⟩
  · decide +kernel
  · decide +kernel

end Registry
end Qlong
