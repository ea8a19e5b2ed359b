import Qlong.Registry.State

/-!
# What a commit leaves in the tables

The differences between two valid states, written into the tables of the first, leave each table
with the merged rows of the two: the rows of the second state, the surviving ones in their places.
The one thing that can stop them is the uniqueness of the token hashes, which SQLite checks row by
row: a node must not take over the hash of a node that stays and is written after it.

Read back, the tables of a valid state are that state, as long as every key is read back whole.
-/

namespace Qlong
namespace Registry

open Lib Lead Node

variable {V : Type} {c : Center V} {s s' before after : RegistryState V}

/-! ## A valid state -/

/-- The clauses of `validateRegistryState`, one by one. -/
structure Valid (c : Center V) (s : RegistryState V) : Prop where
  epoch : Json.isNonnegative s.directoryEpoch = true
  offset : Json.isNonnegative s.auditOffset = true
  last : Json.isNonnegative (s.auditOffset + s.auditLog.length) = true
  window : s.auditLog.length ≤ 10000
  size : (s.nodes.rows.length + s.grants.rows.length : Int) ≤ s.directoryEpoch
  teams : ∀ t ∈ s.teams.rows, validTeam c t = true
  nodes : ∀ n ∈ s.nodes.rows, (validNode c n = true ∧ s.teams.has n.team_id = true) ∧
    validKeys s.directoryEpoch n = true
  hashes : (s.nodes.rows.map StoredNode.tokenHash).Nodup
  indexed : s.nodes.rows.length = s.nodeByTokenHash.rows.length
  index : ∀ n ∈ s.nodes.rows, s.nodeByTokenHash.get n.tokenHash = some (n.tokenHash, n.node_id)
  tokens : ∀ r ∈ s.enrollTokens.rows, ((validEnroll c r = true ∧ s.teams.has r.team_id = true) ∧
    r.used_by.isNone = r.consumed_at.isNone) ∧ r.used_by.all s.nodes.has = true
  grants : ∀ g ∈ s.grants.rows, ((validGrant c g = true ∧ g.from_team ≠ g.to_team) ∧
    s.teams.has g.from_team = true) ∧ s.teams.has g.to_team = true
  tasks : ∀ t ∈ s.taskIndex.rows, (((validTaskRecord c t = true ∧ s.teams.has t.projection.team_id = true) ∧
    s.nodes.has t.projection.lead = true) ∧ t.projection.exec.all s.nodes.has = true) ∧
    t.content_hash = c.digest t.projection.toJson
  audit : ∀ a ∈ s.auditLog, validAudit c a = true

theorem valid_iff : validateRegistryState c s = true ↔ Valid c s := by
  unfold validateRegistryState
  simp only [Bool.and_eq_true, List.all_eq_true, decide_eq_true_eq]
  constructor
  · rintro ⟨⟨⟨⟨⟨⟨⟨⟨⟨⟨⟨⟨⟨h1, h2⟩, h3⟩, h4⟩, h5⟩, h6⟩, h7⟩, h8⟩, h9⟩, h10⟩, h11⟩, h12⟩, h13⟩, h14⟩
    exact ⟨h1, h2, h3, h4, h5, h6, h7, h8, h9, h10, h11, h12, h13, h14⟩
  · intro h
    exact ⟨⟨⟨⟨⟨⟨⟨⟨⟨⟨⟨⟨⟨h.epoch, h.offset⟩, h.last⟩, h.window⟩, h.size⟩, h.teams⟩, h.nodes⟩, h.hashes⟩, h.indexed⟩,
      h.index⟩, h.tokens⟩, h.grants⟩, h.tasks⟩, h.audit⟩

/-! ## The rows of a state -/

section

variable {α : Type} {key : α → String} {row : α → Row String α}

theorem ids_rows (hrow : ∀ r, (row r).id = key r) (rows : List α) : (rows.map row).map Row.id = rows.map key := by
  rw [List.map_map]
  exact List.map_congr_left fun r _ => hrow r

theorem keyed_rows (hrow : ∀ r, (row r).id = key r) (m : Records key) : Table.Keyed Row.id (m.rows.map row) := by
  unfold Table.Keyed
  rw [ids_rows hrow]
  exact m.keyed

end

theorem auditRows_append (offset : Int) (log : List AuditRecord) (a : AuditRecord) :
    auditRows offset (log ++ [a]) = auditRows offset log ++ [⟨offset + log.length, [], a⟩] := by
  induction log generalizing offset with
  | nil => simp [auditRows]
  | cons b rest ih =>
    rw [List.cons_append, auditRows, auditRows, ih, List.length_cons, List.cons_append]
    congr 4
    push_cast
    omega

theorem auditRows_above {offset : Int} {log : List AuditRecord} {r : Row Int AuditRecord}
    (h : r ∈ auditRows offset log) : offset ≤ r.id ∧ r.id < offset + log.length := by
  induction log generalizing offset with
  | nil => exact absurd h List.not_mem_nil
  | cons b rest ih =>
    rcases List.mem_cons.mp h with rfl | h
    · simp only [List.length_cons]
      omega
    · have := ih h
      simp only [List.length_cons]
      omega

/-- The events are numbered upwards. -/
theorem auditRows_ascend (offset : Int) (log : List AuditRecord) :
    (auditRows offset log).Pairwise fun a b => a.id < b.id := by
  induction log generalizing offset with
  | nil => exact .nil
  | cons b rest ih =>
    refine .cons (fun r hr => ?_) (ih (offset + 1))
    have := auditRows_above hr
    simp only
    omega

theorem keyed_audit (offset : Int) (log : List AuditRecord) : Table.Keyed Row.id (auditRows offset log) := by
  unfold Table.Keyed
  rw [List.Nodup, List.pairwise_map]
  exact (auditRows_ascend offset log).imp fun h => by omega

/-! ## One table -/

section

variable {κ α : Type} [DecidableEq κ] [DecidableEq α] {unique : Option Nat} {old next rows : List (Row κ α)}

/-- Two rows that the unique column tells apart, or that are one. -/
def Apart (unique : Option Nat) (x r : Row κ α) : Prop :=
  x.id ≠ r.id → ∀ i, unique = some i → x.columns[i]? ≠ r.columns[i]?

omit [DecidableEq α] in
theorem upsert_ok {r : Row κ α} (h : ∀ x ∈ rows, Apart unique x r) :
    upsert unique r rows = .ok (Table.put Row.id r rows) := by
  unfold upsert
  rw [if_neg]
  · rfl
  · intro hany
    obtain ⟨x, hx, hclash⟩ := List.any_eq_true.mp hany
    simp only [Bool.and_eq_true, decide_eq_true_eq, Option.any_eq_true] at hclash
    obtain ⟨hid, i, hi, heq⟩ := hclash
    exact h x hx hid i hi heq

/-- The writes go through, and a row that is skipped is already there. What a row meets in the table
    is settled, or written already, or still to be written over. -/
theorem writes_ok (hrows : Table.Keyed Row.id rows) (hnext : Table.Keyed Row.id next)
    (hkept : ∀ r ∈ next, Table.lookup Row.id r.id old = some r → Table.lookup Row.id r.id rows = some r)
    (hsettled : ∀ x ∈ rows, x.id ∉ next.map Row.id → ∀ r ∈ next, Apart unique x r)
    (hnew : ∀ x ∈ next, ∀ r ∈ next, Apart unique x r)
    (hlater : next.Pairwise fun r later => ∀ x ∈ rows, x.id = later.id → Apart unique x r) :
    foldSteps (fun rows r => if Table.lookup Row.id r.id old = some r then pure rows else upsert unique r rows)
      rows next = .ok (next.foldl (fun rows r => Table.put Row.id r rows) rows) := by
  induction next generalizing rows with
  | nil => rfl
  | cons r rest ih =>
    unfold Table.Keyed at hnext
    rw [List.map_cons, List.nodup_cons] at hnext
    rw [List.pairwise_cons] at hlater
    have hmeets : ∀ x ∈ rows, Apart unique x r := by
      intro x hx
      by_cases hmem : x.id ∈ (r :: rest).map Row.id
      · obtain ⟨y, hy, hid⟩ := List.mem_map.mp hmem
        rcases List.mem_cons.mp hy with rfl | hy
        · exact fun hne => absurd hid.symm hne
        · exact hlater.1 y hy x hx hid.symm
      · exact hsettled x hx hmem r List.mem_cons_self
    have hstep : (if Table.lookup Row.id r.id old = some r then pure rows else upsert unique r rows)
        = (.ok (Table.put Row.id r rows) : Except Failure _) := by
      split
      · rename_i hsame
        rw [Table.put_same hrows (hkept r List.mem_cons_self hsame)]
        rfl
      · exact upsert_ok hmeets
    rw [foldSteps, hstep, List.foldl_cons]
    refine ih hrows.put hnext.2 ?_ ?_ ?_ ?_
    · intro x hx hsame
      rw [Table.lookup_put hrows, if_neg]
      · exact hkept x (List.mem_cons_of_mem _ hx) hsame
      · intro hid
        exact hnext.1 (hid ▸ List.mem_map_of_mem hx)
    · intro y hy hout x hx
      rcases Table.mem_put.mp hy with rfl | ⟨hy, hne⟩
      · exact hnew y List.mem_cons_self x (List.mem_cons_of_mem _ hx)
      · refine hsettled y hy ?_ x (List.mem_cons_of_mem _ hx)
        rw [List.map_cons, List.mem_cons]
        exact fun h => h.elim hne hout
    · exact fun x hx y hy => hnew x (List.mem_cons_of_mem _ hx) y (List.mem_cons_of_mem _ hy)
    · refine hlater.2.imp_of_mem ?_
      intro x later _ hmem h y hy hid
      rcases Table.mem_put.mp hy with rfl | ⟨hy, -⟩
      · exact absurd (hid ▸ List.mem_map_of_mem hmem) hnext.1
      · exact h y hy hid

omit [DecidableEq α] in
theorem sweep_eq (old next : List (Row κ α)) :
    old.foldl (fun rows r => if (Table.lookup Row.id r.id next).isSome then rows else Table.remove Row.id r.id rows) old
      = old.filter fun r => (Table.lookup Row.id r.id next).isSome := by
  have hfold : ∀ (xs rows : List (Row κ α)),
      xs.foldl (fun rows r => if (Table.lookup Row.id r.id next).isSome then rows else Table.remove Row.id r.id rows) rows
        = ((xs.filter fun r => (Table.lookup Row.id r.id next).isNone).map Row.id).foldl
            (fun rows k => Table.remove Row.id k rows) rows := by
    intro xs
    induction xs with
    | nil => exact fun _ => rfl
    | cons x rest ih => cases h : Table.lookup Row.id x.id next <;> simp [h, ih]
  rw [hfold, Table.foldl_remove]
  apply List.filter_congr
  intro r hr
  cases h : Table.lookup Row.id r.id next with
  | none =>
    have hmem : r.id ∈ (old.filter fun r => (Table.lookup Row.id r.id next).isNone).map Row.id :=
      List.mem_map_of_mem (List.mem_filter.mpr ⟨hr, by simp [h]⟩)
    simp only [hmem]
    rfl
  | some x =>
    have hmem : r.id ∉ (old.filter fun r => (Table.lookup Row.id r.id next).isNone).map Row.id := by
      intro hmem
      obtain ⟨y, hy, hid⟩ := List.mem_map.mp hmem
      have hnone := (List.mem_filter.mp hy).2
      rw [hid, h] at hnone
      exact absurd hnone (by simp)
    simp [hmem]

/-- **The differences leave the merged table.** -/
theorem writeDiff_ok (hold : Table.Keyed Row.id old) (hnext : Table.Keyed Row.id next)
    (hnew : ∀ x ∈ next, ∀ r ∈ next, Apart unique x r)
    (hlater : next.Pairwise fun r later => ∀ x ∈ old, x.id = later.id → Apart unique x r) :
    writeDiff unique old next old = .ok (Table.merge Row.id old next) := by
  unfold writeDiff
  rw [sweep_eq, ← Table.rewrite_eq hold hnext]
  refine writes_ok hold.filter hnext ?_ ?_ hnew ?_
  · intro r hr hsame
    rw [Table.lookup_filter hold, hsame, Option.filter_some_pos]
    exact Table.lookup_isSome_iff.mpr (List.mem_map_of_mem hr)
  · -- what is left of the old rows is written over
    intro x hx hout
    exact absurd (Table.lookup_isSome_iff.mp (List.mem_filter.mp hx).2) hout
  · exact hlater.imp fun h x hx => h x (List.mem_of_mem_filter hx)

/-- Without a unique column nothing stops them. -/
theorem writeDiff_plain (hold : Table.Keyed Row.id old) (hnext : Table.Keyed Row.id next) :
    writeDiff none old next old = .ok (Table.merge Row.id old next) :=
  have hnone : ∀ x r : Row κ α, Apart none x r := fun _ _ _ _ h => absurd h (by simp)
  writeDiff_ok hold hnext (fun x _ r _ => hnone x r)
    (List.pairwise_of_forall fun r _ x _ _ => hnone x r)

end

/-! ## All tables -/

/-- The tables after the differences from `before` to `after`. -/
def merged (before after : RegistryState V) : RegistryTables V where
  epoch := after.directoryEpoch
  audit_offset := after.auditOffset
  teams := Table.merge Row.id (encode before).teams (encode after).teams
  nodes := Table.merge Row.id (encode before).nodes (encode after).nodes
  enrollTokens := Table.merge Row.id (encode before).enrollTokens (encode after).enrollTokens
  grants := Table.merge Row.id (encode before).grants (encode after).grants
  tasks := Table.merge Row.id (encode before).tasks (encode after).tasks
  audit := Table.merge Row.id (encode before).audit (encode after).audit

/-- No node is given the token hash that another node had, which stays and comes later. -/
def NoTakeover (before after : RegistryState V) : Prop :=
  after.nodes.rows.Pairwise fun a later =>
    ∀ b ∈ before.nodes.rows, b.node_id = later.node_id → a.tokenHash ≠ b.tokenHash

/-- No hash goes from one node to another. -/
theorem noTakeover_of (h : ∀ a ∈ after.nodes.rows, ∀ b ∈ before.nodes.rows, a.tokenHash = b.tokenHash →
    a.node_id = b.node_id) : NoTakeover before after := by
  have hkeyed : after.nodes.rows.Pairwise fun a later => a.node_id ≠ later.node_id :=
    List.pairwise_map.mp after.nodes.keyed
  refine hkeyed.imp_of_mem ?_
  intro a later ha _ hne b hb hid hhash
  exact hne ((h a ha b hb hhash).trans hid)

/-- The same rows, in any order. -/
structure SameRows (db db' : RegistryTables V) : Prop where
  epoch : db.epoch = db'.epoch
  audit_offset : db.audit_offset = db'.audit_offset
  teams : db.teams.Perm db'.teams
  nodes : db.nodes.Perm db'.nodes
  enrollTokens : db.enrollTokens.Perm db'.enrollTokens
  grants : db.grants.Perm db'.grants
  tasks : db.tasks.Perm db'.tasks
  audit : db.audit.Perm db'.audit

/-- **The merged tables hold the rows of the new state**, none lost, stale or twice. -/
theorem merged_rows (before after : RegistryState V) : SameRows (merged before after) (encode after) where
  epoch := rfl
  audit_offset := rfl
  teams := Table.merge_perm (keyed_rows (fun _ => rfl) _) (keyed_rows (fun _ => rfl) _)
  nodes := Table.merge_perm (keyed_rows (fun _ => rfl) _) (keyed_rows (fun _ => rfl) _)
  enrollTokens := Table.merge_perm (keyed_rows (fun _ => rfl) _) (keyed_rows (fun _ => rfl) _)
  grants := Table.merge_perm (keyed_rows (fun _ => rfl) _) (keyed_rows (fun _ => rfl) _)
  tasks := Table.merge_perm (keyed_rows (fun _ => rfl) _) (keyed_rows (fun _ => rfl) _)
  audit := Table.merge_perm (keyed_audit _ _) (keyed_audit _ _)

theorem references_perm {α β : Type} {i : Nat} {rows rows' : List (Row String α)} {targets targets' : List (Row String β)}
    (hrows : rows.Perm rows') (htargets : targets.Perm targets') :
    references i rows targets = references i rows' targets' := by
  unfold references
  rw [Bool.eq_iff_iff, List.all_eq_true, List.all_eq_true]
  have hids : ∀ id, id ∈ targets.map Row.id ↔ id ∈ targets'.map Row.id := fun id => (htargets.map Row.id).mem_iff
  constructor
  · intro h r hr
    have := h r (hrows.mem_iff.mpr hr)
    simpa only [hids] using this
  · intro h r hr
    have := h r (hrows.mem_iff.mp hr)
    simpa only [hids] using this

theorem foreignKeys_same {db db' : RegistryTables V} (h : SameRows db db') : foreignKeys db = foreignKeys db' := by
  unfold foreignKeys
  rw [references_perm h.nodes h.teams, references_perm h.enrollTokens h.teams, references_perm h.enrollTokens h.nodes,
    references_perm h.grants h.teams, references_perm h.grants h.teams, references_perm h.tasks h.teams,
    references_perm h.tasks h.nodes, references_perm h.tasks h.nodes]

/-- The references of a valid state are met. -/
theorem Valid.foreignKeys (h : Valid c s) : Registry.foreignKeys (encode s) = true := by
  have hteam : ∀ id, s.teams.has id = true → id ∈ (s.teams.rows.map teamRow).map Row.id := by
    intro id hid
    rw [ids_rows fun _ => rfl]
    exact Records.has_iff.mp hid
  have hnode : ∀ id, s.nodes.has id = true → id ∈ (s.nodes.rows.map nodeRow).map Row.id := by
    intro id hid
    rw [ids_rows fun _ => rfl]
    exact Records.has_iff.mp hid
  have hany : ∀ id : Option String, id.all s.nodes.has = true →
      id.all (fun id => id ∈ (s.nodes.rows.map nodeRow).map Row.id) = true := by
    intro id hid
    cases id with
    | none => rfl
    | some id => exact decide_eq_true (hnode id hid)
  unfold Registry.foreignKeys references encode
  simp only [Bool.and_eq_true, List.all_map, List.all_eq_true, Function.comp]
  refine ⟨⟨⟨⟨⟨⟨⟨?_, ?_⟩, ?_⟩, ?_⟩, ?_⟩, ?_⟩, ?_⟩, ?_⟩
  · exact fun n hn => decide_eq_true (hteam _ (h.nodes n hn).1.2)
  · exact fun r hr => decide_eq_true (hteam _ (h.tokens r hr).1.1.2)
  · exact fun r hr => hany _ (h.tokens r hr).2
  · exact fun g hg => decide_eq_true (hteam _ (h.grants g hg).1.2)
  · exact fun g hg => decide_eq_true (hteam _ (h.grants g hg).2)
  · exact fun t ht => decide_eq_true (hteam _ (h.tasks t ht).1.1.1.2)
  · exact fun t ht => decide_eq_true (hnode _ (h.tasks t ht).1.1.2)
  · exact fun t ht => hany _ (h.tasks t ht).1.2

/-- **The differences to a valid state** are written: the tables hold the merged rows. -/
theorem writeState_ok [DecidableEq V] (hvalid : Valid c after) (hfree : NoTakeover before after) :
    writeState before after (encode before) = .ok (merged before after) := by
  have happart : ∀ {a b : StoredNode V}, ((nodeRow b).id ≠ (nodeRow a).id → a.tokenHash ≠ b.tokenHash) →
      Apart (some 1) (nodeRow b) (nodeRow a) := by
    intro a b h hid i hi heq
    obtain rfl := Option.some.inj hi
    exact h hid (Option.some.inj (Option.some.inj heq)).symm
  have hnew : ∀ x ∈ (encode after).nodes, ∀ r ∈ (encode after).nodes, Apart (some 1) x r := by
    intro x hx r hr
    obtain ⟨b, hb, rfl⟩ := List.mem_map.mp hx
    obtain ⟨a, ha, rfl⟩ := List.mem_map.mp hr
    refine happart fun hid hhash => hid ?_
    exact congrArg (fun n => (nodeRow n).id) (List.inj_on_of_nodup_map hvalid.hashes hb ha hhash.symm)
  have hlater : (encode after).nodes.Pairwise fun r later => ∀ x ∈ (encode before).nodes, x.id = later.id →
      Apart (some 1) x r := by
    refine List.pairwise_map.mpr (hfree.imp ?_)
    intro a later h x hx hid
    obtain ⟨b, hb, rfl⟩ := List.mem_map.mp hx
    exact happart fun _ => h b hb hid
  have hkeys : foreignKeys (merged before after) = true := by
    rw [foreignKeys_same (merged_rows before after)]
    exact hvalid.foreignKeys
  simp only [writeState, bind_ok_iff, require_ok_iff, pure_ok_iff]
  exact ⟨_, writeDiff_plain (keyed_rows (fun _ => rfl) _) (keyed_rows (fun _ => rfl) _),
    _, writeDiff_ok (keyed_rows (fun _ => rfl) _) (keyed_rows (fun _ => rfl) _) hnew hlater,
    _, writeDiff_plain (keyed_rows (fun _ => rfl) _) (keyed_rows (fun _ => rfl) _),
    _, writeDiff_plain (keyed_rows (fun _ => rfl) _) (keyed_rows (fun _ => rfl) _),
    _, writeDiff_plain (keyed_rows (fun _ => rfl) _) (keyed_rows (fun _ => rfl) _),
    _, writeDiff_plain (keyed_audit _ _) (keyed_audit _ _),
    ⟨⟩, hkeys, rfl⟩

/-- Whatever fails, the tables are as they were. -/
theorem commit_error [DecidableEq V] {fault : Option Fault} {store store' : Store V} {e : Failure}
    (h : commitRegistryState c fault before after store = (.error e, store')) :
    store'.db = store.db ∧ store'.revision = store.revision := by
  unfold commitRegistryState Store.transaction at h
  split at h
  · split at h
    · obtain ⟨-, rfl⟩ := Prod.mk.inj h
      exact ⟨rfl, rfl⟩
    · split at h
      · obtain ⟨-, rfl⟩ := Prod.mk.inj h
        exact ⟨rfl, rfl⟩
      · obtain ⟨-, rfl⟩ := Prod.mk.inj h
        exact ⟨rfl, rfl⟩
      · obtain ⟨-, rfl⟩ := Prod.mk.inj h
        exact ⟨rfl, rfl⟩
      · exact absurd (Prod.mk.inj h).1 (by simp)
  · obtain ⟨-, rfl⟩ := Prod.mk.inj h
    exact ⟨rfl, rfl⟩

/-- A commit that goes through has written the differences to a valid state. -/
theorem commit_ok [DecidableEq V] {fault : Option Fault} {store store' : Store V} {x : Unit}
    (h : commitRegistryState c fault before after store = (.ok x, store')) :
    Valid c after ∧ ∃ db, writeState before after store.db = .ok db ∧ store' = { store with db } := by
  unfold commitRegistryState Store.transaction at h
  split at h
  · rename_i hvalid
    split at h
    · exact absurd (Prod.mk.inj h).1 (by simp)
    · split at h
      · exact absurd (Prod.mk.inj h).1 (by simp)
      · exact absurd (Prod.mk.inj h).1 (by simp)
      · exact absurd (Prod.mk.inj h).1 (by simp)
      · rename_i db hwrite
        exact ⟨valid_iff.mp hvalid, db, hwrite, (Prod.mk.inj h).2.symm⟩
  · exact absurd (Prod.mk.inj h).1 (by simp)

/-- The new state has the surviving records in their old order, and the new ones after them. -/
structure Follows (before after : RegistryState V) : Prop where
  teams : Table.InOrder TeamRecord.team_id before.teams.rows after.teams.rows
  nodes : Table.InOrder (fun n : StoredNode V => n.node_id) before.nodes.rows after.nodes.rows
  enrollTokens : Table.InOrder EnrollRecord.tokenHash before.enrollTokens.rows after.enrollTokens.rows
  grants : Table.InOrder GrantRecord.grant_id before.grants.rows after.grants.rows
  tasks : Table.InOrder TaskRecord.task_id before.taskIndex.rows after.taskIndex.rows
  audit : Table.InOrder Row.id (encode before).audit (encode after).audit

theorem inOrder_rows {α : Type} {key : α → String} {row : α → Row String α} {old next : List α}
    (hrow : ∀ r, (row r).id = key r) (h : Table.InOrder key old next) :
    Table.InOrder Row.id (old.map row) (next.map row) := by
  unfold Table.InOrder at h ⊢
  simp only [ids_rows hrow, Table.lookup_map hrow, Option.isSome_map, Option.isNone_map]
  exact h

/-- **When the new state moves nothing, the tables are the new state written out whole.** -/
theorem merged_eq (h : Follows before after) : merged before after = encode after := by
  unfold merged encode
  congr 1
  · exact Table.merge_of_inOrder (keyed_rows (fun _ => rfl) _) (@inOrder_rows _ _ teamRow _ _ (fun _ => rfl) h.teams)
  · exact Table.merge_of_inOrder (keyed_rows (fun _ => rfl) _) (@inOrder_rows _ _ nodeRow _ _ (fun _ => rfl) h.nodes)
  · exact Table.merge_of_inOrder (keyed_rows (fun _ => rfl) _)
      (@inOrder_rows _ _ enrollRow _ _ (fun _ => rfl) h.enrollTokens)
  · exact Table.merge_of_inOrder (keyed_rows (fun _ => rfl) _) (@inOrder_rows _ _ grantRow _ _ (fun _ => rfl) h.grants)
  · exact Table.merge_of_inOrder (keyed_rows (fun _ => rfl) _) (@inOrder_rows _ _ taskRow _ _ (fun _ => rfl) h.tasks)
  · exact Table.merge_of_inOrder (keyed_audit after.auditOffset after.auditLog) h.audit

/-! ## Reading the tables back -/

/-- A row whose text columns are read back whole. -/
def Legible {α : Type} (r : Row String α) : Prop :=
  columnText r.id = r.id ∧ r.columns.map (·.map columnText) = r.columns

section

variable {α : Type} {key : α → String} {row : α → Row String α} {check : α → Bool}

theorem recover_ok (hrow : ∀ r, (row r).id = key r ∧ (row r).record = r) (m : Records key)
    (h : ∀ r ∈ m.rows, check r = true ∧ nonempty (key r) = true ∧ Legible (row r)) :
    recover check row (m.rows.map row) = .ok m := by
  suffices hrest : ∀ (rest : List α) (done : Records key), Table.Keyed key (done.rows ++ rest) →
      (∀ r ∈ rest, check r = true ∧ nonempty (key r) = true ∧ Legible (row r)) →
      ∃ m', foldSteps (fun records r => do
        requireValid (check r.record)
        let values := row r.record
        requireValid (columnText r.id = values.id && (r.columns.map (·.map columnText)) = values.columns)
        requireValid (nonempty (columnText r.id))
        requireValid (!records.has (columnText r.id))
        return records.set r.record) done (rest.map row) = .ok m' ∧ m'.rows = done.rows ++ rest by
    obtain ⟨m', hm', hrows⟩ := hrest m.rows .empty m.keyed h
    obtain rfl : m' = m := Records.ext hrows
    exact hm'
  intro rest
  induction rest with
  | nil => exact fun done _ _ => ⟨done, rfl, (List.append_nil _).symm⟩
  | cons r rest ih =>
    intro done hkeyed hall
    obtain ⟨hcheck, hnonempty, hid, hcolumns⟩ := hall r List.mem_cons_self
    rw [(hrow r).1] at hid
    -- the key is new to what has been read
    have hfresh : Table.lookup key (key r) done.rows = none := by
      rw [Table.lookup_none_iff]
      intro x hx hxr
      unfold Table.Keyed at hkeyed
      rw [List.map_append, List.map_cons] at hkeyed
      exact List.disjoint_of_nodup_append hkeyed (List.mem_map_of_mem hx) (hxr ▸ List.mem_cons_self)
    have hset : (done.set r).rows = done.rows ++ [r] := by
      rw [Records.rows_set, Table.put, hfresh]
    obtain ⟨m', hm', hrows⟩ := ih (done.set r) (by rw [hset, List.append_assoc]; exact hkeyed)
      fun x hx => hall x (List.mem_cons_of_mem _ hx)
    refine ⟨m', ?_, by rw [hrows, hset, List.append_assoc]; rfl⟩
    simp only [List.map_cons, foldSteps, bind_ok_iff, requireValid, require_ok_iff, pure_ok_iff, Bool.and_eq_true,
      decide_eq_true_eq, (hrow r).2, (hrow r).1, hid]
    exact ⟨_, ⟨⟨⟩, hcheck, ⟨⟩, ⟨trivial, hcolumns⟩, ⟨⟩, hnonempty, ⟨⟩, by simp [Records.has, Records.get, hfresh], rfl⟩, hm'⟩

/-- A table that was recovered had the keys of its records. -/
theorem legible_of_recover {rows : List (Row String α)} {m : Records key} (h : recover check row rows = .ok m)
    {r : Row String α} (hr : r ∈ rows) : columnText r.id = (row r.record).id := by
  obtain ⟨_, _, hstep⟩ := foldSteps_mem h hr
  simp only [bind_ok_iff, requireValid, require_ok_iff, Bool.and_eq_true, decide_eq_true_eq] at hstep
  obtain ⟨_, -, _, ⟨hid, -⟩, -⟩ := hstep
  exact hid

end

theorem recoverAudit_ok {offset : Int} {log : List AuditRecord} (hall : ∀ a ∈ log, validAudit c a = true)
    (hoffset : Json.isNonnegative offset = true) (hlast : Json.isNonnegative (offset + log.length) = true) :
    recoverAudit c offset (auditRows offset log) = .ok log := by
  unfold recoverAudit
  rw [List.mergeSort_of_pairwise ((auditRows_ascend offset log).imp fun h => decide_eq_true (by omega))]
  suffices hrest : ∀ (rest done : List AuditRecord), done ++ rest = log →
      foldSteps (fun events r => do
        requireValid (validAudit c r.record)
        requireValid (Json.isNonnegative r.id)
        requireValid (r.id = offset + events.length)
        return events ++ [r.record]) done (auditRows (offset + done.length) rest) = (.ok log : Except Failure _) by
    simpa using hrest log [] rfl
  intro rest
  induction rest with
  | nil =>
    intro done hdone
    rw [List.append_nil] at hdone
    rw [hdone]
    rfl
  | cons a rest ih =>
    intro done hdone
    have hmem : a ∈ log := hdone ▸ List.mem_append_right _ List.mem_cons_self
    have hlength : done.length < log.length := by
      rw [← hdone, List.length_append, List.length_cons]
      omega
    have hid : Json.isNonnegative (offset + done.length) = true := by
      rw [Json.isNonnegative_iff] at hoffset hlast ⊢
      omega
    have hnext := ih (done ++ [a]) (by rw [List.append_assoc]; exact hdone)
    simp only [auditRows, foldSteps, bind_ok_iff, requireValid, require_ok_iff, pure_ok_iff, decide_eq_true_eq]
    refine ⟨_, ⟨⟨⟩, hall a hmem, ⟨⟩, hid, ⟨⟩, trivial, rfl⟩, ?_⟩
    rw [← hnext, List.length_append]
    congr 2
    push_cast
    simp [Int.add_assoc]

theorem tokenIndex_rows {nodes : List (StoredNode V)} (h : (nodes.map StoredNode.tokenHash).Nodup) :
    (tokenIndex nodes).rows = nodes.map fun n => (n.tokenHash, n.node_id) := by
  suffices hrest : ∀ (rest : List (StoredNode V)) (index : Records (Prod.fst : String × String → String)),
      (index.rows.map Prod.fst ++ rest.map StoredNode.tokenHash).Nodup →
      (rest.foldl (fun index n => index.set (n.tokenHash, n.node_id)) index).rows =
        index.rows ++ rest.map fun n => (n.tokenHash, n.node_id) from hrest nodes .empty h
  intro rest
  induction rest with
  | nil => exact fun index _ => (List.append_nil _).symm
  | cons n rest ih =>
    intro index hnodup
    have hfresh : Table.lookup Prod.fst n.tokenHash index.rows = none := by
      rw [Table.lookup_none_iff]
      intro x hx hxn
      exact List.disjoint_of_nodup_append hnodup (List.mem_map_of_mem hx) (hxn ▸ List.mem_cons_self)
    have hset : (index.set (n.tokenHash, n.node_id)).rows = index.rows ++ [(n.tokenHash, n.node_id)] := by
      rw [Records.rows_set, Table.put, hfresh]
    rw [List.foldl_cons, ih, hset, List.append_assoc]
    · rfl
    · rw [hset, List.map_append, List.append_assoc]
      exact hnodup

/-- The keys that the platform made up have no NUL. -/
structure Plain (s : RegistryState V) : Prop where
  teams : ∀ t ∈ s.teams.rows, columnText t.team_id = t.team_id
  nodes : ∀ n ∈ s.nodes.rows, columnText n.node_id = n.node_id
  grants : ∀ g ∈ s.grants.rows, columnText g.grant_id = g.grant_id

/-- The map from hashes to nodes is the one the nodes give. -/
def Indexed (s : RegistryState V) : Prop :=
  s.nodeByTokenHash.rows = s.nodes.rows.map fun n => (n.tokenHash, n.node_id)

theorem Plain.team (h : Plain s) {id : String} (hid : s.teams.has id = true) : columnText id = id := by
  obtain ⟨t, ht, rfl⟩ := List.mem_map.mp (Records.has_iff.mp hid)
  exact h.teams t ht

theorem Plain.node (h : Plain s) {id : String} (hid : s.nodes.has id = true) : columnText id = id := by
  obtain ⟨n, hn, rfl⟩ := List.mem_map.mp (Records.has_iff.mp hid)
  exact h.nodes n hn

theorem Plain.any (h : Plain s) {id : Option String} (hid : id.all s.nodes.has = true) :
    id.map columnText = id := by
  cases id with
  | none => rfl
  | some id => exact congrArg some (h.node hid)

/-- Tables that can be read back have task ids that are read back whole. -/
theorem whole_of_load (h : loadRegistryState c (encode s) = .ok s') :
    ∀ t ∈ s.taskIndex.rows, columnText t.task_id = t.task_id := by
  intro t ht
  simp only [loadRegistryState, bind_ok_iff] at h
  obtain ⟨_, -, _, -, _, -, _, -, _, -, _, htasks, -⟩ := h
  have hrow : taskRow t ∈ (encode s).tasks := List.mem_map_of_mem ht
  have hlegible := legible_of_recover htasks hrow
  exact hlegible

/-- **The tables of a valid state are read back as that state** exactly when every task id is read back whole. -/
theorem load_encode (hvalid : Valid c s) (hplain : Plain s) (hindex : Indexed s) :
    loadRegistryState c (encode s) = .ok s ↔ ∀ t ∈ s.taskIndex.rows, columnText t.task_id = t.task_id := by
  constructor
  · exact whole_of_load
  · intro hwhole
    -- table by table: each row passes its check, and its columns are read back as they were written
    have hteams : recover (validTeam c) teamRow (encode s).teams = .ok s.teams := by
      refine recover_ok (fun _ => ⟨rfl, rfl⟩) _ fun t ht => ⟨hvalid.teams t ht, ?_, hplain.teams t ht, rfl⟩
      have := hvalid.teams t ht
      simp only [validTeam, Bool.and_eq_true] at this
      exact this.1
    have hnodes : recover (validNode c) nodeRow (encode s).nodes = .ok s.nodes := by
      refine recover_ok (fun _ => ⟨rfl, rfl⟩) _ fun n hn => ?_
      obtain ⟨⟨hcheck, hteam⟩, -⟩ := hvalid.nodes n hn
      have hshape := hcheck
      simp only [validNode, Bool.and_eq_true] at hshape
      obtain ⟨⟨⟨⟨⟨⟨⟨⟨⟨hid, -⟩, -⟩, hhash⟩, -⟩, -⟩, -⟩, -⟩, -⟩, -⟩ := hshape
      refine ⟨hcheck, hid, hplain.nodes n hn, ?_⟩
      simp [nodeRow, hplain.team hteam, columnText_of_noNul (noNul_of_isDigest hhash)]
    have htokens : recover (validEnroll c) enrollRow (encode s).enrollTokens = .ok s.enrollTokens := by
      refine recover_ok (fun _ => ⟨rfl, rfl⟩) _ fun r hr => ?_
      obtain ⟨⟨⟨hcheck, hteam⟩, -⟩, hused⟩ := hvalid.tokens r hr
      have hshape := hcheck
      simp only [validEnroll, Bool.and_eq_true] at hshape
      obtain ⟨⟨⟨⟨hhash, -⟩, -⟩, -⟩, -⟩ := hshape
      have hid := columnText_of_noNul (noNul_of_isDigest hhash)
      refine ⟨hcheck, decide_eq_true ?_, hid, ?_⟩
      · intro hempty
        rw [show r.tokenHash = "" from hempty] at hhash
        exact absurd hhash (by decide)
      · simp [enrollRow, hplain.team hteam, hplain.any hused]
    have hgrants : recover (validGrant c) grantRow (encode s).grants = .ok s.grants := by
      refine recover_ok (fun _ => ⟨rfl, rfl⟩) _ fun g hg => ?_
      obtain ⟨⟨⟨hcheck, -⟩, hfrom⟩, hto⟩ := hvalid.grants g hg
      have hshape := hcheck
      simp only [validGrant, Bool.and_eq_true] at hshape
      obtain ⟨⟨⟨⟨⟨hid, -⟩, -⟩, -⟩, -⟩, -⟩ := hshape
      refine ⟨hcheck, hid, hplain.grants g hg, ?_⟩
      simp [grantRow, hplain.team hfrom, hplain.team hto]
    have htasks : recover (validTaskRecord c) taskRow (encode s).tasks = .ok s.taskIndex := by
      refine recover_ok (fun _ => ⟨rfl, rfl⟩) _ fun t ht => ?_
      obtain ⟨⟨⟨⟨hcheck, hteam⟩, hlead⟩, hexec⟩, -⟩ := hvalid.tasks t ht
      have hshape := hcheck
      simp only [validTaskRecord, Bool.and_eq_true] at hshape
      obtain ⟨⟨⟨⟨⟨⟨⟨hid, -⟩, -⟩, -⟩, -⟩, -⟩, -⟩, -⟩ := hshape
      refine ⟨hcheck, hid, hwhole t ht, ?_⟩
      simp [taskRow, hplain.team hteam, hplain.node hlead, hplain.any hexec]
    have haudit : recoverAudit c (encode s).audit_offset (encode s).audit = .ok s.auditLog :=
      recoverAudit_ok hvalid.audit hvalid.offset hvalid.last
    -- the index is not stored: it is built again from the nodes
    have htoken : tokenIndex s.nodes.rows = s.nodeByTokenHash :=
      Records.ext ((tokenIndex_rows hvalid.hashes).trans hindex.symm)
    simp only [loadRegistryState, requireValid, bind_ok_iff, require_ok_iff, pure_ok_iff, Bool.and_eq_true]
    refine ⟨⟨⟩, ⟨hvalid.epoch, hvalid.offset⟩, _, hteams, _, hnodes, _, htokens, _, hgrants, _, htasks, _, haudit, ⟨⟩,
      ?_, ?_⟩
    · rw [htoken]
      exact valid_iff.mpr hvalid
    · rw [htoken]
      rfl

end Registry
end Qlong
