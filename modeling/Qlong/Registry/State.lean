import Qlong.Lib.Diff
import Qlong.Node.StoreFacts
import Qlong.Registry.Directory

/-!
# The registry's database

`packages/registry/src/state-store.ts`. The whole state of the registry is kept in memory and in
seven tables; a commit validates the new state and writes the differences from the old one in one
transaction, and a restart reads the tables back, compares each record with its key columns and
validates again.

A record column holds the record: `JSON.stringify` escapes every control character, so what is
parsed back is what was written. A key column is plain text, and SQLite answers it up to its first
NUL. A field that is `undefined` is absent.

`V` is what the platform has for numbers and documents that the registry only keeps: the load of a
node, the instant a token or a grant expires. Two of them are equal when their JSON texts are.
-/

namespace Qlong
namespace Registry

open Lib Lead Node

/-! ## Records -/

/-- A key of a node, with the epoch it counts for. -/
structure KeyEntry where
  epoch : Int
  pubkey : String
deriving DecidableEq, Repr

/-- A team is active, owned by a node of its own, or left over. -/
inductive TeamState where
  | active
  | self_owned
  | orphan
deriving DecidableEq, Repr

/-- A team, and the user it belongs to. -/
structure TeamRecord where
  team_id : String
  name : String
  /-- `null` inside. -/
  owner_user_id : Option (Option String)
  state : TeamState
  created_at : String
deriving DecidableEq, Repr

/-- `NodeRecord` of `directory.ts`, with the fields that the task index does not ask for. -/
structure StoredNode (V : Type) extends NodeRecord where
  name : String
  /-- Ascending; the last is the current one. -/
  keys : List KeyEntry
  tokenHash : String
  platform : Option String
  qlong_version : Option String
  caps : List String
  caps_rev : Int
  load : Option (Option V)
  joined_at : String
deriving DecidableEq

/-- An invitation: to which team, until when, and who used it. -/
structure EnrollRecord (V : Type) where
  tokenHash : String
  team_id : String
  created_by : Option String
  expiresAt : V
  used_by : Option String
  consumed_at : Option String
deriving DecidableEq

/-- What one team lets another see of its nodes. -/
structure GrantRecord (V : Type) where
  grant_id : String
  from_team : String
  to_team : String
  /-- What a request gave; only texts pass the check. -/
  caps_visible : List Json
  expires_at : Option V
  created_by : Option String
  created_at : String
deriving DecidableEq

/-- One line of the audit log. -/
structure AuditRecord where
  ts : String
  event : String
  node : String
  team : String
  reason : String
  trace_id : Option String
deriving DecidableEq, Repr

def TaskRecord.task_id (t : TaskRecord) : String := t.projection.task_id

/-- The state of the centre: its records, the index from token hashes, the log and its two counters. -/
structure RegistryState (V : Type) where
  teams : Records TeamRecord.team_id
  nodes : Records fun n : StoredNode V => n.node_id
  enrollTokens : Records (EnrollRecord.tokenHash (V := V))
  /-- From the hash of a token to the node it belongs to. -/
  nodeByTokenHash : Records (Prod.fst : String × String → String)
  grants : Records (GrantRecord.grant_id (V := V))
  taskIndex : Records TaskRecord.task_id
  auditLog : List AuditRecord
  auditOffset : Int
  directoryEpoch : Int

variable {V : Type}

/-- The centre before its first team. -/
def emptyRegistryState : RegistryState V :=
  ⟨.empty, .empty, .empty, .empty, .empty, .empty, [], 0, 0⟩

/-- The clock, the hashes and the numbers of the platform. -/
structure Center (V : Type) extends Platform where
  /-- `Date.parse`, `none` for `NaN`. -/
  dateParse : String → Option Int
  /-- `new Date(t).toISOString()` of an instant the calendar has. -/
  toISOString : Int → String
  /-- `Number.isFinite(v)`. -/
  finite : V → Bool
  /-- A JSON object without numbers that JSON has no text for. -/
  document : V → Bool
  /-- `now > v`. -/
  past : Int → V → Bool
  /-- `now + v`. -/
  plus : Int → V → V
  /-- `!!v`. -/
  truthy : V → Bool

/-- What an operation or a commit throws. -/
inductive Failure where
  | domain (e : ApiError)
  /-- The `RangeError` of a date outside the calendar. -/
  | time
  | corrupt
  | constraint
  | foreignKey
  | stale
  | storage
deriving DecidableEq, Repr

/-- `requireValid(condition)`. -/
def requireValid (ok : Bool) : Except Failure PUnit := require ok .corrupt

/-! ## Validation -/

/-- `nonempty`. -/
def nonempty (s : String) : Bool := s ≠ ""

/-- `timestamp`. -/
def timestamp (c : Center V) (s : String) : Bool := (c.dateParse s).any fun t => c.toISOString t = s

/-- A team has an id, and was created at a time. -/
def validTeam (c : Center V) (t : TeamRecord) : Bool := nonempty t.team_id && timestamp c t.created_at

/-- `nodeShape`, the team, and keys that ascend up to the epoch of the directory. -/
def validNode (c : Center V) (n : StoredNode V) : Bool :=
  nonempty n.node_id && nonempty n.team_id && nonempty n.name && isDigest n.tokenHash &&
    (n.keys.all fun k => Json.isPositive k.epoch && nonempty k.pubkey) && n.caps.all nonempty &&
    Json.isPositive n.caps_rev && (n.load.all fun load => load.all c.document) && n.last_seen.all (timestamp c) &&
    timestamp c n.joined_at

/-- The keys of a node have rising epochs, the last no later than the directory's. -/
def validKeys (directoryEpoch : Int) (n : StoredNode V) : Bool :=
  decide ((n.keys.map KeyEntry.epoch).Pairwise (· < ·)) && n.keys.getLast?.any fun k => k.epoch ≤ directoryEpoch

/-- An invitation is kept by the digest of its token; who used it, and when, may be absent. -/
def validEnroll (c : Center V) (r : EnrollRecord V) : Bool :=
  isDigest r.tokenHash && nonempty r.team_id && c.finite r.expiresAt && r.used_by.all nonempty &&
    r.consumed_at.all (timestamp c)

/-- A grant goes from a team to a team, over tags, until a time or for good. -/
def validGrant (c : Center V) (g : GrantRecord V) : Bool :=
  nonempty g.grant_id && nonempty g.from_team && nonempty g.to_team &&
    (g.caps_visible.all fun v => isNonEmptyStr (some v)) && g.expires_at.all c.finite && timestamp c g.created_at

/-- A task as it was reported; an attempt is at least the first. -/
def validTaskRecord (c : Center V) (t : TaskRecord) : Bool :=
  nonempty t.task_id && nonempty t.projection.team_id && nonempty t.projection.lead &&
    t.projection.exec.all nonempty && Json.isPositive t.projection.attempt &&
    Json.isNonnegative t.projection.task_seq && isDigest t.content_hash && timestamp c t.updated_at

/-- A line has its time and its event. -/
def validAudit (c : Center V) (a : AuditRecord) : Bool := timestamp c a.ts && nonempty a.event

/-- `validateRegistryState(state)`. -/
def validateRegistryState (c : Center V) (s : RegistryState V) : Bool :=
  Json.isNonnegative s.directoryEpoch && Json.isNonnegative s.auditOffset &&
  Json.isNonnegative (s.auditOffset + s.auditLog.length) && decide (s.auditLog.length ≤ 10000) &&
  decide ((s.nodes.rows.length + s.grants.rows.length : Int) ≤ s.directoryEpoch) &&
  s.teams.rows.all (validTeam c) &&
  (s.nodes.rows.all fun n => validNode c n && s.teams.has n.team_id && validKeys s.directoryEpoch n) &&
  decide ((s.nodes.rows.map StoredNode.tokenHash).Nodup) &&
  decide (s.nodes.rows.length = s.nodeByTokenHash.rows.length) &&
  (s.nodes.rows.all fun n => s.nodeByTokenHash.get n.tokenHash = some (n.tokenHash, n.node_id)) &&
  (s.enrollTokens.rows.all fun r => validEnroll c r && s.teams.has r.team_id &&
    decide (r.used_by.isNone = r.consumed_at.isNone) && r.used_by.all s.nodes.has) &&
  (s.grants.rows.all fun g => validGrant c g && decide (g.from_team ≠ g.to_team) && s.teams.has g.from_team &&
    s.teams.has g.to_team) &&
  (s.taskIndex.rows.all fun t => validTaskRecord c t && s.teams.has t.projection.team_id &&
    s.nodes.has t.projection.lead && t.projection.exec.all s.nodes.has &&
    decide (t.content_hash = c.digest t.projection.toJson)) &&
  s.auditLog.all (validAudit c)

/-! ## Tables -/

/-- The key columns of a row, and the record column. -/
structure Row (κ : Type) (α : Type) where
  id : κ
  columns : List (Option String)
  record : α
deriving DecidableEq

/-- The columns a table keeps beside the data, for its constraints. -/
def teamRow (r : TeamRecord) : Row String TeamRecord := ⟨r.team_id, [], r⟩

def nodeRow (r : StoredNode V) : Row String (StoredNode V) := ⟨r.node_id, [some r.team_id, some r.tokenHash], r⟩

def enrollRow (r : EnrollRecord V) : Row String (EnrollRecord V) := ⟨r.tokenHash, [some r.team_id, r.used_by], r⟩

def grantRow (r : GrantRecord V) : Row String (GrantRecord V) :=
  ⟨r.grant_id, [some r.from_team, some r.to_team], r⟩

def taskRow (r : TaskRecord) : Row String TaskRecord :=
  ⟨r.task_id, [some r.projection.team_id, some r.projection.lead, r.projection.exec], r⟩

/-- The rows of the audit log, numbered from the offset. -/
def auditRows : Int → List AuditRecord → List (Row Int AuditRecord)
  | _, [] => []
  | id, r :: rest => ⟨id, [], r⟩ :: auditRows (id + 1) rest

/-- The tables of the store: the rows as SQLite holds them. -/
structure RegistryTables (V : Type) where
  epoch : Int
  audit_offset : Int
  teams : List (Row String TeamRecord)
  nodes : List (Row String (StoredNode V))
  enrollTokens : List (Row String (EnrollRecord V))
  grants : List (Row String (GrantRecord V))
  tasks : List (Row String TaskRecord)
  audit : List (Row Int AuditRecord)

/-- The tables after `REGISTRY_SQL`. -/
def RegistryTables.empty : RegistryTables V := ⟨0, 0, [], [], [], [], [], []⟩

/-- A state written out whole. -/
def encode (s : RegistryState V) : RegistryTables V where
  epoch := s.directoryEpoch
  audit_offset := s.auditOffset
  teams := s.teams.rows.map teamRow
  nodes := s.nodes.rows.map nodeRow
  enrollTokens := s.enrollTokens.rows.map enrollRow
  grants := s.grants.rows.map grantRow
  tasks := s.taskIndex.rows.map taskRow
  audit := auditRows s.auditOffset s.auditLog

/-! ## A commit -/

section

variable {κ α : Type} [DecidableEq κ] [DecidableEq α]

/-- `INSERT … ON CONFLICT(id) DO UPDATE`; `unique` is the column that another row may not have the value of. -/
def upsert (unique : Option Nat) (r : Row κ α) (rows : List (Row κ α)) : Except Failure (List (Row κ α)) :=
  if rows.any fun x => decide (x.id ≠ r.id) && unique.any fun i => x.columns[i]? = r.columns[i]? then
    throw .constraint
  else pure (Table.put Row.id r rows)

/-- `writeDiff(db, spec, before, after)`, of the rows of the two states. -/
def writeDiff (unique : Option Nat) (old next rows : List (Row κ α)) : Except Failure (List (Row κ α)) :=
  let rows := old.foldl (fun rows r =>
    if (Table.lookup Row.id r.id next).isSome then rows else Table.remove Row.id r.id rows) rows
  foldSteps (fun rows r => if Table.lookup Row.id r.id old = some r then pure rows else upsert unique r rows)
    rows next

end

/-- `REFERENCES`: column `i` is `NULL` or a key of the other table. -/
def references {α β : Type} (i : Nat) (rows : List (Row String α)) (targets : List (Row String β)) : Bool :=
  rows.all fun r => (r.columns[i]?.getD none).all fun id => id ∈ targets.map Row.id

/-- The deferred foreign keys, checked by `COMMIT`. -/
def foreignKeys (db : RegistryTables V) : Bool :=
  references 0 db.nodes db.teams && references 0 db.enrollTokens db.teams && references 1 db.enrollTokens db.nodes &&
    references 0 db.grants db.teams && references 1 db.grants db.teams && references 0 db.tasks db.teams &&
    references 1 db.tasks db.nodes && references 2 db.tasks db.nodes

/-- The transaction of `commitRegistryState(storage, before, after)`. -/
def writeState [DecidableEq V] (before after : RegistryState V) (db : RegistryTables V) :
    Except Failure (RegistryTables V) := do
  let old := encode before
  let next := encode after
  let teams ← writeDiff none old.teams next.teams db.teams
  let nodes ← writeDiff (some 1) old.nodes next.nodes db.nodes
  let enrollTokens ← writeDiff none old.enrollTokens next.enrollTokens db.enrollTokens
  let grants ← writeDiff none old.grants next.grants db.grants
  let tasks ← writeDiff none old.tasks next.tasks db.tasks
  let audit ← writeDiff none old.audit next.audit db.audit
  let db' := { epoch := next.epoch, audit_offset := next.audit_offset, teams, nodes, enrollTokens, grants, tasks, audit }
  require (foreignKeys db') .foreignKey
  return db'

/-- The store of the center: its tables, the revision of the facade that wrote last, and whether a
    fault has closed it. -/
structure Store (V : Type) where
  db : RegistryTables V
  revision : Nat
  faulted : Bool

/-- What may go wrong with a transaction besides its statements. -/
inductive Fault where
  /-- `BEGIN` or a statement fails; only some errors close the store. -/
  | refused (poisons : Bool)
  /-- `COMMIT` fails. -/
  | commit
deriving DecidableEq, Repr

/-- The errors after which the store is closed. -/
def Failure.poisons : Failure → Bool
  | .corrupt | .foreignKey | .storage => true
  | _ => false

/-- `transaction(callback)`: all of it, or a rollback. -/
def Store.transaction (s : Store V) (fault : Option Fault)
    (callback : RegistryTables V → Except Failure (RegistryTables V)) : Except Failure Unit × Store V :=
  if s.faulted then (.error .storage, s)
  else
    match fault, callback s.db with
    | some (.refused poisons), _ => (.error .storage, { s with faulted := poisons })
    | _, .error e => (.error e, { s with faulted := e.poisons })
    | some .commit, .ok _ => (.error .storage, { s with faulted := true })
    | none, .ok db => (.ok ⟨⟩, { s with db })

/-- `commitRegistryState(storage, before, after)`. -/
def commitRegistryState [DecidableEq V] (c : Center V) (fault : Option Fault) (before after : RegistryState V)
    (s : Store V) : Except Failure Unit × Store V :=
  if validateRegistryState c after then s.transaction fault (writeState before after) else (.error .corrupt, s)

/-! ## A restart -/

/-- `recover(db, spec)` of a table with a text key. -/
def recover {α : Type} {key : α → String} (check : α → Bool) (row : α → Row String α) (rows : List (Row String α)) :
    Except Failure (Records key) :=
  foldSteps (fun records r => do
    requireValid (check r.record)
    let values := row r.record
    requireValid (columnText r.id = values.id && (r.columns.map (·.map columnText)) = values.columns)
    requireValid (nonempty (columnText r.id))
    requireValid (!records.has (columnText r.id))
    return records.set r.record) .empty rows

/-- `recover(db, audit)` and the walk that numbers the events; rows come in the order of their ids. -/
def recoverAudit (c : Center V) (offset : Int) (rows : List (Row Int AuditRecord)) :
    Except Failure (List AuditRecord) :=
  foldSteps (fun events r => do
    requireValid (validAudit c r.record)
    requireValid (Json.isNonnegative r.id)
    requireValid (r.id = offset + events.length)
    return events ++ [r.record]) [] (rows.mergeSort fun a b => a.id ≤ b.id)

/-- The hashes of the nodes that were read. -/
def tokenIndex (nodes : List (StoredNode V)) : Records (Prod.fst : String × String → String) :=
  nodes.foldl (fun index n => index.set (n.tokenHash, n.node_id)) .empty

/-- `loadRegistryState(storage)`. -/
def loadRegistryState (c : Center V) (db : RegistryTables V) : Except Failure (RegistryState V) := do
  requireValid (Json.isNonnegative db.epoch && Json.isNonnegative db.audit_offset)
  let teams ← recover (validTeam c) teamRow db.teams
  let nodes ← recover (validNode c) nodeRow db.nodes
  let enrollTokens ← recover (validEnroll c) enrollRow db.enrollTokens
  let grants ← recover (validGrant c) grantRow db.grants
  let taskIndex ← recover (validTaskRecord c) taskRow db.tasks
  let auditLog ← recoverAudit c db.audit_offset db.audit
  let state : RegistryState V :=
    { teams, nodes, enrollTokens, nodeByTokenHash := tokenIndex nodes.rows, grants, taskIndex, auditLog,
      auditOffset := db.audit_offset, directoryEpoch := db.epoch }
  requireValid (validateRegistryState c state)
  return state

end Registry
end Qlong
