import Qlong.Core.Envelope
import Qlong.Lib.Table
import Qlong.Lib.Fallible

/-!
# The node's runtime store

`packages/node/src/runtime/store.ts` over the six tables of `schema.ts`. A public method is a
function from the tables to `Except StoreError (α × Tables)`: everything a method does happens
inside one `SqliteStore.transaction`, which commits when the callback returns and rolls back
when it throws, so an error carries no tables and `perform` below keeps the old ones.

A JSON text column holds the value it is the canonical text of. Text columns are read back
truncated at the first NUL (`columnText`), except the keys of `node_state`, which every query
reads as a BLOB. Digests and payloads never contain a NUL.

A transform is a function from what it is shown to the value it returns; `none` is a transform
that throws, answers a promise or returns something that is not JSON data.
-/

namespace Qlong
namespace Node

open Lib

/-- `MAX_TRANSPORT_BYTES`. -/
def maxTransportBytes : Nat := 256 * 1024

/-- The codes a store's own errors have. -/
inductive RuntimeCode where
  | FULL
  | CONFLICT
  | STALE
deriving DecidableEq, Repr

/-- What a method can throw. `constraint` is a primary key SQLite refuses, `corrupt` the
    `DATABASE_CORRUPT` of a row that fails its read-side check, `transform` an exception of the
    transform itself, `storage` any fault of the storage layer below. -/
inductive StoreError where
  | typeError (message : String)
  | runtime (code : RuntimeCode) (message : String)
  | corrupt
  | constraint
  | transform
  | storage
deriving DecidableEq, Repr

/-! ## The tables -/

/-- What has become of an inbox message. Everything but `pending` is final. -/
inductive Decision where
  | pending
  | applied
  | duplicate
  | conflict
deriving DecidableEq, Repr

/-- A message taken in. The payload goes when it is decided, identity and digest stay. -/
structure InboxRow where
  sender : String
  msg_id : String
  digest : String
  payload : Option Json
  decision : Decision
  state_key : Option String
  revision : Option Int
deriving DecidableEq

/-- Whether the transport has taken an envelope over. -/
inductive DeliveryStatus where
  | pending
  | stored
deriving DecidableEq, Repr

/-- The identity of an envelope of this node; it outlives the outbox row as a tombstone. -/
structure DeliveryRow where
  sender : String
  msg_id : String
  digest : String
  status : DeliveryStatus
  stored_at : Option Int
deriving DecidableEq

/-- An envelope that is to be sent, with the tries so far. -/
structure OutboxRow where
  sender : String
  msg_id : String
  payload : Json
  attempts : Int
  last_at : Int
deriving DecidableEq

/-- A state under its key, with the number of its writes. -/
structure StateRow where
  state_key : String
  revision : Int
  value : Json
deriving DecidableEq

/-- The R1 row of a key: which body was applied under it first. -/
structure DedupRow where
  sender : String
  state_key : String
  dedup_key : Json
  digest : String
deriving DecidableEq

/-- An effect a transition asked for, until it is done. -/
structure EffectRow where
  effect_id : String
  state_key : String
  revision : Int
  kind : String
  payload : Json
  done : Bool
deriving DecidableEq

/-- The six tables of a node. -/
structure Tables where
  inbox : List InboxRow
  delivery : List DeliveryRow
  outbox : List OutboxRow
  state : List StateRow
  dedup : List DedupRow
  effects : List EffectRow
deriving DecidableEq

/-- A database no envelope has reached yet. -/
def Tables.empty : Tables := ⟨[], [], [], [], [], []⟩

def InboxRow.key (r : InboxRow) : String × String := (r.sender, r.msg_id)

def DeliveryRow.key (r : DeliveryRow) : String × String := (r.sender, r.msg_id)

def OutboxRow.key (r : OutboxRow) : String × String := (r.sender, r.msg_id)

def DedupRow.key (r : DedupRow) : String × String × Json := (r.sender, r.state_key, r.dedup_key)

/-- The constructor's options, after its checks. -/
structure Config where
  host : Host
  nodeId : String
  maxEntries : Int
  maxBytes : Int
  retentionMs : Option Int
  nodeId_uuid : isUuid nodeId = true
  maxEntries_ok : Json.isNonnegative maxEntries = true
  maxBytes_ok : Json.isNonnegative maxBytes = true

/-! ## Argument checks -/

/-- `integer(value, name)`. -/
def checkInteger (n : Int) (name : String) : Except StoreError PUnit :=
  require (Json.isNonnegative n) (.typeError (name ++ " must be a nonnegative safe integer"))

/-- A key has a byte at least and 1024 at most. -/
def isKey (s : String) : Bool := decide (0 < s.utf8ByteSize ∧ s.utf8ByteSize ≤ 1024)

/-- `key(value)`. -/
def checkKey (s : String) : Except StoreError PUnit :=
  require (isKey s) (.typeError "Runtime key must contain 1..1024 UTF-8 bytes")

/-- `json(value)`: the text is written only for data nested at most 64 deep. -/
def checkJson (v : Json) : Except StoreError PUnit :=
  require (v.visit 0) (.typeError "Runtime JSON nesting exceeds 64")

/-- `usesR1Dedup(type)`. -/
def usesR1Dedup (type : String) : Bool :=
  "task.".toList.isPrefixOf type.toList && type ≠ "task.progress" && type ≠ "task.lease.renew"

/-- The signature clause of `envelope(value)`. -/
def isSigned (e : Json) : Bool :=
  match e.get "sig" with
  | some sig => sig.isRecord && sig.get "alg" = some (.str "ed25519") &&
      (match sig.getStr "value" with
        | some value => isSignatureText value
        | none => false)
  | none => false

/-- `envelope(value)`: admit, and answer the digest. The payload is the value itself. -/
def encode (host : Host) (e : Json) : Except StoreError String := do
  checkJson e
  require (e.byteLength ≤ maxTransportBytes) (.typeError "Envelope exceeds transport byte limit")
  require (validateEnvelope host defaultParams false e).isEmpty (.typeError "Invalid runtime envelope")
  require (isSigned e) (.typeError "Signed envelope required")
  return host.digest e

/-! ## Reading rows back -/

/-- `valid(condition)`. -/
def valid (ok : Bool) : Except StoreError PUnit := require ok .corrupt

/-- What a TEXT column answers. -/
def columnText (s : String) : String := String.ofList (s.toList.takeWhile fun c => c.val ≠ 0)

/-- `storedInteger(value, minimum)`. -/
def isStoredInteger (n minimum : Int) : Bool := Json.isSafe n && decide (minimum ≤ n)

/-- `validTime`. -/
def isTime (n : Int) : Bool := Json.isSafe n && decide (0 ≤ n ∧ n ≤ 8640000000000000)

/-- Two uuids and a digest. -/
def isIdentity (sender msg_id digest : String) : Bool :=
  isUuid sender && isUuid msg_id && isDigest digest

/-- `readEnvelope`: the payload is admitted again and still matches its row. -/
def isStoredEnvelope (cfg : Config) (sender msg_id digest : String) (e : Json) (outbound : Bool) : Bool :=
  isIdentity sender msg_id digest &&
    (match encode cfg.host e with
      | .ok d => d = digest && Env.fromNode e = sender && Env.msgId e = msg_id &&
          (if outbound then Env.fromNode e else Env.toNode e) = cfg.nodeId
      | .error _ => false)

/-- `readState`: the row of a key, checked. -/
def readState (t : Tables) (key : String) : Except StoreError (Option StateRow) := do
  checkKey key
  match Table.lookup StateRow.state_key key t.state with
  | none => return none
  | some row =>
    valid (isKey row.state_key && isStoredInteger row.revision 1 && row.value.visit 0)
    return some row

/-- `readInbox`: the envelope of a pending row, nothing for a decided one. -/
def readInbox (cfg : Config) (t : Tables) (row : InboxRow) : Except StoreError (Option Json) := do
  valid (isIdentity row.sender row.msg_id row.digest)
  match row.decision, row.payload, row.state_key, row.revision with
  | .pending, some e, none, none =>
    valid (isStoredEnvelope cfg row.sender row.msg_id row.digest e false)
    return some e
  | .pending, _, _, _ => throw .corrupt
  | decision, none, some key, some revision =>
    let key := columnText key
    valid (isKey key && isStoredInteger revision (if decision = .applied then 1 else 0))
    let state ← readState t key
    valid (decide (revision = 0) || state.any fun s => revision ≤ s.revision)
    return none
  | _, _, _, _ => throw .corrupt

/-- `readDelivery` of the join of a delivery row with its outbox row. -/
def readDelivery (cfg : Config) (row : DeliveryRow) (out : Option OutboxRow) :
    Except StoreError (Option OutboxRow) := do
  valid (isIdentity row.sender row.msg_id row.digest && row.sender = cfg.nodeId &&
    row.stored_at.all isTime)
  match row.status, out with
  | .pending, some o =>
    valid (row.stored_at.isNone && isStoredEnvelope cfg row.sender row.msg_id row.digest o.payload true &&
      isStoredInteger o.attempts 0 && isStoredInteger o.last_at 0)
    return some o
  | .stored, none => return none
  | _, _ => throw .corrupt

/-- `findDelivery`: the row of an outgoing identity, checked. -/
def findDelivery (cfg : Config) (t : Tables) (sender msg_id : String) :
    Except StoreError (Option DeliveryRow) := do
  let out := Table.lookup OutboxRow.key (sender, msg_id) t.outbox
  match Table.lookup DeliveryRow.key (sender, msg_id) t.delivery with
  | some row =>
    let _ ← readDelivery cfg row out
    return some row
  | none =>
    valid out.isNone
    return none

/-- `/^task\.[a-z0-9-]+(\.[a-z0-9-]+)*$/` of a dedup row's type. -/
def isTaskTypeText (s : String) : Bool :=
  match splitDots s.toList with
  | part :: rest => part = "task".toList && !rest.isEmpty &&
      rest.all fun p => !p.isEmpty && p.all isTypeChar
  | [] => false

/-- `readDedup`. -/
def readDedup (t : Tables) (row : DedupRow) : Except StoreError PUnit := do
  let key := columnText row.state_key
  valid (isUuid row.sender && isDigest row.digest && isKey key && row.dedup_key.visit 0)
  match row.dedup_key with
  | .arr [.str task, .num attempt, .str type] =>
    valid (isUuid task && Json.isPositive attempt && isTaskTypeText type && usesR1Dedup type)
  | _ => throw .corrupt
  let state ← readState t key
  valid state.isSome

/-- `readEffect`: the row as a worker sees it, and the current revision of its state. -/
def readEffect (t : Tables) (row : EffectRow) : Except StoreError (EffectRow × Int) := do
  let key := columnText row.state_key
  valid (isKey (columnText row.effect_id) && isKey key && isKey (columnText row.kind) &&
    isStoredInteger row.revision 1)
  match ← readState t key with
  | some state =>
    valid (decide (row.revision ≤ state.revision) && row.payload.visit 0)
    return ({ row with
      effect_id := columnText row.effect_id, state_key := key, kind := columnText row.kind },
      state.revision)
  | none => throw .corrupt

/-! ## Capacity -/

/-- The rows of `node_runtime_usage`: a fixed allowance and the bytes of the columns. -/
def InboxRow.bytes (r : InboxRow) : Nat :=
  128 + (r.sender.utf8ByteSize + r.msg_id.utf8ByteSize + r.digest.utf8ByteSize +
    (r.payload.map Json.byteLength).getD 0 + (r.state_key.map String.utf8ByteSize).getD 0)

def DeliveryRow.bytes (r : DeliveryRow) : Nat :=
  128 + (r.sender.utf8ByteSize + r.msg_id.utf8ByteSize + r.digest.utf8ByteSize)

def OutboxRow.bytes (r : OutboxRow) : Nat :=
  128 + (r.sender.utf8ByteSize + r.msg_id.utf8ByteSize + r.payload.byteLength)

def StateRow.bytes (r : StateRow) : Nat := 128 + (r.state_key.utf8ByteSize + r.value.byteLength)

def DedupRow.bytes (r : DedupRow) : Nat :=
  128 + (r.sender.utf8ByteSize + r.state_key.utf8ByteSize + r.dedup_key.byteLength +
    r.digest.utf8ByteSize)

def EffectRow.bytes (r : EffectRow) : Nat :=
  128 + (r.effect_id.utf8ByteSize + r.state_key.utf8ByteSize + r.kind.utf8ByteSize +
    r.payload.byteLength)

namespace Tables

/-- What the entry limit counts: the rows of all tables. -/
def entries (t : Tables) : Nat :=
  t.inbox.length + t.delivery.length + t.outbox.length + t.state.length + t.dedup.length +
    t.effects.length

/-- What the byte limit counts: every row with its own overhead. -/
def bytes (t : Tables) : Nat :=
  (t.inbox.map InboxRow.bytes).sum + (t.delivery.map DeliveryRow.bytes).sum +
    (t.outbox.map OutboxRow.bytes).sum + (t.state.map StateRow.bytes).sum +
    (t.dedup.map DedupRow.bytes).sum + (t.effects.map EffectRow.bytes).sum

end Tables

/-- `capacity`. -/
def capacity (cfg : Config) (t : Tables) : Except StoreError PUnit := do
  valid (Json.isSafe t.entries && Json.isSafe t.bytes)
  require (decide ((t.entries : Int) ≤ cfg.maxEntries ∧ (t.bytes : Int) ≤ cfg.maxBytes))
    (.runtime .FULL "Runtime capacity exhausted; no records evicted")

/-! ## Outgoing messages -/

/-- `UPDATE node_outbox SET attempts = ?, last_at = ?`. -/
def retried (attempts lastAt : Int) (o : OutboxRow) : OutboxRow := { o with attempts, last_at := lastAt }

/-- An envelope of this node goes to the outbox. The same envelope again renews its tries; another one under
    its id is refused. -/
def saveEntry (cfg : Config) (t : Tables) (e : Json) (attempts lastAt : Int) :
    Except StoreError Tables := do
  let digest ← encode cfg.host e
  require (Env.fromNode e = cfg.nodeId) (.typeError "Outbox sender must be the local node")
  checkInteger attempts "attempts"
  checkInteger lastAt "lastAt"
  match ← findDelivery cfg t cfg.nodeId (Env.msgId e) with
  | some prior =>
    require (prior.digest = digest) (.runtime .CONFLICT "Outbound message identity is immutable")
    match prior.status with
    | .stored => return t
    | .pending =>
      return { t with
        outbox := Table.modify OutboxRow.key (cfg.nodeId, Env.msgId e) (retried attempts lastAt) t.outbox }
  | none =>
    return { t with
      delivery := t.delivery ++ [⟨cfg.nodeId, Env.msgId e, digest, .pending, none⟩]
      outbox := t.outbox ++ [⟨cfg.nodeId, Env.msgId e, e, attempts, lastAt⟩] }

/-- `saveEntry` as a call of its own, within the limits. -/
def save (cfg : Config) (t : Tables) (e : Json) (attempts lastAt : Int) : Except StoreError Tables := do
  let t ← saveEntry cfg t e attempts lastAt
  capacity cfg t
  return t

/-- The terminal age is stamped once, on the way from pending to stored. -/
def markStored (now : Int) (d : DeliveryRow) : DeliveryRow :=
  if d.status = .pending then { d with status := .stored, stored_at := some now } else d

/-- `stored`: the gateway holds the message; release the payload, keep the tombstone. -/
def stored (cfg : Config) (t : Tables) (now : Int) (fromNode msgId digest : String) :
    Except StoreError (Bool × Tables) := do
  if fromNode ≠ cfg.nodeId ∨ isUuid msgId = false ∨ isDigest digest = false then return (false, t)
  else
    match ← findDelivery cfg t fromNode msgId with
    | none => return (false, t)
    | some row =>
      if row.digest ≠ digest then return (false, t)
      else
        require (isTime now)
          (.typeError "Runtime clock must return a nonnegative safe-integer epoch millisecond")
        return (true, { t with
          delivery := Table.modify DeliveryRow.key (fromNode, msgId) (markStored now) t.delivery
          outbox := Table.remove OutboxRow.key (fromNode, msgId) t.outbox })

/-- A tombstone old enough for the retention window. -/
def isExpired (cutoff : Int) (d : DeliveryRow) : Bool :=
  d.status = .stored && d.stored_at.any fun at' => at' ≤ cutoff

/-- Tombstones past the retention are deleted. -/
def prune (cfg : Config) (t : Tables) (now : Int) : Except StoreError (Nat × Tables) := do
  match cfg.retentionMs with
  | none => return (0, t)
  | some retentionMs =>
    if !isTime now then return (0, t)
    else
      let cutoff := now - retentionMs
      let rows := t.delivery.filter (isExpired cutoff)
      let _ ← foldSteps (fun (_ : PUnit) row => do
        let _ ← readDelivery cfg row (Table.lookup OutboxRow.key row.key t.outbox)) ⟨⟩ rows
      return (rows.length, { t with delivery := t.delivery.filter fun d => !isExpired cutoff d })

/-! ## The inbox -/

/-- What a sender learns of its message. -/
inductive ReceiveStatus where
  | new
  | duplicate
  | conflict
  | full
deriving DecidableEq, Repr

/-- The transaction of `receive`. -/
def receiveInTransaction (cfg : Config) (t : Tables) (e : Json) (digest : String) :
    Except StoreError (ReceiveStatus × Tables) := do
  match Table.lookup InboxRow.key (Env.fromNode e, Env.msgId e) t.inbox with
  | some prior =>
    let _ ← readInbox cfg t prior
    return (if prior.digest = digest then .duplicate else .conflict, t)
  | none =>
    let t := { t with
      inbox := t.inbox ++ [⟨Env.fromNode e, Env.msgId e, digest, some e, .pending, none, none⟩] }
    capacity cfg t
    return (.new, t)

/-- `receive`: a full store is an answer, not an exception. -/
def receive (cfg : Config) (t : Tables) (e : Json) : Except StoreError (ReceiveStatus × Tables) := do
  let digest ← encode cfg.host e
  require (Env.toNode e = cfg.nodeId) (.typeError "Inbox target must be the local node")
  match receiveInTransaction cfg t e digest with
  | .error (.runtime .FULL _) => return (.full, t)
  | r => r

/-- `pending(limit)`: the oldest undecided envelopes. -/
def pending (cfg : Config) (t : Tables) (limit : Nat) : Except StoreError (List Json) :=
  foldSteps (fun (entries : List Json) row => do
    match ← readInbox cfg t row with
    | some e => return entries ++ [e]
    | none => return entries) [] ((t.inbox.filter fun r => r.decision = .pending).take limit)

/-! ## State transitions -/

/-- `ORDER BY state_key`. -/
def insertByKey (row : StateRow) : List StateRow → List StateRow
  | [] => [row]
  | r :: rest => if row.state_key ≤ r.state_key then row :: r :: rest else r :: insertByKey row rest

/-- The rows of a prefix are answered in key order. -/
def sortByKey : List StateRow → List StateRow
  | [] => []
  | r :: rest => insertByKey r (sortByKey rest)

/-- `states(prefix, limit)`: the rows whose key starts with the prefix, in key order. -/
def states (t : Tables) (keyPrefix : String) (limit : Nat) : Except StoreError (List StateRow) := do
  if keyPrefix ≠ "" then checkKey keyPrefix
  let rows := (sortByKey (t.state.filter fun r =>
    keyPrefix.toList.isPrefixOf r.state_key.toList)).take limit
  foldSteps (fun (found : List StateRow) row => do
    valid (isKey row.state_key && isStoredInteger row.revision 1 && row.value.visit 0)
    return found ++ [row]) [] rows

/-- What a transform is shown of the state. -/
abbrev RuntimeState := StateRow

/-- The state at a key is written, or replaced. -/
def upsertState (t : Tables) (key : String) (revision : Int) (value : Json) : Tables :=
  { t with
    state := match Table.lookup StateRow.state_key key t.state with
      | some _ => Table.modify StateRow.state_key key (fun r => { r with revision, value }) t.state
      | none => t.state ++ [⟨key, revision, value⟩] }

/-- An effect is recorded under its id, which must be free. -/
def saveEffect (key : String) (revision : Int) (t : Tables) (effect : Json) :
    Except StoreError Tables := do
  let id ← demand (effect.getStr "id") (.typeError "Runtime key must contain 1..1024 UTF-8 bytes")
  checkKey id
  let kind ← demand (effect.getStr "kind") (.typeError "Runtime key must contain 1..1024 UTF-8 bytes")
  checkKey kind
  let payload ← demand (effect.get "payload") (.typeError "Runtime values must be JSON data")
  checkJson payload
  require (Table.lookup EffectRow.effect_id id t.effects).isNone .constraint
  return { t with effects := t.effects ++ [⟨id, key, revision, kind, payload, false⟩] }

/-- An optional array of the transform's result. -/
def resultArray (result : Json) (name : String) : Except StoreError (List Json) :=
  match result.get name with
  | none => .ok []
  | some (.arr items) => .ok items
  | some _ => .error (.typeError "Runtime outbox and effects must be arrays")

/-- What a transition answers is checked and written: the state, then its messages, then its effects. -/
def applyTransition (cfg : Config) (t : Tables) (key : String) (revision : Int) (result : Option Json) :
    Except StoreError (Int × Tables) := do
  let result ← demand result .transform
  checkJson result
  let outbox ← resultArray result "outbox"
  let effects ← resultArray result "effects"
  let value ← demand (result.get "state") (.typeError "Runtime values must be JSON data")
  checkJson value
  checkInteger (revision + 1) "next revision"
  let t := upsertState t key (revision + 1) value
  let t ← foldSteps (fun t e => saveEntry cfg t e 0 0) t outbox
  let t ← foldSteps (saveEffect key (revision + 1)) t effects
  return (revision + 1, t)

/-- A state is changed at the revision it was read at, and at no other. -/
def transition (cfg : Config) (t : Tables) (key : String) (expectedRevision : Int)
    (transform : Option RuntimeState → Option Json) : Except StoreError (Int × Tables) := do
  checkKey key
  checkInteger expectedRevision "expectedRevision"
  let state ← readState t key
  let revision := (state.map StateRow.revision).getD 0
  require (revision = expectedRevision) (.runtime .STALE "State revision changed")
  let (revision, t) ← applyTransition cfg t key revision (transform state)
  capacity cfg t
  return (revision, t)

/-- `jcs([env.task_id, env.attempt, env.type])`. -/
def dedupKey (e : Json) : Json :=
  .arr [(e.get "task_id").getD .null, (e.get "attempt").getD .null, (e.get "type").getD .null]

/-- Which message is to be decided, and the state it is decided on. -/
structure ConsumeRequest where
  fromNode : String
  msgId : String
  stateKey : String
  expectedRevision : Int
deriving DecidableEq, Repr

/-- The message is not there, or is decided, now or before. -/
inductive ConsumeResult where
  | missing
  | decided (status : Decision) (revision : Int)
deriving DecidableEq, Repr

/-- The R1 step of `consume`: the decision, and the dedup table after it. -/
def dedupStep (cfg : Config) (t : Tables) (req : ConsumeRequest) (e : Json) :
    Except StoreError (Decision × Tables) := do
  if usesR1Dedup (Env.type e) then
    let digest := cfg.host.digest (Env.body e)
    match Table.lookup DedupRow.key (req.fromNode, req.stateKey, dedupKey e) t.dedup with
    | some prior =>
      readDedup t prior
      return (if prior.digest = digest then .duplicate else .conflict, t)
    | none =>
      return (.applied, { t with dedup := t.dedup ++ [⟨req.fromNode, req.stateKey, dedupKey e, digest⟩] })
  else return (.applied, t)

/-- The state step of `consume`: only an applied envelope reaches the transform. -/
def transformStep (cfg : Config) (t : Tables) (req : ConsumeRequest) (e : Json) (status : Decision)
    (state : Option RuntimeState) (revision : Int)
    (transform : Json → Option RuntimeState → Option Json) : Except StoreError (Int × Tables) :=
  if status = .applied then applyTransition cfg t req.stateKey revision (transform e state)
  else .ok (revision, t)

/-- The payload goes, the decision stays. -/
def decideRow (req : ConsumeRequest) (status : Decision) (revision : Int) (r : InboxRow) : InboxRow :=
  { r with payload := none, decision := status, state_key := some req.stateKey,
           revision := some revision }

/-- A message is decided once: by the R1 table where its type has a key, else by applying it. -/
def consume (cfg : Config) (t : Tables) (req : ConsumeRequest)
    (transform : Json → Option RuntimeState → Option Json) :
    Except StoreError (ConsumeResult × Tables) := do
  checkKey req.stateKey
  checkInteger req.expectedRevision "expectedRevision"
  require (isUuid req.fromNode && isUuid req.msgId) (.typeError "Invalid inbound identity")
  match Table.lookup InboxRow.key (req.fromNode, req.msgId) t.inbox with
  | none => return (.missing, t)
  | some row =>
    match ← readInbox cfg t row with
    | none =>
      require (row.state_key.map columnText = some req.stateKey)
        (.runtime .CONFLICT "Inbox already consumed into another state")
      return (.decided row.decision (row.revision.getD 0), t)
    | some e =>
      let state ← readState t req.stateKey
      let revision := (state.map StateRow.revision).getD 0
      require (revision = req.expectedRevision) (.runtime .STALE "State revision changed")
      let (status, t) ← dedupStep cfg t req e
      let (revision, t) ← transformStep cfg t req e status state revision transform
      let t := { t with
        inbox := Table.modify InboxRow.key (req.fromNode, req.msgId) (decideRow req status revision) t.inbox }
      capacity cfg t
      return (.decided status revision, t)

/-- Whether a `consume` that answered `res` on the tables `t` applied its envelope just now. A
    replay of a decided one answers the same and writes nothing. -/
def appliesNow (t : Tables) (e : Json) (res : ConsumeResult) : Bool :=
  (Table.lookup InboxRow.key (Env.fromNode e, Env.msgId e) t.inbox).any
      (fun row => row.decision = .pending) &&
    (match res with
      | .decided .applied _ => true
      | _ => false)

/-! ## Effects -/

/-- `pendingEffects(limit, includeSuperseded)`. -/
def pendingEffects (t : Tables) (limit : Nat) (includeSuperseded : Bool) :
    Except StoreError (List EffectRow) :=
  foldSteps (fun (effects : List EffectRow) row => do
    if effects.length = limit then return effects
    else
      let (effect, currentRevision) ← readEffect t row
      return if includeSuperseded || effect.revision = currentRevision then effects ++ [effect]
        else effects) [] (t.effects.filter fun r => !r.done)

/-- The `WHERE` clause of `completeEffect`. -/
def completes (t : Tables) (id key : String) (revision : Int) (allowSuperseded : Bool)
    (r : EffectRow) : Bool :=
  r.effect_id = id && r.state_key = key && r.revision = revision && !r.done &&
    (allowSuperseded || t.state.any fun s => s.state_key = key && s.revision = revision)

def markDone (r : EffectRow) : EffectRow := { r with done := true }

/-- An effect is done, unless its state has moved on and the caller does not allow that. -/
def completeEffect (t : Tables) (id key : String) (revision : Int) (allowSuperseded : Bool) :
    Except StoreError (Bool × Tables) := do
  checkKey id
  checkKey key
  checkInteger revision "revision"
  match Table.lookup EffectRow.effect_id id t.effects with
  | some row =>
    let _ ← readEffect t row
    let hit := completes t id key revision allowSuperseded row
    return (hit, if hit then { t with effects := Table.modify EffectRow.effect_id id markDone t.effects }
      else t)
  | none => return (false, t)

end Node
end Qlong
