import Qlong.Gateway.Claims

/-!
# The gateway's custody store

`packages/gateway/src/custody-store.ts`: the table `gateway_custody` and the transactions over it. As in
the node's store, what a transaction does is a function from the rows to `Except`: a commit answers the
new rows, an exception leaves the old ones.

Rows are in the order of their `rowid`: an insertion appends. The payload column holds the canonical text
of the envelope and stands here as the envelope itself; text of JSON has no NUL. The budget of
`jsonSnapshot` is spent by one unit a value and one a character, and so is never spent before the bytes
of the text are.
-/

namespace Qlong
namespace Gateway

open Lib

/-- `MAX_TRANSPORT_LIFETIME_MS`. -/
def maxTransportLifetimeMs : Int := 24 * 60 * 60 * 1000

/-! ## Absolute times -/

/-- `n` digits and their value. -/
def readDigits (n : Nat) (cs : List Char) : Option (Nat × List Char) :=
  if (cs.take n).length = n && (cs.take n).all isDigit then
    some ((cs.take n).foldl (fun v c => 10 * v + (c.toNat - '0'.toNat)) 0, cs.drop n)
  else none

/-- The zone of an absolute time: its hour and minute. -/
def readZone : List Char → Option (Nat × Nat)
  | [] => none
  | sign :: rest =>
    if sign = 'Z' ∨ sign = 'z' then if rest = [] then some (0, 0) else none
    else if sign = '+' ∨ sign = '-' then do
      let (hour, rest) ← readDigits 2 rest
      let rest ← dropChar (· == ':') rest
      let (minute, rest) ← readDigits 2 rest
      if rest = [] then some (hour, minute) else none
    else none

/-- The optional fraction of a second. -/
def dropFraction : List Char → Option (List Char)
  | '.' :: c :: rest => if isDigit c then some (rest.dropWhile isDigit) else none
  | '.' :: [] => none
  | cs => some cs

/-- The years with a 29 February. -/
def isLeap (y : Nat) : Bool := y % 4 = 0 && (y % 100 ≠ 0 || y % 400 = 0)

/-- The days of a month. -/
def daysOf (y m : Nat) : Nat :=
  ([31, if isLeap y then 29 else 28, 31, 30, 31, 30, 31, 31, 30, 31, 30, 31])[m - 1]?.getD 0

/-- A date and time of day with its zone, each part in its range: no calendar rollover, no local time. -/
def isAbsoluteText (s : String) : Bool :=
  (do
    let (y, cs) ← readDigits 4 (ascii s)
    let cs ← dropChar (· == '-') cs
    let (m, cs) ← readDigits 2 cs
    let cs ← dropChar (· == '-') cs
    let (d, cs) ← readDigits 2 cs
    let cs ← dropChar (fun c => c == 'T' || c == 't') cs
    let (hour, cs) ← readDigits 2 cs
    let cs ← dropChar (· == ':') cs
    let (minute, cs) ← readDigits 2 cs
    let cs ← dropChar (· == ':') cs
    let (second, cs) ← readDigits 2 cs
    let cs ← dropFraction cs
    let (offsetHour, offsetMinute) ← readZone cs
    return decide (1 ≤ m ∧ m ≤ 12 ∧ 1 ≤ d ∧ d ≤ daysOf y m ∧ hour ≤ 23 ∧ minute ≤ 59 ∧ second ≤ 59 ∧
      offsetHour ≤ 23 ∧ offsetMinute ≤ 59)) == some true

/-- `absoluteTime`. -/
def absoluteTime (host : Host) (v : Option Json) : Option Int :=
  match v with
  | some (.str s) => if isAbsoluteText s then (host.dateParse s).filter validTime else none
  | _ => none

/-- A time that was read lies within the calendar. -/
theorem absoluteTime_valid {host : Host} {v : Option Json} {time : Int} (h : absoluteTime host v = some time) :
    validTime time = true := by
  unfold absoluteTime at h
  split at h
  · split at h
    · exact (Option.filter_eq_some_iff.mp h).2
    · exact absurd h (by simp)
  · exact absurd h (by simp)

/-! ## The table -/

/-- A row is pending until its receipt comes or its time is over. -/
inductive CustodyStatus where
  | pending
  | received
  | expired
deriving DecidableEq, Repr

/-- An envelope held for its recipient. A finished row keeps identity and digest. -/
structure CustodyRow where
  from_node : String
  msg_id : String
  to_node : String
  digest : String
  status : CustodyStatus
  stored_at : Int
  expires_at : Int
  payload : Option Json
  payload_bytes : Nat
deriving DecidableEq

def CustodyRow.key (row : CustodyRow) : String × String := (row.from_node, row.msg_id)

/-- What a call throws: a bad argument, or a row that cannot be read. -/
inductive CustodyError where
  | corrupt
  | storage
deriving DecidableEq, Repr

/-- The constructor's options, after its checks. -/
structure CustodyConfig where
  host : Host
  maxEntries : Int
  maxBytes : Int
  perNodeEntries : Int
  retentionMs : Option Int
  maxEntries_ok : Json.isPositive maxEntries = true
  maxBytes_ok : Json.isPositive maxBytes = true
  perNodeEntries_ok : Json.isPositive perNodeEntries = true

/-- An envelope with what its row is made of. -/
structure Encoded where
  envelope : Json
  bytes : Nat
  digest : String
  expires : Int
deriving DecidableEq

/-- What the sender is answered. -/
inductive OfferResult where
  | stored
  | full
  | conflict
  | expired
  | invalid
deriving DecidableEq, Repr

/-- An envelope in custody and its digest. -/
structure Item where
  envelope : Json
  digest : String
deriving DecidableEq

namespace Custody

/-- `requireValid`. -/
def requireValid (ok : Bool) : Except CustodyError PUnit := require ok .corrupt

/-- `encode`. -/
def encode (host : Host) (e : Json) : Option Encoded :=
  if e.visit 0 && e.byteLength ≤ Node.maxTransportBytes && (validateEnvelope host defaultParams false e).isEmpty &&
      Node.isSigned e && (absoluteTime host (e.get "ts")).isSome then
    match absoluteTime host (e.get "exp") with
    | some expires => some ⟨e, e.byteLength, host.digest e, expires⟩
    | none => none
  else none

/-- What every row satisfies. -/
def isRow (row : CustodyRow) : Bool :=
  isUuid row.from_node && isUuid row.msg_id && isUuid row.to_node && isDigest row.digest &&
    validTime row.stored_at && validTime row.expires_at && row.stored_at < row.expires_at &&
    row.expires_at - row.stored_at ≤ maxTransportLifetimeMs

/-- `load`: the payload is encoded again and still matches its row. -/
def load (host : Host) (row : CustodyRow) : Except CustodyError (Option Json) := do
  requireValid (isRow row)
  if row.status ≠ .pending then
    requireValid (row.payload = none && row.payload_bytes = 0)
    return none
  else
    match row.payload with
    | none => throw .corrupt
    | some e =>
      match encode host e with
      | none => throw .corrupt
      | some encoded =>
        requireValid (encoded.bytes = row.payload_bytes && encoded.digest = row.digest &&
          encoded.expires = row.expires_at && Env.fromNode e = row.from_node && Env.toNode e = row.to_node &&
          Env.msgId e = row.msg_id)
        return some e

/-- `find`. -/
def find (cfg : CustodyConfig) (rows : List CustodyRow) (fromNode msgId : String) :
    Except CustodyError (Option CustodyRow) :=
  match Table.lookup CustodyRow.key (fromNode, msgId) rows with
  | none => .ok none
  | some row => do
    let _ ← load cfg.host row
    return some row

/-- The row once its payload is released. -/
def finished (status : CustodyStatus) (row : CustodyRow) : CustodyRow :=
  { row with status, payload := none, payload_bytes := 0 }

/-- `finish`. -/
def finish (rows : List CustodyRow) (row : CustodyRow) (status : CustodyStatus) : List CustodyRow :=
  Table.modify CustodyRow.key row.key (finished status) rows

/-- Pending, and past its time. -/
def isDue (now : Int) (row : CustodyRow) : Bool := row.status = .pending && row.expires_at ≤ now

/-- The rows once those that are due have expired. -/
def expired (now : Int) (rows : List CustodyRow) : List CustodyRow :=
  rows.map fun row => if isDue now row then finished .expired row else row

/-- `expire`: every row is read before its payload is released. -/
def expire (cfg : CustodyConfig) (rows : List CustodyRow) (now : Int) : Except CustodyError (List CustodyRow) := do
  (rows.filter (isDue now)).forM fun row => do
    let _ ← load cfg.host row
  return expired now rows

/-- What the byte limit counts: payloads only. -/
def totalBytes (rows : List CustodyRow) : Int := (rows.map fun row => (row.payload_bytes : Int)).sum

/-- Pending for the node; these count against its own limit. -/
def isFor (toNode : String) (row : CustodyRow) : Bool := row.to_node = toNode && row.status = .pending

/-- The row of a new envelope. -/
def admitted (encoded : Encoded) (now : Int) : CustodyRow where
  from_node := Env.fromNode encoded.envelope
  msg_id := Env.msgId encoded.envelope
  to_node := Env.toNode encoded.envelope
  digest := encoded.digest
  status := .pending
  stored_at := now
  expires_at := encoded.expires
  payload := some encoded.envelope
  payload_bytes := encoded.bytes

/-- The offer once it is encoded: a known identity, the time left, the sweep, the three limits, the insert. -/
def offerInTransaction (cfg : CustodyConfig) (rows : List CustodyRow) (encoded : Encoded) (now : Int) :
    Except CustodyError (OfferResult × List CustodyRow) := do
  match ← find cfg rows (Env.fromNode encoded.envelope) (Env.msgId encoded.envelope) with
  | some existing => return (if existing.digest = encoded.digest then .stored else .conflict, rows)
  | none =>
    if encoded.expires ≤ now then return (.expired, rows)
    else if maxTransportLifetimeMs < encoded.expires - now then return (.invalid, rows)
    else
      let rows ← expire cfg rows now
      let entries : Int := rows.length
      let recipient : Int := (rows.filter (isFor (Env.toNode encoded.envelope))).length
      requireValid (Json.isSafe entries && Json.isSafe (totalBytes rows) && Json.isSafe recipient)
      if cfg.maxEntries ≤ entries ∨ cfg.maxBytes - totalBytes rows < encoded.bytes ∨ cfg.perNodeEntries ≤ recipient then
        return (.full, rows)
      else return (.stored, rows ++ [admitted encoded now])

/-- An envelope is taken into custody. -/
def offer (cfg : CustodyConfig) (rows : List CustodyRow) (e : Json) (now : Int) :
    Except CustodyError (OfferResult × List CustodyRow) :=
  match encode cfg.host e with
  | none => .ok (.invalid, rows)
  | some encoded => if validTime now then offerInTransaction cfg rows encoded now else .ok (.invalid, rows)

/-- One row of a snapshot. -/
def item (cfg : CustodyConfig) (row : CustodyRow) : Except CustodyError Item := do
  match ← load cfg.host row with
  | some envelope => return ⟨envelope, row.digest⟩
  | none => throw .corrupt

/-- The oldest rows of a node that are still to be delivered, after a sweep. -/
def pending (cfg : CustodyConfig) (rows : List CustodyRow) (toNode : String) (now limit : Int) :
    Except CustodyError (List Item × List CustodyRow) :=
  if isUuid toNode && validTime now && Json.isNonnegative limit then do
    let rows ← expire cfg rows now
    let items ← ((rows.filter (isFor toNode)).take limit.toNat).mapM (item cfg)
    return (items, rows)
  else .ok ([], rows)

/-- A receipt: the row it names is released, if its time is not over. -/
def acknowledge (cfg : CustodyConfig) (rows : List CustodyRow) (toNode fromNode msgId digest : String) (now : Int) :
    Except CustodyError (Bool × List CustodyRow) :=
  if isUuid toNode && isUuid fromNode && isUuid msgId && isDigest digest && validTime now then do
    match ← find cfg rows fromNode msgId with
    | none => return (false, rows)
    | some row =>
      if row.to_node ≠ toNode ∨ row.digest ≠ digest ∨ row.status = .expired then return (false, rows)
      else if row.status = .received then return (true, rows)
      else if row.expires_at ≤ now then return (false, finish rows row .expired)
      else return (true, finish rows row .received)
  else .ok (false, rows)

/-- `outcome`: the row as it stands. -/
def outcome (cfg : CustodyConfig) (rows : List CustodyRow) (fromNode msgId : String) :
    Except CustodyError (Option CustodyRow × List CustodyRow) :=
  if isUuid fromNode && isUuid msgId then do
    let found ← find cfg rows fromNode msgId
    return (found, rows)
  else .ok (none, rows)

/-- A tombstone old enough for the retention window. -/
def isOld (cutoff : Int) (row : CustodyRow) : Bool := row.status ≠ .pending && row.stored_at ≤ cutoff

/-- Finished rows past the retention are deleted; without one configured, none. -/
def prune (cfg : CustodyConfig) (rows : List CustodyRow) (now : Int) : Except CustodyError (Nat × List CustodyRow) :=
  match cfg.retentionMs with
  | none => .ok (0, rows)
  | some retentionMs =>
    if validTime now then do
      let cutoff := now - retentionMs
      (rows.filter (isOld cutoff)).forM fun row => do
        let _ ← load cfg.host row
      return ((rows.filter (isOld cutoff)).length, rows.filter fun row => !isOld cutoff row)
    else .ok (0, rows)

end Custody

/-! ## Calls of the store -/

/-- The calls of the custody store. -/
inductive CustodyCall where
  | offer (e : Json) (now : Int)
  | pending (toNode : String) (now limit : Int)
  | acknowledge (toNode fromNode msgId digest : String) (now : Int)
  | outcome (fromNode msgId : String)
  | prune (now : Int)

namespace Custody

/-- The rows after a call; one that throws is rolled back. -/
def perform (cfg : CustodyConfig) (rows : List CustodyRow) : CustodyCall → List CustodyRow
  | .offer e now => match offer cfg rows e now with
    | .ok (_, rows) => rows
    | .error _ => rows
  | .pending toNode now limit => match pending cfg rows toNode now limit with
    | .ok (_, rows) => rows
    | .error _ => rows
  | .acknowledge toNode fromNode msgId digest now => match acknowledge cfg rows toNode fromNode msgId digest now with
    | .ok (_, rows) => rows
    | .error _ => rows
  | .outcome fromNode msgId => match outcome cfg rows fromNode msgId with
    | .ok (_, rows) => rows
    | .error _ => rows
  | .prune now => match prune cfg rows now with
    | .ok (_, rows) => rows
    | .error _ => rows

/-! ## Reading rows -/

section

variable {cfg : CustodyConfig} {host : Host} {rows rows' : List CustodyRow} {row : CustodyRow} {e : Json}

/-- Which envelopes custody takes at all, and what their rows are made of. -/
theorem encode_eq {encoded : Encoded} : encode host e = some encoded ↔
    (e.visit 0 = true ∧ e.byteLength ≤ Node.maxTransportBytes ∧ WellFormed host defaultParams false e ∧
      Node.isSigned e = true ∧ (absoluteTime host (e.get "ts")).isSome = true) ∧
    ∃ expires, absoluteTime host (e.get "exp") = some expires ∧ encoded = ⟨e, e.byteLength, host.digest e, expires⟩ := by
  unfold encode
  simp only [← validateEnvelope_ok_iff, ← List.isEmpty_iff]
  split
  · rename_i h
    simp only [Bool.and_eq_true, decide_eq_true_eq] at h
    obtain ⟨⟨⟨⟨h1, h2⟩, h3⟩, h4⟩, h5⟩ := h
    simp only [h1, h2, h3, h4, h5, and_self, true_and]
    cases absoluteTime host (e.get "exp") with
    | none => simp
    | some expires => simp [eq_comm]
  · rename_i h
    simp only [Bool.and_eq_true, decide_eq_true_eq] at h
    constructor
    · intro habsurd
      exact absurd habsurd (by simp)
    · rintro ⟨⟨h1, h2, h3, h4, h5⟩, -⟩
      exact absurd ⟨⟨⟨⟨h1, h2⟩, h3⟩, h4⟩, h5⟩ h

/-- A row and the envelope in it agree. -/
structure Holds (host : Host) (row : CustodyRow) (e : Json) : Prop where
  payload : row.payload = some e
  encodes : encode host e = some ⟨e, row.payload_bytes, row.digest, row.expires_at⟩
  sender : Env.fromNode e = row.from_node
  receiver : Env.toNode e = row.to_node
  msgId : Env.msgId e = row.msg_id

theorem requireValid_ok {ok : Bool} {x : PUnit} : requireValid ok = .ok x ↔ ok = true := require_ok_iff

/-- **What a row that is read is.** -/
theorem load_ok {r : Option Json} : load host row = .ok r ↔ isRow row = true ∧
    ((row.status ≠ .pending ∧ row.payload = none ∧ row.payload_bytes = 0 ∧ r = none) ∨
      (row.status = .pending ∧ ∃ e, r = some e ∧ Holds host row e)) := by
  unfold load
  simp only [bind_ok_iff, requireValid_ok]
  -- a pending row carries its envelope, a finished one has dropped it
  by_cases hstatus : row.status = .pending
  · simp only [hstatus, ne_eq, not_true_eq_false, if_false, false_and, false_or, true_and]
    constructor
    · rintro ⟨-, hrow, h⟩
      refine ⟨hrow, ?_⟩
      cases hp : row.payload with
      | none =>
        rw [hp] at h
        exact absurd h (by simp)
      | some e =>
        rw [hp] at h
        dsimp only at h
        cases he : encode host e with
        | none =>
          rw [he] at h
          exact absurd h (by simp)
        | some encoded =>
          rw [he] at h
          simp only [bind_ok_iff, requireValid_ok, Bool.and_eq_true, decide_eq_true_eq, pure_ok_iff] at h
          obtain ⟨-, ⟨⟨⟨⟨⟨hbytes, hdigest⟩, hexpires⟩, hfrom⟩, hto⟩, hmsg⟩, rfl⟩ := h
          refine ⟨e, rfl, hp, ?_, hfrom, hto, hmsg⟩
          obtain ⟨-, _, -, hencoded⟩ := encode_eq.mp he
          rw [he, ← hbytes, ← hdigest, ← hexpires, hencoded]
    · rintro ⟨hrow, e, rfl, h⟩
      refine ⟨⟨⟩, hrow, ?_⟩
      simp only [h.payload, h.encodes, bind_ok_iff, requireValid_ok, h.sender, h.receiver, h.msgId, decide_true,
        Bool.and_true, pure_ok_iff, and_true]
      exact ⟨⟨⟩, trivial⟩
  · simp only [ne_eq, hstatus, not_false_eq_true, if_true, bind_ok_iff, requireValid_ok, Bool.and_eq_true,
      decide_eq_true_eq, pure_ok_iff, true_and, false_and, or_false]
    constructor
    · rintro ⟨-, hrow, -, ⟨hp, hb⟩, rfl⟩
      exact ⟨hrow, hp, hb, rfl⟩
    · rintro ⟨hrow, hp, hb, rfl⟩
      exact ⟨⟨⟩, hrow, ⟨⟩, ⟨hp, hb⟩, rfl⟩

/-- The table is sound: its key tells the rows apart, and every row can be read. -/
structure Sound (cfg : CustodyConfig) (rows : List CustodyRow) : Prop where
  keyed : Table.Keyed CustodyRow.key rows
  loads : ∀ row ∈ rows, ∃ r, load cfg.host row = .ok r

/-- An empty table is sound. -/
theorem Sound.empty : Sound cfg [] := ⟨.nil, fun _ h => absurd h List.not_mem_nil⟩

/-- A pending row of a sound table has its envelope. -/
theorem Sound.pending (h : Sound cfg rows) (hrow : row ∈ rows) (hstatus : row.status = .pending) :
    ∃ e, Holds cfg.host row e := by
  obtain ⟨r, hr⟩ := h.loads row hrow
  obtain ⟨-, ⟨hne, -⟩ | ⟨-, e, -, he⟩⟩ := load_ok.mp hr
  · exact absurd hstatus hne
  · exact ⟨e, he⟩

/-- Deleting rows keeps it sound. -/
theorem Sound.filter (h : Sound cfg rows) (p : CustodyRow → Bool) : Sound cfg (rows.filter p) :=
  ⟨h.keyed.filter, fun row hrow => h.loads row (List.mem_filter.mp hrow).1⟩

@[simp] theorem key_finished {status : CustodyStatus} : (finished status row).key = row.key := rfl

/-- A finished row is readable where the pending one was. -/
theorem finished_loads {status : CustodyStatus} {r : Option Json} (h : load host row = .ok r) (hs : status ≠ .pending) :
    load host (finished status row) = .ok none :=
  load_ok.mpr ⟨(load_ok.mp h).1, Or.inl ⟨hs, rfl, rfl, rfl⟩⟩

/-- Rows finished here and there. -/
theorem Sound.map (h : Sound cfg rows) {f : CustodyRow → CustodyRow}
    (hf : ∀ row, f row = row ∨ ∃ status, status ≠ .pending ∧ f row = finished status row) : Sound cfg (rows.map f) := by
  have hkey : ∀ row, (f row).key = row.key := by
    intro row
    rcases hf row with hsame | ⟨status, -, hfinished⟩
    · rw [hsame]
    · rw [hfinished, key_finished]
  refine ⟨?_, ?_⟩
  · unfold Table.Keyed
    rw [List.map_map, show CustodyRow.key ∘ f = CustodyRow.key from funext hkey]
    exact h.keyed
  · intro row hrow
    obtain ⟨old, hold, rfl⟩ := List.mem_map.mp hrow
    obtain ⟨r, hr⟩ := h.loads old hold
    rcases hf old with hsame | ⟨status, hstatus, hfinished⟩
    · exact ⟨r, by rw [hsame, hr]⟩
    · exact ⟨none, by rw [hfinished, finished_loads hr hstatus]⟩

/-- So does the sweep of what is due. -/
theorem Sound.expired (h : Sound cfg rows) (now : Int) : Sound cfg (Custody.expired now rows) := by
  refine h.map fun row => ?_
  split
  · exact Or.inr ⟨.expired, by simp, rfl⟩
  · exact Or.inl rfl

/-- And the end of one row. -/
theorem Sound.finish (h : Sound cfg rows) {status : CustodyStatus} (hs : status ≠ .pending) :
    Sound cfg (Custody.finish rows row status) := by
  refine h.map fun row => ?_
  split
  · exact Or.inr ⟨status, hs, rfl⟩
  · exact Or.inl rfl

/-- The row of an envelope that is admitted now. -/
theorem admitted_loads {encoded : Encoded} {now : Int} (h : encode host e = some encoded) (hnow : validTime now = true)
    (hlate : now < encoded.expires) (hsoon : encoded.expires - now ≤ maxTransportLifetimeMs) :
    load host (admitted encoded now) = .ok (some e) := by
  obtain ⟨⟨-, -, hwf, -⟩, expires, hexpires, rfl⟩ := encode_eq.mp h
  refine load_ok.mpr ⟨?_, Or.inr ⟨rfl, e, rfl, rfl, h, rfl, rfl, rfl⟩⟩
  have htime : validTime expires = true := absoluteTime_valid hexpires
  simp only [isRow, admitted, hwf.fromNode_uuid, hwf.msgId_uuid, hwf.toNode_uuid, host.digest_hex e, hnow, htime,
    Bool.true_and, Bool.and_eq_true]
  exact ⟨decide_eq_true hlate, decide_eq_true hsoon⟩

/-! ## What the calls do -/

/-- What is pending after a sweep was pending before it, and has time left. -/
theorem expired_pending {now : Int} (hrow : row ∈ expired now rows) (hstatus : row.status = .pending) :
    row ∈ rows ∧ now < row.expires_at := by
  obtain ⟨old, hold, heq⟩ := List.mem_map.mp hrow
  split at heq
  · subst heq
    exact absurd hstatus (by simp [finished])
  · rename_i hdue
    subst heq
    refine ⟨hold, ?_⟩
    simp only [isDue, hstatus, decide_true, Bool.true_and, decide_eq_true_eq] at hdue
    omega

/-- A sweep that answers has answered the swept table. -/
theorem expire_eq {now : Int} (h : expire cfg rows now = .ok rows') : rows' = expired now rows := by
  simp only [expire, bind_ok_iff, pure_ok_iff] at h
  obtain ⟨-, -, h⟩ := h
  exact h.symm

/-- It answers on a sound table. -/
theorem Sound.expire (h : Sound cfg rows) (now : Int) :
    Custody.expire cfg rows now = .ok (Custody.expired now rows) := by
  unfold Custody.expire
  rw [forM_ok]
  · rfl
  · intro row hrow
    obtain ⟨r, hr⟩ := h.loads row (List.mem_filter.mp hrow).1
    rw [hr]
    rfl

/-- What a snapshot shows of a row. -/
def shown (row : CustodyRow) : Item := ⟨row.payload.getD .null, row.digest⟩

theorem item_ok {i : Item} : item cfg row = .ok i ↔
    isRow row = true ∧ row.status = .pending ∧ Holds cfg.host row i.envelope ∧ i = shown row := by
  unfold item
  simp only [bind_ok_iff, load_ok]
  constructor
  · rintro ⟨r, ⟨hrow, ⟨-, -, -, rfl⟩ | ⟨hstatus, e, rfl, he⟩⟩, hi⟩
    · exact absurd hi (by simp)
    · simp only [pure_ok_iff] at hi
      subst hi
      refine ⟨hrow, hstatus, he, ?_⟩
      rw [shown, he.payload, Option.getD_some]
  · rintro ⟨hrow, hstatus, he, hi⟩
    refine ⟨some i.envelope, ⟨hrow, Or.inr ⟨hstatus, i.envelope, rfl, he⟩⟩, ?_⟩
    rw [hi]
    rfl

/-- The rows of a snapshot. -/
def window (rows : List CustodyRow) (toNode : String) (now limit : Int) : List CustodyRow :=
  ((expired now rows).filter (isFor toNode)).take limit.toNat

/-- The rows of a window are pending, for the node, and in time. -/
theorem mem_window {toNode : String} {now limit : Int} (hrow : row ∈ window rows toNode now limit) :
    row ∈ rows ∧ row.status = .pending ∧ row.to_node = toNode ∧ now < row.expires_at := by
  obtain ⟨hexpired, hfor⟩ := List.mem_filter.mp (List.mem_of_mem_take hrow)
  simp only [isFor, Bool.and_eq_true, decide_eq_true_eq] at hfor
  obtain ⟨hmem, hlate⟩ := expired_pending hexpired hfor.2
  exact ⟨hmem, hfor.2, hfor.1, hlate⟩

/-- A call that answers has swept, or was asked for nothing. -/
theorem pending_ok {toNode : String} {now limit : Int} {items : List Item}
    (h : pending cfg rows toNode now limit = .ok (items, rows')) :
    (items = [] ∧ rows' = rows) ∨
    (items = (window rows toNode now limit).map shown ∧ rows' = expired now rows ∧
      ∀ row ∈ window rows toNode now limit, Holds cfg.host row (shown row).envelope) := by
  unfold pending at h
  split at h
  · simp only [bind_ok_iff, pure_ok_iff, Prod.mk.injEq] at h
    obtain ⟨expiredRows, hexpire, found, hfound, rfl, rfl⟩ := h
    obtain rfl := expire_eq hexpire
    have hall := mapM_ok_forall₂ hfound
    change List.Forall₂ _ (window rows toNode now limit) found at hall
    have hshown : found = (window rows toNode now limit).map shown := by
      rw [← List.forall₂_eq_eq_eq, List.forall₂_map_right_iff]
      exact hall.flip.imp fun _ _ hitem => (item_ok.mp hitem).2.2.2
    rw [hshown, List.forall₂_map_right_iff, List.forall₂_same] at hall
    exact Or.inr ⟨hshown, rfl, fun row hrow => (item_ok.mp (hall row hrow)).2.2.1⟩
  · simp only [Except.ok.injEq, Prod.mk.injEq] at h
    exact Or.inl ⟨h.1.symm, h.2.symm⟩

/-- Looking a row up finds the row of its key. -/
theorem find_ok {fromNode msgId : String} {found : Option CustodyRow}
    (h : find cfg rows fromNode msgId = .ok found) :
    found = Table.lookup CustodyRow.key (fromNode, msgId) rows := by
  unfold find at h
  cases hlookup : Table.lookup CustodyRow.key (fromNode, msgId) rows with
  | none =>
    rw [hlookup] at h
    exact (Except.ok.inj h).symm
  | some row =>
    rw [hlookup] at h
    simp only [bind_ok_iff, pure_ok_iff] at h
    obtain ⟨-, -, h⟩ := h
    exact h.symm

/-- An envelope fits within the limits beside the rows. -/
structure Fits (cfg : CustodyConfig) (rows : List CustodyRow) (encoded : Encoded) : Prop where
  entries : (rows.length : Int) < cfg.maxEntries
  bytes : totalBytes rows + encoded.bytes ≤ cfg.maxBytes
  recipient : ((rows.filter (isFor (Env.toNode encoded.envelope))).length : Int) < cfg.perNodeEntries

/-- What an offer does. -/
inductive Offers (cfg : CustodyConfig) (rows : List CustodyRow) (e : Json) (now : Int) :
    OfferResult → List CustodyRow → Prop
  | refused {r : OfferResult} (h : r ≠ .stored) : Offers cfg rows e now r rows
  | known {row : CustodyRow} (hrow : row ∈ rows) (hkey : row.key = (Env.fromNode e, Env.msgId e))
      (hdigest : row.digest = cfg.host.digest e) : Offers cfg rows e now .stored rows
  | full : Offers cfg rows e now .full (expired now rows)
  | admits {encoded : Encoded} (hencode : encode cfg.host e = some encoded) (hnow : validTime now = true)
      (hnew : Table.lookup CustodyRow.key (Env.fromNode e, Env.msgId e) rows = none) (hlate : now < encoded.expires)
      (hsoon : encoded.expires - now ≤ maxTransportLifetimeMs) (hfits : Fits cfg (expired now rows) encoded) :
      Offers cfg rows e now .stored (expired now rows ++ [admitted encoded now])

/-- Every offer that answers is one of the four. -/
theorem offer_ok {now : Int} {r : OfferResult} (h : offer cfg rows e now = .ok (r, rows')) :
    Offers cfg rows e now r rows' := by
  unfold offer at h
  split at h
  · simp only [Except.ok.injEq, Prod.mk.injEq] at h
    obtain ⟨rfl, rfl⟩ := h
    exact .refused (by simp)
  · rename_i encoded hencode
    split at h
    · rename_i hnow
      obtain ⟨-, expires, -, hencoded⟩ := encode_eq.mp hencode
      have henvelope : encoded.envelope = e := by rw [hencoded]
      have hdigest : encoded.digest = cfg.host.digest e := by rw [hencoded]
      unfold offerInTransaction at h
      rw [henvelope] at h
      simp only [bind_ok_iff] at h
      obtain ⟨found, hfound, h⟩ := h
      obtain rfl := find_ok hfound
      -- the source's order: a known identity, then expiry, its margin, and the three quotas
      cases hlookup : Table.lookup CustodyRow.key (Env.fromNode e, Env.msgId e) rows with
      | some existing =>
        rw [hlookup] at h
        simp only [pure_ok_iff, Prod.mk.injEq] at h
        obtain ⟨rfl, rfl⟩ := h
        split
        · rename_i hsame
          exact .known (Table.lookup_some_mem hlookup) (Table.lookup_some_key hlookup) (hsame.trans hdigest)
        · exact .refused (by simp)
      | none =>
        rw [hlookup] at h
        dsimp only at h
        split at h
        · simp only [pure_ok_iff, Prod.mk.injEq] at h
          obtain ⟨rfl, rfl⟩ := h
          exact .refused (by simp)
        · rename_i hlate
          split at h
          · simp only [pure_ok_iff, Prod.mk.injEq] at h
            obtain ⟨rfl, rfl⟩ := h
            exact .refused (by simp)
          · rename_i hsoon
            simp only [bind_ok_iff] at h
            obtain ⟨expiredRows, hexpire, -, -, h⟩ := h
            obtain rfl := expire_eq hexpire
            split at h
            · simp only [pure_ok_iff, Prod.mk.injEq] at h
              obtain ⟨rfl, rfl⟩ := h
              exact .full
            · rename_i hroom
              simp only [pure_ok_iff, Prod.mk.injEq] at h
              obtain ⟨rfl, rfl⟩ := h
              rw [← henvelope, not_or, not_or] at hroom
              obtain ⟨hentries, hbytes, hrecipient⟩ := hroom
              exact .admits hencode hnow hlookup (by omega) (by omega) ⟨by omega, by omega, by omega⟩
    · simp only [Except.ok.injEq, Prod.mk.injEq] at h
      obtain ⟨rfl, rfl⟩ := h
      exact .refused (by simp)

/-- What a receipt does to the table. -/
inductive Acknowledges (rows : List CustodyRow) (toNode fromNode msgId digest : String) (now : Int) :
    Bool → List CustodyRow → Prop
  | refused : Acknowledges rows toNode fromNode msgId digest now false rows
  | already {row : CustodyRow} (hrow : row ∈ rows) (hkey : row.key = (fromNode, msgId))
      (hstatus : row.status = .received) : Acknowledges rows toNode fromNode msgId digest now true rows
  | late {row : CustodyRow} (hrow : row ∈ rows) (hkey : row.key = (fromNode, msgId)) (hstatus : row.status = .pending)
      (hlate : row.expires_at ≤ now) :
      Acknowledges rows toNode fromNode msgId digest now false (finish rows row .expired)
  | releases {row : CustodyRow} (hrow : row ∈ rows) (hkey : row.key = (fromNode, msgId)) (hto : row.to_node = toNode)
      (hdigest : row.digest = digest) (hstatus : row.status = .pending) (hsoon : now < row.expires_at) :
      Acknowledges rows toNode fromNode msgId digest now true (finish rows row .received)

/-- Every receipt that answers is one of the four. -/
theorem acknowledge_ok {toNode fromNode msgId digest : String} {now : Int} {b : Bool}
    (h : acknowledge cfg rows toNode fromNode msgId digest now = .ok (b, rows')) :
    Acknowledges rows toNode fromNode msgId digest now b rows' := by
  unfold acknowledge at h
  split at h
  · simp only [bind_ok_iff] at h
    obtain ⟨found, hfound, h⟩ := h
    obtain rfl := find_ok hfound
    cases hlookup : Table.lookup CustodyRow.key (fromNode, msgId) rows with
    | none =>
      rw [hlookup] at h
      simp only [pure_ok_iff, Prod.mk.injEq] at h
      obtain ⟨rfl, rfl⟩ := h
      exact .refused
    | some row =>
      have hrow := Table.lookup_some_mem hlookup
      have hkey := Table.lookup_some_key hlookup
      rw [hlookup] at h
      dsimp only at h
      split at h
      · simp only [pure_ok_iff, Prod.mk.injEq] at h
        obtain ⟨rfl, rfl⟩ := h
        exact .refused
      · rename_i hmatch
        simp only [not_or, ne_eq, not_not] at hmatch
        obtain ⟨hto, hdigest, hne⟩ := hmatch
        split at h
        · rename_i hreceived
          simp only [pure_ok_iff, Prod.mk.injEq] at h
          obtain ⟨rfl, rfl⟩ := h
          exact .already hrow hkey hreceived
        · rename_i hnotReceived
          -- neither received nor expired: the row is pending, and the clock decides
          have hstatus : row.status = .pending := by
            cases hs : row.status with
            | pending => rfl
            | received => exact absurd hs hnotReceived
            | expired => exact absurd hs hne
          split at h
          · rename_i hlate
            simp only [pure_ok_iff, Prod.mk.injEq] at h
            obtain ⟨rfl, rfl⟩ := h
            exact .late hrow hkey hstatus hlate
          · rename_i hsoon
            simp only [pure_ok_iff, Prod.mk.injEq] at h
            obtain ⟨rfl, rfl⟩ := h
            exact .releases hrow hkey hto hdigest hstatus (not_le.mp hsoon)
  · simp only [Except.ok.injEq, Prod.mk.injEq] at h
    obtain ⟨rfl, rfl⟩ := h
    exact .refused

/-- Asking after an envelope changes nothing. -/
theorem outcome_ok {fromNode msgId : String} {found : Option CustodyRow}
    (h : outcome cfg rows fromNode msgId = .ok (found, rows')) : rows' = rows := by
  unfold outcome at h
  split at h
  · simp only [bind_ok_iff, pure_ok_iff, Prod.mk.injEq] at h
    obtain ⟨-, -, -, h⟩ := h
    exact h.symm
  · simp only [Except.ok.injEq, Prod.mk.injEq] at h
    exact h.2.symm

/-- Pruning deletes what is old, or does nothing. -/
theorem prune_ok {now : Int} {n : Nat} (h : prune cfg rows now = .ok (n, rows')) :
    rows' = rows ∨ ∃ retentionMs, cfg.retentionMs = some retentionMs ∧
      rows' = rows.filter fun row => !isOld (now - retentionMs) row := by
  unfold prune at h
  split at h
  · simp only [Except.ok.injEq, Prod.mk.injEq] at h
    exact Or.inl h.2.symm
  · rename_i retentionMs hretention
    split at h
    · simp only [bind_ok_iff, pure_ok_iff, Prod.mk.injEq] at h
      obtain ⟨-, -, -, rfl⟩ := h
      exact Or.inr ⟨retentionMs, hretention, rfl⟩
    · simp only [Except.ok.injEq, Prod.mk.injEq] at h
      exact Or.inl h.2.symm

/-- An offer keeps the table sound: the new row is readable, and its key was free. -/
theorem Offers.sound {now : Int} {r : OfferResult} (h : Offers cfg rows e now r rows') (hs : Sound cfg rows) :
    Sound cfg rows' := by
  cases h with
  | refused | known => exact hs
  | full => exact hs.expired now
  | @admits encoded hencode hnow hnew hlate hsoon _ =>
    obtain ⟨-, expires, -, hencoded⟩ := encode_eq.mp hencode
    have henvelope : encoded.envelope = e := by rw [hencoded]
    have hexpired := hs.expired now
    refine ⟨hexpired.keyed.append ?_, ?_⟩
    · -- an expired row keeps its key
      have hkeys : (expired now rows).map CustodyRow.key = rows.map CustodyRow.key := by
        unfold expired
        rw [List.map_map]
        refine List.map_congr_left fun row _ => ?_
        simp only [Function.comp]
        split <;> rfl
      have hkey : (admitted encoded now).key = (Env.fromNode e, Env.msgId e) := by
        rw [← henvelope]
        rfl
      rw [hkey, Table.lookup_none_iff]
      intro row hrow hsame
      have hmem : row.key ∈ rows.map CustodyRow.key := hkeys ▸ List.mem_map_of_mem hrow
      obtain ⟨old, hold, heq⟩ := List.mem_map.mp hmem
      exact Table.lookup_none_iff.mp hnew old hold (heq.trans hsame)
    · intro row hrow
      rcases List.mem_append.mp hrow with hrow | hrow
      · exact hexpired.loads row hrow
      · rw [List.mem_singleton.mp hrow]
        exact ⟨_, admitted_loads hencode hnow hlate hsoon⟩

/-- So does a receipt. -/
theorem Acknowledges.sound {toNode fromNode msgId digest : String} {now : Int} {b : Bool}
    (h : Acknowledges rows toNode fromNode msgId digest now b rows') (hs : Sound cfg rows) : Sound cfg rows' := by
  cases h with
  | refused | already => exact hs
  | late => exact hs.finish (by simp)
  | releases => exact hs.finish (by simp)

/-- What a call leaves in the table: nothing new where it is refused, else what its own kind of call does. -/
inductive Performs (cfg : CustodyConfig) (rows : List CustodyRow) : CustodyCall → List CustodyRow → Prop
  | unchanged {call : CustodyCall} : Performs cfg rows call rows
  | offered {e : Json} {now : Int} {r : OfferResult} {rows' : List CustodyRow} (h : Offers cfg rows e now r rows') :
      Performs cfg rows (.offer e now) rows'
  | swept {toNode : String} {now limit : Int} : Performs cfg rows (.pending toNode now limit) (expired now rows)
  | acknowledged {toNode fromNode msgId digest : String} {now : Int} {b : Bool} {rows' : List CustodyRow}
      (h : Acknowledges rows toNode fromNode msgId digest now b rows') :
      Performs cfg rows (.acknowledge toNode fromNode msgId digest now) rows'
  | pruned {now retentionMs : Int} (hretention : cfg.retentionMs = some retentionMs) :
      Performs cfg rows (.prune now) (rows.filter fun row => !isOld (now - retentionMs) row)

/-- Every call performs so. -/
theorem perform_performs (call : CustodyCall) : Performs cfg rows call (Custody.perform cfg rows call) := by
  cases call with
  | offer e now =>
    unfold Custody.perform
    dsimp only
    split
    · rename_i hoffer
      exact .offered (offer_ok hoffer)
    · exact .unchanged
  | pending toNode now limit =>
    unfold Custody.perform
    dsimp only
    split
    · rename_i hpending
      rcases pending_ok hpending with ⟨-, rfl⟩ | ⟨-, rfl, -⟩
      · exact .unchanged
      · exact .swept
    · exact .unchanged
  | acknowledge toNode fromNode msgId digest now =>
    unfold Custody.perform
    dsimp only
    split
    · rename_i hacknowledge
      exact .acknowledged (acknowledge_ok hacknowledge)
    · exact .unchanged
  | outcome fromNode msgId =>
    unfold Custody.perform
    dsimp only
    split
    · rename_i houtcome
      obtain rfl := outcome_ok houtcome
      exact .unchanged
    · exact .unchanged
  | prune now =>
    unfold Custody.perform
    dsimp only
    split
    · rename_i hprune
      rcases prune_ok hprune with rfl | ⟨retentionMs, hretention, rfl⟩
      · exact .unchanged
      · exact .pruned hretention
    · exact .unchanged

/-- **Every call keeps the table sound.** -/
theorem Sound.perform (h : Sound cfg rows) (call : CustodyCall) : Sound cfg (Custody.perform cfg rows call) := by
  have hperforms := @perform_performs cfg rows call
  generalize Custody.perform cfg rows call = rows' at hperforms ⊢
  cases hperforms with
  | unchanged => exact h
  | offered hoffers => exact hoffers.sound h
  | swept => exact h.expired _
  | acknowledged hacknowledges => exact hacknowledges.sound h
  | pruned hretention => exact h.filter _

end

end Custody
end Gateway
end Qlong
