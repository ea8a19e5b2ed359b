import Qlong.Migrate.Inspect

/-!
# Importing

`packages/cli/src/migrate/import.ts`, with `insertImportLedger` of `import-ledger.ts`. The inventory
decides what is taken; the sources are read once more for what it does not carry, the credentials and the
envelopes; and one transaction writes users, custody and ledger. Whatever throws leaves the database as
it was.
-/

namespace Qlong
namespace Migrate

open Lib Auth Gateway Node

/-! ## The database -/

/-- A row of `import_ledger`. -/
structure ImportLedgerEntry where
  source_sha256 : String
  kind : SourceKind
  imported_at : String
  migratable : Nat
  blocked : Nat
  non_migratable : Nat
  invalid : Nat
deriving DecidableEq

/-- The tables of a center that a migration reads or writes; the nodes stand as their records are read. -/
structure CenterTables where
  path : String
  schemaId : String
  version : Int
  auth : AuthTables
  custody : List CustodyRow
  ledger : List ImportLedgerEntry
  nodes : List TargetNode
deriving DecidableEq

inductive ImportError where
  | range (message : String)
  | failed (message : String)
  /-- The error of the database, or of a store over it. -/
  | storage
deriving DecidableEq, Repr

/-- An array has fewer than 2^32 elements. -/
def arrayLimit : Nat := 4294967295

/-- What a snapshot of the tables shows; a text column answers its text up to the first NUL. -/
def targetSnapshot (db : CenterTables) : TargetSnapshot where
  path := db.path
  schemaId := db.schemaId
  version := db.version
  initialized := db.auth.initialized
  users := db.auth.users.map fun u =>
    ⟨columnText u.username, u.role, columnText u.salt, columnText u.hash, columnText u.created_at⟩
  custody := db.custody.map fun c => ⟨columnText c.from_node, columnText c.msg_id, columnText c.digest⟩
  nodes := db.nodes

/-- `readTargetSnapshot(path)`: the rows come as arrays. -/
def readTargetSnapshot (db : CenterTables) : Except ImportError TargetSnapshot := do
  require (db.auth.users.length ≤ arrayLimit && db.custody.length ≤ arrayLimit) .storage
  return targetSnapshot db

/-- `insertImportLedger(db, entry)`. -/
def insertImportLedger (rows : List ImportLedgerEntry) (entry : ImportLedgerEntry) :
    Except ImportError (List ImportLedgerEntry) := do
  -- the check of the digest, and the primary key
  require (isDigest entry.source_sha256 &&
    !(rows.any fun r => r.kind = entry.kind && r.source_sha256 = entry.source_sha256)) .storage
  return rows ++ [entry]

/-! ## What is taken from the sources -/

/-- `extractUsers(sources, inventory)`. -/
def extractUsers (host : MigrateHost) (sources : MigrationSources) (inventory : Inventory) :
    Except ImportError (List UserRecord) :=
  match sources.usersJson with
  | none => .ok []
  | some src => do
    let toInsert := (inventory.users.records.filter fun f => f.isReady).filterMap UserFinding.username
    if toInsert.isEmpty then return []
    else
      match host.parse (host.utf8 src.bytes) with
      | none => throw (.failed "migration source users.json became unreadable during import")
      | some (.arr items) =>
        let (out, left) ← (userReading host).reclaim (fun _ (_ : PUnit) => .ok ⟨⟩) (toInsert.map fun name => (name, ⟨⟩)) items
        require left.isEmpty (.failed "user import extraction mismatch; refusing partial import")
        return out
      | some _ => throw (.failed "migration source users.json is not an array during import")

/-- The independent check of an envelope against the digest of the inventory. -/
def checkEnvelope (host : MigrateHost) (nodes : List TargetNode) (entry : String × Json) (expected : String) :
    Except ImportError PUnit := do
  require (host.digest entry.2 = expected) (.failed "mailbox import digest mismatch; refusing partial import")
  match lookupNodeKey nodes (Env.fromNode entry.2) (keyEpoch entry.2) with
  | .error _ => throw (.failed "mailbox import signer key unavailable; refusing partial import")
  | .ok pubkey =>
    require (verifyEnvelopeSig host entry.2 pubkey).isNone
      (.failed "mailbox import signature verification failed; refusing partial import")

/-- The entry of `toStore` that a finding makes. -/
def wantedEntry (f : MailboxFinding) : Option ((String × String) × String) := do
  return ((← f.from_node, ← f.msg_id), ← f.digest)

/-- `extractEnvelopes(sources, inventory, nodes)`. -/
def extractEnvelopes (host : MigrateHost) (sources : MigrationSources) (inventory : Inventory) (nodes : List TargetNode) :
    Except ImportError (List Json) :=
  match sources.mailbox with
  | none => .ok []
  | some src => do
    let toStore := (inventory.mailbox.entries.filter fun f => f.isReady).filterMap wantedEntry
    if toStore.isEmpty then return []
    else
      match host.parse (host.utf8 src.bytes) with
      | none => throw (.failed "migration source mailbox became unreadable during import")
      | some file =>
        let (out, left) ← (entryReading host).reclaim (checkEnvelope host nodes) toStore (entriesOf file)
        require left.isEmpty (.failed "mailbox import extraction mismatch; refusing partial import")
        return out.map Prod.snd

/-! ## The transaction -/

/-- `CustodyLimits`, as the options of the custody store are checked. -/
structure CustodyLimits where
  maxEntries : Int
  maxBytes : Int
  perNodeEntries : Int
  maxEntries_ok : Json.isPositive maxEntries = true
  maxBytes_ok : Json.isPositive maxBytes = true
  perNodeEntries_ok : Json.isPositive perNodeEntries = true

/-- `DEFAULT_LIMITS`. -/
def defaultLimits : CustodyLimits := ⟨10000, 64 * 1024 * 1024, 1000, Sample.entries_ok, Sample.bytes_ok, Sample.perNode_ok⟩

def CustodyLimits.config (limits : CustodyLimits) (host : MigrateHost) : CustodyConfig :=
  ⟨host.toHost, limits.maxEntries, limits.maxBytes, limits.perNodeEntries, none, limits.maxEntries_ok, limits.maxBytes_ok,
    limits.perNodeEntries_ok⟩

structure ImportReport where
  targetPath : String
  idempotent : Bool
  usersInserted : Nat
  mailboxStored : Nat
  ledger : List ImportLedgerEntry
deriving DecidableEq

/-- `ledgerCounts(kind, inventory)`, in the row it is written to. -/
def ledgerEntry (importedAt : String) (inventory : Inventory) (ref : SourceRef) : ImportLedgerEntry :=
  let row (c : Counts) : ImportLedgerEntry :=
    ⟨ref.sha256, ref.kind, importedAt, c.migratable, c.blocked, c.non_migratable, c.invalid⟩
  match ref.kind with
  | .users => row inventory.users.counts
  | .mailbox => row inventory.mailbox.counts
  | .initialized => row (tally [if inventory.initialized.valid then .migratable else .invalid])

def insertUser (users : List UserRecord) (rec : UserRecord) : Except ImportError (List UserRecord) := do
  require (!(users.any fun u => u.username = rec.username)) .storage
  return users ++ [rec]

/-- The text of an offer that was not stored. -/
def OfferResult.text : OfferResult → String
  | .stored => "stored"
  | .full => "full"
  | .conflict => "conflict"
  | .expired => "expired"
  | .invalid => "invalid"

def storeEnvelope (cfg : CustodyConfig) (now : Int) (rows : List CustodyRow) (env : Json) : Except ImportError (List CustodyRow) :=
  match Custody.encode cfg.host env with
  | none => .error (.failed "mailbox envelope unencodable during import; refusing partial import")
  | some encoded =>
    match Custody.offerInTransaction cfg rows encoded now with
    | .error _ => .error .storage
    | .ok (.stored, rows) => .ok rows
    | .ok (offered, _) =>
      .error (.failed ("mailbox custody offer rejected (" ++ OfferResult.text offered ++
        ") during import; refusing partial import"))

/-- The users are in, and counted. -/
def withUsers (auth : AuthTables) (users : List UserRecord) (all : List UserRecord) : AuthTables :=
  if users.isEmpty then { auth with users := all }
  else { auth with users := all, user_count := auth.user_count + users.length, initialized := true }

/-- The digests that the ledger has already. -/
def existing (db : CenterTables) : List (SourceKind × String) := db.ledger.map fun r => (r.kind, columnText r.source_sha256)

/-- What is committed. -/
def importTransaction (host : MigrateHost) (limits : CustodyLimits) (now : Int) (inventory : Inventory)
    (users : List UserRecord) (envelopes : List Json) (db : CenterTables) : Except ImportError (ImportReport × CenterTables) := do
  let pending := inventory.sources.filter fun ref => (ref.kind, ref.sha256) ∉ existing db
  if pending.isEmpty then return (⟨db.path, true, 0, 0, []⟩, db)
  else
    let all ← foldSteps insertUser db.auth.users users
    let custody ← foldSteps (storeEnvelope (limits.config host) now) db.custody envelopes
    let entries := pending.map (ledgerEntry (host.toISOString now) inventory)
    let ledger ← foldSteps insertImportLedger db.ledger entries
    return (⟨db.path, false, users.length, envelopes.length, entries⟩,
      { db with auth := withUsers db.auth users all, custody, ledger })

/-- The records that collide. -/
def Inventory.conflicts (inventory : Inventory) : Nat := inventory.users.counts.conflict + inventory.mailbox.counts.conflict

/-- `importMigration(sources, options)`: the new tables, or an error and the old ones. -/
def importMigration (host : MigrateHost) (limits : CustodyLimits) (sources : MigrationSources) (now : Int) (db : CenterTables) :
    Except ImportError (ImportReport × CenterTables) := do
  require (validTime now) (.range "import clock must be a finite safe time")
  let snapshot ← readTargetSnapshot db
  let inventory := inspectMigration host sources snapshot now
  require (inventory.conflicts = 0) (.failed ("migration conflict: " ++ toString inventory.conflicts ++
    " source record(s) collide with different target content; refusing to import"))
  let users ← extractUsers host sources inventory
  let envelopes ← extractEnvelopes host sources inventory snapshot.nodes
  importTransaction host limits now inventory users envelopes db

/-! ## What is taken is what is ready -/

section

variable {host : MigrateHost} {limits : CustodyLimits} {sources : MigrationSources} {target : TargetSnapshot} {now : Int}

theorem extractUsers_eq : extractUsers host sources (inspectMigration host sources target now) =
    .ok ((readyUsers host sources target).map Prod.snd) := by
  have hwant : ((inspectMigration host sources target now).users.records.filter fun f => f.isReady).filterMap
      UserFinding.username = (readyUsers host sources target).map fun c => c.2.username := by
    rw [users_ready, List.filterMap_map, ← List.filterMap_eq_map]
    rfl
  unfold extractUsers
  rw [hwant]
  cases hsrc : sources.usersJson with
  | none =>
    unfold readyUsers userRecords
    rw [hsrc]
    rfl
  | some src =>
    dsimp only
    split
    · rename_i hempty
      rw [List.isEmpty_iff, List.map_eq_nil_iff] at hempty
      rw [hempty]
      rfl
    · rename_i hsome
      have hrecords : userRecords host sources.usersJson = ((host.parse (host.utf8 src.bytes)).bind Json.asArr).getD [] := by
        rw [hsrc]
        rfl
      have hready : readyUsers host sources target ≠ [] := fun hnone => hsome (by rw [hnone]; rfl)
      unfold readyUsers at hready ⊢
      rw [hrecords] at hready ⊢
      cases hparse : host.parse (host.utf8 src.bytes) with
      | none => exact absurd (by rw [hparse]; rfl) hready
      | some file =>
        cases file with
        | arr items =>
          dsimp only [Option.bind_some, Json.asArr, Option.getD_some]
          rw [List.map_map]
          have hback := @Reading.reclaim_chosen _ _ PUnit _ ImportError _ (userReading host)
            (fun rec => (targetUser target rec.username).isNone) [] items (fun _ _ => .ok ⟨⟩) (fun _ => ⟨⟩) fun _ _ => rfl
          exact bind_ok_iff.mpr ⟨_, hback, rfl⟩
        | null | bool | num | str | obj => exact absurd (by rw [hparse]; rfl) hready

theorem extractEnvelopes_eq : extractEnvelopes host sources (inspectMigration host sources target now) target.nodes =
    .ok ((readyEntries host sources target now).map fun c => c.2.2) := by
  have hwant : ((inspectMigration host sources target now).mailbox.entries.filter fun f => f.isReady).filterMap wantedEntry =
      (readyEntries host sources target now).map fun c => (envelopeKey c.2.2, host.digest c.2.2) := by
    rw [mailbox_ready, List.filterMap_map, ← List.filterMap_eq_map]
    rfl
  unfold extractEnvelopes
  rw [hwant]
  cases hsrc : sources.mailbox with
  | none =>
    unfold readyEntries mailboxEntries
    rw [hsrc]
    rfl
  | some src =>
    dsimp only
    split
    · rename_i hempty
      rw [List.isEmpty_iff, List.map_eq_nil_iff] at hempty
      rw [hempty]
      rfl
    · rename_i hsome
      have hready : readyEntries host sources target now ≠ [] := fun hnone => hsome (by rw [hnone]; rfl)
      have hentries : mailboxEntries host sources.mailbox =
          ((host.parse (host.utf8 src.bytes)).filter fun file => (mailboxError file).isNone).elim [] entriesOf := by
        rw [hsrc]
        rfl
      unfold readyEntries at hready ⊢
      rw [hentries] at hready ⊢
      cases hparse : host.parse (host.utf8 src.bytes) with
      | none => exact absurd (by rw [hparse]; rfl) hready
      | some file =>
        cases herror : mailboxError file with
        | some error =>
          refine absurd ?_ hready
          rw [hparse, Option.filter_some_neg (by simp [herror])]
          rfl
        | none =>
          rw [Option.filter_some_pos (by simp [herror])]
          dsimp only [Option.elim_some]
          -- reading the ready keys back from the file gives the very envelopes that were found ready
          have hback := @Reading.reclaim_chosen _ _ String _ ImportError _ (entryReading host)
            (fun entry => (verdict host target now entry.2).isReady) [] (entriesOf file) (checkEnvelope host target.nodes)
            (fun entry => host.digest entry.2) fun entry hgood => by
              obtain ⟨-, ⟨pubkey, hkey, hsig⟩, -⟩ := verdict_ready hgood
              unfold checkEnvelope
              rw [hkey]
              dsimp only
              rw [hsig]
              simp [require, bind, Except.bind]
          refine bind_ok_iff.mpr ⟨_, hback, ?_⟩
          rw [List.map_map]
          rfl

/-! ## What the transaction does -/

variable {cfg : CustodyConfig} {db db' : CenterTables} {report : ImportReport} {all users more : List UserRecord}
  {rows rows' : List CustodyRow} {envs : List Json} {env : Json}

/-- **Users are inserted** when their names are new, among the rows and among each other. -/
theorem insertUsers_ok : foldSteps insertUser users more = .ok all ↔
    (∀ rec ∈ more, ∀ u ∈ users, u.username ≠ rec.username) ∧ (more.map UserRecord.username).Nodup ∧ all = users ++ more := by
  induction more generalizing users with
  | nil =>
    simp only [foldSteps, Except.ok.injEq, List.not_mem_nil, false_implies, implies_true, List.map_nil, List.nodup_nil, true_and,
      List.append_nil]
    exact eq_comm
  | cons rec rest ih =>
    simp only [foldSteps, insertUser, bind_ok_iff, require_ok_iff, pure_ok_iff, ih, exists_const, Bool.not_eq_true',
      List.any_eq_false, decide_eq_true_eq, List.map_cons, List.nodup_cons, List.mem_map, not_exists, not_and]
    constructor
    · rintro ⟨_, ⟨hfirst, rfl⟩, hnew, hnodup, rfl⟩
      refine ⟨fun other hother u hu => ?_, ⟨fun other hother => ?_, hnodup⟩, List.append_assoc ..⟩
      · rcases List.mem_cons.mp hother with rfl | hother
        · exact hfirst u hu
        · exact hnew other hother u (List.mem_append_left _ hu)
      · exact fun hsame => hnew other hother rec (List.mem_append_right _ List.mem_cons_self) hsame.symm
    · rintro ⟨hnew, ⟨hfresh, hnodup⟩, rfl⟩
      refine ⟨users ++ [rec], ⟨hnew rec List.mem_cons_self, rfl⟩, fun other hother u hu => ?_, hnodup,
        (List.append_assoc users [rec] rest).symm⟩
      rcases List.mem_append.mp hu with hu | hu
      · exact hnew other (List.mem_cons_of_mem _ hother) u hu
      · rw [List.mem_singleton.mp hu]
        exact fun hsame => hfresh other hother hsame.symm

/-- The row that an envelope is stored in. -/
def storedRow (host : Host) (now : Int) (env : Json) : Option CustodyRow :=
  (Custody.encode host env).map fun encoded => Custody.admitted encoded now

/-- The custody rows once these envelopes are in: those that were due have expired, if there was one to store. -/
def withEnvelopes (host : Host) (now : Int) (rows : List CustodyRow) (envs : List Json) : List CustodyRow :=
  if envs.isEmpty then rows else Custody.expired now rows ++ envs.filterMap (storedRow host now)

/-- What is not due is not touched. -/
theorem expired_of_none_due (h : ∀ row ∈ rows, Custody.isDue now row = false) : Custody.expired now rows = rows := by
  unfold Custody.expired
  conv_rhs => rw [← List.map_id rows]
  refine List.map_congr_left fun row hrow => ?_
  rw [if_neg (by simp [h row hrow])]
  rfl

theorem none_due_expired : ∀ row ∈ Custody.expired now rows, Custody.isDue now row = false := by
  intro row hrow
  by_contra hdue
  simp only [Custody.isDue, Bool.not_eq_false, Bool.and_eq_true, decide_eq_true_eq] at hdue
  have hlate := (Custody.expired_pending hrow hdue.1).2
  omega

/-- Rows in which nothing is due any more, and one that is stored now. -/
theorem none_due_admitted {encoded : Encoded} (hlate : now < encoded.expires) :
    ∀ row ∈ Custody.expired now rows ++ [Custody.admitted encoded now], Custody.isDue now row = false := by
  intro row hrow
  rcases List.mem_append.mp hrow with hrow | hrow
  · exact none_due_expired row hrow
  · rw [List.mem_singleton.mp hrow, Custody.isDue, Bool.and_eq_false_iff]
    refine Or.inr (decide_eq_false ?_)
    show ¬ encoded.expires ≤ now
    omega

theorem keys_expired : (Custody.expired now rows).map CustodyRow.key = rows.map CustodyRow.key := by
  unfold Custody.expired
  rw [List.map_map]
  refine List.map_congr_left fun row _ => ?_
  simp only [Function.comp]
  split <;> rfl

/-- The rows that are due can be read. -/
def DueReadable (cfg : CustodyConfig) (now : Int) (rows : List CustodyRow) : Prop :=
  ∀ row ∈ rows, Custody.isDue now row = true → ∃ r, Custody.load cfg.host row = .ok r

theorem expire_iff : Custody.expire cfg rows now = .ok rows' ↔ DueReadable cfg now rows ∧ rows' = Custody.expired now rows := by
  constructor
  · intro h
    refine ⟨fun row hrow hdue => ?_, Custody.expire_eq h⟩
    simp only [Custody.expire, bind_ok_iff] at h
    obtain ⟨u, hu, -⟩ := h
    have hone := forM_inv hu row (List.mem_filter.mpr ⟨hrow, hdue⟩)
    obtain ⟨r, hr, -⟩ := bind_ok_iff.mp hone
    exact ⟨r, hr⟩
  · rintro ⟨hdue, rfl⟩
    unfold Custody.expire
    rw [forM_ok]
    · rfl
    · intro row hrow
      obtain ⟨hmem, hrowDue⟩ := List.mem_filter.mp hrow
      obtain ⟨r, hr⟩ := hdue row hmem hrowDue
      rw [hr]
      rfl

theorem totalBytes_nonneg : 0 ≤ Custody.totalBytes rows := by
  induction rows with
  | nil => exact Int.le_refl 0
  | cons row rest ih =>
    unfold Custody.totalBytes at ih ⊢
    rw [List.map_cons, List.sum_cons]
    omega

/-- What fits within the limits is counted safely. -/
theorem counted_of_fits {encoded : Encoded} (h : Custody.Fits cfg rows encoded) :
    (Json.isSafe (rows.length : Int) && Json.isSafe (Custody.totalBytes rows) &&
      Json.isSafe ((rows.filter (Custody.isFor (Env.toNode encoded.envelope))).length : Int)) = true := by
  have hentries := (Json.isPositive_iff.mp cfg.maxEntries_ok).2
  have hbytes := (Json.isPositive_iff.mp cfg.maxBytes_ok).2
  have hrecipient := (Json.isPositive_iff.mp cfg.perNodeEntries_ok).2
  have htotal := @totalBytes_nonneg rows
  have hmax : 0 ≤ Json.maxSafe := by decide
  obtain ⟨h1, h2, h3⟩ := h
  simp only [Bool.and_eq_true, Json.isSafe_iff]
  exact ⟨⟨⟨by omega, by omega⟩, by omega, by omega⟩, by omega, by omega⟩

/-- **The offer of a new envelope.** -/
theorem offer_new {encoded : Encoded} (habsent : envelopeKey encoded.envelope ∉ rows.map CustodyRow.key) :
    Custody.offerInTransaction cfg rows encoded now = .ok (.stored, rows') ↔
      (now < encoded.expires ∧ encoded.expires - now ≤ maxTransportLifetimeMs) ∧ DueReadable cfg now rows ∧
      Custody.Fits cfg (Custody.expired now rows) encoded ∧
      rows' = Custody.expired now rows ++ [Custody.admitted encoded now] := by
  have hnew : Table.lookup CustodyRow.key (Env.fromNode encoded.envelope, Env.msgId encoded.envelope) rows = none :=
    Table.lookup_none_iff.mpr fun row hrow hkey => habsent (List.mem_map.mpr ⟨row, hrow, hkey⟩)
  unfold Custody.offerInTransaction Custody.find
  rw [hnew]
  simp only [bind_ok_iff, Except.ok.injEq, exists_eq_left']
  constructor
  · intro h
    split at h
    · rw [pure_ok_iff, Prod.mk.injEq] at h
      exact absurd h.1 (by simp)
    · rename_i hlate
      split at h
      · rw [pure_ok_iff, Prod.mk.injEq] at h
        exact absurd h.1 (by simp)
      · rename_i hsoon
        simp only [bind_ok_iff, expire_iff] at h
        obtain ⟨middle, ⟨hdue, rfl⟩, -, -, h⟩ := h
        split at h
        · rw [pure_ok_iff, Prod.mk.injEq] at h
          exact absurd h.1 (by simp)
        · rename_i hroom
          rw [pure_ok_iff, Prod.mk.injEq] at h
          rw [not_or, not_or] at hroom
          obtain ⟨hentries, hbytes, hrecipient⟩ := hroom
          exact ⟨⟨by omega, by omega⟩, hdue, ⟨by omega, by omega, by omega⟩, h.2.symm⟩
  · rintro ⟨⟨hlate, hsoon⟩, hdue, hfits, rfl⟩
    rw [if_neg (by omega), if_neg (by omega)]
    refine bind_ok_iff.mpr ⟨_, expire_iff.mpr ⟨hdue, rfl⟩, ?_⟩
    refine bind_ok_iff.mpr ⟨⟨⟩, Custody.requireValid_ok.mpr (counted_of_fits hfits), ?_⟩
    obtain ⟨hentries, hbytes, hrecipient⟩ := hfits
    rw [if_neg (by omega)]
    rfl

/-- **A new envelope is appended**, and what is due expires. -/
theorem storeEnvelope_new (habsent : envelopeKey env ∉ rows.map CustodyRow.key) :
    storeEnvelope cfg now rows env = .ok rows' ↔ ∃ encoded, Custody.encode cfg.host env = some encoded ∧
      (now < encoded.expires ∧ encoded.expires - now ≤ maxTransportLifetimeMs) ∧ DueReadable cfg now rows ∧
      Custody.Fits cfg (Custody.expired now rows) encoded ∧
      rows' = Custody.expired now rows ++ [Custody.admitted encoded now] := by
  unfold storeEnvelope
  cases hencode : Custody.encode cfg.host env with
  | none => simp
  | some encoded =>
    obtain ⟨-, expires, -, hencoded⟩ := Custody.encode_eq.mp hencode
    have henvelope : encoded.envelope = env := by rw [hencoded]
    rw [← henvelope] at habsent
    have hoffer := @offer_new now cfg rows rows' encoded habsent
    simp only [Option.some.injEq, exists_eq_left']
    rw [← hoffer]
    cases Custody.offerInTransaction cfg rows encoded now with
    | error e => simp
    | ok r =>
      obtain ⟨offered, after⟩ := r
      cases offered <;> simp

/-- The key of the row that an envelope is stored in. -/
theorem key_admitted {encoded : Encoded} (h : Custody.encode cfg.host env = some encoded) :
    (Custody.admitted encoded now).key = envelopeKey env := by
  obtain ⟨-, expires, -, rfl⟩ := Custody.encode_eq.mp h
  rfl

/-- The keys of envelopes still to come are not those of the rows once the first is in. -/
theorem absent_later {encoded : Encoded} {rest : List Json} (hencode : Custody.encode cfg.host env = some encoded)
    (habsent : ∀ e ∈ env :: rest, envelopeKey e ∉ rows.map CustodyRow.key) (hnodup : ((env :: rest).map envelopeKey).Nodup) :
    ∀ e ∈ rest, envelopeKey e ∉ (Custody.expired now rows ++ [Custody.admitted encoded now]).map CustodyRow.key := by
  intro e he hmem
  rw [List.map_cons, List.nodup_cons] at hnodup
  rw [List.map_append, keys_expired, List.map_singleton, key_admitted hencode, List.mem_append, List.mem_singleton] at hmem
  rcases hmem with hold | hsame
  · exact habsent e (List.mem_cons_of_mem _ he) hold
  · exact hnodup.1 (hsame ▸ List.mem_map_of_mem he)

/-- **Envelopes that are new are stored**, one after another. -/
theorem storeEnvelopes_ok (hnow : validTime now = true) (habsent : ∀ env ∈ envs, envelopeKey env ∉ rows.map CustodyRow.key)
    (hnodup : (envs.map envelopeKey).Nodup) (h : foldSteps (storeEnvelope cfg now) rows envs = .ok rows') :
    ((∀ env ∈ envs, (Custody.encode cfg.host env).isSome = true) ∧ (envs = [] ∨ DueReadable cfg now rows)) ∧
      rows' = withEnvelopes cfg.host now rows envs ∧ (Custody.Sound cfg rows → Custody.Sound cfg rows') := by
  -- each stored envelope leaves the next ones new, and sweeps nothing more
  induction envs generalizing rows with
  | nil =>
    simp only [foldSteps, Except.ok.injEq] at h
    exact ⟨⟨fun _ henv => absurd henv List.not_mem_nil, Or.inl rfl⟩, h.symm, fun hs => h ▸ hs⟩
  | cons env rest ih =>
    simp only [foldSteps, bind_ok_iff] at h
    obtain ⟨middle, hfirst, hrest⟩ := h
    have hfresh := habsent env List.mem_cons_self
    obtain ⟨encoded, hencode, ⟨hlate, hsoon⟩, hdue, hfits, rfl⟩ := (storeEnvelope_new hfresh).mp hfirst
    have hlater := @absent_later now cfg rows env encoded rest hencode habsent hnodup
    obtain ⟨⟨hencodes, -⟩, hrows, hsound⟩ := ih hlater (List.nodup_cons.mp hnodup).2 hrest
    refine ⟨⟨fun other hother => ?_, Or.inr hdue⟩, ?_, fun hs => hsound ?_⟩
    · rcases List.mem_cons.mp hother with rfl | hother
      · rw [hencode]
        rfl
      · exact hencodes other hother
    · have hrow : storedRow cfg.host now env = some (Custody.admitted encoded now) := by
        unfold storedRow
        rw [hencode]
        rfl
      rw [hrows]
      unfold withEnvelopes
      rw [expired_of_none_due (none_due_admitted hlate), List.isEmpty_cons, if_neg Bool.false_ne_true,
        List.filterMap_cons_some hrow]
      cases rest with
      | nil => rfl
      | cons other rest =>
        rw [List.isEmpty_cons, if_neg Bool.false_ne_true, List.append_assoc]
        rfl
    · have hnew : Table.lookup CustodyRow.key (envelopeKey env) rows = none :=
        Table.lookup_none_iff.mpr fun row hrow hkey => hfresh (List.mem_map.mpr ⟨row, hrow, hkey⟩)
      exact (Custody.Offers.admits hencode hnow hnew hlate hsoon hfits).sound hs

theorem insertLedger_ok {rows rows' entries : List ImportLedgerEntry} (h : foldSteps insertImportLedger rows entries = .ok rows') :
    rows' = rows ++ entries := by
  induction entries generalizing rows with
  | nil =>
    simp only [foldSteps, Except.ok.injEq] at h
    rw [← h, List.append_nil]
  | cons entry rest ih =>
    simp only [foldSteps, insertImportLedger, bind_ok_iff, pure_ok_iff] at h
    obtain ⟨middle, ⟨-, -, rfl⟩, hrest⟩ := h
    rw [ih hrest, List.append_assoc]
    rfl

/-! ## What an import does -/

/-- The users that an import of these sources inserts. -/
def importedUsers (host : MigrateHost) (sources : MigrationSources) (db : CenterTables) : List UserRecord :=
  (readyUsers host sources (targetSnapshot db)).map Prod.snd

/-- The envelopes that an import of these sources stores. -/
def importedEnvelopes (host : MigrateHost) (sources : MigrationSources) (now : Int) (db : CenterTables) : List Json :=
  (readyEntries host sources (targetSnapshot db) now).map fun c => c.2.2

/-- The ledger has the digest of this source. -/
def Ledgered (host : MigrateHost) (db : CenterTables) (source : SourceKind × FileSource) : Prop :=
  (source.1, host.sha256Bytes source.2.bytes) ∈ existing db

/-- The rows of the ledger that an import of these sources writes. -/
def newEntries (host : MigrateHost) (sources : MigrationSources) (now : Int) (db : CenterTables) : List ImportLedgerEntry :=
  let inventory := inspectMigration host sources (targetSnapshot db) now
  (inventory.sources.filter fun ref => (ref.kind, ref.sha256) ∉ existing db).map (ledgerEntry (host.toISOString now) inventory)

/-- What an import leaves that is not one over again. -/
structure Commits (host : MigrateHost) (sources : MigrationSources) (now : Int) (db : CenterTables) (report : ImportReport)
    (db' : CenterTables) : Prop where
  auth : db'.auth = withUsers db.auth (importedUsers host sources db) (db.auth.users ++ importedUsers host sources db)
  custody : db'.custody = withEnvelopes host.toHost now db.custody (importedEnvelopes host sources now db)
  ledger : db'.ledger = db.ledger ++ newEntries host sources now db
  nodes : db'.nodes = db.nodes
  report : report = ⟨db.path, false, (importedUsers host sources db).length, (importedEnvelopes host sources now db).length,
    newEntries host sources now db⟩

theorem import_iff : importMigration host limits sources now db = .ok (report, db') ↔
    validTime now = true ∧ (db.auth.users.length ≤ arrayLimit ∧ db.custody.length ≤ arrayLimit) ∧
    (inspectMigration host sources (targetSnapshot db) now).conflicts = 0 ∧
    importTransaction host limits now (inspectMigration host sources (targetSnapshot db) now) (importedUsers host sources db)
      (importedEnvelopes host sources now db) db = .ok (report, db') := by
  have hsnapshot : (targetSnapshot db).nodes = db.nodes := rfl
  simp only [importMigration, readTargetSnapshot, bind_ok_iff, require_ok_iff, pure_ok_iff, exists_const, Bool.and_eq_true,
    decide_eq_true_eq]
  constructor
  · rintro ⟨hnow, _, ⟨hroom, rfl⟩, hfree, users, husers, envelopes, henvelopes, htransaction⟩
    rw [extractUsers_eq] at husers
    rw [extractEnvelopes_eq] at henvelopes
    obtain rfl := Except.ok.inj husers
    obtain rfl := Except.ok.inj henvelopes
    exact ⟨hnow, hroom, hfree, htransaction⟩
  · rintro ⟨hnow, hroom, hfree, htransaction⟩
    exact ⟨hnow, _, ⟨hroom, rfl⟩, hfree, _, extractUsers_eq, _, extractEnvelopes_eq, htransaction⟩

/-- Nothing of these sources is new to the ledger. -/
theorem none_pending_iff : ((inspectMigration host sources target now).sources.filter fun ref =>
    (ref.kind, ref.sha256) ∉ existing db).isEmpty = true ↔ ∀ source ∈ sources.files, Ledgered host db source := by
  rw [List.isEmpty_iff, List.filter_eq_nil_iff]
  show (∀ ref ∈ sources.files.map _, _) ↔ _
  rw [List.forall_mem_map]
  simp only [decide_eq_true_eq, not_not]
  rfl

/-- The envelopes that are ready were admitted. -/
theorem imported_wellFormed (henv : env ∈ importedEnvelopes host sources now db) : WellFormed host.toHost defaultParams false env := by
  obtain ⟨c, hc, rfl⟩ := List.mem_map.mp henv
  obtain ⟨-, hread, -⟩ := Reading.mem_chosen hc
  simp only [entryReading, Option.bind_eq_some_iff, Option.ite_none_right_eq_some, Option.some.injEq] at hread
  obtain ⟨e, -, hvalid, heq⟩ := hread
  rw [← heq]
  exact validateEnvelope_ok_iff.mp (List.isEmpty_iff.mp hvalid)

/-- What is stored of an identity is not imported again. -/
theorem imported_absent (henv : env ∈ importedEnvelopes host sources now db) : envelopeKey env ∉ db.custody.map CustodyRow.key := by
  have hwf := imported_wellFormed henv
  obtain ⟨c, hc, rfl⟩ := List.mem_map.mp henv
  obtain ⟨hnone, -⟩ := verdict_ready (Reading.mem_chosen hc).2.2.1
  intro hmem
  obtain ⟨row, hrow, hkey⟩ := List.mem_map.mp hmem
  unfold CustodyRow.key envelopeKey at hkey
  obtain ⟨hfrom, hmsg⟩ := Prod.mk.inj hkey
  -- a uuid is shown as it is stored
  have hshown : (columnText row.from_node, columnText row.msg_id) = envelopeKey c.2.2 := by
    rw [hfrom, hmsg, columnText_of_noNul (noNul_of_isUuid hwf.fromNode_uuid), columnText_of_noNul (noNul_of_isUuid hwf.msgId_uuid)]
    rfl
  unfold targetDigest at hnone
  rw [Option.map_eq_none_iff, List.find?_eq_none] at hnone
  refine hnone ⟨columnText row.from_node, columnText row.msg_id, columnText row.digest⟩ ?_ (decide_eq_true hshown)
  rw [List.mem_reverse]
  exact List.mem_map.mpr ⟨row, hrow, rfl⟩

theorem imported_keys : ((importedEnvelopes host sources now db).map envelopeKey).Nodup := by
  unfold importedEnvelopes
  rw [List.map_map]
  exact @Reading.nodup_chosen _ _ _ _ (entryReading host) _ _ _

/-- A user of the name of a row is not imported, as the row is read. -/
theorem imported_new {rec : UserRecord} (hrec : rec ∈ importedUsers host sources db) :
    ∀ u ∈ db.auth.users, columnText u.username ≠ rec.username := by
  obtain ⟨c, hc, rfl⟩ := List.mem_map.mp hrec
  have hnone := (Reading.mem_chosen hc).2.2.1
  unfold targetUser at hnone
  rw [Option.isNone_iff_eq_none, List.find?_eq_none] at hnone
  intro u hu hsame
  refine hnone ⟨columnText u.username, u.role, columnText u.salt, columnText u.hash, columnText u.created_at⟩ ?_
    (decide_eq_true hsame)
  rw [List.mem_reverse]
  exact List.mem_map.mpr ⟨u, hu, rfl⟩

theorem imported_names : ((importedUsers host sources db).map UserRecord.username).Nodup := by
  unfold importedUsers
  rw [List.map_map]
  exact @Reading.nodup_chosen _ _ _ _ (userReading host) _ _ _

/-- **What an import that goes through does**: nothing, when every source is in the ledger, and else it
    commits what the inventory calls ready. -/
theorem import_ok (h : importMigration host limits sources now db = .ok (report, db')) :
    ((∀ source ∈ sources.files, Ledgered host db source) ∧ report.idempotent = true ∧ db' = db) ∨
    ((∃ source ∈ sources.files, ¬ Ledgered host db source) ∧ Commits host sources now db report db' ∧
      ((∀ env ∈ importedEnvelopes host sources now db, (Custody.encode host.toHost env).isSome = true) ∧
        (importedEnvelopes host sources now db = [] ∨ DueReadable (limits.config host) now db.custody)) ∧
      (∀ rec ∈ importedUsers host sources db, ∀ u ∈ db.auth.users, u.username ≠ rec.username) ∧
      (Custody.Sound (limits.config host) db.custody → Custody.Sound (limits.config host) db'.custody)) := by
  obtain ⟨hnow, -, -, htransaction⟩ := import_iff.mp h
  unfold importTransaction at htransaction
  dsimp only at htransaction
  split at htransaction
  · rename_i hall
    rw [pure_ok_iff, Prod.mk.injEq] at htransaction
    obtain ⟨rfl, rfl⟩ := htransaction
    exact Or.inl ⟨none_pending_iff.mp hall, rfl, rfl⟩
  · rename_i hsome
    rw [none_pending_iff] at hsome
    simp only [bind_ok_iff, pure_ok_iff, Prod.mk.injEq] at htransaction
    obtain ⟨all, husers, custody, hcustody, ledger, hledger, rfl, rfl⟩ := htransaction
    obtain ⟨hnew, -, rfl⟩ := insertUsers_ok.mp husers
    obtain ⟨hencodes, rfl, hsound⟩ := storeEnvelopes_ok hnow (fun _ => imported_absent) imported_keys hcustody
    obtain rfl := insertLedger_ok hledger
    simp only [not_forall] at hsome
    obtain ⟨source, hsource, hnot⟩ := hsome
    exact Or.inr ⟨⟨source, hsource, hnot⟩, ⟨rfl, rfl, rfl, rfl, rfl⟩, hencodes, hnew, hsound⟩

/-! ## When an import goes through -/

/-- There is room for these envelopes beside the rows. -/
structure Roomy (cfg : CustodyConfig) (rows : List CustodyRow) (envs : List Json) : Prop where
  entries : (rows.length : Int) + envs.length ≤ cfg.maxEntries
  bytes : Custody.totalBytes rows + (envs.map fun env => (env.byteLength : Int)).sum ≤ cfg.maxBytes
  recipient : ∀ toNode, ((rows.filter (Custody.isFor toNode)).length : Int) +
    (envs.filter fun env => Env.toNode env = toNode).length ≤ cfg.perNodeEntries

/-- Expiry releases bytes and places, never the opposite. -/
theorem expired_releases (toNode : String) : Custody.totalBytes (Custody.expired now rows) ≤ Custody.totalBytes rows ∧
    ((Custody.expired now rows).filter (Custody.isFor toNode)).length ≤ (rows.filter (Custody.isFor toNode)).length := by
  unfold Custody.totalBytes Custody.expired
  induction rows with
  | nil => exact ⟨Int.le_refl 0, Nat.le_refl 0⟩
  | cons row rest ih =>
    obtain ⟨hbytes, hplaces⟩ := ih
    rw [List.map_cons, List.map_cons, List.sum_cons, List.map_cons, List.sum_cons, List.filter_cons, List.filter_cons]
    split
    · refine ⟨?_, ?_⟩
      · show ((0 : Nat) : Int) + _ ≤ _
        omega
      · rw [if_neg (by simp [Custody.isFor, Custody.finished])]
        split
        · exact Nat.le_succ_of_le hplaces
        · exact hplaces
    · refine ⟨by omega, ?_⟩
      split
      · exact Nat.succ_le_succ hplaces
      · exact hplaces

theorem totalBytes_append {row : CustodyRow} : Custody.totalBytes (rows ++ [row]) = Custody.totalBytes rows + row.payload_bytes := by
  unfold Custody.totalBytes
  rw [List.map_append, List.sum_append, List.map_singleton, List.sum_singleton]

/-- The first envelope has room, and once it is in, so have the others. -/
theorem Roomy.first {rest : List Json} {encoded : Encoded} (h : Roomy cfg rows (env :: rest))
    (hencode : Custody.encode cfg.host env = some encoded) : Custody.Fits cfg (Custody.expired now rows) encoded ∧
      Roomy cfg (Custody.expired now rows ++ [Custody.admitted encoded now]) rest := by
  obtain ⟨-, expires, -, rfl⟩ := Custody.encode_eq.mp hencode
  have hlength : (Custody.expired now rows).length = rows.length := by rw [Custody.expired, List.length_map]
  have hentries := h.entries
  have hbytes := h.bytes
  have hrecipient := h.recipient (Env.toNode env)
  have hreleased := @expired_releases now rows (Env.toNode env)
  rw [List.length_cons] at hentries
  rw [List.map_cons, List.sum_cons] at hbytes
  rw [List.filter_cons, if_pos (decide_eq_true rfl), List.length_cons] at hrecipient
  -- the bytes of the rest are not negative, so the first fits where all do
  have hrest : 0 ≤ (rest.map fun env => (env.byteLength : Int)).sum := by
    clear hbytes hrecipient hentries h
    induction rest with
    | nil => exact Int.le_refl 0
    | cons e rest ih =>
      rw [List.map_cons, List.sum_cons]
      omega
  push_cast at hentries hrecipient
  refine ⟨⟨?_, ?_, ?_⟩, ⟨?_, ?_, fun toNode => ?_⟩⟩
  · rw [hlength]
    omega
  · show Custody.totalBytes (Custody.expired now rows) + (env.byteLength : Int) ≤ cfg.maxBytes
    omega
  · show (((Custody.expired now rows).filter (Custody.isFor (Env.toNode env))).length : Int) < cfg.perNodeEntries
    omega
  · rw [List.length_append, hlength, List.length_singleton]
    push_cast
    omega
  · rw [totalBytes_append]
    show Custody.totalBytes (Custody.expired now rows) + (env.byteLength : Int) + _ ≤ cfg.maxBytes
    omega
  · have hplaces := (@expired_releases now rows toNode).2
    have hbound := h.recipient toNode
    have hfor : Custody.isFor toNode (Custody.admitted ⟨env, env.byteLength, cfg.host.digest env, expires⟩ now) =
        decide (Env.toNode env = toNode) := by
      unfold Custody.isFor
      exact Bool.and_true _
    rw [List.filter_append, List.length_append, List.filter_singleton, hfor]
    rw [List.filter_cons] at hbound
    by_cases hsame : Env.toNode env = toNode
    · rw [if_pos (decide_eq_true hsame), List.length_cons] at hbound
      rw [decide_eq_true hsame]
      show ((_ + 1 : Nat) : Int) + _ ≤ _
      push_cast at hbound ⊢
      omega
    · rw [if_neg (by simp [hsame])] at hbound
      rw [decide_eq_false hsame]
      show ((_ + 0 : Nat) : Int) + _ ≤ _
      push_cast
      omega

/-- The expiry that is stored is the one that was judged. -/
theorem encode_expires {host : Host} {encoded : Encoded} (h : Custody.encode host env = some encoded) :
    (Env.exp env).bind host.dateParse = some encoded.expires := by
  obtain ⟨-, expires, hexpires, rfl⟩ := Custody.encode_eq.mp h
  unfold absoluteTime at hexpires
  split at hexpires
  · rename_i s hexp
    split at hexpires
    · have hstr : Env.exp env = some s := by
        unfold Env.exp Json.getStr
        rw [hexp]
        rfl
      rw [hstr]
      exact (Option.filter_eq_some_iff.mp hexpires).1
    · exact absurd hexpires (by simp)
  · exact absurd hexpires (by simp)

/-- **Envelopes go in** when each can be encoded, is in time, is new and has room, and what is due can be read. -/
theorem storeEnvelopes_succeed (habsent : ∀ env ∈ envs, envelopeKey env ∉ rows.map CustodyRow.key)
    (hnodup : (envs.map envelopeKey).Nodup) (hdue : envs = [] ∨ DueReadable cfg now rows) (hroomy : Roomy cfg rows envs)
    (hencodes : ∀ env ∈ envs, (Custody.encode cfg.host env).isSome = true)
    (htimely : ∀ env ∈ envs, ∃ expMs, (Env.exp env).bind cfg.host.dateParse = some expMs ∧ now < expMs ∧
      expMs - now ≤ maxTransportLifetimeMs) :
    ∃ rows', foldSteps (storeEnvelope cfg now) rows envs = .ok rows' := by
  induction envs generalizing rows with
  | nil => exact ⟨rows, rfl⟩
  | cons env rest ih =>
    obtain ⟨encoded, hencode⟩ := Option.isSome_iff_exists.mp (hencodes env List.mem_cons_self)
    obtain ⟨expMs, hexp, hlate, hsoon⟩ := htimely env List.mem_cons_self
    rw [encode_expires hencode] at hexp
    obtain rfl := Option.some.inj hexp
    have hreadable := hdue.resolve_left (List.cons_ne_nil _ _)
    obtain ⟨hfits, hlater⟩ := @Roomy.first now cfg rows env rest encoded hroomy hencode
    have hfirst := (storeEnvelope_new (habsent env List.mem_cons_self)).mpr
      ⟨encoded, hencode, ⟨hlate, hsoon⟩, hreadable, hfits, rfl⟩
    obtain ⟨rows', hrest⟩ := ih (@absent_later now cfg rows env encoded rest hencode habsent hnodup) (List.nodup_cons.mp hnodup).2
      (Or.inr fun row hrow hrowDue => absurd (none_due_admitted hlate row hrow) (by simp [hrowDue])) hlater
      (fun e he => hencodes e (List.mem_cons_of_mem _ he)) fun e he => htimely e (List.mem_cons_of_mem _ he)
    exact ⟨rows', bind_ok_iff.mpr ⟨_, hfirst, hrest⟩⟩

theorem insertLedger_succeeds {rows entries : List ImportLedgerEntry} (hdigests : ∀ e ∈ entries, isDigest e.source_sha256 = true)
    (hnew : ∀ e ∈ entries, ∀ r ∈ rows, (r.kind, r.source_sha256) ≠ (e.kind, e.source_sha256))
    (hnodup : (entries.map fun e => (e.kind, e.source_sha256)).Nodup) :
    ∃ rows', foldSteps insertImportLedger rows entries = .ok rows' := by
  induction entries generalizing rows with
  | nil => exact ⟨rows, rfl⟩
  | cons entry rest ih =>
    rw [List.map_cons, List.nodup_cons] at hnodup
    have hfirst : insertImportLedger rows entry = .ok (rows ++ [entry]) := by
      unfold insertImportLedger
      refine bind_ok_iff.mpr ⟨⟨⟩, require_ok_iff.mpr ?_, rfl⟩
      rw [hdigests entry List.mem_cons_self, Bool.true_and, Bool.not_eq_true', List.any_eq_false]
      intro r hr
      rw [Bool.and_eq_true, decide_eq_true_eq, decide_eq_true_eq]
      rintro ⟨hkind, hsha⟩
      exact hnew entry List.mem_cons_self r hr (by rw [hkind, hsha])
    obtain ⟨rows', hrest⟩ := @ih (rows ++ [entry]) (fun e he => hdigests e (List.mem_cons_of_mem _ he))
      (fun e he r hr => by
        rcases List.mem_append.mp hr with hr | hr
        · exact hnew e (List.mem_cons_of_mem _ he) r hr
        · rw [List.mem_singleton.mp hr]
          exact fun hsame => hnodup.1 (List.mem_map.mpr ⟨e, he, hsame.symm⟩)) hnodup.2
    exact ⟨rows', bind_ok_iff.mpr ⟨_, hfirst, hrest⟩⟩

/-- There is one file of a kind. -/
theorem kinds_nodup : (sources.files.map Prod.fst).Nodup := by
  unfold MigrationSources.files
  cases sources.usersJson <;> cases sources.initializedMarker <;> cases sources.mailbox <;> simp

@[simp] theorem kind_ledgerEntry {importedAt : String} {inventory : Inventory} {ref : SourceRef} :
    (ledgerEntry importedAt inventory ref).kind = ref.kind := by
  unfold ledgerEntry
  split <;> rfl

@[simp] theorem sha_ledgerEntry {importedAt : String} {inventory : Inventory} {ref : SourceRef} :
    (ledgerEntry importedAt inventory ref).source_sha256 = ref.sha256 := by
  unfold ledgerEntry
  split <;> rfl

theorem ledger_succeeds (hsha : ∀ bytes, isDigest (host.sha256Bytes bytes) = true) :
    ∃ rows', foldSteps insertImportLedger db.ledger (newEntries host sources now db) = .ok rows' := by
  have hpending : ∀ e ∈ newEntries host sources now db, ∃ source ∈ sources.files,
      e.kind = source.1 ∧ e.source_sha256 = host.sha256Bytes source.2.bytes ∧ ¬ Ledgered host db source := by
    intro e he
    obtain ⟨ref, href, rfl⟩ := List.mem_map.mp he
    obtain ⟨hmem, hnew⟩ := List.mem_filter.mp href
    obtain ⟨source, hsource, rfl⟩ := List.mem_map.mp hmem
    rw [decide_eq_true_eq] at hnew
    exact ⟨source, hsource, kind_ledgerEntry, sha_ledgerEntry, hnew⟩
  refine insertLedger_succeeds ?_ ?_ ?_
  · intro e he
    obtain ⟨source, -, -, hdigest, -⟩ := hpending e he
    rw [hdigest]
    exact hsha _
  · intro e he r hr hsame
    obtain ⟨source, -, hkind, hdigest, hnot⟩ := hpending e he
    obtain ⟨hrkind, hrdigest⟩ := Prod.mk.inj hsame
    rw [hkind] at hrkind
    rw [hdigest] at hrdigest
    refine hnot (List.mem_map.mpr ⟨r, hr, ?_⟩)
    rw [hrkind, hrdigest, columnText_of_noNul (noNul_of_isDigest (hsha source.2.bytes))]
  · refine List.Nodup.of_map Prod.fst ?_
    unfold newEntries
    rw [List.map_map, List.map_map]
    refine List.Nodup.sublist ((List.filter_sublist).map _) ?_
    show ((buildSources host sources).map _).Nodup
    unfold buildSources
    rw [List.map_map]
    have hkinds : ((Prod.fst ∘ (fun e : ImportLedgerEntry => (e.kind, e.source_sha256))) ∘
        ledgerEntry (host.toISOString now) (inspectMigration host sources (targetSnapshot db) now)) ∘
        (fun s : SourceKind × FileSource => (⟨s.2.path, s.1, host.sha256Bytes s.2.bytes⟩ : SourceRef)) = Prod.fst :=
      funext fun _ => kind_ledgerEntry
    rw [hkinds]
    exact kinds_nodup

/-- **When an import goes through.** -/
theorem import_succeeds (hsha : ∀ bytes, isDigest (host.sha256Bytes bytes) = true) (hnow : validTime now = true)
    (hroom : db.auth.users.length ≤ arrayLimit ∧ db.custody.length ≤ arrayLimit)
    (hfree : (inspectMigration host sources (targetSnapshot db) now).conflicts = 0)
    (hroomy : Roomy (limits.config host) db.custody (importedEnvelopes host sources now db))
    (hencodes : ∀ env ∈ importedEnvelopes host sources now db, (Custody.encode host.toHost env).isSome = true)
    (hdue : importedEnvelopes host sources now db = [] ∨ DueReadable (limits.config host) now db.custody)
    (hnew : ∀ rec ∈ importedUsers host sources db, ∀ u ∈ db.auth.users, u.username ≠ rec.username) :
    ∃ report db', importMigration host limits sources now db = .ok (report, db') := by
  have htimely : ∀ env ∈ importedEnvelopes host sources now db, ∃ expMs, (Env.exp env).bind host.dateParse = some expMs ∧
      now < expMs ∧ expMs - now ≤ maxTransportLifetimeMs := by
    intro env henv
    obtain ⟨c, hc, rfl⟩ := List.mem_map.mp henv
    exact (verdict_ready (Reading.mem_chosen hc).2.2.1).2.2
  obtain ⟨custody, hcustody⟩ := @storeEnvelopes_succeed now (limits.config host) db.custody _ (fun _ => imported_absent)
    imported_keys hdue hroomy hencodes htimely
  obtain ⟨ledger, hledger⟩ := @ledger_succeeds host sources now db hsha
  have husers := insertUsers_ok.mpr ⟨hnew, imported_names, rfl⟩
  suffices htransaction : ∃ r, importTransaction host limits now (inspectMigration host sources (targetSnapshot db) now)
      (importedUsers host sources db) (importedEnvelopes host sources now db) db = .ok r by
    obtain ⟨⟨report, db'⟩, hr⟩ := htransaction
    exact ⟨report, db', import_iff.mpr ⟨hnow, hroom, hfree, hr⟩⟩
  unfold importTransaction
  dsimp only
  split
  · exact ⟨_, rfl⟩
  · exact ⟨_, bind_ok_iff.mpr ⟨_, husers, bind_ok_iff.mpr ⟨custody, hcustody, bind_ok_iff.mpr ⟨ledger, hledger, rfl⟩⟩⟩⟩

end

end Migrate
end Qlong
