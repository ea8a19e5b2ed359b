import Mathlib.Data.List.Sort
import Qlong.Core.Json
import Qlong.Core.Protocol
import Qlong.Lib.Attempt
import Qlong.Lib.Fallible
import Qlong.Storage.SqliteStore

/-!
# The migration ledger

`packages/storage/src/migrations.ts`: `validateSchema`, `schemaVersion` and `applyMigrations`. An upgrade
runs in one transaction and reads its own ledger back before it commits. `migration_ledger` is the law of
the two calls together: what they accept, what they leave, and that a failure leaves nothing.

What the SQL of a migration does is an answer of the platform, as is whether a statement or a query fails.
-/

namespace Qlong
namespace Storage

open Lib

/-! ## The declared history -/

structure Migration where
  version : Int
  name : String
  sql : String
  checksum : String
deriving DecidableEq

structure StorageSchema where
  id : String
  migrations : List Migration

def APPLICATION_ID : Int := 0x514c4e47

/-- `migrationChecksum(migration)`; `digest` is SHA-256 over a value's JSON text. -/
def migrationChecksum (digest : Json → String) (m : Migration) : String :=
  digest (.arr [.num m.version, .str m.name, .str m.sql])

def isSchemaIdChar (c : Char) : Bool :=
  ('a' ≤ c && c ≤ 'z') || ('0' ≤ c && c ≤ '9') || c == '_' || c == '.' || c == '-'

/-- `/^[a-z][a-z0-9_.-]{0,127}$/` -/
def isSchemaId (s : String) : Bool :=
  match s.toList with
  | [] => false
  | c :: cs => ('a' ≤ c && c ≤ 'z') && decide (cs.length ≤ 127) && cs.all isSchemaIdChar

def emptyHistory : Failure :=
  .storage .INVALID_OPTIONS "A stable schema id and nonempty migration history are required"

def discontiguous : Failure :=
  .storage .INVALID_OPTIONS "Migrations must be named, nonempty and contiguous from version 1"

def sourceChanged : Failure := .storage .MIGRATION_CHECKSUM "Migration source checksum does not match"

def validateMigration (digest : Json → String) (m : Migration) (index : Nat) : Except Failure Unit := do
  require (m.version = index + 1 && hasText m.name && hasText m.sql) discontiguous
  require (m.checksum = migrationChecksum digest m) sourceChanged

def validateSchema (digest : Json → String) (schema : StorageSchema) : Except Failure Unit := do
  require (isSchemaId schema.id && !schema.migrations.isEmpty) emptyHistory
  schema.migrations.zipIdx.forM fun p => validateMigration digest p.1 p.2

/-! ## The database -/

/-- A value in a table. -/
inductive Cell where
  | null
  | integer (n : Int)
  | real (q : Rat)
  | text (s : String)
  | blob (bytes : List UInt8)
deriving DecidableEq

namespace Cell

/-- The cell reads as this number. -/
def is (n : Int) : Cell → Bool
  | .integer m => m = n
  | .real q => q = n
  | _ => false

/-- An integer beyond the safe ones does not read as a number. -/
def readable : Cell → Bool
  | .integer m => Json.isSafe m
  | _ => true

/-- Nulls, numbers, texts, bytes. -/
def rank : Cell → Nat
  | .null => 0
  | .integer _ => 1
  | .real _ => 1
  | .text _ => 2
  | .blob _ => 3

/-- The order of `ORDER BY`. -/
def le (a b : Cell) : Bool :=
  match a, b with
  | .integer m, .integer n => m ≤ n
  | .integer m, .real q => (m : Rat) ≤ q
  | .real q, .integer m => q ≤ (m : Rat)
  | .real p, .real q => p ≤ q
  | .text s, .text t => s ≤ t
  | .blob s, .blob t => s ≤ t
  | a, b => a.rank ≤ b.rank

end Cell

structure StorageRow where
  id : Cell
  format_version : Cell
  schema_id : Cell

structure LedgerRow where
  version : Cell
  name : Cell
  checksum : Cell

/-- What a database holds; `rest` is what its domain keeps in it. -/
structure Content (R : Type) where
  application_id : Int
  user_version : Int
  /-- The names in `sqlite_schema`. -/
  names : List String
  /-- `_qlong_storage`, if it can be queried. -/
  storage : Option (List StorageRow)
  /-- `_qlong_migrations`, if it can be queried. -/
  ledger : Option (List LedgerRow)
  rest : R

/-- The queries of `schemaVersion`: what their failures throw, and whether the tables can be read. -/
structure Readings where
  integrity : Option Failure
  pragmas : Option Failure
  names : Option Failure
  metadata : Bool
  rows : Bool

variable {R : Type}

def pass (f : Option Failure) : Except Failure Unit := f.elim (.ok ()) .error

def notEmpty : Failure := .storage .SCHEMA_UNSUPPORTED "New database is not empty"

def unsupported : Failure := .storage .SCHEMA_UNSUPPORTED "Uninitialized, foreign or unsupported database schema"

def foreignIdentity : Failure := .storage .SCHEMA_UNSUPPORTED "Storage format or domain identity does not match"

def unreadable : Failure := .storage .SCHEMA_UNSUPPORTED "Storage metadata is missing or unreadable"

def disagree : Failure := .storage .SCHEMA_UNSUPPORTED "Migration ledger/version disagree"

def gaps : Failure := .storage .SCHEMA_UNSUPPORTED "Migration history has gaps"

def historyChanged : Failure := .storage .MIGRATION_CHECKSUM "Applied migration history was changed"

/-- `SELECT id, format_version, schema_id FROM _qlong_storage`. -/
def selectStorage (db : Content R) : Option (List StorageRow) :=
  db.storage.filter fun rows => rows.all fun r => r.id.readable && r.format_version.readable && r.schema_id.readable

/-- `SELECT version, name, checksum FROM _qlong_migrations ORDER BY version`. -/
def selectLedger (db : Content R) : Option (List LedgerRow) :=
  (db.ledger.filter fun rows => rows.all fun r => r.version.readable && r.name.readable && r.checksum.readable).map
    fun rows => rows.insertionSort fun a b => a.version.le b.version = true

def isIdentity (schema : StorageSchema) : List StorageRow → Bool
  | [row] => row.id.is 1 && row.format_version.is 1 && row.schema_id = .text schema.id
  | _ => false

def checkRow (row : LedgerRow) (expected : Migration) : Except Failure Unit := do
  require (row.version.is expected.version) gaps
  require (row.name = .text expected.name && row.checksum = .text expected.checksum) historyChanged

/-- `schemaVersion(db, schema, isNew)`. -/
def schemaVersion (db : Content R) (schema : StorageSchema) (isNew : Bool) (readings : Readings) : Except Failure Nat := do
  pass readings.integrity
  pass readings.pragmas
  if isNew then
    require (db.application_id = 0 && db.user_version = 0) notEmpty
    pass readings.names
    require db.names.isEmpty notEmpty
    return 0
  else
    require (db.application_id = APPLICATION_ID && decide (1 ≤ db.user_version) &&
      decide (db.user_version ≤ schema.migrations.length)) unsupported
    require readings.metadata unreadable
    let metadata ← demand (selectStorage db) unreadable
    require (isIdentity schema metadata) foreignIdentity
    require readings.rows unreadable
    let rows ← demand (selectLedger db) unreadable
    require (rows.length = db.user_version) disagree
    (rows.zip schema.migrations).forM fun p => checkRow p.1 p.2
    return db.user_version.toNat

/-! ## The upgrade -/

/-- The connection, and the migrations whose SQL was executed. -/
structure Session (R : Type) where
  db : Connection (Content R)
  ran : List Migration

/-- How the statements of an upgrade turn out, and what the SQL of a migration does. -/
structure Turns (R : Type) where
  before : Readings
  begin : Outcome
  createStorage : Outcome
  createLedger : Outcome
  insertStorage : Outcome
  applicationId : Outcome
  prepare : Option Failure
  script : Migration → List (Statement (Content R) × Outcome)
  insert : Migration → Outcome
  userVersion : Migration → Outcome
  pragmas : Option Failure
  integrity : Option Failure
  after : Readings
  commit : Outcome
  rollback : Outcome

abbrev Upgrade (R : Type) (α : Type) := Attempt Failure (Session R) α

def onConnection (f : Connection (Content R) → Except SqlError Unit × Connection (Content R)) : Upgrade R Unit :=
  ExceptT.mk fun s =>
    match f s.db with
    | (.ok _, db) => (.ok ⟨⟩, { s with db })
    | (.error e, db) => (.error (thrown e), { s with db })

/-- `db.exec(sql)`, one statement. -/
def exec (stmt : Statement (Content R)) (out : Outcome) : Upgrade R Unit := onConnection fun db => db.exec stmt out

def createStorageTable (db : Content R) : Content R :=
  { db with names := db.names ++ ["_qlong_storage"], storage := some [] }

def createLedgerTable (db : Content R) : Content R :=
  { db with names := db.names ++ ["_qlong_migrations"], ledger := some [] }

def insertIdentity (schema : StorageSchema) (db : Content R) : Content R :=
  { db with storage := db.storage.map (· ++ [⟨.integer 1, .integer 1, .text schema.id⟩]) }

def insertRow (m : Migration) (db : Content R) : Content R :=
  { db with ledger := db.ledger.map (· ++ [⟨.integer m.version, .text m.name, .text m.checksum⟩]) }

def endedTransaction : Failure := .storage .TRANSACTION_MISUSE "Migration ended its transaction"

def migrationFailed : Failure :=
  .storage .MIGRATION_FAILED "Schema migration failed; no automatic reset or bootstrap"

/-- `db.exec(migration.sql)`. -/
def runScript (turns : Turns R) (m : Migration) : Upgrade R Unit := ExceptT.mk fun s =>
  ((onConnection fun db => db.execAll (turns.script m)) : Upgrade R Unit).outcome { s with ran := s.ran ++ [m] }

/-- `if (!db.isTransaction) throw …`. -/
def assertTransaction : Upgrade R Unit := ExceptT.mk fun s => (require s.db.staged.isSome endedTransaction, s)

/-- `schemaVersion` on the connection. -/
def readVersion (schema : StorageSchema) (isNew : Bool) (readings : Readings) : Upgrade R Nat := ExceptT.mk fun s =>
  (schemaVersion s.db.view schema isNew readings, s)

/-- The body of the loop. -/
def migrate (turns : Turns R) (m : Migration) : Upgrade R Unit := do
  runScript turns m
  assertTransaction
  exec (.write (insertRow m)) (turns.insert m)
  exec (.write fun db => { db with user_version := m.version }) (turns.userVersion m)

/-- The tables of a new database. -/
def createTables (schema : StorageSchema) (turns : Turns R) : Upgrade R Unit := do
  exec (.write createStorageTable) turns.createStorage
  exec (.write createLedgerTable) turns.createLedger
  exec (.write (insertIdentity schema)) turns.insertStorage
  exec (.write fun db => { db with application_id := APPLICATION_ID }) turns.applicationId

def bootstrap (schema : StorageSchema) (first : Nat) (turns : Turns R) : Upgrade R Unit :=
  if first = 0 then createTables schema turns else pure ⟨⟩

/-- From `BEGIN IMMEDIATE` to `COMMIT`. -/
def migrateAll (schema : StorageSchema) (first : Nat) (turns : Turns R) : Upgrade R Unit := do
  exec .begin turns.begin
  bootstrap schema first turns
  Attempt.ofExcept (pass turns.prepare)
  (schema.migrations.drop first).forM (migrate turns)
  Attempt.ofExcept (pass turns.pragmas)
  Attempt.ofExcept (pass turns.integrity)
  let _ ← readVersion schema false turns.after
  exec .commit turns.commit

/-- `applyMigrations(db, schema, from)`. -/
def applyMigrations (schema : StorageSchema) (first : Nat) (turns : Turns R) : Upgrade R Unit :=
  if first = schema.migrations.length then pure ⟨⟩
  else (migrateAll schema first turns).catching fun _ => do
    onConnection fun db => SqliteStore.rollback db turns.rollback
    Attempt.ofExcept (.error migrationFailed)

/-- `schemaVersion` and then `applyMigrations`. -/
def upgrade (schema : StorageSchema) (isNew : Bool) (turns : Turns R) : Upgrade R Unit := do
  let first ← readVersion schema isNew turns.before
  applyMigrations schema first turns

/-- A connection that was just opened. -/
def opened (db : Content R) : Session R := ⟨⟨db, none, true⟩, []⟩

/-! ## What is accepted -/

/-- The row records the migration. -/
def LedgerRow.Records (row : LedgerRow) (m : Migration) : Prop :=
  row.version.is m.version = true ∧ row.name = .text m.name ∧ row.checksum = .text m.checksum

/-- The database holds exactly the first `n` migrations of the history. -/
structure Follows (db : Content R) (schema : StorageSchema) (n : Nat) : Prop where
  application : db.application_id = APPLICATION_ID
  version : db.user_version = n
  identity : ∃ rows, db.storage = some rows ∧ isIdentity schema rows = true
  ledger : ∃ rows, db.ledger = some rows ∧
    List.Forall₂ LedgerRow.Records (rows.insertionSort fun a b => a.version.le b.version = true) (schema.migrations.take n)

/-- Neither a schema nor a version. -/
structure IsEmpty (db : Content R) : Prop where
  application : db.application_id = 0
  version : db.user_version = 0
  names : db.names = []

section

variable {schema : StorageSchema} {db : Content R} {readings : Readings} {n : Nat} {turns : Turns R} {m : Migration}

theorem checkRow_ok_iff {row : LedgerRow} {u : Unit} : checkRow row m = .ok u ↔ row.Records m := by
  unfold checkRow LedgerRow.Records
  simp only [bind_ok_iff, require_ok_iff, Bool.and_eq_true, decide_eq_true_eq, exists_const]

/-- A walk over the rows compares each with the migration in its place. -/
theorem checkRows_ok {rows : List LedgerRow} {migrations : List Migration} {u : Unit} (hlen : rows.length ≤ migrations.length)
    (h : ((rows.zip migrations).forM fun p => checkRow p.1 p.2) = .ok u) :
    List.Forall₂ LedgerRow.Records rows (migrations.take rows.length) := by
  induction rows generalizing migrations with
  | nil => exact .nil
  | cons row rows ih =>
    cases migrations with
    | nil => exact absurd hlen (by simp)
    | cons m ms =>
      change (checkRow row m >>= fun _ => (rows.zip ms).forM fun p => checkRow p.1 p.2) = .ok u at h
      obtain ⟨_, hrow, hrest⟩ := bind_ok_iff.mp h
      exact .cons (checkRow_ok_iff.mp hrow) (ih (by simpa using hlen) hrest)

/-- **An existing database is accepted only with a prefix of the history in its ledger.** -/
theorem schemaVersion_existing (h : schemaVersion db schema false readings = .ok n) :
    0 < n ∧ n ≤ schema.migrations.length ∧ Follows db schema n := by
  unfold schemaVersion at h
  simp only [bind_ok_iff, require_ok_iff, demand_ok_iff, Bool.false_eq_true, if_false, Bool.and_eq_true, decide_eq_true_eq,
    exists_const, pure_ok_iff] at h
  obtain ⟨-, -, -, -, ⟨⟨happ, hpositive⟩, hbound⟩, -, metadata, hmetadata, hidentity, -, rows, hrows, hcount, _, hwalk, rfl⟩ := h
  obtain ⟨hstored, -⟩ := Option.filter_eq_some_iff.mp hmetadata
  obtain ⟨ledger, hledger, rfl⟩ := Option.map_eq_some_iff.mp hrows
  obtain ⟨hheld, -⟩ := Option.filter_eq_some_iff.mp hledger
  have hlen : (ledger.insertionSort fun a b => a.version.le b.version = true).length = db.user_version.toNat := by omega
  refine ⟨by omega, by omega, happ, by omega, ⟨metadata, hstored, hidentity⟩, ledger, hheld, ?_⟩
  have hall := checkRows_ok (by omega) hwalk
  rw [hlen] at hall
  exact hall

theorem schemaVersion_new (h : schemaVersion db schema true readings = .ok n) : n = 0 ∧ IsEmpty db := by
  unfold schemaVersion at h
  simp only [bind_ok_iff, require_ok_iff, if_true, Bool.and_eq_true, decide_eq_true_eq, exists_const, pure_ok_iff,
    List.isEmpty_iff] at h
  obtain ⟨-, -, -, -, ⟨happ, hversion⟩, -, -, hnames, hn⟩ := h
  exact ⟨hn.symm, happ, hversion, hnames⟩

/-- The versions of a valid history count from 1. -/
theorem version_of_valid {digest : Json → String} (hvalid : validateSchema digest schema = .ok ⟨⟩) {i : Nat}
    (hi : schema.migrations[i]? = some m) : m.version = i + 1 := by
  unfold validateSchema at hvalid
  simp only [bind_ok_iff, require_ok_iff, exists_const] at hvalid
  have hone := forM_inv hvalid.2 (m, i) (List.mk_mem_zipIdx_iff_getElem?.mpr hi)
  unfold validateMigration at hone
  simp only [bind_ok_iff, require_ok_iff, Bool.and_eq_true, decide_eq_true_eq, exists_const] at hone
  exact hone.1.1.1

end

/-! ## One transaction -/

section

open Attempt

variable {schema : StorageSchema} {db : Content R} {turns : Turns R} {m : Migration} {done : List Migration} {kept : Prop}
  {P E' : Session R → Prop} {out : Outcome}

/-- Within the transaction of an upgrade; `kept` is a condition under which nothing is committed yet. -/
structure Within (kept : Prop) (db : Content R) (done : List Migration) (s : Session R) : Prop where
  ran : s.ran = done
  committed : kept → s.db.committed = db
  staged : s.db.staged.isSome = true

/-- What a failure leaves. -/
def Keeps (kept : Prop) (db : Content R) (s : Session R) : Prop := kept → s.db.committed = db

theorem triple_onConnection {f : Connection (Content R) → Except SqlError Unit × Connection (Content R)} {Q : Session R → Prop}
    (h : ∀ s, P s → ((f s.db).1 = .ok () → Q { s with db := (f s.db).2 }) ∧
      (∀ e, (f s.db).1 = .error e → E' { s with db := (f s.db).2 })) :
    Triple P (onConnection f) (fun _ => Q) E' := by
  intro s hs
  obtain ⟨hok, herror⟩ := h s hs
  have hout : (onConnection f).outcome s = match f s.db with
      | (.ok _, db) => (.ok (), { s with db })
      | (.error e, db) => (.error (thrown e), { s with db }) := rfl
  rw [hout]
  cases hf : f s.db with
  | mk outcome after =>
    rw [hf] at hok herror
    cases outcome with
    | ok _ => exact ⟨fun _ _ => hok rfl, fun e he => absurd he (by simp)⟩
    | error e => exact ⟨fun _ ha => absurd ha (by simp), fun _ _ => herror e rfl⟩

theorem triple_begin : Triple (fun s => s.ran = done ∧ Keeps kept db s) (exec .begin out) (fun _ => Within kept db done)
    (Keeps kept db) := by
  apply triple_onConnection
  intro s hs
  have hbegin := @Connection.exec_begin _ s.db out
  have hkept : Keeps kept db { s with db := (s.db.exec .begin out).2 } := fun hk => hbegin.1.trans (hs.2 hk)
  exact ⟨fun hok => ⟨hs.1, hkept, by rw [hbegin.2 hok]; rfl⟩, fun _ _ => hkept⟩

/-- A write within the transaction is staged, whatever becomes of it. -/
theorem triple_write {f : Content R → Content R} : Triple (Within kept db done) (exec (.write f) out)
    (fun _ s => Within kept db done s ∧ ∃ w, s.db.staged = some (f w)) (Keeps kept db) := by
  apply triple_onConnection
  intro s hs
  obtain ⟨w, hw⟩ := Option.isSome_iff_exists.mp hs.staged
  have hwrite := @Connection.exec_write _ s.db f out w hw
  have hkept : Keeps kept db { s with db := (s.db.exec (.write f) out).2 } := fun hk => hwrite.1.trans (hs.committed hk)
  exact ⟨fun hok => ⟨⟨hs.ran, hkept, by rw [hwrite.2 hok]; rfl⟩, w, hwrite.2 hok⟩, fun _ _ => hkept⟩

/-- The SQL of a migration is executed, and may do anything that `kept` does not forbid. -/
theorem triple_runScript (hinside : kept → ∀ c : Connection (Content R), c.staged.isSome = true → c.AllStayInside (turns.script m)) :
    Triple (Within kept db done) (runScript turns m) (fun _ s => s.ran = done ++ [m] ∧ Keeps kept db s) (Keeps kept db) := by
  intro s hs
  have hscript : Triple (fun t => t = { s with ran := s.ran ++ [m] }) (onConnection fun db => db.execAll (turns.script m))
      (fun _ t => t.ran = done ++ [m] ∧ Keeps kept db t) (Keeps kept db) := by
    apply triple_onConnection
    intro t ht
    subst ht
    have hkept : Keeps kept db { s with ran := s.ran ++ [m], db := (s.db.execAll (turns.script m)).2 } := by
      intro hk
      exact (Connection.committed_execAll (hinside hk s.db hs.staged)).trans (hs.committed hk)
    exact ⟨fun _ => ⟨congrArg (· ++ [m]) hs.ran, hkept⟩, fun _ _ => hkept⟩
  exact hscript _ rfl

theorem triple_assertTransaction : Triple (fun s => s.ran = done ∧ Keeps kept db s) assertTransaction
    (fun _ => Within kept db done) (Keeps kept db) := by
  intro s hs
  exact ⟨fun _ hok => ⟨hs.1, hs.2, require_ok_iff.mp hok⟩, fun _ _ => hs.2⟩

/-- **One migration**: executed once, recorded, and the version of the working copy is its own. -/
theorem triple_migrate (hinside : kept → ∀ c : Connection (Content R), c.staged.isSome = true → c.AllStayInside (turns.script m)) :
    Triple (Within kept db done) (migrate turns m)
      (fun _ s => Within kept db (done ++ [m]) s ∧ ∃ w, s.db.staged = some w ∧ w.user_version = m.version) (Keeps kept db) := by
  unfold migrate
  apply Triple.bind (triple_runScript hinside)
  intro _
  apply Triple.bind triple_assertTransaction
  intro _
  apply Triple.bind (Triple.conseq triple_write (fun _ => id) (fun _ _ h => h.1) (fun _ => id))
  intro _
  apply Triple.conseq triple_write (fun _ => id) ?_ (fun _ => id)
  intro _ s hs
  obtain ⟨w, hw⟩ := hs.2
  exact ⟨hs.1, _, hw, rfl⟩

theorem triple_bootstrap {first : Nat} : Triple (Within kept db done) (bootstrap schema first turns)
    (fun _ => Within kept db done) (Keeps kept db) := by
  have hwrite : ∀ (f : Content R → Content R) out, Triple (Within kept db done) (exec (.write f) out) (fun _ => Within kept db done)
      (Keeps kept db) := fun f out => Triple.conseq triple_write (fun _ => id) (fun _ _ h => h.1) (fun _ => id)
  unfold bootstrap
  split
  · unfold createTables
    apply Triple.bind (hwrite _ _)
    intro _
    apply Triple.bind (hwrite _ _)
    intro _
    apply Triple.bind (hwrite _ _)
    intro _
    exact hwrite _ _
  · exact Triple.pure fun _ => id

/-- Within the transaction, at the version of the last migration that is done. -/
def Advanced (kept : Prop) (db : Content R) (done : List Migration) (s : Session R) : Prop :=
  Within kept db done s ∧ ∀ last ∈ done.getLast?, ∃ w, s.db.staged = some w ∧ w.user_version = last.version

theorem triple_pass {Q : Session R → Prop} {f : Option Failure} (hkeeps : ∀ s, Q s → Keeps kept db s) :
    Triple Q (Attempt.ofExcept (pass f)) (fun _ => Q) (Keeps kept db) :=
  Triple.ofExcept (fun _ _ _ hs => hs) hkeeps

/-- **The loop**: every migration that is missing, once and in order. -/
theorem triple_loop {migrations : List Migration}
    (hinside : kept → ∀ m ∈ migrations, ∀ c : Connection (Content R), c.staged.isSome = true → c.AllStayInside (turns.script m)) :
    Triple (Within kept db []) (migrations.forM (migrate turns)) (fun _ => Advanced kept db migrations) (Keeps kept db) := by
  have hloop := @Triple.forM _ _ (Keeps kept db) _ (fun done _ => Advanced kept db done) (migrate turns) migrations
    fun done m rest hsplit => ?_
  · exact Triple.conseq hloop (fun s hs => ⟨hs, fun _ h => absurd h (by simp)⟩) (fun _ _ => id) (fun _ => id)
  have hmem : m ∈ migrations := hsplit ▸ List.mem_append_right done List.mem_cons_self
  apply Triple.conseq (triple_migrate fun hk => hinside hk m hmem) (fun _ hs => hs.1) ?_ (fun _ => id)
  intro _ s hs
  refine ⟨hs.1, fun last hlast => ?_⟩
  rw [List.getLast?_concat, Option.mem_some_iff] at hlast
  exact hlast ▸ hs.2

/-- What is read back and committed is the whole history. -/
theorem follows_all {digest : Json → String} (hvalid : validateSchema digest schema = .ok ⟨⟩) {first n : Nat}
    (hfirst : first < schema.migrations.length) {w : Content R} (hread : Follows w schema n)
    (hlast : ∀ last ∈ (schema.migrations.drop first).getLast?, w.user_version = last.version) :
    Follows w schema schema.migrations.length := by
  have hcount : n = schema.migrations.length := by
    have hsome : schema.migrations[schema.migrations.length - 1]? = some (schema.migrations[schema.migrations.length - 1]) :=
      List.getElem?_eq_getElem (by omega)
    have hget : (schema.migrations.drop first).getLast? = schema.migrations[schema.migrations.length - 1]? := by
      rw [List.getLast?_eq_getElem?, List.getElem?_drop, List.length_drop]
      congr 1
      omega
    have hversion := hlast _ (by rw [hget, hsome]; rfl)
    rw [version_of_valid hvalid hsome, hread.version] at hversion
    omega
  exact hcount ▸ hread

theorem triple_migrateAll {digest : Json → String} (hvalid : validateSchema digest schema = .ok ⟨⟩) {first : Nat}
    (hfirst : first < schema.migrations.length)
    (hinside : kept → ∀ m ∈ schema.migrations, ∀ c : Connection (Content R), c.staged.isSome = true →
      c.AllStayInside (turns.script m)) :
    Triple (fun s => s.ran = [] ∧ Keeps kept db s) (migrateAll schema first turns)
      (fun _ s => s.ran = schema.migrations.drop first ∧ Follows s.db.committed schema schema.migrations.length)
      (Keeps kept db) := by
  unfold migrateAll
  -- the steps of the transaction in turn; up to the commit the file is as it was
  apply Triple.bind triple_begin
  intro _
  apply Triple.bind triple_bootstrap
  intro _
  apply Triple.bind (triple_pass fun _ hs => hs.committed)
  intro _
  apply Triple.bind (triple_loop fun hk m hm => hinside hk m (List.mem_of_mem_drop hm))
  intro _
  apply Triple.bind (triple_pass fun _ hs => hs.1.committed)
  intro _
  apply Triple.bind (triple_pass fun _ hs => hs.1.committed)
  intro _
  have hread : Triple (Advanced kept db (schema.migrations.drop first)) (readVersion schema false turns.after)
      (fun _ s => Advanced kept db (schema.migrations.drop first) s ∧ ∃ n, Follows s.db.view schema n) (Keeps kept db) := by
    intro s hs
    exact ⟨fun n hn => ⟨hs, n, (schemaVersion_existing hn).2.2⟩, fun _ _ => hs.1.committed⟩
  apply Triple.bind hread
  intro _
  apply triple_onConnection
  intro s hs
  obtain ⟨⟨hwithin, hlast⟩, n, hread⟩ := hs
  constructor
  · intro hok
    -- what the commit makes durable is what the last read of the ledger saw
    obtain ⟨-, w, hw, hafter⟩ := Connection.exec_commit_ok hok
    refine ⟨hwithin.ran, ?_⟩
    have hview : s.db.view = w := by
      unfold Connection.view
      rw [hw]
      rfl
    rw [hview] at hread
    rw [hafter]
    refine follows_all hvalid hfirst hread fun last hmem => ?_
    obtain ⟨w', hw', hversion⟩ := hlast last hmem
    cases hw.symm.trans hw'
    exact hversion
  · intro e herror hk
    exact (Connection.exec_commit_error herror).trans (hwithin.committed hk)

/-- An upgrade from the version that was read. -/
theorem triple_applyMigrations {digest : Json → String} (hvalid : validateSchema digest schema = .ok ⟨⟩) {first : Nat}
    (hbound : first ≤ schema.migrations.length) (hcomplete : first = schema.migrations.length → Follows db schema first)
    (hinside : kept → ∀ m ∈ schema.migrations, ∀ c : Connection (Content R), c.staged.isSome = true →
      c.AllStayInside (turns.script m)) :
    Triple (fun s => s = opened db) (applyMigrations schema first turns)
      (fun _ s => s.ran = schema.migrations.drop first ∧ Follows s.db.committed schema schema.migrations.length)
      (Keeps kept db) := by
  unfold applyMigrations
  split
  · rename_i hall
    apply Triple.pure
    intro s hs
    subst hs
    exact ⟨by rw [hall, List.drop_length]; rfl, hall ▸ hcomplete hall⟩
  · apply Triple.catching (Triple.conseq (triple_migrateAll hvalid (by omega) hinside) ?_ (fun _ _ => id) fun _ => id)
    · intro _
      apply Triple.bind (M := fun _ => Keeps kept db)
      · apply triple_onConnection
        intro s hs
        have hback : Keeps kept db { s with db := (SqliteStore.rollback s.db turns.rollback).2 } :=
          fun hk => SqliteStore.committed_rollback.trans (hs hk)
        exact ⟨fun _ => hback, fun _ _ => hback⟩
      · intro _
        exact Triple.ofExcept (fun _ _ h => absurd h (by simp)) fun _ => id
    · intro s hs
      subst hs
      exact ⟨rfl, fun _ => rfl⟩

end

/-! ## The law -/

section

open Attempt

variable {schema : StorageSchema}

/-- The SQL of no migration commits, or writes outside the transaction it is executed in. -/
def Turns.StaysInside (turns : Turns R) (schema : StorageSchema) : Prop :=
  ∀ m ∈ schema.migrations, ∀ c : Connection (Content R), c.staged.isSome = true → c.AllStayInside (turns.script m)

/-- What an upgrade accepts: a new database that is empty, or a nonempty prefix of the history. -/
def Accepts (schema : StorageSchema) (isNew : Bool) (db : Content R) (n : Nat) : Prop :=
  if isNew then n = 0 ∧ IsEmpty db else 0 < n ∧ n ≤ schema.migrations.length ∧ Follows db schema n

/-- **The migration ledger.** An upgrade that succeeds found a new, empty database or exactly a prefix of
    the history, executed each migration that was missing once and in order, and leaves exactly the
    history; one that fails leaves the database as it was, unless the SQL of a migration commits. -/
theorem migration_ledger {digest : Json → String} (hvalid : validateSchema digest schema = .ok ⟨⟩) (isNew : Bool)
    (db : Content R) (turns : Turns R) :
    (((upgrade schema isNew turns).outcome (opened db)).1 = .ok () → ∃ n, Accepts schema isNew db n ∧
      ((upgrade schema isNew turns).outcome (opened db)).2.ran = schema.migrations.drop n ∧
      Follows ((upgrade schema isNew turns).outcome (opened db)).2.db.committed schema schema.migrations.length) ∧
    (∀ f, ((upgrade schema isNew turns).outcome (opened db)).1 = .error f → turns.StaysInside schema →
      ((upgrade schema isNew turns).outcome (opened db)).2.db.committed = db) := by
  have hnonempty : schema.migrations ≠ [] := by
    unfold validateSchema at hvalid
    simp only [bind_ok_iff, require_ok_iff, Bool.and_eq_true, exists_const] at hvalid
    intro hnil
    rw [hnil] at hvalid
    exact absurd hvalid.1.2 (by simp)
  have hupgrade : Triple (fun s => s = opened db) (upgrade schema isNew turns)
      (fun _ s => ∃ n, Accepts schema isNew db n ∧ s.ran = schema.migrations.drop n ∧
        Follows s.db.committed schema schema.migrations.length) (Keeps (turns.StaysInside schema) db) := by
    apply Triple.bind (M := fun n s => s = opened db ∧ Accepts schema isNew db n)
    · intro s hs
      subst hs
      refine ⟨fun n hn => ⟨rfl, ?_⟩, fun _ _ _ => rfl⟩
      -- a new file starts at no version, an existing one at the version its ledger says
      cases isNew with
      | true => exact schemaVersion_new hn
      | false => exact schemaVersion_existing hn
    · intro n s hs
      have hbound : n ≤ schema.migrations.length := by
        cases isNew with
        | true => exact hs.2.1.trans_le (Nat.zero_le _)
        | false => exact hs.2.2.1
      have hcomplete : n = schema.migrations.length → Follows db schema n := by
        intro hn
        cases isNew with
        | true => exact absurd (List.length_eq_zero_iff.mp (hn.symm.trans hs.2.1)) hnonempty
        | false => exact hs.2.2.2
      have happly := @triple_applyMigrations _ schema db turns (turns.StaysInside schema) _ hvalid _ hbound hcomplete id s hs.1
      exact ⟨fun a ha => ⟨n, hs.2, happly.1 a ha⟩, happly.2⟩
  obtain ⟨hok, herror⟩ := hupgrade (opened db) rfl
  exact ⟨fun h => hok () h, fun f hf => herror f hf⟩

end

/-! ## Jobs and notes -/

/-- The digests of the three declared migrations. -/
def declaredDigest (v : Json) : String :=
  match v with
  | .arr [_, .str "jobs", _] => "c908ca00d8c1edbafa6dcd94f1e158b98c19af89d73075916fc2234f4b29c603"
  | .arr [_, _, .str "CREATE TABLE notes (id INTEGER PRIMARY KEY)"] =>
    "8a0cf460cbb681f670193903c06eea6b086f9d0bd6309a0e4c127e3fd8f9a123"
  | _ => "c97a5d4a0c85098b2381a6b112eedf368c7175374939c0ce23243df6caa8bf96"

/-- `defineMigration(migration)`. -/
def defineMigration (version : Int) (name sql : String) : Migration :=
  ⟨version, name, sql, declaredDigest (.arr [.num version, .str name, .str sql])⟩

def jobs : Migration := defineMigration 1 "jobs" "CREATE TABLE jobs (id INTEGER PRIMARY KEY)"

def notes : Migration := defineMigration 2 "notes" "CREATE TABLE notes (id INTEGER PRIMARY KEY)"

/-- A migration that ends its transaction. -/
def committing : Migration := defineMigration 2 "notes" "CREATE TABLE notes (id INTEGER PRIMARY KEY); COMMIT"

def history : StorageSchema := ⟨"qlong.jobs", [jobs, notes]⟩

def committingHistory : StorageSchema := ⟨"qlong.jobs", [jobs, committing]⟩

theorem valid_histories : validateSchema declaredDigest history = .ok ⟨⟩ ∧
    validateSchema declaredDigest committingHistory = .ok ⟨⟩ := by
  constructor
  · decide +kernel
  · decide +kernel

def emptyDatabase : Content Unit := ⟨0, 0, [], none, none, ()⟩

def fine : Readings := ⟨none, none, none, true, true⟩

/-- Every statement is carried out, and the SQL creates the table of its migration. -/
def carriedOut : Turns Unit where
  before := fine
  begin := .done
  createStorage := .done
  createLedger := .done
  insertStorage := .done
  applicationId := .done
  prepare := none
  script m := (.write (fun db => { db with names := db.names ++ [m.name] }), .done) ::
    if m = committing then [(.commit, .done)] else []
  insert _ := .done
  userVersion _ := .done
  pragmas := none
  integrity := none
  after := fine
  commit := .done
  rollback := .done

/-- The SQL of the second migration fails after what it has written. -/
def failing : Turns Unit :=
  { carriedOut with
    script := fun m => (.write (fun db => { db with names := db.names ++ [m.name] }), .done) ::
      if m = notes then [(.write id, .fails 1 false)] else [] }

/-- A new database goes through both, or is left as it was. -/
theorem migration_ledger_new :
    (∃ n, Accepts history true emptyDatabase n ∧
      ((upgrade history true carriedOut).outcome (opened emptyDatabase)).2.ran = history.migrations.drop n ∧
      Follows ((upgrade history true carriedOut).outcome (opened emptyDatabase)).2.db.committed history 2) ∧
    ((upgrade history true failing).outcome (opened emptyDatabase)).2.ran = [jobs, notes] ∧
    ((upgrade history true failing).outcome (opened emptyDatabase)).2.db.committed = emptyDatabase := by
  have hstays : failing.StaysInside history := by
    intro m _ c hstaged
    apply Connection.allStayInside_of_writes hstaged
    intro p hp
    rcases List.mem_cons.mp hp with rfl | hp
    · exact ⟨_, rfl⟩
    · split at hp
      · rw [List.mem_singleton.mp hp]
        exact ⟨_, rfl⟩
      · exact absurd hp List.not_mem_nil
  refine ⟨(migration_ledger valid_histories.1 true emptyDatabase carriedOut).1 rfl, rfl, ?_⟩
  exact (migration_ledger valid_histories.1 true emptyDatabase failing).2 migrationFailed rfl hstays

/-- **A migration that commits leaves its predecessor in the ledger** of an upgrade that failed. -/
theorem committed_though_failed :
    ((upgrade committingHistory true carriedOut).outcome (opened emptyDatabase)).1 = .error migrationFailed ∧
    ((upgrade committingHistory true carriedOut).outcome (opened emptyDatabase)).2.db.committed.user_version = 1 ∧
    (((upgrade committingHistory true carriedOut).outcome (opened emptyDatabase)).2.db.committed.ledger.map List.length) = some 1 ∧
    emptyDatabase.user_version = 0 ∧ emptyDatabase.ledger = none :=
  ⟨rfl, rfl, rfl, rfl, rfl⟩

end Storage
end Qlong
