import Qlong.Migrate.Import

/-!
# What an import leaves

Three questions to an import that goes through. Whether it touches the tables of a source that the ledger
has already (`import_repeats`); whether the stores can read what it wrote (`import_readable`); and whether it
does what the dry run announced (`import_as_announced`). The answer is yes for each but for a named kind of
input.
-/

namespace Qlong
namespace Migrate

open Lib Auth Gateway Node

section

variable {host : MigrateHost} {limits : CustodyLimits} {sources : MigrationSources} {now : Int} {db db' : CenterTables}
  {report : ImportReport} {source : SourceKind × FileSource}

/-! ## Importing over again -/

/-- The tables after an import; one that throws is rolled back. -/
def afterImport (host : MigrateHost) (limits : CustodyLimits) (sources : MigrationSources) (now : Int) (db : CenterTables) :
    CenterTables :=
  match importMigration host limits sources now db with
  | .ok (_, db') => db'
  | .error _ => db

theorem afterImport_ok (h : importMigration host limits sources now db = .ok (report, db')) :
    afterImport host limits sources now db = db' := by
  unfold afterImport
  rw [h]

/-- The tables that a kind of source feeds are as they were. -/
def Untouched (db db' : CenterTables) : SourceKind → Prop
  | .users => db'.auth = db.auth
  | .initialized => True
  | .mailbox => db'.custody = db.custody

/-- Nothing in a kind of source is migratable with reason `ok`. -/
def NothingReady (host : MigrateHost) (sources : MigrationSources) (now : Int) (db : CenterTables) : SourceKind → Prop
  | .users => importedUsers host sources db = []
  | .initialized => True
  | .mailbox => importedEnvelopes host sources now db = []

theorem withUsers_none {auth : AuthTables} : withUsers auth [] (auth.users ++ []) = auth := by
  unfold withUsers
  rw [List.append_nil]
  rfl

theorem withUsers_users {auth : AuthTables} {users all : List UserRecord} : (withUsers auth users all).users = all := by
  unfold withUsers
  split
  · rfl
  · rfl

theorem filterMap_storedRow {envs : List Json} (h : ∀ env ∈ envs, (Custody.encode host.toHost env).isSome = true) :
    (envs.filterMap (storedRow host.toHost now)).length = envs.length := by
  induction envs with
  | nil => rfl
  | cons env rest ih =>
    obtain ⟨encoded, hencoded⟩ := Option.isSome_iff_exists.mp (h env List.mem_cons_self)
    have hrow : storedRow host.toHost now env = some (Custody.admitted encoded now) := by
      unfold storedRow
      rw [hencoded]
      rfl
    rw [List.filterMap_cons_some hrow, List.length_cons, List.length_cons, ih fun e he => h e (List.mem_cons_of_mem _ he)]

/-- Envelopes that were stored make the table longer. -/
theorem withEnvelopes_same {rows : List CustodyRow} {envs : List Json}
    (hencodes : ∀ env ∈ envs, (Custody.encode host.toHost env).isSome = true)
    (h : withEnvelopes host.toHost now rows envs = rows) : envs = [] := by
  unfold withEnvelopes at h
  split at h
  · rename_i hempty
    exact List.isEmpty_iff.mp hempty
  · have hlength := congrArg List.length h
    rw [List.length_append, filterMap_storedRow hencodes, Custody.expired, List.length_map] at hlength
    exact List.eq_nil_of_length_eq_zero (by omega)

/-- **An import with a source that the ledger has leaves its tables alone exactly when** the ledger has all
    the others too, or nothing in that source is ready to be imported into the tables as they are now. -/
theorem import_repeats (hledgered : Ledgered host db source) :
    (∀ e, importMigration host limits sources now db = .error e → afterImport host limits sources now db = db) ∧
    (∀ r, importMigration host limits sources now db = .ok r →
      (Untouched db (afterImport host limits sources now db) source.1 ↔
        (∀ other ∈ sources.files, other ≠ source → Ledgered host db other) ∨ NothingReady host sources now db source.1)) := by
  refine ⟨fun e h => ?_, fun ⟨report, db'⟩ h => ?_⟩
  · unfold afterImport
    rw [h]
  · rw [afterImport_ok h]
    -- every source is in the ledger and nothing is written, or all of them are imported again
    rcases import_ok h with ⟨hall, -, rfl⟩ | ⟨⟨other, hother, hnew⟩, hcommits, ⟨hencodes, -⟩, -, -⟩
    · refine iff_of_true ?_ (Or.inl fun other hother _ => hall other hother)
      cases source.1 with
      | users => rfl
      | initialized => trivial
      | mailbox => rfl
    · -- the new source is another one
      have hnotAll : ¬ ∀ other ∈ sources.files, other ≠ source → Ledgered host db other := fun hall =>
        hnew (hall other hother fun hsame => hnew (hsame ▸ hledgered))
      rw [or_iff_right hnotAll]
      cases source.1 with
      | users =>
        show db'.auth = db.auth ↔ importedUsers host sources db = []
        rw [hcommits.auth]
        constructor
        · intro hsame
          have husers := congrArg AuthTables.users hsame
          rw [withUsers_users] at husers
          exact List.append_right_eq_self.mp husers
        · intro hnone
          rw [hnone]
          exact withUsers_none
      | initialized => exact Iff.rfl
      | mailbox =>
        show db'.custody = db.custody ↔ importedEnvelopes host sources now db = []
        rw [hcommits.custody]
        constructor
        · exact withEnvelopes_same hencodes
        · intro hnone
          rw [hnone]
          rfl

/-! ## A letter by post -/

/-- An entry of a mailbox. -/
def postEntry (letter : Json) : Json := .obj [("msgId", .str (Sample.msg 1)), ("envelope", letter)]

/-- A mailbox with one letter, for the second node. -/
def mailOf (letter : Json) : Json :=
  .obj [("v", .num 1), ("boxes", .arr [.obj [("nodeId", .str Sample.nodeB), ("entries", .arr [postEntry letter])]])]

/-- The sources: no user, and the mailbox. -/
def postSources (letter : Json) : MigrationSources :=
  ⟨some (fileOf "/auth/users.json" (.arr [])), none, some (fileOf "/mailbox.json" (mailOf letter))⟩

/-- `Date.parse` takes a day beyond the end of February for one in March. -/
def postHost (letter : Json) : MigrateHost :=
  platform (Host.ofTables [] (("2026-02-30T00:00:00.000Z", 1772409600000) :: Sample.calendar)) [mailOf letter, .arr []]

/-- A center without users or messages that knows the first node. -/
def postCenter (ledger : List ImportLedgerEntry) : CenterTables :=
  ⟨"/center.sqlite", "qlong.center", 5, .empty, [], ledger, [⟨Sample.nodeA, "team", "active", [⟨1, "key"⟩]⟩]⟩

theorem post_records (letter : Json) : userRecords (postHost letter) (postSources letter).usersJson = [] := by
  have hread := @platform_reads_second (Host.ofTables [] (("2026-02-30T00:00:00.000Z", 1772409600000) :: Sample.calendar)) []
    (mailOf letter) (.arr []) "/auth/users.json" fun h => absurd (List.cons.inj h).1 (by decide)
  unfold userRecords postSources
  rw [Option.bind_some]
  unfold postHost
  rw [hread]
  rfl

theorem post_entries (letter : Json) :
    mailboxEntries (postHost letter) (postSources letter).mailbox = [(Sample.nodeB, postEntry letter)] := by
  have hread := @platform_reads (Host.ofTables [] (("2026-02-30T00:00:00.000Z", 1772409600000) :: Sample.calendar)) [.arr []]
    (mailOf letter) "/mailbox.json"
  unfold mailboxEntries postSources
  rw [Option.bind_some]
  unfold postHost
  rw [hread]
  rfl

/-- A letter that is in order, and one whose time is no date. -/
def goodLetter : Json := Sample.envelope 1 "task.cancel" 1 (.obj [("reason", .str "stop")])

def rolledLetter : Json := goodLetter.set "ts" (.str "2026-02-30T00:00:00.000Z")

/-- The letter is admitted, and found ready in an empty center. -/
def Passes (letter : Json) : Prop :=
  (entryReading (postHost letter)).read (Sample.nodeB, postEntry letter) = some (Sample.nodeB, letter) ∧
  ∀ ledger, verdict (postHost letter) (targetSnapshot (postCenter ledger)) Sample.now letter = ⟨.migratable, "ok"⟩

theorem good_passes : Passes goodLetter := by
  refine ⟨by decide +kernel, fun ledger => ?_⟩
  show verdict (postHost goodLetter) (targetSnapshot (postCenter [])) Sample.now goodLetter = _
  decide +kernel

theorem rolled_passes : Passes rolledLetter := by
  refine ⟨by decide +kernel, fun ledger => ?_⟩
  show verdict (postHost rolledLetter) (targetSnapshot (postCenter [])) Sample.now rolledLetter = _
  decide +kernel

theorem post_imported {letter : Json} (h : Passes letter) (ledger : List ImportLedgerEntry) :
    importedEnvelopes (postHost letter) (postSources letter) Sample.now (postCenter ledger) = [letter] := by
  unfold importedEnvelopes readyEntries
  rw [post_entries]
  unfold Reading.chosen
  rw [h.1]
  simp [h.2, Finding.isReady, Reading.chosen]

theorem post_free {letter : Json} (h : Passes letter) (ledger : List ImportLedgerEntry) :
    (inspectMigration (postHost letter) (postSources letter) (targetSnapshot (postCenter ledger)) Sample.now).conflicts = 0 := by
  unfold Inventory.conflicts inspectMigration
  dsimp only
  rw [conflicts_users, conflicts_mailbox, post_records, post_entries]
  unfold Reading.survey
  rw [h.1]
  simp [h.2, Reading.survey, mailboxFinding]

theorem post_roomy {letter : Json} (hbytes : (letter.byteLength : Int) ≤ defaultLimits.maxBytes) :
    Roomy (defaultLimits.config (postHost letter)) [] [letter] := by
  refine ⟨?_, ?_, fun toNode => ?_⟩
  · show ((0 : Nat) : Int) + ((1 : Nat) : Int) ≤ 10000
    decide
  · rw [List.map_singleton, List.sum_singleton]
    show 0 + (letter.byteLength : Int) ≤ defaultLimits.maxBytes
    omega
  · have hone := List.length_filter_le (fun env => decide (Env.toNode env = toNode)) [letter]
    show ((0 : Nat) : Int) + _ ≤ (1000 : Int)
    rw [List.length_singleton] at hone
    omega

theorem good_key : envelopeKey goodLetter = (Sample.nodeA, Sample.msg 1) := rfl

theorem good_encodes : (Custody.encode (postHost goodLetter).toHost goodLetter).isSome = true := by decide +kernel

/-- The letter that is in order is imported. -/
theorem good_imported (ledger : List ImportLedgerEntry) : ∃ report db',
    importMigration (postHost goodLetter) defaultLimits (postSources goodLetter) Sample.now (postCenter ledger) =
      .ok (report, db') := by
  have henvelopes := post_imported good_passes ledger
  refine import_succeeds platform_digest (by decide) ⟨Nat.zero_le _, Nat.zero_le _⟩ (post_free good_passes ledger) ?_ ?_ ?_ ?_
  · rw [henvelopes]
    exact post_roomy (by decide +kernel)
  · rw [henvelopes]
    intro env henv
    rw [List.mem_singleton.mp henv]
    exact good_encodes
  · exact Or.inr fun row hrow => absurd hrow List.not_mem_nil
  · exact fun _ _ u hu => absurd hu List.not_mem_nil

/-- The ledger row of a source with a digest of zeros. -/
def zeroRow (kind : SourceKind) : ImportLedgerEntry :=
  ⟨String.ofList (List.replicate 64 '0'), kind, "2026-01-01T00:00:00.000Z", 1, 0, 0, 0⟩

def mailSource : SourceKind × FileSource := (.mailbox, fileOf "/mailbox.json" (mailOf goodLetter))

/-- A ledger of such rows has the sources of their kinds. -/
theorem zero_ledgered {kinds : List SourceKind} {source : SourceKind × FileSource} :
    Ledgered (postHost goodLetter) (postCenter (kinds.map zeroRow)) source ↔ source.1 ∈ kinds := by
  have hplain : columnText (String.ofList (List.replicate 64 '0')) = String.ofList (List.replicate 64 '0') :=
    columnText_of_noNul (noNul_of_isDigest (@platform_digest (Host.ofTables [] []) [] []))
  show (source.1, String.ofList (List.replicate 64 '0')) ∈
    (kinds.map zeroRow).map (fun r => (r.kind, columnText r.source_sha256)) ↔ source.1 ∈ kinds
  rw [List.map_map]
  constructor
  · intro h
    obtain ⟨kind, hkind, heq⟩ := List.mem_map.mp h
    exact (Prod.mk.inj heq).1 ▸ hkind
  · intro h
    refine List.mem_map.mpr ⟨source.1, h, ?_⟩
    show (source.1, columnText (String.ofList (List.replicate 64 '0'))) = _
    rw [hplain]

theorem mail_ledgered : Ledgered (postHost goodLetter) (postCenter [zeroRow .mailbox]) mailSource :=
  (@zero_ledgered [.mailbox] mailSource).mpr (List.mem_singleton_self _)

theorem both_ledgered (source : SourceKind × FileSource) (h : source ∈ (postSources goodLetter).files) :
    Ledgered (postHost goodLetter) (postCenter [zeroRow .users, zeroRow .mailbox]) source := by
  refine (@zero_ledgered [.users, .mailbox] source).mpr ?_
  rcases List.mem_cons.mp h with rfl | h
  · exact List.mem_cons_self
  · rw [List.mem_singleton.mp h]
    exact List.mem_cons_of_mem _ (List.mem_singleton_self _)

/-- Once more with both files. -/
theorem import_repeats_both : ∃ r,
    importMigration (postHost goodLetter) defaultLimits (postSources goodLetter) Sample.now
      (postCenter [zeroRow .users, zeroRow .mailbox]) = .ok r ∧
    Untouched (postCenter [zeroRow .users, zeroRow .mailbox])
      (afterImport (postHost goodLetter) defaultLimits (postSources goodLetter) Sample.now
        (postCenter [zeroRow .users, zeroRow .mailbox])) .mailbox := by
  obtain ⟨report, db', h⟩ := good_imported [zeroRow .users, zeroRow .mailbox]
  have hledgered := both_ledgered mailSource (List.mem_cons_of_mem _ (List.mem_singleton_self _))
  exact ⟨_, h, ((import_repeats hledgered).2 _ h).mpr (Or.inl fun other hother _ => both_ledgered other hother)⟩

/-- A mailbox of which the ledger has the digest comes again with a new users file, after its letter was
    pruned: the letter is pending once more. -/
theorem pruned_letter_returns : mailSource ∈ (postSources goodLetter).files ∧
    Ledgered (postHost goodLetter) (postCenter [zeroRow .mailbox]) mailSource ∧
    (postCenter [zeroRow .mailbox]).custody = [] ∧
    (∃ r, importMigration (postHost goodLetter) defaultLimits (postSources goodLetter) Sample.now
      (postCenter [zeroRow .mailbox]) = .ok r) ∧
    (afterImport (postHost goodLetter) defaultLimits (postSources goodLetter) Sample.now
      (postCenter [zeroRow .mailbox])).custody.map (fun row => (row.key, row.status)) =
        [((Sample.nodeA, Sample.msg 1), .pending)] := by
  obtain ⟨report, db', h⟩ := good_imported [zeroRow .mailbox]
  have hmail : mailSource ∈ (postSources goodLetter).files := List.mem_cons_of_mem _ (List.mem_singleton_self _)
  refine ⟨hmail, mail_ledgered, rfl, ⟨_, h⟩, ?_⟩
  rw [afterImport_ok h]
  rcases import_ok h with ⟨hall, -, -⟩ | ⟨-, hcommits, -⟩
  · have husers := hall (.users, fileOf "/auth/users.json" (.arr [])) List.mem_cons_self
    exact absurd (List.mem_singleton.mp ((@zero_ledgered [.mailbox] _).mp husers)) SourceKind.noConfusion
  · rw [hcommits.custody, post_imported good_passes]
    unfold withEnvelopes
    obtain ⟨encoded, hencoded⟩ := Option.isSome_iff_exists.mp good_encodes
    obtain ⟨-, expires, -, rfl⟩ := Custody.encode_eq.mp hencoded
    have hrow : storedRow (postHost goodLetter).toHost Sample.now goodLetter = some (Custody.admitted
        ⟨goodLetter, goodLetter.byteLength, (postHost goodLetter).digest goodLetter, expires⟩ Sample.now) := by
      unfold storedRow
      rw [hencoded]
      rfl
    have hkey := @key_admitted Sample.now (defaultLimits.config (postHost goodLetter)) goodLetter _ hencoded
    have hnone : Custody.expired Sample.now (postCenter [zeroRow .mailbox]).custody = [] := rfl
    rw [List.isEmpty_cons, if_neg Bool.false_ne_true, List.filterMap_cons_some hrow, hnone, List.nil_append, List.filterMap_nil,
      List.map_singleton, hkey, good_key, Custody.admitted]

/-! ## Doing what was announced -/

/-- The tables hold what they held, and of the sources exactly the records that the inventory calls
    migratable with reason `ok`: each the record it stands for, under its identity and with its content. -/
structure Announced (host : MigrateHost) (sources : MigrationSources) (now : Int) (db db' : CenterTables) : Prop where
  users : ∃ taken : List (Json × UserRecord),
    ((inspectMigration host sources (targetSnapshot db) now).users.records.filter fun f => f.isReady) =
      taken.map (fun c => userFinding host c.2 .migratable "ok") ∧
    (∀ c ∈ taken, c.1 ∈ userRecords host sources.usersJson ∧ parseUserRecord host.calendar c.1 true = some c.2) ∧
    db'.auth = withUsers db.auth (taken.map Prod.snd) (db.auth.users ++ taken.map Prod.snd)
  mailbox : ∃ taken : List ((String × Json) × (String × Json)),
    ((inspectMigration host sources (targetSnapshot db) now).mailbox.entries.filter fun f => f.isReady) =
      taken.map (fun c => mailboxFinding host c.2 ⟨.migratable, "ok"⟩) ∧
    (∀ c ∈ taken, c.1 ∈ mailboxEntries host sources.mailbox ∧ c.1.2.get "envelope" = some c.2.2) ∧
    (∀ c ∈ taken, (storedRow host.toHost now c.2.2).isSome = true) ∧
    db'.custody = withEnvelopes host.toHost now db.custody (taken.map fun c => c.2.2)
  ledger : db'.ledger = db.ledger ++ newEntries host sources now db
  nodes : db'.nodes = db.nodes

theorem read_user {raw : Json} {rec : UserRecord} (h : (userReading host).read raw = some rec) :
    parseUserRecord host.calendar raw true = some rec ∧ isCanonical host.calendar rec.created_at = true :=
  Option.filter_eq_some_iff.mp h

theorem read_entry {entry read : String × Json} (h : (entryReading host).read entry = some read) :
    entry.2.get "envelope" = some read.2 := by
  simp only [entryReading, Option.bind_eq_some_iff, Option.ite_none_right_eq_some, Option.some.injEq] at h
  obtain ⟨e, he, -, rfl⟩ := h
  exact he

/-- Without a source there is nothing to take. -/
theorem nothing_of_no_files (h : sources.files = []) : readyUsers host sources (targetSnapshot db) = [] ∧
    readyEntries host sources (targetSnapshot db) now = [] ∧ newEntries host sources now db = [] := by
  have hnoUsers : sources.usersJson = none := by
    cases hsrc : sources.usersJson with
    | none => rfl
    | some src => simp [MigrationSources.files, hsrc] at h
  have hnoMailbox : sources.mailbox = none := by
    cases hsrc : sources.mailbox with
    | none => rfl
    | some src => simp [MigrationSources.files, hsrc] at h
  refine ⟨?_, ?_, ?_⟩
  · unfold readyUsers userRecords
    rw [hnoUsers]
    rfl
  · unfold readyEntries mailboxEntries
    rw [hnoMailbox]
    rfl
  · unfold newEntries inspectMigration buildSources
    rw [h]
    rfl

/-- Where the ledger has none of the sources, an import over again is one without a source. -/
theorem no_files_of_all (hledger : ∀ source ∈ sources.files, ¬ Ledgered host db source)
    (hall : ∀ source ∈ sources.files, Ledgered host db source) : sources.files = [] :=
  List.eq_nil_iff_forall_not_mem.mpr fun source hsource => hledger source hsource (hall source hsource)

theorem announced_of_ok (hledger : ∀ source ∈ sources.files, ¬ Ledgered host db source)
    (h : importMigration host limits sources now db = .ok (report, db')) : Announced host sources now db db' := by
  have husers : ∀ c ∈ readyUsers host sources (targetSnapshot db),
      c.1 ∈ userRecords host sources.usersJson ∧ parseUserRecord host.calendar c.1 true = some c.2 := fun c hc =>
    ⟨(Reading.mem_chosen hc).1, (read_user (Reading.mem_chosen hc).2.1).1⟩
  have hentries : ∀ c ∈ readyEntries host sources (targetSnapshot db) now,
      c.1 ∈ mailboxEntries host sources.mailbox ∧ c.1.2.get "envelope" = some c.2.2 := fun c hc =>
    ⟨(Reading.mem_chosen hc).1, read_entry (Reading.mem_chosen hc).2.1⟩
  rcases import_ok h with ⟨hall, -, rfl⟩ | ⟨-, hcommits, ⟨hencodes, -⟩, -, -⟩
  · obtain ⟨hnoUsers, hnoEntries, hnoLedger⟩ := @nothing_of_no_files host sources now db' (no_files_of_all hledger hall)
    refine ⟨⟨_, users_ready, husers, ?_⟩, ⟨_, mailbox_ready, hentries, ?_, ?_⟩, ?_, rfl⟩
    · rw [hnoUsers]
      exact withUsers_none.symm
    · rw [hnoEntries]
      exact fun _ hc => absurd hc List.not_mem_nil
    · rw [hnoEntries]
      rfl
    · rw [hnoLedger, List.append_nil]
  · refine ⟨⟨_, users_ready, husers, hcommits.auth⟩, ⟨_, mailbox_ready, hentries, ?_, hcommits.custody⟩, hcommits.ledger,
      hcommits.nodes⟩
    intro c hc
    unfold storedRow
    rw [Option.isSome_map]
    exact hencodes c.2.2 (List.mem_map.mpr ⟨c, hc, rfl⟩)

/-- **An import does what the dry run announced exactly when** the custody codec admits every envelope that is
    ready, no row of a user has, beyond a NUL, the very name of one that is ready, and, where there is an
    envelope to store, the rows that are due can be read. -/
theorem import_as_announced (hsha : ∀ bytes, isDigest (host.sha256Bytes bytes) = true) (hnow : validTime now = true)
    (hsnapshot : readTargetSnapshot db = .ok (targetSnapshot db))
    (hfree : (inspectMigration host sources (targetSnapshot db) now).conflicts = 0)
    (hledger : ∀ source ∈ sources.files, ¬ Ledgered host db source)
    (hroomy : Roomy (limits.config host) db.custody (importedEnvelopes host sources now db)) :
    (∃ report db', importMigration host limits sources now db = .ok (report, db') ∧ Announced host sources now db db') ↔
      (∀ env ∈ importedEnvelopes host sources now db, (Custody.encode host.toHost env).isSome = true) ∧
      (∀ rec ∈ importedUsers host sources db, ∀ u ∈ db.auth.users, u.username ≠ rec.username) ∧
      (importedEnvelopes host sources now db = [] ∨ DueReadable (limits.config host) now db.custody) := by
  constructor
  · rintro ⟨report, db', h, -⟩
    rcases import_ok h with ⟨hall, -, -⟩ | ⟨-, -, ⟨hencodes, hdue⟩, hnew, -⟩
    · obtain ⟨hnoUsers, hnoEntries, -⟩ := @nothing_of_no_files host sources now db (no_files_of_all hledger hall)
      unfold importedEnvelopes importedUsers
      rw [hnoUsers, hnoEntries]
      exact ⟨fun _ henv => absurd henv List.not_mem_nil, fun _ hrec => absurd hrec List.not_mem_nil, Or.inl rfl⟩
    · exact ⟨hencodes, hnew, hdue⟩
  · rintro ⟨hencodes, hnew, hdue⟩
    simp only [readTargetSnapshot, bind_ok_iff, require_ok_iff, exists_const, Bool.and_eq_true, decide_eq_true_eq] at hsnapshot
    obtain ⟨report, db', h⟩ := import_succeeds hsha hnow hsnapshot.1 hfree hroomy hencodes hdue hnew
    exact ⟨report, db', h, announced_of_ok hledger h⟩

/-- The letter whose day does not exist is found ready, and refused by the codec. -/
theorem rolled_letter_refused : readTargetSnapshot (postCenter []) = .ok (targetSnapshot (postCenter [])) ∧
    (inspectMigration (postHost rolledLetter) (postSources rolledLetter) (targetSnapshot (postCenter [])) Sample.now).conflicts = 0 ∧
    (∀ source ∈ (postSources rolledLetter).files, ¬ Ledgered (postHost rolledLetter) (postCenter []) source) ∧
    Roomy (defaultLimits.config (postHost rolledLetter)) (postCenter []).custody
      (importedEnvelopes (postHost rolledLetter) (postSources rolledLetter) Sample.now (postCenter [])) ∧
    ((inspectMigration (postHost rolledLetter) (postSources rolledLetter) (targetSnapshot (postCenter [])) Sample.now).mailbox.entries.filter
      fun f => f.isReady).length = 1 ∧
    ∀ report db', importMigration (postHost rolledLetter) defaultLimits (postSources rolledLetter) Sample.now (postCenter []) ≠
      .ok (report, db') := by
  have hempty : ∀ source ∈ (postSources rolledLetter).files, ¬ Ledgered (postHost rolledLetter) (postCenter []) source :=
    fun source _ h => absurd h List.not_mem_nil
  refine ⟨rfl, post_free rolled_passes [], hempty, ?_, ?_, fun report db' h => ?_⟩
  · rw [post_imported rolled_passes]
    exact post_roomy (by decide +kernel)
  · have hone := congrArg List.length (post_imported rolled_passes [])
    unfold importedEnvelopes at hone
    rw [mailbox_ready, List.length_map]
    rwa [List.length_map] at hone
  · rcases import_ok h with ⟨hall, -, -⟩ | ⟨-, -, ⟨hencodes, -⟩, -⟩
    · exact hempty _ List.mem_cons_self (hall _ List.mem_cons_self)
    · have hone := hencodes rolledLetter (by rw [post_imported rolled_passes]; exact List.mem_singleton_self _)
      exact absurd hone (by decide +kernel)

/-- A mailbox with a letter in order is imported as it was announced. -/
theorem import_as_announced_letter : ∃ report db',
    importMigration (postHost goodLetter) defaultLimits (postSources goodLetter) Sample.now (postCenter []) = .ok (report, db') ∧
      Announced (postHost goodLetter) (postSources goodLetter) Sample.now (postCenter []) db' := by
  have henvelopes := post_imported good_passes []
  have hdigest : ∀ bytes, isDigest ((postHost goodLetter).sha256Bytes bytes) = true := platform_digest
  refine (import_as_announced hdigest (by decide) rfl (post_free good_passes [])
    (fun source _ h => absurd h List.not_mem_nil) ?_).mpr ⟨?_, fun _ _ u hu => absurd hu List.not_mem_nil, Or.inr fun row hrow =>
      absurd hrow List.not_mem_nil⟩
  · rw [henvelopes]
    exact post_roomy (by decide +kernel)
  · rw [henvelopes]
    intro env henv
    rw [List.mem_singleton.mp henv]
    exact good_encodes

/-! ## Reading what was written -/

/-- What the platform is relied on for. -/
structure MigrateHost.Lawful (host : MigrateHost) : Prop where
  calendar : host.calendar.Lawful
  sha_hex : ∀ bytes, isDigest (host.sha256Bytes bytes) = true
  /-- A text has fewer values in it than an array can hold. -/
  records : ∀ text items, host.parse text = some (.arr items) → items.length ≤ arrayLimit
  entries : ∀ text file, host.parse text = some file → (entriesOf file).length ≤ arrayLimit

/-- `load(raw)` of the import ledger accepts the row. -/
def loadsLedger (cal : Calendar) (row : ImportLedgerEntry) : Bool :=
  isDigest (columnText row.source_sha256) && isCanonical cal (columnText row.imported_at) &&
    Json.isNonnegative row.migratable && Json.isNonnegative row.blocked && Json.isNonnegative row.non_migratable &&
    Json.isNonnegative row.invalid

/-- The three stores accept the database. -/
structure Readable (host : MigrateHost) (limits : CustodyLimits) (db : CenterTables) : Prop where
  auth : ∃ s, readSnapshot host.calendar db.auth = .ok s
  custody : Custody.Sound (limits.config host) db.custody
  ledger : ∀ row ∈ db.ledger, loadsLedger host.calendar row = true

/-- The users that were read have the names of the rows, as a column answers them. -/
theorem readUsers_names {cal : Calendar} {users users' : Users} {rows : List UserRecord}
    (h : foldSteps (readUser cal) users rows = .ok users') :
    users'.rows.map UserRecord.username = users.rows.map UserRecord.username ++ rows.map fun row => columnText row.username := by
  induction rows generalizing users with
  | nil =>
    simp only [foldSteps, Except.ok.injEq] at h
    rw [h, List.map_nil, List.append_nil]
  | cons row rest ih =>
    simp only [foldSteps, bind_ok_iff] at h
    obtain ⟨middle, hfirst, hrest⟩ := h
    obtain ⟨v, hv, hnew, -, rfl⟩ := readUser_ok.mp hfirst
    obtain ⟨-, -, -, -, rfl⟩ := parse_userRow.mp hv
    rw [ih hrest, Records.rows_set_new hnew, List.map_append, List.append_assoc]
    rfl

/-- Sessions are read as well where there are more users. -/
theorem readSessions_more {users users' : Users} {sessions sessions' : Sessions} {rows : List SessionRow}
    (hmore : ∀ name, users.has name = true → users'.has name = true)
    (h : foldSteps (readSession users) sessions rows = .ok sessions') :
    foldSteps (readSession users') sessions rows = .ok sessions' := by
  refine foldSteps_mono (fun s row _ s' hrow => ?_) h
  simp only [readSession, bind_ok_iff, expect_ok_iff, Bool.and_eq_true] at hrow ⊢
  obtain ⟨u, ⟨⟨⟨hhash, huser⟩, hcsrf⟩, hexpires⟩, hset⟩ := hrow
  exact ⟨u, ⟨⟨⟨hhash, hmore _ huser⟩, hcsrf⟩, hexpires⟩, hset⟩

/-- **New users whose names have no NUL are read back** with the rows that were there. -/
theorem readSnapshot_withUsers {cal : Calendar} {auth : AuthTables} {more : List UserRecord} {s : AuthSnapshot}
    (h : readSnapshot cal auth = .ok s) (hwhole : ∀ u ∈ more, Whole cal u) (hnames : (more.map UserRecord.username).Nodup)
    (hnew : ∀ u ∈ more, ∀ row ∈ auth.users, columnText row.username ≠ u.username)
    (hsafe : ((auth.users ++ more).length : Int) ≤ Json.maxSafe) :
    ∃ s', readSnapshot cal (withUsers auth more (auth.users ++ more)) = .ok s' ∧ s'.users.rows = s.users.rows ++ more := by
  obtain ⟨hcounted, hinit, husers, hsessions⟩ := readSnapshot_ok.mp h
  have hrowNames := readUsers_names husers
  rw [Records.rows_empty, List.map_nil, List.nil_append] at hrowNames
  have hfresh : ∀ u ∈ more, s.users.has u.username = false := by
    intro u hu
    rw [Bool.eq_false_iff]
    intro hhas
    rw [Records.has_iff, hrowNames] at hhas
    obtain ⟨row, hrow, hname⟩ := List.mem_map.mp hhas
    exact hnew u hu row hrow hname
  obtain ⟨users', hmore, hrows⟩ := readUsers_whole hwhole hnames hfresh
  have hfold : foldSteps (readUser cal) .empty (auth.users ++ more) = .ok users' := by
    rw [foldSteps_append, husers]
    exact hmore
  have hold : ∀ name, s.users.has name = true → users'.has name = true := by
    intro name hname
    rw [Records.has_iff] at hname ⊢
    rw [hrows, List.map_append]
    exact List.mem_append_left _ hname
  have hread := readSessions_more hold hsessions
  cases more with
  | nil =>
    rw [withUsers_none]
    rw [List.append_nil] at hrows
    exact ⟨s, h, (List.append_nil _).symm⟩
  | cons u rest =>
    refine ⟨⟨true, users', s.sessions⟩, readSnapshot_ok.mpr ⟨⟨?_, ?_, ⟨hsafe, hcounted.safe.2⟩, ?_, ?_⟩, rfl, hfold, hread⟩, hrows⟩
    · show auth.user_count + ((u :: rest).length : Int) = ((auth.users ++ u :: rest).length : Int)
      rw [hcounted.users, List.length_append]
      push_cast
      rfl
    · exact hcounted.sessions
    · exact fun hclosed => absurd hclosed (by simp [withUsers])
    · exact fun _ => List.append_ne_nil_of_right_ne_nil _ (List.cons_ne_nil _ _)

/-- A record that is ready is whole, but for a NUL in its name. -/
theorem imported_whole (hhost : host.Lawful) {rec : UserRecord} (hrec : rec ∈ importedUsers host sources db)
    (hplain : ∀ ch ∈ rec.username.toList, ch.val ≠ 0) : Whole host.calendar rec := by
  obtain ⟨c, hc, rfl⟩ := List.mem_map.mp hrec
  obtain ⟨hparse, hcanonical⟩ := read_user (Reading.mem_chosen hc).2.1
  obtain ⟨⟨-, hlong⟩, ⟨-, hsalt⟩, ⟨-, hhash⟩, -, -⟩ := parseUserRecord_iff.mp hparse
  refine ⟨hplain, hlong, hsalt, hhash, hcanonical, ?_⟩
  -- a canonical time is one that was written
  obtain ⟨t, -, ht⟩ := (Option.any_eq_true _ _).mp hcanonical
  rw [decide_eq_true_eq] at ht
  rw [← ht]
  exact hhost.calendar.plain t

theorem count_le {classes : List MigrationClass} {c : MigrationClass} (h : classes.length ≤ arrayLimit + 1) :
    Json.isNonnegative (classes.count c : Int) = true := by
  rw [Json.isNonnegative_iff]
  have hcount := List.count_le_length (a := c) (l := classes)
  unfold arrayLimit at h
  unfold Json.maxSafe
  omega

/-- What is counted is at most one word more than there are records. -/
theorem counts_safe (hhost : host.Lawful) : ∃ users mailbox : List MigrationClass,
    (inspectMigration host sources (targetSnapshot db) now).users.counts = tally users ∧ users.length ≤ arrayLimit + 1 ∧
    (inspectMigration host sources (targetSnapshot db) now).mailbox.counts = tally mailbox ∧ mailbox.length ≤ arrayLimit + 1 := by
  have husers : ∃ users : List MigrationClass,
      (inspectMigration host sources (targetSnapshot db) now).users.counts = tally users ∧ users.length ≤ arrayLimit + 1 := by
    unfold inspectMigration classifyUsers
    cases sources.usersJson with
    | none => exact ⟨[], rfl, Nat.zero_le _⟩
    | some src =>
      dsimp only
      split
      · exact ⟨[.invalid], rfl, Nat.le_add_left 1 _⟩
      · rename_i items hparse
        refine ⟨_, rfl, ?_⟩
        rw [List.length_map, Reading.length_survey]
        exact Nat.le_succ_of_le (hhost.records _ _ hparse)
      · exact ⟨[.invalid], rfl, Nat.le_add_left 1 _⟩
  have hmailbox : ∃ mailbox : List MigrationClass,
      (inspectMigration host sources (targetSnapshot db) now).mailbox.counts = tally mailbox ∧
        mailbox.length ≤ arrayLimit + 1 := by
    unfold inspectMigration classifyMailbox
    cases sources.mailbox with
    | none => exact ⟨[], rfl, Nat.zero_le _⟩
    | some src =>
      dsimp only
      split
      · exact ⟨[.invalid], rfl, Nat.le_add_left 1 _⟩
      · rename_i file hparse
        split
        · exact ⟨[.invalid], rfl, Nat.le_add_left 1 _⟩
        · refine ⟨_, rfl, ?_⟩
          rw [List.length_map, Reading.length_survey]
          exact Nat.le_succ_of_le (hhost.entries _ _ hparse)
  obtain ⟨users, hu, hulength⟩ := husers
  obtain ⟨mailbox, hm, hmlength⟩ := hmailbox
  exact ⟨users, mailbox, hu, hulength, hm, hmlength⟩

/-- The ledger accepts what an import writes to it. -/
theorem newEntries_load (hhost : host.Lawful) (hnow : validTime now = true) :
    ∀ row ∈ newEntries host sources now db, loadsLedger host.calendar row = true := by
  intro row hrow
  obtain ⟨ref, href, rfl⟩ := List.mem_map.mp hrow
  obtain ⟨source, -, rfl⟩ := List.mem_map.mp (List.mem_filter.mp href).1
  obtain ⟨users, mailbox, hu, hulength, hm, hmlength⟩ := @counts_safe host sources now db hhost
  have hdigest := hhost.sha_hex source.2.bytes
  have htime : isCanonical host.calendar (columnText (host.toISOString now)) = true := by
    obtain ⟨hlow, hhigh⟩ := validTime_iff.mp hnow
    have hplain : ∀ ch ∈ (host.toISOString now).toList, ch.val ≠ 0 := hhost.calendar.plain now
    rw [columnText_of_noNul hplain]
    unfold isCanonical
    have hparse : host.calendar.dateParse (host.toISOString now) = some now := hhost.calendar.parse_iso now hlow hhigh
    rw [hparse]
    exact decide_eq_true rfl
  have hrow : ∀ classes : List MigrationClass, classes.length ≤ arrayLimit + 1 → loadsLedger host.calendar
      ⟨host.sha256Bytes source.2.bytes, source.1, host.toISOString now, (tally classes).migratable, (tally classes).blocked,
        (tally classes).non_migratable, (tally classes).invalid⟩ = true := by
    intro classes hlength
    unfold loadsLedger tally
    simp only [columnText_of_noNul (noNul_of_isDigest hdigest), hdigest, htime, count_le hlength, Bool.and_self]
  unfold ledgerEntry
  dsimp only
  split
  · rw [hu]
    exact hrow users hulength
  · rw [hm]
    exact hrow mailbox hmlength
  · exact hrow _ (by simp [arrayLimit])

theorem imported_few (hhost : host.Lawful) : (importedUsers host sources db).length ≤ arrayLimit := by
  unfold importedUsers readyUsers
  rw [List.length_map]
  refine Nat.le_trans Reading.length_chosen ?_
  unfold userRecords
  cases sources.usersJson with
  | none => exact Nat.zero_le _
  | some src =>
    rw [Option.bind_some]
    cases hparse : host.parse (host.utf8 src.bytes) with
    | none => exact Nat.zero_le _
    | some file =>
      cases file with
      | arr items => exact hhost.records _ _ hparse
      | null | bool | num | str | obj => exact Nat.zero_le _

/-- The users that an import has added. -/
def addedUsers (db db' : CenterTables) : List UserRecord := db'.auth.users.drop db.auth.users.length

theorem added_eq (h : Commits host sources now db report db') : addedUsers db db' = importedUsers host sources db := by
  unfold addedUsers
  rw [h.auth, withUsers_users, List.drop_left]

/-- No name that is read back has a NUL. -/
theorem plain_of_readable (hread : Readable host limits db') (hback : ∀ s, readSnapshot host.calendar db'.auth = .ok s →
    ∀ u ∈ addedUsers db db', s.users.get u.username = some u) :
    ∀ u ∈ addedUsers db db', ∀ ch ∈ u.username.toList, ch.val ≠ 0 := by
  intro u hu
  obtain ⟨s, hs⟩ := hread.auth
  obtain ⟨-, -, husers, -⟩ := readSnapshot_ok.mp hs
  have hplain := readUsers_plain husers fun _ hv => absurd hv List.not_mem_nil
  exact noNul_of_columnText (hplain u (Table.lookup_some_mem (hback s hs u hu)))

/-- **The stores can read what an import wrote, every user as it was imported, exactly when** nothing was
    new to the ledger, or no name that is ready has a NUL. -/
theorem import_readable (hhost : host.Lawful) (hvalid : Readable host limits db)
    (h : importMigration host limits sources now db = .ok (report, db')) :
    (Readable host limits db' ∧ ∀ s, readSnapshot host.calendar db'.auth = .ok s →
      ∀ u ∈ addedUsers db db', s.users.get u.username = some u) ↔
      (∀ source ∈ sources.files, Ledgered host db source) ∨
        ∀ rec ∈ importedUsers host sources db, ∀ ch ∈ rec.username.toList, ch.val ≠ 0 := by
  obtain ⟨hnow, hroom, -, -⟩ := import_iff.mp h
  rcases import_ok h with ⟨hall, -, rfl⟩ | ⟨⟨source, hsource, hnot⟩, hcommits, -, -, hsound⟩
  · refine iff_of_true ⟨hvalid, fun s _ u hu => ?_⟩ (Or.inl hall)
    unfold addedUsers at hu
    rw [List.drop_length] at hu
    exact absurd hu List.not_mem_nil
  · rw [or_iff_right fun hall => hnot (hall source hsource)]
    have hadded := added_eq hcommits
    constructor
    -- a name with a NUL is read back cut short, so it is not found under itself
    · rintro ⟨hread, hback⟩
      exact hadded ▸ plain_of_readable hread hback
    · intro hplain
      obtain ⟨s, hs⟩ := hvalid.auth
      -- two arrays of the source's length limit stay below the largest safe integer
      have hfew : ((db.auth.users ++ importedUsers host sources db).length : Int) ≤ Json.maxSafe := by
        have hrecords := @imported_few host sources db hhost
        have hlimit := hroom.1
        rw [List.length_append]
        unfold arrayLimit at hrecords hlimit
        unfold Json.maxSafe
        omega
      obtain ⟨s', hs', hrows⟩ := readSnapshot_withUsers hs (fun u hu => imported_whole hhost hu (hplain u hu)) imported_names
        (fun u hu row hrow => imported_new hu row hrow) hfew
      refine ⟨⟨⟨s', hcommits.auth ▸ hs'⟩, hsound hvalid.custody, ?_⟩, fun s'' hs'' u hu => ?_⟩
      · intro row hrow
        rw [hcommits.ledger] at hrow
        rcases List.mem_append.mp hrow with hrow | hrow
        · exact hvalid.ledger row hrow
        · exact newEntries_load hhost hnow row hrow
      · rw [hcommits.auth, hs'] at hs''
        obtain rfl := Except.ok.inj hs''
        refine Table.lookup_of_mem (Records.keyed _) ?_
        rw [hrows]
        exact List.mem_append_right _ (hadded ▸ hu)

end

/-! ## A users file -/

/-- A user record of the first version, without a role. -/
def userDoc (name : String) : Json :=
  .obj [("username", .str name), ("salt", .str (zeros 32)), ("hash", .str (zeros 128)),
    ("created_at", .str "1970-01-01T00:00:00.000Z")]

/-- What the import reads it as. -/
def docUser (name : String) : UserRecord := ⟨name, .global_owner, zeros 32, zeros 128, "1970-01-01T00:00:00.000Z"⟩

def usersHost (names : List String) : MigrateHost :=
  platform { Host.ofTables [] [] with dateParse := strokes.dateParse, toISOString := strokes.toISOString }
    [.arr (names.map userDoc)]

def usersSources (names : List String) : MigrationSources :=
  ⟨some (fileOf "/auth/users.json" (.arr (names.map userDoc))), none, none⟩

section

variable {names : List String}

theorem lawful_usersHost (hlength : names.length ≤ arrayLimit) : (usersHost names).Lawful where
  calendar := lawful_strokes
  sha_hex := platform_digest
  records text items h := by
    rw [Json.arr.inj (List.mem_singleton.mp (platform_mem h)), List.length_map]
    exact hlength
  entries text file h := by
    rw [List.mem_singleton.mp (platform_mem h)]
    exact Nat.zero_le _

theorem users_records (names : List String) :
    userRecords (usersHost names) (usersSources names).usersJson = names.map userDoc := by
  have hread := @platform_reads
    { Host.ofTables [] [] with dateParse := strokes.dateParse, toISOString := strokes.toISOString } []
    (.arr (names.map userDoc)) "/auth/users.json"
  unfold userRecords usersSources
  rw [Option.bind_some]
  unfold usersHost
  rw [hread]
  rfl

/-- The record is read as that of an owner. -/
theorem read_userDoc {name : String} (h : 3 ≤ unitLength name) :
    (userReading (usersHost names)).read (userDoc name) = some (docUser name) := by
  have hhex : isHexText 32 (zeros 32) = true ∧ isHexText 128 (zeros 128) = true := by decide
  refine Option.filter_eq_some_iff.mpr
    ⟨parseUserRecord_iff.mpr ⟨⟨rfl, h⟩, ⟨rfl, hhex.1⟩, ⟨rfl, hhex.2⟩, ⟨rfl, rfl⟩, rfl⟩, ?_⟩
  show isCanonical strokes "1970-01-01T00:00:00.000Z" = true
  decide +kernel

theorem chosen_docs {more seen : List String} (hlong : ∀ name ∈ more, 3 ≤ unitLength name) (hnodup : more.Nodup)
    (hfresh : ∀ name ∈ more, name ∉ seen) :
    (userReading (usersHost names)).chosen (fun rec => (targetUser (targetSnapshot (postCenter [])) rec.username).isNone) seen
      (more.map userDoc) = more.map fun name => (userDoc name, docUser name) := by
  induction more generalizing seen with
  | nil => rfl
  | cons name rest ih =>
    rw [List.nodup_cons] at hnodup
    have hrest := @ih (name :: seen) (fun n hn => hlong n (List.mem_cons_of_mem _ hn)) hnodup.2 fun n hn hseen => by
      rcases List.mem_cons.mp hseen with rfl | hseen
      · exact hnodup.1 hn
      · exact hfresh n (List.mem_cons_of_mem _ hn) hseen
    have hkey : (userReading (usersHost names)).key (docUser name) = name := rfl
    rw [List.map_cons, List.map_cons, Reading.chosen, read_userDoc (hlong name List.mem_cons_self)]
    dsimp only
    rw [hkey, if_neg (hfresh name List.mem_cons_self), hrest]
    rfl

/-- All of them are ready for an empty center. -/
theorem users_inserted (hlong : ∀ name ∈ names, 3 ≤ unitLength name) (hnodup : names.Nodup) :
    readyUsers (usersHost names) (usersSources names) (targetSnapshot (postCenter [])) =
      names.map fun name => (userDoc name, docUser name) := by
  unfold readyUsers
  rw [users_records]
  exact chosen_docs hlong hnodup fun _ _ h => absurd h List.not_mem_nil

theorem survey_docs {more seen : List String} (hlong : ∀ name ∈ more, 3 ≤ unitLength name) :
    .conflict ∉ ((userReading (usersHost names)).survey (unreadUser (usersHost names))
      (fun rec => userFinding (usersHost names) rec .invalid "duplicate_username")
      (judgeUser (usersHost names) (targetSnapshot (postCenter []))) seen (more.map userDoc)).map fun f => f.cls := by
  induction more generalizing seen with
  | nil => exact List.not_mem_nil
  | cons name rest ih =>
    have hrest := fun seen => @ih seen fun n hn => hlong n (List.mem_cons_of_mem _ hn)
    rw [List.map_cons, Reading.survey, read_userDoc (hlong name List.mem_cons_self)]
    dsimp only
    split
    · rw [List.map_cons, List.mem_cons]
      exact not_or.mpr ⟨MigrationClass.noConfusion, hrest _⟩
    · rw [List.map_cons, List.mem_cons]
      exact not_or.mpr ⟨MigrationClass.noConfusion, hrest _⟩

theorem users_imported (hlong : ∀ name ∈ names, 3 ≤ unitLength name) : ∃ report db',
    importMigration (usersHost names) defaultLimits (usersSources names) 0 (postCenter []) = .ok (report, db') := by
  have hfree : (inspectMigration (usersHost names) (usersSources names) (targetSnapshot (postCenter [])) 0).conflicts = 0 := by
    unfold Inventory.conflicts inspectMigration
    dsimp only
    rw [conflicts_users, users_records, Nat.add_eq_zero_iff]
    exact ⟨List.count_eq_zero.mpr (survey_docs hlong), rfl⟩
  have hnone : importedEnvelopes (usersHost names) (usersSources names) 0 (postCenter []) = [] := rfl
  refine import_succeeds platform_digest (by decide) ⟨Nat.zero_le _, Nat.zero_le _⟩ hfree ?_ ?_ (Or.inl hnone) ?_
  · rw [hnone]
    refine ⟨?_, ?_, fun toNode => ?_⟩
    · show (0 : Int) ≤ 10000
      decide
    · show (0 : Int) ≤ 64 * 1024 * 1024
      decide
    · show (0 : Int) ≤ 1000
      decide
  · rw [hnone]
    exact fun _ henv => absurd henv List.not_mem_nil
  · exact fun _ _ u hu => absurd hu List.not_mem_nil

theorem readable_postCenter {limits : CustodyLimits} : Readable (usersHost names) limits (postCenter []) where
  auth := ⟨⟨false, .empty, .empty⟩, rfl⟩
  custody := Custody.Sound.empty
  ledger _ hrow := absurd hrow List.not_mem_nil

end

/-- After the import of a user with an ordinary name the center is readable. -/
theorem import_readable_admin : ∃ report db',
    importMigration (usersHost ["admin"]) defaultLimits (usersSources ["admin"]) 0 (postCenter []) = .ok (report, db') ∧
      Readable (usersHost ["admin"]) defaultLimits db' := by
  have hlong : ∀ name ∈ ["admin"], 3 ≤ unitLength name := by decide +kernel
  obtain ⟨report, db', h⟩ := users_imported hlong
  refine ⟨report, db', h, ((import_readable (lawful_usersHost (by decide)) readable_postCenter h).mpr (Or.inr ?_)).1⟩
  unfold importedUsers
  rw [users_inserted hlong (List.nodup_singleton _)]
  intro rec hrec
  rw [List.mem_singleton.mp hrec]
  have hall : ("admin".toList.all fun ch => decide (ch.val ≠ 0)) = true := by decide +kernel
  exact fun ch hch => of_decide_eq_true (List.all_eq_true.mp hall ch hch)

/-- A name with a NUL near its start is imported, and the auth store does not open any more. -/
theorem nul_name_unreadable : (usersHost ["ab\x00c"]).Lawful ∧ Readable (usersHost ["ab\x00c"]) defaultLimits (postCenter []) ∧
    ∃ report db', importMigration (usersHost ["ab\x00c"]) defaultLimits (usersSources ["ab\x00c"]) 0 (postCenter []) =
        .ok (report, db') ∧ ∀ s, readSnapshot (usersHost ["ab\x00c"]).calendar db'.auth ≠ .ok s := by
  have hlong : ∀ name ∈ ["ab\x00c"], 3 ≤ unitLength name := by decide +kernel
  obtain ⟨report, db', h⟩ := users_imported hlong
  refine ⟨lawful_usersHost (by decide), readable_postCenter, report, db', h, fun s hs => ?_⟩
  rcases import_ok h with ⟨hall, -, -⟩ | ⟨-, hcommits, -⟩
  · exact absurd (hall _ List.mem_cons_self) List.not_mem_nil
  · rw [hcommits.auth, importedUsers, users_inserted hlong (List.nodup_singleton _)] at hs
    obtain ⟨-, -, husers, -⟩ := readSnapshot_ok.mp hs
    rw [withUsers_users] at husers
    obtain ⟨before, after, hone⟩ := foldSteps_mem husers (List.mem_singleton_self (docUser "ab\x00c"))
    obtain ⟨v, hv, -⟩ := readUser_ok.mp hone
    exact absurd (parse_userRow.mp hv).1 (by decide +kernel)

end Migrate
end Qlong
