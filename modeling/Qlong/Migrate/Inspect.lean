import Qlong.Auth.Store
import Qlong.Gateway.Custody
import Qlong.Lib.Survey

/-!
# The inventory of a migration

`packages/cli/src/migrate/inspect.ts`, and `readTargetSnapshot` of `read.ts`: the three files of a first
version center, a snapshot of the database they shall go to, and what is said of every record in them.
Nothing is written. What the inventory calls `migratable` with reason `ok` is what an import inserts.

`JSON.parse(utf8(bytes))` is one step here; the entries of the boxes of a mailbox are gone through as one
list. A finding is counted when it is recorded.
-/

namespace Qlong
namespace Migrate

open Lib Auth Gateway Node

/-! ## Sources and target -/

/-- A file of the first version: its path and its bytes. -/
structure FileSource where
  path : String
  bytes : List UInt8
deriving DecidableEq

/-- The files there are to migrate. -/
structure MigrationSources where
  usersJson : Option FileSource
  initializedMarker : Option FileSource
  mailbox : Option FileSource
deriving DecidableEq

/-- What the migration asks of the platform besides `Host`. -/
structure MigrateHost extends Host where
  /-- `Buffer.toString('utf8')`. -/
  utf8 : List UInt8 → String
  /-- `JSON.parse`, `none` when it throws. -/
  parse : String → Option Json
  /-- SHA-256 of the bytes, in hexadecimal. -/
  sha256Bytes : List UInt8 → String
  /-- `verify(fromBase64(sig.value), signatureInput(env), fromBase64(pubkey))`, `false` when it throws. -/
  verify : Json → String → Bool

def MigrateHost.calendar (host : MigrateHost) : Calendar := ⟨host.dateParse, host.toISOString⟩

/-- The three kinds of source. -/
inductive SourceKind where
  | users
  | initialized
  | mailbox
deriving DecidableEq, Repr

/-- How a record is classified. -/
inductive MigrationClass where
  | migratable
  | conflict
  | blocked
  | non_migratable
  | invalid
deriving DecidableEq, Repr

/-- A key of a node at the target, with its epoch. -/
structure TargetNodeKey where
  epoch : Int
  pubkey : String
deriving DecidableEq

/-- A node the target knows, with the keys it has had. -/
structure TargetNode where
  node_id : String
  team_id : String
  status : String
  keys : List TargetNodeKey
deriving DecidableEq

/-- An envelope the target holds, or has held. -/
structure TargetCustody where
  from_node : String
  msg_id : String
  digest : String
deriving DecidableEq

/-- What the classification reads of the target. -/
structure TargetSnapshot where
  path : String
  schemaId : String
  version : Int
  initialized : Bool
  users : List UserRecord
  custody : List TargetCustody
  nodes : List TargetNode
deriving DecidableEq

/-! ## Findings -/

/-- A classification, and the reason for it. -/
structure Finding where
  cls : MigrationClass
  reason : String
deriving DecidableEq, Repr

/-- A record of users.json as it was classified. -/
structure UserFinding extends Finding where
  username : Option String
  role : Option UserRole
  created_at : Option String
  digest : Option String
deriving DecidableEq

/-- An envelope of the mailbox as it was classified. -/
structure MailboxFinding extends Finding where
  box : String
  msg_id : Option String
  from_node : Option String
  to_node : Option String
  digest : Option String
deriving DecidableEq

structure SourceRef where
  path : String
  kind : SourceKind
  sha256 : String
deriving DecidableEq

/-- How many records are of each class. -/
structure Counts where
  migratable : Nat
  conflict : Nat
  blocked : Nat
  non_migratable : Nat
  invalid : Nat
deriving DecidableEq

/-- `bump` for every class that is recorded. -/
def tally (classes : List MigrationClass) : Counts :=
  ⟨classes.count .migratable, classes.count .conflict, classes.count .blocked, classes.count .non_migratable,
    classes.count .invalid⟩

structure UsersInventory where
  counts : Counts
  records : List UserFinding
  fileError : Option Finding
deriving DecidableEq

structure MailboxInventory where
  counts : Counts
  entries : List MailboxFinding
  fileError : Option Finding
deriving DecidableEq

structure MarkerInventory where
  present : Bool
  valid : Bool
  reason : Option String
deriving DecidableEq

structure TargetInventory where
  path : String
  schema_id : String
  version : Int
  initialized : Bool
  existing_users : Nat
  existing_custody : Nat
deriving DecidableEq

/-- The result of the inspection: every source with its records and its counts. -/
structure Inventory where
  sources : List SourceRef
  users : UsersInventory
  mailbox : MailboxInventory
  initialized : MarkerInventory
  target : TargetInventory
deriving DecidableEq

/-! ## Users -/

/-- `diagnoseUser(raw)`: the word for a record that was refused. -/
def diagnoseUser (cal : Calendar) (raw : Json) : String :=
  if !raw.isRecord then "bad_record"
  else if !(raw.getStr "username").any (fun s => 3 ≤ unitLength s) then "bad_username"
  else if !(raw.getStr "salt").any (isHexText 32) then "bad_salt"
  else if !(raw.getStr "hash").any (isHexText 128) then "bad_hash"
  else if !(raw.getStr "created_at").any (fun s => (cal.dateParse s).isSome) then "bad_created_at"
  else if (raw.get "role").isSome && ((raw.getStr "role").bind UserRole.ofText).isNone then "bad_role"
  else "bad_record"

/-- `userDigest(u)`: credentials are left out. -/
def userDigest (host : Host) (u : UserRecord) : String :=
  host.digest (Json.object [("username", some (.str u.username)), ("role", some (.str u.role.text)),
    ("created_at", some (.str u.created_at))])

/-- A user of the file: the record is admitted, and its time is the canonical one. -/
def userReading (host : MigrateHost) : Reading Json UserRecord String where
  read raw := (parseUserRecord host.calendar raw true).filter fun rec => isCanonical host.calendar rec.created_at
  key := UserRecord.username

/-- What is known of a record that was admitted. -/
def userFinding (host : MigrateHost) (rec : UserRecord) (cls : MigrationClass) (reason : String) : UserFinding :=
  ⟨⟨cls, reason⟩, some rec.username, some rec.role, some rec.created_at, some (userDigest host.toHost rec)⟩

/-- A record that is no user is listed as invalid. -/
def unreadUser (host : MigrateHost) (raw : Json) : UserFinding :=
  match parseUserRecord host.calendar raw true with
  | none => ⟨⟨.invalid, diagnoseUser host.calendar raw⟩, raw.getStr "username", none, none, none⟩
  | some rec => userFinding host rec .invalid "non_canonical_created_at"

/-- `targetUsers.get(username)`: of two rows of one name the later. -/
def targetUser (target : TargetSnapshot) (username : String) : Option UserRecord :=
  target.users.reverse.find? fun u => u.username = username

/-- A user is migratable if the target does not know the name. -/
def judgeUser (host : MigrateHost) (target : TargetSnapshot) (rec : UserRecord) : UserFinding :=
  match targetUser target rec.username with
  | some existing =>
    if existing.role = rec.role ∧ existing.created_at = rec.created_at ∧ existing.salt = rec.salt ∧ existing.hash = rec.hash then
      userFinding host rec .migratable "already_present"
    else userFinding host rec .conflict "target_conflict"
  | none => userFinding host rec .migratable "ok"

def fileError (reason : String) : Finding := ⟨.invalid, reason⟩

/-- `classifyUsers(src, target)`. -/
def classifyUsers (host : MigrateHost) (src : Option FileSource) (target : TargetSnapshot) : UsersInventory :=
  match src with
  | none => ⟨tally [], [], none⟩
  | some src =>
    match host.parse (host.utf8 src.bytes) with
    | none => ⟨tally [.invalid], [], some (fileError "malformed_json")⟩
    | some (.arr items) =>
      let records := (userReading host).survey (unreadUser host) (fun rec => userFinding host rec .invalid "duplicate_username")
        (judgeUser host target) [] items
      ⟨tally (records.map fun r => r.cls), records, none⟩
    | some _ => ⟨tally [.invalid], [], some (fileError "not_an_array")⟩

/-! ## Envelopes -/

/-- The raw entries of the boxes, each with its box. -/
def entriesOf (file : Json) : List (String × Json) :=
  (((file.get "boxes").bind Json.asArr).getD []).flatMap fun box =>
    (((box.get "entries").bind Json.asArr).getD []).map fun entry => ((box.getStr "nodeId").getD "(unknown)", entry)

/-- The file is of the one version there is, and has boxes. -/
def mailboxError (file : Json) : Option Finding :=
  match file with
  | .obj _ | .arr _ =>
    if file.get "v" ≠ some (.num 1) then some (fileError "bad_version")
    else if ((file.get "boxes").bind Json.asArr).isNone then some (fileError "malformed_json")
    else none
  | _ => some (fileError "malformed_json")

/-- `lookupNodeKey(nodes, nodeId, epoch)`: the key, or the word for its absence. -/
def lookupNodeKey (nodes : List TargetNode) (nodeId : String) (epoch : Int) : Except String String :=
  match nodes.find? fun n => n.node_id = nodeId with
  | none => .error "node_unknown"
  | some node =>
    if node.status ≠ "active" then .error "node_inactive"
    else
      match node.keys.getLast?.filter (fun k => epoch = k.epoch) with
      | some current => .ok current.pubkey
      | none =>
        match node.keys.find? fun k => k.epoch = epoch with
        | some hit => .ok hit.pubkey
        | none => .error "unknown_epoch"

/-- `!!v`. -/
def truthy : Option Json → Bool
  | none | some .null | some (.bool false) => false
  | some (.num n) => n ≠ 0
  | some (.str s) => s ≠ ""
  | some _ => true

/-- `verifyEnvelopeSig(env, key)`: the word for a failure. -/
def verifyEnvelopeSig (host : MigrateHost) (env : Json) (pubkey : String) : Option String :=
  if !truthy (env.get "sig") then some "missing_sig"
  else if ((env.get "sig").bind fun sig => sig.get "alg") ≠ some (.str "ed25519") then some "alg_not_allowed"
  else if host.verify env pubkey then none
  else some "bad_sig"

/-- What an envelope is told by: its sender and its id. -/
def envelopeKey (env : Json) : String × String := (Env.fromNode env, Env.msgId env)

/-- `env.from.key_epoch`. -/
def keyEpoch (env : Json) : Int := ((env.get "from").bind fun sender => sender.getNum "key_epoch").getD 0

/-- An entry of a mailbox: its envelope is admitted. -/
def entryReading (host : MigrateHost) : Reading (String × Json) (String × Json) (String × String) where
  read entry := (entry.2.get "envelope").bind fun env =>
    if (validateEnvelope host.toHost defaultParams false env).isEmpty then some (entry.1, env) else none
  key entry := envelopeKey entry.2

/-- `targetCustody.get(key)`. -/
def targetDigest (target : TargetSnapshot) (key : String × String) : Option String :=
  (target.custody.reverse.find? fun c => (c.from_node, c.msg_id) = key).map TargetCustody.digest

/-- What is found of an envelope that is admitted: identity before key, key before signature, and its own
    expiry last. -/
def verdict (host : MigrateHost) (target : TargetSnapshot) (now : Int) (env : Json) : Finding :=
  match targetDigest target (envelopeKey env) with
  | some existing =>
    if existing = host.digest env then ⟨.migratable, "already_present"⟩ else ⟨.conflict, "target_conflict"⟩
  | none =>
    match lookupNodeKey target.nodes (Env.fromNode env) (keyEpoch env) with
    | .error status => ⟨.blocked, status⟩
    | .ok pubkey =>
      match verifyEnvelopeSig host env pubkey with
      | some reason => ⟨.invalid, reason⟩
      | none =>
        match (Env.exp env).bind host.dateParse with
        | none => ⟨.invalid, "bad_exp"⟩
        | some expMs =>
          if expMs ≤ now then ⟨.non_migratable, "expired"⟩
          else if maxTransportLifetimeMs < expMs - now then ⟨.non_migratable, "lifetime_exceeded"⟩
          else ⟨.migratable, "ok"⟩

def mailboxFinding (host : MigrateHost) (entry : String × Json) (finding : Finding) : MailboxFinding :=
  ⟨finding, entry.1, some (Env.msgId entry.2), some (Env.fromNode entry.2), some (Env.toNode entry.2), some (host.digest entry.2)⟩

def unreadEntry (entry : String × Json) : MailboxFinding :=
  ⟨⟨.invalid, "invalid_envelope"⟩, entry.1, entry.2.getStr "msgId", none, none, none⟩

/-- `classifyMailbox(src, target, now)`. -/
def classifyMailbox (host : MigrateHost) (src : Option FileSource) (target : TargetSnapshot) (now : Int) : MailboxInventory :=
  match src with
  | none => ⟨tally [], [], none⟩
  | some src =>
    match host.parse (host.utf8 src.bytes) with
    | none => ⟨tally [.invalid], [], some (fileError "malformed_json")⟩
    | some file =>
      match mailboxError file with
      | some error => ⟨tally [.invalid], [], some error⟩
      | none =>
        let entries := (entryReading host).survey unreadEntry (fun entry => mailboxFinding host entry ⟨.invalid, "duplicate_msg"⟩)
          (fun entry => mailboxFinding host entry (verdict host target now entry.2)) [] (entriesOf file)
        ⟨tally (entries.map fun e => e.cls), entries, none⟩

/-! ## The whole inventory -/

/-- The one text the marker file may hold. -/
def initializedMarker : String := "initialized-v1\n"

/-- `classifyMarker(src)`. -/
def classifyMarker (host : MigrateHost) (src : Option FileSource) : MarkerInventory :=
  match src with
  | none => ⟨false, false, some "absent"⟩
  | some src =>
    if host.utf8 src.bytes = initializedMarker then ⟨true, true, none⟩ else ⟨true, false, some "bad_marker"⟩

/-- The files there are, each with its kind. -/
def MigrationSources.files (sources : MigrationSources) : List (SourceKind × FileSource) :=
  (sources.usersJson.toList.map fun s => (.users, s)) ++ (sources.initializedMarker.toList.map fun s => (.initialized, s)) ++
    (sources.mailbox.toList.map fun s => (.mailbox, s))

/-- `buildSources(sources)`. -/
def buildSources (host : MigrateHost) (sources : MigrationSources) : List SourceRef :=
  sources.files.map fun s => ⟨s.2.path, s.1, host.sha256Bytes s.2.bytes⟩

/-- `inspectMigration(sources, target, now)`. -/
def inspectMigration (host : MigrateHost) (sources : MigrationSources) (target : TargetSnapshot) (now : Int) : Inventory where
  sources := buildSources host sources
  users := classifyUsers host sources.usersJson target
  mailbox := classifyMailbox host sources.mailbox target now
  initialized := classifyMarker host sources.initializedMarker
  target := ⟨target.path, target.schemaId, target.version, target.initialized, target.users.length, target.custody.length⟩

/-! ## What is ready -/

section

variable {host : MigrateHost} {sources : MigrationSources} {target : TargetSnapshot} {now : Int}

/-- `class === 'migratable' && reason === 'ok'`. -/
def Finding.isReady (f : Finding) : Bool := f.cls = .migratable && f.reason = "ok"

/-- The raw records of the users file. -/
def userRecords (host : MigrateHost) (src : Option FileSource) : List Json :=
  ((src.bind fun src => host.parse (host.utf8 src.bytes)).bind Json.asArr).getD []

/-- The records that are migratable with reason `ok`, and the users they are read as. -/
def readyUsers (host : MigrateHost) (sources : MigrationSources) (target : TargetSnapshot) : List (Json × UserRecord) :=
  (userReading host).chosen (fun rec => (targetUser target rec.username).isNone) [] (userRecords host sources.usersJson)

/-- The raw entries of the mailbox file. -/
def mailboxEntries (host : MigrateHost) (src : Option FileSource) : List (String × Json) :=
  ((src.bind fun src => host.parse (host.utf8 src.bytes)).filter fun file => (mailboxError file).isNone).elim [] entriesOf

/-- The entries that are migratable with reason `ok`, and their envelopes with their boxes. -/
def readyEntries (host : MigrateHost) (sources : MigrationSources) (target : TargetSnapshot) (now : Int) :
    List ((String × Json) × (String × Json)) :=
  (entryReading host).chosen (fun entry => (verdict host target now entry.2).isReady) [] (mailboxEntries host sources.mailbox)

/-- A user is ready exactly where the name is free at the target. -/
theorem judgeUser_ready {rec : UserRecord} :
    (judgeUser host target rec).isReady = (targetUser target rec.username).isNone := by
  unfold judgeUser
  cases targetUser target rec.username with
  | none => rfl
  | some existing =>
    dsimp only
    split
    · simp [userFinding, Finding.isReady]
    · simp [userFinding, Finding.isReady]

/-- **The findings that say `ok` are those on the records that are ready.** -/
theorem users_ready : ((inspectMigration host sources target now).users.records.filter fun f => f.isReady) =
    (readyUsers host sources target).map fun c => userFinding host c.2 .migratable "ok" := by
  have hjudge : ∀ c ∈ readyUsers host sources target, judgeUser host target c.2 = userFinding host c.2 .migratable "ok" := by
    intro c hc
    have hgood := (Reading.mem_chosen hc).2.2.1
    unfold judgeUser
    rw [Option.isNone_iff_eq_none.mp hgood]
  rw [← List.map_congr_left hjudge]
  unfold inspectMigration classifyUsers readyUsers userRecords
  cases sources.usersJson with
  | none => rfl
  | some src =>
    dsimp only [Option.bind_some]
    cases host.parse (host.utf8 src.bytes) with
    | none => rfl
    | some file =>
      cases file with
      | arr items =>
        refine Reading.survey_good ?_ ?_ fun rec => judgeUser_ready
        · intro raw
          unfold unreadUser
          split
          · simp [Finding.isReady]
          · simp [userFinding, Finding.isReady]
        · intro rec
          simp [userFinding, Finding.isReady]
      | null | bool | num | str | obj => rfl

/-- What is listed as ready are the ready entries, in their order. -/
theorem mailbox_ready : ((inspectMigration host sources target now).mailbox.entries.filter fun f => f.isReady) =
    (readyEntries host sources target now).map fun c => mailboxFinding host c.2 ⟨.migratable, "ok"⟩ := by
  have hjudge : ∀ c ∈ readyEntries host sources target now, mailboxFinding host c.2 (verdict host target now c.2.2) =
      mailboxFinding host c.2 ⟨.migratable, "ok"⟩ := by
    intro c hc
    have hgood := (Reading.mem_chosen hc).2.2.1
    unfold Finding.isReady at hgood
    rw [Bool.and_eq_true, decide_eq_true_eq, decide_eq_true_eq] at hgood
    cases hfound : verdict host target now c.2.2 with
    | mk cls reason =>
      rw [hfound] at hgood
      obtain ⟨rfl, rfl⟩ := hgood
      rfl
  rw [← List.map_congr_left hjudge]
  unfold inspectMigration classifyMailbox readyEntries mailboxEntries
  cases sources.mailbox with
  | none => rfl
  | some src =>
    dsimp only [Option.bind_some]
    cases host.parse (host.utf8 src.bytes) with
    | none => rfl
    | some file =>
      dsimp only
      cases herror : mailboxError file with
      | some error =>
        rw [Option.filter_some_neg (by simp [herror])]
        rfl
      | none =>
        rw [Option.filter_some_pos (by simp [herror])]
        refine Reading.survey_good ?_ ?_ fun entry => rfl
        · intro entry
          simp [unreadEntry, Finding.isReady]
        · intro entry
          simp [mailboxFinding, Finding.isReady]

/-- The conflicts that are counted are those on the raw records and entries. -/
theorem conflicts_users : (classifyUsers host sources.usersJson target).counts.conflict =
    (((userReading host).survey (unreadUser host) (fun rec => userFinding host rec .invalid "duplicate_username")
      (judgeUser host target) [] (userRecords host sources.usersJson)).map fun r => r.cls).count .conflict := by
  unfold classifyUsers userRecords
  cases sources.usersJson with
  | none => rfl
  | some src =>
    dsimp only [Option.bind_some]
    cases host.parse (host.utf8 src.bytes) with
    | none => rfl
    | some file =>
      cases file with
      | arr items => rfl
      | null | bool | num | str | obj => rfl

theorem conflicts_mailbox : (classifyMailbox host sources.mailbox target now).counts.conflict =
    (((entryReading host).survey unreadEntry (fun entry => mailboxFinding host entry ⟨.invalid, "duplicate_msg"⟩)
      (fun entry => mailboxFinding host entry (verdict host target now entry.2)) []
      (mailboxEntries host sources.mailbox)).map fun e => e.cls).count .conflict := by
  unfold classifyMailbox mailboxEntries
  cases sources.mailbox with
  | none => rfl
  | some src =>
    dsimp only [Option.bind_some]
    cases host.parse (host.utf8 src.bytes) with
    | none => rfl
    | some file =>
      dsimp only
      cases herror : mailboxError file with
      | some error =>
        rw [Option.filter_some_neg (by simp [herror])]
        rfl
      | none =>
        rw [Option.filter_some_pos (by simp [herror])]
        rfl

/-- What an entry that is ready has to show. -/
theorem verdict_ready {env : Json} (h : (verdict host target now env).isReady = true) :
    targetDigest target (envelopeKey env) = none ∧
    (∃ pubkey, lookupNodeKey target.nodes (Env.fromNode env) (keyEpoch env) = .ok pubkey ∧
      verifyEnvelopeSig host env pubkey = none) ∧
    ∃ expMs, (Env.exp env).bind host.dateParse = some expMs ∧ now < expMs ∧ expMs - now ≤ maxTransportLifetimeMs := by
  unfold verdict at h
  -- the checks of the source in its order; each but the last names another finding
  cases htarget : targetDigest target (envelopeKey env) with
  | some existing =>
    rw [htarget] at h
    dsimp only at h
    split at h
    · simp [Finding.isReady] at h
    · simp [Finding.isReady] at h
  | none =>
    rw [htarget] at h
    dsimp only at h
    cases hkey : lookupNodeKey target.nodes (Env.fromNode env) (keyEpoch env) with
    | error status =>
      rw [hkey] at h
      simp [Finding.isReady] at h
    | ok pubkey =>
      rw [hkey] at h
      dsimp only at h
      cases hsig : verifyEnvelopeSig host env pubkey with
      | some reason =>
        rw [hsig] at h
        simp [Finding.isReady] at h
      | none =>
        rw [hsig] at h
        dsimp only at h
        cases hexp : (Env.exp env).bind host.dateParse with
        | none =>
          rw [hexp] at h
          simp [Finding.isReady] at h
        | some expMs =>
          rw [hexp] at h
          dsimp only at h
          split at h
          · simp [Finding.isReady] at h
          · rename_i hlate
            split at h
            · simp [Finding.isReady] at h
            · rename_i hsoon
              exact ⟨rfl, ⟨pubkey, rfl, hsig⟩, expMs, rfl, by omega, by omega⟩

end

/-! ## A platform -/

/-- A character as it stands in the text of a JSON string; the quotation mark and the backslash do not occur. -/
def escape (c : Char) : List Char := if c.val = 0 then "\\u0000".toList else [c]

mutual
/-- The compact text of a value. -/
def render : Json → List Char
  | .null => "null".toList
  | .bool b => (if b then "true" else "false").toList
  | .num n => (toString n).toList
  | .str s => '"' :: s.toList.flatMap escape ++ ['"']
  | .arr items => '[' :: renderItems items ++ [']']
  | .obj fields => '\x7b' :: renderFields fields ++ ['\x7d']

def renderItems : List Json → List Char
  | [] => []
  | [x] => render x
  | x :: y :: rest => render x ++ ',' :: renderItems (y :: rest)

def renderFields : List (String × Json) → List Char
  | [] => []
  | [(k, x)] => '"' :: k.toList ++ '"' :: ':' :: render x
  | (k, x) :: y :: rest => '"' :: k.toList ++ '"' :: ':' :: render x ++ ',' :: renderFields (y :: rest)
end

/-- The bytes of a text. -/
def bytesOf (s : String) : List UInt8 := s.toByteArray.data.toList

/-- The file that holds a value. -/
def fileOf (path : String) (v : Json) : FileSource := ⟨path, bytesOf (String.ofList (render v))⟩

/-- A platform that reads the texts of these values, and whose key verifies every signature. -/
def platform (host : Host) (docs : List Json) : MigrateHost :=
  { host with
    utf8 := fun bytes => (String.fromUTF8? ⟨bytes.toArray⟩).getD ""
    parse := fun s => docs.find? fun v => String.ofList (render v) = s
    sha256Bytes := fun _ => String.ofList (List.replicate 64 '0')
    verify := fun _ _ => true }

section

variable {host : Host} {docs : List Json} {v w : Json} {path : String}

theorem platform_utf8 (s : String) : (platform host docs).utf8 (bytesOf s) = s := by
  have hbytes : (⟨(bytesOf s).toArray⟩ : ByteArray) = s.toByteArray := by
    unfold bytesOf
    rw [Array.toArray_toList]
  show (String.fromUTF8? ⟨(bytesOf s).toArray⟩).getD "" = s
  rw [hbytes, String.fromUTF8?, dif_pos s.isValidUTF8]
  rfl

/-- Its digests are zeros, which are digests. -/
theorem platform_digest (bytes : List UInt8) : isDigest ((platform host docs).sha256Bytes bytes) = true := by
  show isDigest (String.ofList (List.replicate 64 '0')) = true
  decide

/-- What is read is one of the values. -/
theorem platform_mem {text : String} (h : (platform host docs).parse text = some v) : v ∈ docs := List.mem_of_find?_eq_some h

theorem platform_reads : (platform host (v :: docs)).parse ((platform host (v :: docs)).utf8 (fileOf path v).bytes) = some v := by
  unfold fileOf
  rw [platform_utf8]
  show List.find? (fun d => decide (String.ofList (render d) = String.ofList (render v))) (v :: docs) = some v
  simp

theorem platform_reads_second (hne : render v ≠ render w) :
    (platform host (v :: w :: docs)).parse ((platform host (v :: w :: docs)).utf8 (fileOf path w).bytes) = some w := by
  unfold fileOf
  rw [platform_utf8]
  have hother : String.ofList (render v) ≠ String.ofList (render w) := fun hsame => hne (String.ofList_injective hsame)
  show List.find? (fun d => decide (String.ofList (render d) = String.ofList (render w))) (v :: w :: docs) = some w
  simp [hother]

end

end Migrate
end Qlong
