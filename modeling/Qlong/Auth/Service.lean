import Qlong.Auth.Store
import Qlong.Lib.Commands
import Qlong.Lib.Runs

/-!
# The account service

`AuthService` of `packages/registry/src/auth.ts` over its store. Whatever a store operation throws
closes the service for good: every later call is refused until the database is opened again.

Whoever calls hands over any string, so names, passwords and session identifiers are lists of code units
here; only the texts of the database are text.

The first registration opens the service and closes registration. A user name with a NUL or a lone surrogate
passes the checks of `register` and is not read back as it was written, and the expiry of a session may lie
outside what a column holds: these, and nothing else, close the service (`auth_stays_open`).
-/

namespace Qlong
namespace Auth

open Lib Node

/-! ## The service -/

/-- The platform, and the lifetime of a session. -/
structure AuthHost extends Calendar where
  /-- SHA-256 in hexadecimal. -/
  sha : Utf16 → String
  /-- `scryptSync(password, salt, 64).toString('hex')`. -/
  hashPassword : Utf16 → String → String
  sessionTtlMs : Int

structure AuthHost.Lawful (host : AuthHost) : Prop where
  calendar : host.toCalendar.Lawful
  sha_hex : ∀ s, isLowerHexText 64 (host.sha s) = true
  hash_hex : ∀ password salt, isLowerHexText 128 (host.hashPassword password salt) = true

inductive ServiceError where
  | auth (message : String) (httpStatus : Nat)
  /-- The `RangeError` of a date outside the calendar. -/
  | range
deriving DecidableEq, Repr

structure AuthService where
  db : AuthTables
  storageFailed : Bool
deriving DecidableEq

def unavailable : ServiceError := .auth "认证存储不可用,拒绝认证与初始化" 503

/-- A method: it may throw, and what it has done by then stays. -/
abbrev ServiceM := EStateM ServiceError AuthService

/-- `withStore(operation)`. -/
def withStore {α : Type} (operation : AuthTables → Except Unit (α × AuthTables)) : ServiceM α := fun s =>
  if s.storageFailed then .error unavailable s
  else
    match operation s.db with
    | .ok (a, db) => .ok a { s with db }
    | .error _ => .error unavailable { s with storageFailed := true }

/-- `store.snapshot()`. -/
def snapshot (host : AuthHost) : ServiceM AuthSnapshot :=
  withStore fun db => (readSnapshot host.toCalendar db).map fun state => (state, db)

/-- `get needsInit()`. -/
def needsInit (host : AuthHost) : ServiceM Bool :=
  tryCatch (do return !(← snapshot host).initialized) fun _ => return false

def closed : ServiceError := .auth "已初始化:注册已关闭,请登录" 403

/-- A time that a date can stand for. -/
def InCalendar (t : Int) : Prop := -8640000000000000 ≤ t ∧ t ≤ 8640000000000000

instance (t : Int) : Decidable (InCalendar t) := inferInstanceAs (Decidable (_ ∧ _))

/-- `register(username, password)`; `salt` is what was drawn. -/
def signUp (host : AuthHost) (now : Int) (salt : String) (username password : Utf16) : ServiceM Utf16 := do
  let state ← snapshot host
  if state.initialized then throw closed
  else if username.length < 3 then throw (.auth "用户名至少 3 个字符" 400)
  else if password.length < 8 then throw (.auth "密码至少 8 个字符" 400)
  else if ¬ InCalendar now then throw .range
  else
    let opened ← withStore (register host.toCalendar ⟨username, .global_owner, salt, host.hashPassword password salt,
      host.toISOString now⟩)
    if opened then return username else throw closed

/-- `verifyPassword(password, salt, hash)`: the bytes behind two hexadecimal texts. -/
def verifyPassword (host : AuthHost) (password : Utf16) (u : UserRecord) : Bool :=
  (host.hashPassword password u.salt).toList.map Char.toLower = u.hash.toList.map Char.toLower

/-- `login(username, password)`; the identifier of the session and its CSRF token are what was drawn. -/
def login (host : AuthHost) (now : Int) (sessionId : Utf16) (csrf : String) (username password : Utf16) : ServiceM Unit := do
  let state ← snapshot host
  match (state.users.find username).filter (verifyPassword host password) with
  | none => throw (.auth "用户名或密码错误" 401)
  | some u => withStore (saveSession host.toCalendar (host.sha sessionId)
      ⟨Utf16.decode username, u.role, csrf, now + host.sessionTtlMs⟩)

/-- `logout(sessionId)`. -/
def logout (host : AuthHost) (sessionId : Utf16) : ServiceM Unit :=
  withStore (deleteSession host.toCalendar (host.sha sessionId))

/-- `session(sessionId)`. -/
def session (host : AuthHost) (now : Int) (sessionId : Utf16) : ServiceM (Option SessionRecord) := do
  let state ← snapshot host
  match state.sessions.get (host.sha sessionId) with
  | none => return none
  | some (_, s) =>
    if s.expiresAt ≤ now then
      logout host sessionId
      return none
    else return (state.users.get s.username).map fun user => { s with role := user.role }

/-! ## Calls -/

inductive AuthLabel where
  | needsInit
  | register (now : Int) (salt : String) (username password : Utf16)
  | login (now : Int) (sessionId : Utf16) (csrf : String) (username password : Utf16)
  | session (now : Int) (sessionId : Utf16)
  | logout (sessionId : Utf16)
  /-- The process ends, and another opens the database. -/
  | reopen
deriving DecidableEq

/-- What a call leaves. -/
def carryOut (host : AuthHost) (x : AuthService) : AuthLabel → AuthService
  | .needsInit => Command.after (needsInit host x)
  | .register now salt username password => Command.after (signUp host now salt username password x)
  | .login now sessionId csrf username password => Command.after (login host now sessionId csrf username password x)
  | .session now sessionId => Command.after (session host now sessionId x)
  | .logout sessionId => Command.after (logout host sessionId x)
  | .reopen => Command.after (snapshot host ⟨x.db, false⟩)

/-- What `randomBytes` draws: hexadecimal digits, and no session twice. -/
def Drawn (host : AuthHost) (x : AuthService) : AuthLabel → Prop
  | .register _ salt _ _ => isLowerHexText 32 salt = true
  | .login _ sessionId csrf _ _ => isLowerHexText 48 csrf = true ∧ ∀ row ∈ x.db.sessions, row.session_hash ≠ host.sha sessionId
  | _ => True

/-- The service, from a database in order on; the empty one is (`healthy_empty`). -/
def authSystem (host : AuthHost) : System AuthService AuthLabel where
  init x := Healthy host.toCalendar x.db ∧ x.storageFailed = false
  step x l x' := Drawn host x l ∧ x' = carryOut host x l

/-! ## The transactions on a database in order -/

section

variable {host : AuthHost} {cal : Calendar} {db db' : AuthTables} {user : NewUser} {u : UserRecord} {row : SessionRow}
  {before : AuthSnapshot}

/-- What is read of a database in order is what stands in it. -/
structure Reads (db : AuthTables) (s : AuthSnapshot) : Prop where
  initialized : s.initialized = db.initialized
  users : s.users.rows = db.users
  sessions : s.sessions.rows = db.sessions.map sessionEntry

theorem Healthy.reads (h : Healthy cal db) : ∃ s, readSnapshot cal db = .ok s ∧ Reads db s := by
  obtain ⟨s, hs, hinit, husers, hsessions⟩ := h.read
  exact ⟨s, hs, hinit, husers, hsessions⟩

theorem Reads.get_user (h : Reads db before) {name : String} {u : UserRecord} :
    before.users.get name = some u ↔ u ∈ db.users ∧ u.username = name := by
  unfold Records.get
  rw [Table.lookup_iff_mem before.users.keyed, h.users]

theorem Reads.has_session (h : Reads db before) {hash : String} :
    before.sessions.has hash = true ↔ ∃ row ∈ db.sessions, row.session_hash = hash := by
  rw [Records.has_iff, h.sessions, List.map_map, List.mem_map]
  rfl

theorem Reads.find_user (h : Reads db before) {name : Utf16} {u : UserRecord} :
    before.users.find name = some u ↔ u ∈ db.users ∧ Utf16.encode u.username = name := by
  rw [Users.find_iff, h.users]

/-- The tables once the first user has registered. -/
def registered (u : UserRecord) : AuthTables := ⟨true, 1, 0, [u], []⟩

theorem healthy_registered (h : Whole cal u) : Healthy cal (registered u) where
  counted :=
    { users := rfl
      sessions := rfl
      safe := by simp [registered, Json.maxSafe]
      closed := fun hclosed => absurd hclosed (by simp [registered])
      opened := fun _ => List.cons_ne_nil _ _ }
  users v hv := by
    rw [List.mem_singleton.mp hv]
    exact h
  names := List.nodup_singleton _
  sessions _ hrow := absurd hrow List.not_mem_nil
  hashes := .nil

/-- **Registration on a database in order.** -/
theorem register_ok (h : Healthy cal db) (hrole : user.role = .global_owner)
    (hwhole : Storable user.username → Whole cal user.row) {opened : Bool} :
    register cal user db = .ok (opened, db') ↔
      (db.initialized = true ∧ opened = false ∧ db' = db) ∨
        (db.initialized = false ∧ Storable user.username ∧ opened = true ∧ db' = registered user.row) := by
  obtain ⟨s, hs, hreads⟩ := h.reads
  simp only [register, hs, bind_ok_iff, Except.ok.injEq, exists_eq_left', hreads.initialized]
  cases hopen : db.initialized with
  | true =>
    rw [if_pos rfl, pure_ok_iff, Prod.mk.injEq]
    simp only [true_and, Bool.true_eq_false, false_and, or_false]
    exact and_congr eq_comm eq_comm
  | false =>
    obtain ⟨hnousers, hnosessions⟩ := h.counted.closed hopen
    have hcount : db.session_count = 0 := by
      rw [h.counted.sessions, hnosessions]
      rfl
    have htables : (⟨true, 1, db.session_count, [] ++ [user.row], db.sessions⟩ : AuthTables) = registered user.row := by
      rw [hcount, hnosessions]
      rfl
    simp only [Bool.false_eq_true, if_false, bind_ok_iff, expect_ok_iff, hrole, decide_true, exists_const, hnousers,
      List.any_nil, Bool.not_false, Bool.and_self, pure_ok_iff, Prod.mk.injEq, false_and, false_or, true_and, htables]
    constructor
    · rintro ⟨staged, hstaged, hhas, rfl, rfl⟩
      rw [Bool.and_eq_true] at hhas
      obtain ⟨-, -, hfold, -⟩ := readSnapshot_ok.mp hstaged
      obtain ⟨v, hfound⟩ := Option.isSome_iff_exists.mp hhas.2
      obtain ⟨hv, hname⟩ := Users.find_some hfound
      -- the one row that was read is the one that was inserted
      have hread : readUser cal .empty user.row = .ok staged.users := by
        simp only [registered, foldSteps, bind_ok_iff, Except.ok.injEq, exists_eq_right] at hfold
        exact hfold
      obtain ⟨w, hw, -, -, hset⟩ := readUser_ok.mp hread
      obtain ⟨-, -, -, -, rfl⟩ := parse_userRow.mp hw
      rw [hset] at hv
      change v ∈ Table.put UserRecord.username _ [] at hv
      rcases Table.mem_put.mp hv with rfl | ⟨hnone, -⟩
      · exact ⟨encode_column_iff.mp hname, rfl, rfl⟩
      · exact absurd hnone List.not_mem_nil
    · rintro ⟨hplain, rfl, rfl⟩
      obtain ⟨staged, hstaged, hstagedReads⟩ := (healthy_registered (hwhole hplain)).reads
      refine ⟨staged, hstaged, ?_, rfl, rfl⟩
      rw [hstagedReads.initialized, Bool.and_eq_true]
      refine ⟨rfl, Option.isSome_iff_exists.mpr ⟨user.row, hstagedReads.find_user.mpr ⟨List.mem_singleton_self _, ?_⟩⟩⟩
      exact Utf16.encode_decode_iff.mpr hplain.2

/-- The tables with one session more. -/
def withSession (db : AuthTables) (row : SessionRow) : AuthTables :=
  { db with sessions := db.sessions ++ [row], session_count := db.session_count + 1 }

/-- A session as a login writes it. -/
structure Drafted (db : AuthTables) (row : SessionRow) : Prop where
  hash : isLowerHexText 64 row.session_hash = true
  csrf : isLowerHexText 48 row.csrf = true
  user : ∃ u ∈ db.users, u.username = row.username ∧ u.role = row.role
  fresh : ∀ other ∈ db.sessions, other.session_hash ≠ row.session_hash

/-- There is room for one more session, and its expiry fits the column. -/
def Fits (db : AuthTables) (expiresAt : Int) : Prop :=
  (0 ≤ expiresAt ∧ expiresAt ≤ Json.maxSafe) ∧ (db.sessions.length : Int) < Json.maxSafe

theorem healthy_withSession (h : Healthy cal db) (hrow : Drafted db row) (hfits : Fits db row.expires_at) :
    Healthy cal (withSession db row) where
  counted :=
    { users := h.counted.users
      sessions := by
        show db.session_count + 1 = ((db.sessions ++ [row]).length : Int)
        rw [h.counted.sessions, List.length_append, List.length_singleton]
        push_cast
        rfl
      safe := by
        refine ⟨h.counted.safe.1, ?_⟩
        show ((db.sessions ++ [row]).length : Int) ≤ Json.maxSafe
        rw [List.length_append, List.length_singleton]
        have hroom := hfits.2
        push_cast
        omega
      closed := by
        intro hclosed
        obtain ⟨u, hu, -⟩ := hrow.user
        rw [(h.counted.closed hclosed).1] at hu
        exact absurd hu List.not_mem_nil
      opened := h.counted.opened }
  users := h.users
  names := h.names
  sessions other hother := by
    rcases List.mem_append.mp hother with hold | hlast
    · exact h.sessions other hold
    · rw [List.mem_singleton.mp hlast]
      obtain ⟨u, hu, hname, -⟩ := hrow.user
      exact ⟨hrow.hash, hrow.csrf, hname ▸ List.mem_map_of_mem hu, Json.isNonnegative_iff.mpr hfits.1⟩
  hashes := by
    show ((db.sessions ++ [row]).map SessionRow.session_hash).Nodup
    rw [List.map_append, List.map_singleton]
    refine List.Nodup.append h.hashes (List.nodup_singleton _) ?_
    intro hash hold hlast
    obtain ⟨other, hother, rfl⟩ := List.mem_map.mp hold
    exact hrow.fresh other hother (List.mem_singleton.mp hlast)

/-- **A login on a database in order.** -/
theorem saveSession_ok (h : Healthy cal db) (hrow : Drafted db row) :
    saveSession cal row.session_hash ⟨row.username, row.role, row.csrf, row.expires_at⟩ db = .ok ((), db') ↔
      Fits db row.expires_at ∧ db' = withSession db row := by
  obtain ⟨s, hs, hreads⟩ := h.reads
  obtain ⟨u, hu, hname, hrole⟩ := hrow.user
  -- a database that was never opened has no users, and the row's owner is one
  have hopen : db.initialized = true := by
    cases hinit : db.initialized with
    | true => rfl
    | false =>
      rw [(h.counted.closed hinit).1] at hu
      exact absurd hu List.not_mem_nil
  have hget : s.users.get row.username = some u := hreads.get_user.mpr ⟨hu, hname⟩
  have hfresh : (db.sessions.any fun other => other.session_hash = row.session_hash) = false := by
    rw [List.any_eq_false]
    intro other hother
    rw [decide_eq_true_eq]
    exact hrow.fresh other hother
  have hknown : (db.users.any fun other => other.username = row.username) = true :=
    List.any_eq_true.mpr ⟨u, hu, decide_eq_true hname⟩
  simp only [saveSession, hs, bind_ok_iff, Except.ok.injEq, exists_eq_left', hreads.initialized, hopen, hget, Option.map_some,
    hrole, hfresh, hknown, expect_ok_iff, decide_true, Bool.and_self, Bool.not_false, Bool.true_and, exists_const, true_and,
    decide_eq_true_eq, pure_ok_iff, Prod.mk.injEq]
  -- the tables the command writes are the ones `withSession` names
  have htables : (⟨true, db.user_count, db.session_count + 1, db.users,
      db.sessions ++ [⟨row.session_hash, row.username, row.role, row.csrf, row.expires_at⟩]⟩ : AuthTables) =
        withSession db row := by
    unfold withSession
    rw [hopen]
  rw [htables]
  constructor
  · rintro ⟨-, after, hafter, rfl⟩
    obtain ⟨hcounted, -, -, hsessions⟩ := readSnapshot_ok.mp hafter
    refine ⟨⟨?_, ?_⟩, rfl⟩
    · -- the last row was read like every other
      unfold withSession at hsessions
      rw [foldSteps_append, bind_ok_iff] at hsessions
      obtain ⟨most, -, hlast⟩ := hsessions
      simp only [foldSteps, readSession, bind_ok_iff, expect_ok_iff, Bool.and_eq_true] at hlast
      obtain ⟨-, ⟨-, hchecks, -⟩, -⟩ := hlast
      exact Json.isNonnegative_iff.mp hchecks.2
    · have hsafe : ((db.sessions ++ [row]).length : Int) ≤ Json.maxSafe := hcounted.safe.2
      rw [List.length_append, List.length_singleton] at hsafe
      push_cast at hsafe
      omega
  · rintro ⟨hfits, rfl⟩
    obtain ⟨after, hafter, -⟩ := (healthy_withSession h hrow hfits).reads
    refine ⟨⟨hfits.1.1, ?_⟩, after, hafter, rfl⟩
    have hsafe := hfits.1.2
    unfold Json.maxSafe at hsafe
    omega

/-- The tables without a session. -/
def withoutSession (db : AuthTables) (hash : String) : AuthTables :=
  { db with sessions := db.sessions.filter fun s => s.session_hash ≠ hash, session_count := db.session_count - 1 }

/-- A hash that is there stands in one row. -/
theorem length_without (h : Healthy cal db) (hrow : row ∈ db.sessions) :
    (db.sessions.filter fun s => s.session_hash ≠ row.session_hash).length + 1 = db.sessions.length := by
  have hone : (db.sessions.filter fun s => s.session_hash = row.session_hash).length = 1 := by
    rw [Table.filter_key h.hashes, Table.lookup_of_mem h.hashes hrow]
    rfl
  have hsplit := @List.length_eq_length_filter_add _ db.sessions fun s => decide (s.session_hash = row.session_hash)
  rw [hone] at hsplit
  simp only [decide_not]
  omega

theorem healthy_withoutSession (h : Healthy cal db) (hrow : row ∈ db.sessions) :
    Healthy cal (withoutSession db row.session_hash) where
  counted := by
    have hlength := length_without h hrow
    have hcount := h.counted.sessions
    have hsafe := h.counted.safe
    exact
      { users := h.counted.users
        sessions := by
          show db.session_count - 1 = ((db.sessions.filter fun s => s.session_hash ≠ row.session_hash).length : Int)
          omega
        safe := by
          refine ⟨hsafe.1, ?_⟩
          show ((db.sessions.filter fun s => s.session_hash ≠ row.session_hash).length : Int) ≤ Json.maxSafe
          omega
        closed := by
          intro hclosed
          rw [(h.counted.closed hclosed).2] at hrow
          exact absurd hrow List.not_mem_nil
        opened := h.counted.opened }
  users := h.users
  names := h.names
  sessions other hother := h.sessions other (List.mem_of_mem_filter hother)
  hashes := Table.Keyed.filter h.hashes

/-- **A logout on a database in order** goes through. -/
theorem deleteSession_ok (h : Healthy cal db) (hash : String) : ∃ db', deleteSession cal hash db = .ok ((), db') ∧
    Healthy cal db' ∧ db'.initialized = db.initialized := by
  obtain ⟨s, hs, hreads⟩ := h.reads
  unfold deleteSession
  rw [hs]
  cases hhas : s.sessions.has hash with
  | false => exact ⟨db, by simp [bind, Except.bind, hhas, pure, Except.pure], h, rfl⟩
  | true =>
    obtain ⟨row, hrow, rfl⟩ := hreads.has_session.mp hhas
    have hafter := healthy_withoutSession h hrow
    obtain ⟨after, hread, -⟩ := hafter.reads
    refine ⟨withoutSession db row.session_hash, ?_, hafter, rfl⟩
    simp only [bind_ok_iff, Except.ok.injEq, exists_eq_left', hhas, Bool.not_true, Bool.false_eq_true, if_false, expect_ok_iff,
      decide_eq_true_eq, exists_const, length_without h hrow, true_and, pure_ok_iff]
    exact ⟨after, hread, rfl⟩

end

/-! ## Calls on a database in order -/

section

variable {host : AuthHost} {x y : AuthService} {l : AuthLabel}

/-- The call that opens the service gives a name that a column holds, and a login finds room for its session. -/
def Plain (host : AuthHost) (x : AuthService) : AuthLabel → Prop
  | .register now _ username password =>
    x.db.initialized = false ∧ 3 ≤ username.length ∧ 8 ≤ password.length ∧ InCalendar now → Storable username
  | .login now _ _ username password =>
    (∃ u ∈ x.db.users, Utf16.encode u.username = username ∧ verifyPassword host password u = true) →
      Fits x.db (now + host.sessionTtlMs)
  | _ => True

/-- The service over these tables, open. -/
def opens (db : AuthTables) : AuthService := ⟨db, false⟩

/-- The service over these tables, closed. -/
def shuts (db : AuthTables) : AuthService := ⟨db, true⟩

theorem withStore_ok {α : Type} {operation : AuthTables → Except Unit (α × AuthTables)} {db db' : AuthTables} {a : α}
    (h : operation db = .ok (a, db')) : withStore operation (opens db) = .ok a (opens db') := by
  simp [withStore, opens, h]

theorem withStore_error {α : Type} {operation : AuthTables → Except Unit (α × AuthTables)} {db : AuthTables}
    (h : ∀ a db', operation db ≠ .ok (a, db')) : withStore operation (opens db) = .error unavailable (shuts db) := by
  unfold withStore
  cases hop : operation db with
  | ok r => exact absurd hop (h r.1 r.2)
  | error e => simp [opens, shuts, hop]

theorem snapshot_healthy {db : AuthTables} (h : Healthy host.toCalendar db) :
    ∃ s, snapshot host (opens db) = .ok s (opens db) ∧ Reads db s := by
  obtain ⟨s, hs, hreads⟩ := h.reads
  refine ⟨s, withStore_ok ?_, hreads⟩
  rw [hs]
  rfl

/-- **What a call does to a database in order.** -/
inductive Turns (host : AuthHost) (db : AuthTables) (l : AuthLabel) (y : AuthService) : Prop
  /-- It leaves the service open, over a database in order. -/
  | kept (plain : Plain host (opens db) l) (db' : AuthTables) (post : y = opens db')
      (healthy : Healthy host.toCalendar db') (initialized : db.initialized = true → db'.initialized = true)
  /-- It closes the service, and the tables are as they were. -/
  | shut (misfit : ¬ Plain host (opens db) l) (post : y = shuts db)

section

variable {db : AuthTables} {now : Int} {salt csrf : String} {username password sessionId : Utf16}

theorem Turns.same (h : Healthy host.toCalendar db) (plain : Plain host (opens db) l) : Turns host db l (opens db) :=
  .kept plain db rfl h id

/-- What `register` is about to write. -/
def draftUser (host : AuthHost) (now : Int) (salt : String) (username password : Utf16) : NewUser :=
  ⟨username, .global_owner, salt, host.hashPassword password salt, host.toISOString now⟩

theorem whole_draftUser (hhost : host.Lawful) (hsalt : isLowerHexText 32 salt = true) (hlong : 3 ≤ username.length)
    (hnow : InCalendar now) (hplain : Storable username) :
    Whole host.toCalendar (draftUser host now salt username password).row where
  plain := hplain.noNul
  long := (length_decode hplain.2).symm ▸ hlong
  salt := isHexText_of_lower hsalt
  hash := isHexText_of_lower (hhost.hash_hex password salt)
  created_at := by
    unfold isCanonical NewUser.row draftUser
    rw [hhost.calendar.parse_iso now hnow.1 hnow.2, Option.any_some]
    exact decide_eq_true rfl
  time_plain := hhost.calendar.plain now

/-- **Registration.** -/
theorem signUp_eq (hhost : host.Lawful) (h : Healthy host.toCalendar db) (hsalt : isLowerHexText 32 salt = true) :
    signUp host now salt username password (opens db) =
      if db.initialized then .error closed (opens db)
      else if username.length < 3 then .error (.auth "用户名至少 3 个字符" 400) (opens db)
      else if password.length < 8 then .error (.auth "密码至少 8 个字符" 400) (opens db)
      else if ¬ InCalendar now then .error .range (opens db)
      else if Storable username then .ok username (opens (registered (draftUser host now salt username password).row))
      else .error unavailable (shuts db) := by
  obtain ⟨s, hs, hreads⟩ := snapshot_healthy h
  unfold signUp
  rw [Command.bind_of_ok hs, hreads.initialized]
  cases hinit : db.initialized with
  | true => rfl
  | false =>
    rw [if_neg Bool.false_ne_true, if_neg Bool.false_ne_true]
    -- the source's checks, in its order: both lengths, then the clock
    by_cases hshort : username.length < 3
    · rw [if_pos hshort, if_pos hshort]
      rfl
    rw [if_neg hshort, if_neg hshort]
    by_cases hweak : password.length < 8
    · rw [if_pos hweak, if_pos hweak]
      rfl
    rw [if_neg hweak, if_neg hweak]
    by_cases hnow : InCalendar now
    · rw [if_neg (not_not_intro hnow), if_neg (not_not_intro hnow)]
      change (withStore (register host.toCalendar (draftUser host now salt username password)) >>= _) (opens db) = _
      have hwhole : Storable username → Whole host.toCalendar (draftUser host now salt username password).row :=
        whole_draftUser hhost hsalt (Nat.le_of_not_lt hshort) hnow
      -- only a name SQLite stores as it was sent is found again by the read after the write
      by_cases hplain : Storable username
      · have hok : register host.toCalendar (draftUser host now salt username password) db = .ok (true, _) :=
          (register_ok h rfl hwhole).mpr (.inr ⟨hinit, hplain, rfl, rfl⟩)
        rw [if_pos hplain, Command.bind_of_ok (withStore_ok hok)]
        rfl
      · rw [if_neg hplain]
        apply Command.bind_of_error
        apply withStore_error
        intro opened db' hok
        rcases (register_ok h rfl hwhole).mp hok with ⟨hopen, -⟩ | ⟨-, hnot, -⟩
        · exact absurd (hinit.symm.trans hopen) Bool.false_ne_true
        · exact hplain hnot
    · rw [if_pos hnow, if_pos hnow]
      rfl

theorem signUp_turns (hhost : host.Lawful) (h : Healthy host.toCalendar db) (hsalt : isLowerHexText 32 salt = true) :
    Turns host db (.register now salt username password) (Command.after (signUp host now salt username password (opens db))) := by
  rw [signUp_eq hhost h hsalt]
  split
  · rename_i hopen
    exact .same h fun hcall => absurd (hopen.symm.trans hcall.1) (by simp)
  split
  · rename_i hshort
    exact .same h fun hcall => absurd hcall.2.1 (Nat.not_le_of_lt hshort)
  split
  · rename_i hweak
    exact .same h fun hcall => absurd hcall.2.2.1 (Nat.not_le_of_lt hweak)
  split
  · rename_i hnow
    exact .same h fun hcall => absurd hcall.2.2.2 hnow
  rename_i hopen hshort hweak hnow
  have hlong := Nat.le_of_not_lt hshort
  split
  · rename_i hplain
    refine .kept (fun _ => hplain) _ rfl (healthy_registered ?_) fun _ => rfl
    exact whole_draftUser hhost hsalt hlong (not_not.mp hnow) hplain
  · rename_i hnul
    refine .shut (fun hcall => hnul (hcall ?_)) rfl
    exact ⟨Bool.eq_false_iff.mpr hopen, hlong, Nat.le_of_not_lt hweak, not_not.mp hnow⟩

/-- A registration that goes through finds the service closed to nobody, and opens it. -/
theorem signUp_ok {name : Utf16} (hhost : host.Lawful) (h : Healthy host.toCalendar db) (hsalt : isLowerHexText 32 salt = true)
    (hok : signUp host now salt username password (opens db) = .ok name y) :
    db.initialized = false ∧ y.db.initialized = true := by
  rw [signUp_eq hhost h hsalt] at hok
  split at hok
  · exact absurd hok (by simp)
  rename_i hopen
  split at hok
  · exact absurd hok (by simp)
  split at hok
  · exact absurd hok (by simp)
  split at hok
  · exact absurd hok (by simp)
  split at hok
  · obtain ⟨-, rfl⟩ := EStateM.Result.ok.inj hok
    exact ⟨Bool.eq_false_iff.mpr hopen, rfl⟩
  · exact absurd hok (by simp)

theorem login_turns (hhost : host.Lawful) (h : Healthy host.toCalendar db)
    (hdrawn : Drawn host (opens db) (.login now sessionId csrf username password)) :
    Turns host db (.login now sessionId csrf username password)
      (Command.after (login host now sessionId csrf username password (opens db))) := by
  obtain ⟨s, hs, hreads⟩ := snapshot_healthy h
  unfold login
  rw [Command.bind_of_ok hs]
  cases hfound : (s.users.find username).filter (verifyPassword host password) with
  | none =>
    refine .same h ?_
    rintro ⟨u, hu, hname, hverify⟩
    rw [hreads.find_user.mpr ⟨hu, hname⟩, Option.filter_some_pos (by exact hverify)] at hfound
    exact absurd hfound (by simp)
  | some u =>
    obtain ⟨hget, hverify⟩ := Option.filter_eq_some_iff.mp hfound
    obtain ⟨hu, rfl⟩ := hreads.find_user.mp hget
    let row : SessionRow := ⟨host.sha sessionId, Utf16.decode (Utf16.encode u.username), u.role, csrf, now + host.sessionTtlMs⟩
    have hname : u.username = Utf16.decode (Utf16.encode u.username) := (Utf16.decode_encode _).symm
    have hrow : Drafted db row := ⟨hhost.sha_hex sessionId, hdrawn.1, ⟨u, hu, hname, rfl⟩, hdrawn.2⟩
    have hsave := fun db' => @saveSession_ok host.toCalendar db db' row h hrow
    by_cases hfits : Fits db (now + host.sessionTtlMs)
    · have hok := withStore_ok ((hsave _).mpr ⟨hfits, rfl⟩)
      refine .kept (fun _ => hfits) (withSession db row) ?_ (healthy_withSession h hrow hfits) id
      exact congrArg Command.after hok
    · have hrefused : ∀ a db', saveSession host.toCalendar row.session_hash
          ⟨row.username, row.role, row.csrf, row.expires_at⟩ db ≠ .ok (a, db') :=
        fun _ db' hok => hfits ((hsave db').mp hok).1
      have herror := withStore_error hrefused
      exact .shut (fun hcall => hfits (hcall ⟨u, hu, rfl, hverify⟩)) (congrArg Command.after herror)

theorem logout_ok (h : Healthy host.toCalendar db) (sessionId : Utf16) : ∃ db', logout host sessionId (opens db) =
    .ok () (opens db') ∧ Healthy host.toCalendar db' ∧ db'.initialized = db.initialized := by
  obtain ⟨db', hok, hafter, hinit⟩ := deleteSession_ok h (host.sha sessionId)
  exact ⟨db', withStore_ok hok, hafter, hinit⟩

theorem session_turns (h : Healthy host.toCalendar db) :
    Turns host db (.session now sessionId) (Command.after (session host now sessionId (opens db))) := by
  obtain ⟨s, hs, -⟩ := snapshot_healthy h
  unfold session
  rw [Command.bind_of_ok hs]
  cases s.sessions.get (host.sha sessionId) with
  | none => exact .same h trivial
  | some found =>
    dsimp only
    split
    · obtain ⟨db', hok, hafter, hinit⟩ := logout_ok h sessionId
      rw [Command.bind_of_ok hok]
      exact .kept trivial db' rfl hafter fun hopen => hinit.trans hopen
    · exact .same h trivial

theorem needsInit_healthy (h : Healthy host.toCalendar db) :
    needsInit host (opens db) = .ok (!db.initialized) (opens db) := by
  obtain ⟨s, hs, hreads⟩ := snapshot_healthy h
  have hread : (snapshot host >>= fun state => pure !state.initialized) (opens db) = .ok (!db.initialized) (opens db) := by
    rw [Command.bind_of_ok hs, hreads.initialized]
    rfl
  unfold needsInit
  change EStateM.tryCatch _ _ _ = _
  unfold EStateM.tryCatch
  rw [hread]

/-- **The step lemma.** -/
theorem turns (hhost : host.Lawful) (h : Healthy host.toCalendar db) (hdrawn : Drawn host (opens db) l) :
    Turns host db l (carryOut host (opens db) l) := by
  cases l with
  | needsInit =>
    unfold carryOut
    rw [needsInit_healthy h]
    exact .same h trivial
  | register now salt username password => exact signUp_turns hhost h hdrawn
  | login now sessionId csrf username password => exact login_turns hhost h hdrawn
  | session now sessionId => exact session_turns h
  | logout sessionId =>
    obtain ⟨db', hok, hafter, hinit⟩ := logout_ok h sessionId
    refine .kept trivial db' ?_ hafter fun hopen => hinit.trans hopen
    exact congrArg Command.after hok
  | reopen =>
    obtain ⟨s, hs, -⟩ := snapshot_healthy h
    refine .kept trivial db ?_ h id
    exact congrArg Command.after hs

end

/-! ## Runs -/

section

variable {hist : List (Entry AuthService AuthLabel)}

/-- The registration of this step goes through. -/
def Registered (host : AuthHost) (e : Entry AuthService AuthLabel) : Prop :=
  ∃ now salt username password name y, e.label = .register now salt username password ∧
    signUp host now salt username password e.pre = .ok name y

/-- A closed service stays as it is until it is opened again. -/
theorem carryOut_shut {db : AuthTables} (h : l ≠ .reopen) : carryOut host (shuts db) l = shuts db := by
  cases l with
  | needsInit => rfl
  | register now salt username password => rfl
  | login now sessionId csrf username password => rfl
  | session now sessionId => rfl
  | logout sessionId => rfl
  | reopen => exact absurd rfl h

/-- What every call keeps, on an open service and on a closed one. -/
theorem step_kept (hhost : host.Lawful) (hstep : (authSystem host).step x l y) (h : Healthy host.toCalendar x.db) :
    Healthy host.toCalendar y.db ∧ (x.db.initialized = true → y.db.initialized = true) := by
  obtain ⟨hdrawn, rfl⟩ := hstep
  obtain ⟨db, failed⟩ := x
  cases failed with
  | false =>
    cases turns hhost h hdrawn with
    | kept plain db' post healthy initialized =>
      rw [show carryOut host ⟨db, false⟩ l = opens db' from post]
      exact ⟨healthy, initialized⟩
    | shut misfit post =>
      rw [show carryOut host ⟨db, false⟩ l = shuts db from post]
      exact ⟨h, id⟩
  | true =>
    by_cases hreopen : l = .reopen
    · obtain ⟨s, hs, -⟩ := snapshot_healthy h
      have hpost : carryOut host ⟨db, true⟩ l = opens db := by
        rw [hreopen]
        exact congrArg Command.after hs
      rw [hpost]
      exact ⟨h, id⟩
    · rw [show carryOut host ⟨db, true⟩ l = shuts db from carryOut_shut hreopen]
      exact ⟨h, id⟩

theorem run_healthy (hhost : host.Lawful) (run : Run (authSystem host) hist x) :
    Healthy host.toCalendar x.db ∧ ∀ e ∈ hist, Healthy host.toCalendar e.pre.db :=
  have carry : ∀ e ∈ hist, (authSystem host).step e.pre e.label e.post → Healthy host.toCalendar e.pre.db →
      Healthy host.toCalendar e.post.db := fun _ _ hstep h => (step_kept hhost hstep h).1
  ⟨run.invariant (I := fun x : AuthService => Healthy host.toCalendar x.db) (fun _ h => h.1) carry,
    fun e he => (run.invariant_mem (I := fun x : AuthService => Healthy host.toCalendar x.db) (fun _ h => h.1) carry e he).1⟩

/-- A registration goes through on an open service nobody has registered with, and opens it to its user. -/
theorem Registered.opens {e : Entry AuthService AuthLabel} (hhost : host.Lawful)
    (hstep : (authSystem host).step e.pre e.label e.post) (h : Healthy host.toCalendar e.pre.db) (hdone : Registered host e) :
    e.pre.db.initialized = false ∧ e.post.db.initialized = true := by
  obtain ⟨now, salt, username, password, name, y, hlabel, hok⟩ := hdone
  obtain ⟨⟨db, failed⟩, label, post⟩ := e
  obtain ⟨hdrawn, hpost⟩ := hstep
  dsimp only at hlabel hok hpost h hdrawn ⊢
  rw [hlabel] at hpost hdrawn
  cases failed with
  | true => exact absurd hok (by simp [signUp, Command.bind_apply, snapshot, withStore])
  | false =>
    rw [hpost, show carryOut host ⟨db, false⟩ (.register now salt username password) = y from congrArg Command.after hok]
    exact signUp_ok hhost h hdrawn hok

/-- **Registration closes for good, and the service stays open**, but for a name that is not read back as it
    was given and a session that does not fit: those close it. -/
theorem auth_stays_open (hhost : host.Lawful) (run : Run (authSystem host) hist x) :
    hist.Pairwise (fun later earlier => ¬ (Registered host later ∧ Registered host earlier)) ∧
    ((∃ e ∈ hist, Registered host e) → ∀ y, needsInit host x ≠ .ok true y) ∧
    (x.db.user_count = x.db.users.length ∧ x.db.session_count = x.db.sessions.length) ∧
    (∀ e ∈ hist, e.pre.storageFailed = false → (e.post.storageFailed = false ↔ Plain host e.pre e.label)) ∧
    ((∀ e ∈ hist, Plain host e.pre e.label) → x.storageFailed = false) := by
  obtain ⟨hnow, hpast⟩ := run_healthy hhost run
  have hsteps := run.step_of_mem
  have hsets : ∀ e ∈ hist, Registered host e → e.post.db.initialized = true := fun e he hdone =>
    (hdone.opens hhost (hsteps e he) (hpast e he)).2
  have hkeeps : ∀ e ∈ hist, e.pre.db.initialized = true → e.post.db.initialized = true := fun e he =>
    (step_kept hhost (hsteps e he) (hpast e he)).2
  have hexact : ∀ e ∈ hist, e.pre.storageFailed = false → (e.post.storageFailed = false ↔ Plain host e.pre e.label) := by
    intro e he hopen
    obtain ⟨⟨db, failed⟩, label, post⟩ := e
    obtain rfl : failed = false := hopen
    obtain ⟨hdrawn, hpost⟩ := hsteps _ he
    dsimp only at hpost ⊢
    rw [hpost]
    cases turns hhost (hpast _ he) hdrawn with
    | kept plain db' post healthy initialized =>
      rw [show carryOut host ⟨db, false⟩ label = Auth.opens db' from post]
      exact iff_of_true rfl plain
    | shut misfit post =>
      rw [show carryOut host ⟨db, false⟩ label = shuts db from post]
      exact iff_of_false Bool.noConfusion misfit
  refine ⟨?_, ?_, ⟨hnow.counted.users, hnow.counted.sessions⟩, hexact, fun hplain => ?_⟩
  · refine run.once (Q := fun x : AuthService => x.db.initialized = true) hsets hkeeps fun e he hdone hopen => ?_
    have hclosed := (hdone.opens hhost (hsteps e he) (hpast e he)).1
    exact absurd (hclosed.symm.trans hopen) Bool.false_ne_true
  · intro hdone y hasked
    have hopen := run.flag (Q := fun x : AuthService => x.db.initialized = true) hsets hkeeps hdone
    obtain ⟨db, failed⟩ := x
    cases failed with
    | true => exact absurd (EStateM.Result.ok.inj hasked).1 Bool.false_ne_true
    | false =>
      rw [show needsInit host ⟨db, false⟩ = .ok (!db.initialized) (Auth.opens db) from needsInit_healthy hnow] at hasked
      rw [show db.initialized = true from hopen] at hasked
      exact absurd (EStateM.Result.ok.inj hasked).1 Bool.false_ne_true
  · exact run.invariant (I := fun x : AuthService => x.storageFailed = false) (fun _ h => h.2) fun e he _ hopen =>
      (hexact e he hopen).mpr (hplain e he)

end

/-! ## A platform -/

/-- A platform whose digests are all zeros. -/
def zeroHost : AuthHost :=
  { strokes with
    sha := fun _ => zeros 64
    hashPassword := fun _ _ => zeros 128
    sessionTtlMs := 604800000 }

theorem lawful_zeroHost : zeroHost.Lawful where
  calendar := lawful_strokes
  sha_hex _ := show isLowerHexText 64 (zeros 64) = true by decide +kernel
  hash_hex _ _ := show isLowerHexText 128 (zeros 128) = true by decide +kernel

/-- The first registration, with this name. -/
def firstCall (username : Utf16) : AuthLabel := .register 0 (zeros 32) username (Utf16.encode "password")

def firstEntry (username : Utf16) : Entry AuthService AuthLabel :=
  ⟨opens .empty, firstCall username, carryOut zeroHost (opens .empty) (firstCall username)⟩

theorem zeros_drawn : isLowerHexText 32 (zeros 32) = true := by decide +kernel

theorem run_firstEntry (username : Utf16) : Run (authSystem zeroHost) [firstEntry username] (firstEntry username).post :=
  .next (.start ⟨healthy_empty, rfl⟩) ⟨zeros_drawn, rfl⟩

/-- A first registration with an ordinary name leaves the service open. -/
theorem auth_stays_open_admin : (firstEntry (Utf16.encode "admin")).post.storageFailed = false :=
  (auth_stays_open lawful_zeroHost (run_firstEntry (Utf16.encode "admin"))).2.2.2.2 fun e he => by
    rw [List.mem_singleton.mp he]
    intro _
    decide +kernel

/-- A first registration closes the service where the name is long enough and is not read back as it was given. -/
theorem firstEntry_shuts {username : Utf16} (hlong : 3 ≤ username.length) (hname : ¬ Storable username) :
    (firstEntry username).post = shuts .empty := by
  have heq := @signUp_eq zeroHost .empty 0 (zeros 32) username (Utf16.encode "password") lawful_zeroHost healthy_empty
    zeros_drawn
  have hstrong : ¬ (Utf16.encode "password").length < 8 := by decide +kernel
  have hnow : InCalendar 0 := ⟨by decide, by decide⟩
  rw [if_neg (show ¬ AuthTables.empty.initialized = true from Bool.false_ne_true), if_neg (Nat.not_lt.mpr hlong),
    if_neg hstrong, if_neg (not_not_intro hnow), if_neg hname] at heq
  unfold firstEntry firstCall carryOut
  dsimp only
  rw [heq]
  rfl

/-- `"abc\u0000d"`: the column answers it up to its NUL. -/
def nulName : Utf16 := [0x61, 0x62, 0x63, 0, 0x64]

/-- `"abc\ud800"`: the column holds U+FFFD for the lone surrogate. -/
def loneName : Utf16 := [0x61, 0x62, 0x63, 0xd800]

/-- **A name with a NUL closes the service, and so does one with a lone surrogate**: what was written is not
    what is read back. -/
theorem nul_name_shuts : zeroHost.Lawful ∧ Run (authSystem zeroHost) [firstEntry nulName] (shuts .empty) ∧
    Run (authSystem zeroHost) [firstEntry loneName] (shuts .empty) := by
  have hnul : (firstEntry nulName).post = shuts .empty := firstEntry_shuts (by decide) (by decide)
  have hlone : (firstEntry loneName).post = shuts .empty := firstEntry_shuts (by decide) (by decide)
  exact ⟨lawful_zeroHost, hnul ▸ run_firstEntry nulName, hlone ▸ run_firstEntry loneName⟩

end

end Auth
end Qlong
