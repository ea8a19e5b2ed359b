import Qlong.Lib.Diff
import Qlong.Lib.Fallible
import Qlong.Lib.Utf16
import Qlong.Node.StoreFacts

/-!
# The tables of the accounts

`packages/registry/src/auth-store.ts`: the three tables behind `AuthService`, and the transactions over
them. Every transaction reads the whole database first and once more at its end; whatever does not read
back as it should makes it throw, and a transaction that throws leaves the tables as they were.

`auth_meta` has its one row from the start. A text column holds UTF-8: a string is written as the text its
code units decode to, a lone surrogate as U+FFFD. It answers that text up to its first NUL; an integer
beyond the safe ones cannot be read at all.
-/

namespace Qlong
namespace Auth

open Lib Node

/-! ## Records -/

inductive UserRole where
  | global_owner
  | user
deriving DecidableEq, Repr

def UserRole.text : UserRole → String
  | .global_owner => "global_owner"
  | .user => "user"

/-- `isUserRole(value)`. -/
def UserRole.ofText (s : String) : Option UserRole :=
  if s = "global_owner" then some .global_owner else if s = "user" then some .user else none

@[simp] theorem UserRole.ofText_text (role : UserRole) : UserRole.ofText role.text = some role := by
  cases role <;> decide

structure UserRecord where
  username : String
  role : UserRole
  salt : String
  hash : String
  created_at : String
deriving DecidableEq, Repr

structure SessionRecord where
  username : String
  role : UserRole
  csrf : String
  expiresAt : Int
deriving DecidableEq, Repr

/-- `Date`. -/
structure Calendar where
  /-- `Date.parse`, `none` for `NaN`. -/
  dateParse : String → Option Int
  /-- `new Date(t).toISOString()`. -/
  toISOString : Int → String

/-- A time that is written is read back, and its text has no NUL. -/
structure Calendar.Lawful (cal : Calendar) : Prop where
  parse_iso : ∀ t, -8640000000000000 ≤ t → t ≤ 8640000000000000 → cal.dateParse (cal.toISOString t) = some t
  plain : ∀ t, ∀ ch ∈ (cal.toISOString t).toList, ch.val ≠ 0

/-- `s.length` of a text: a character beyond the basic plane counts twice. -/
def unitLength (s : String) : Nat := (s.toList.map fun ch => if ch.toNat < 0x10000 then 1 else 2).sum

/-- `/^[a-f0-9]{n}$/i.test(s)`. -/
def isHexText (n : Nat) (s : String) : Bool := decide ((ascii s).length = n) && (ascii s).all isHex

/-- `hex(value, n)`. -/
def isLowerHexText (n : Nat) (s : String) : Bool := decide ((ascii s).length = n) && (ascii s).all isLowerHex

theorem noNul_of_isHexText {n : Nat} {s : String} (h : isHexText n s = true) : ∀ c ∈ s.toList, c.val ≠ 0 := by
  apply noNul_of_ascii
  intro hnul
  simp only [isHexText, Bool.and_eq_true, List.all_eq_true] at h
  have hzero := h.2 (Char.ofUInt8 0) hnul
  revert hzero
  decide

theorem isHexText_of_lower {n : Nat} {s : String} (h : isLowerHexText n s = true) : isHexText n s = true := by
  unfold isLowerHexText at h
  unfold isHexText
  simp only [Bool.and_eq_true, List.all_eq_true, isHex, Bool.or_eq_true] at h ⊢
  exact ⟨h.1, fun c hc => Or.inl (h.2 c hc)⟩

/-- `parseUserRecord(value, allowLegacyOwner)`. -/
def parseUserRecord (cal : Calendar) (value : Json) (allowLegacyOwner : Bool) : Option UserRecord := do
  let username ← (value.getStr "username").filter fun s => 3 ≤ unitLength s
  let salt ← (value.getStr "salt").filter (isHexText 32)
  let hash ← (value.getStr "hash").filter (isHexText 128)
  let created_at ← (value.getStr "created_at").filter fun s => (cal.dateParse s).isSome
  let role ← if allowLegacyOwner && (value.get "role").isNone then some .global_owner
    else (value.getStr "role").bind UserRole.ofText
  return { username, role, salt, hash, created_at }

/-- `new Date(s).toISOString() === s`. -/
def isCanonical (cal : Calendar) (s : String) : Bool := (cal.dateParse s).any fun t => cal.toISOString t = s

/-! ## Tables -/

structure SessionRow where
  session_hash : String
  username : String
  role : UserRole
  csrf : String
  expires_at : Int
deriving DecidableEq, Repr

structure AuthTables where
  initialized : Bool
  user_count : Int
  session_count : Int
  users : List UserRecord
  sessions : List SessionRow
deriving DecidableEq

/-- The tables after `AUTH_SQL`. -/
def AuthTables.empty : AuthTables := ⟨false, 0, 0, [], []⟩

/-- A row of `auth_users` as it is read. -/
def userRow (u : UserRecord) : Json :=
  .obj [("username", .str (columnText u.username)), ("role", .str u.role.text), ("salt", .str (columnText u.salt)),
    ("hash", .str (columnText u.hash)), ("created_at", .str (columnText u.created_at))]

/-- A user as `register` is handed one: the name is any string. -/
structure NewUser where
  username : Utf16
  role : UserRole
  salt : String
  hash : String
  created_at : String

/-- The row that is inserted. -/
def NewUser.row (u : NewUser) : UserRecord := ⟨Utf16.decode u.username, u.role, u.salt, u.hash, u.created_at⟩

abbrev Users := Records UserRecord.username

/-- `users.get(name)`, `name` any string. -/
def Users.find (users : Users) (name : Utf16) : Option UserRecord := users.rows.find? fun u => Utf16.encode u.username = name

abbrev Sessions := Records (Prod.fst : String × SessionRecord → String)

structure AuthSnapshot where
  initialized : Bool
  users : Users
  sessions : Sessions

/-- `invalid()` unless the condition holds. -/
def expect (ok : Bool) : Except Unit PUnit := require ok ()

def readUser (cal : Calendar) (users : Users) (row : UserRecord) : Except Unit Users := do
  let user ← demand (parseUserRecord cal (userRow row) false) ()
  expect (!users.has user.username && isCanonical cal user.created_at)
  return users.set user

def readSession (users : Users) (sessions : Sessions) (row : SessionRow) : Except Unit Sessions := do
  let session_hash := columnText row.session_hash
  let username := columnText row.username
  let csrf := columnText row.csrf
  expect (isLowerHexText 64 session_hash && !sessions.has session_hash && users.has username && isLowerHexText 48 csrf &&
    Json.isNonnegative row.expires_at)
  return sessions.set (session_hash, ⟨username, row.role, csrf, row.expires_at⟩)

/-- `readSnapshot(db)`. -/
def readSnapshot (cal : Calendar) (db : AuthTables) : Except Unit AuthSnapshot := do
  expect (Json.isNonnegative db.user_count && Json.isNonnegative db.session_count)
  expect (db.users.length = db.user_count && db.sessions.length = db.session_count &&
    (db.initialized || (db.users.isEmpty && db.sessions.isEmpty)) && !(db.initialized && db.users.isEmpty))
  let users ← foldSteps (readUser cal) .empty db.users
  let sessions ← foldSteps (readSession users) .empty db.sessions
  return ⟨db.initialized, users, sessions⟩

/-! ## Transactions -/

/-- `register(user)`. -/
def register (cal : Calendar) (user : NewUser) (db : AuthTables) : Except Unit (Bool × AuthTables) := do
  let before ← readSnapshot cal db
  if before.initialized then return (false, db)
  else
    expect (user.role = .global_owner)
    -- the primary key, and the condition of the update
    expect (!(db.users.any fun u => u.username = user.row.username) && !db.initialized)
    let db := { db with users := db.users ++ [user.row], initialized := true, user_count := 1 }
    let staged ← readSnapshot cal db
    -- the name that was read is compared with the string that was given
    expect (staged.initialized && (staged.users.find user.username).isSome)
    return (true, db)

/-- `saveSession(sessionHash, session)`. -/
def saveSession (cal : Calendar) (sessionHash : String) (session : SessionRecord) (db : AuthTables) :
    Except Unit (Unit × AuthTables) := do
  let state ← readSnapshot cal db
  expect (state.initialized && decide ((state.users.get session.username).map UserRecord.role = some session.role))
  -- the primary key, the reference to the user, and the range of the column
  expect (!(db.sessions.any fun s => s.session_hash = sessionHash) &&
    (db.users.any fun u => u.username = session.username) &&
    decide (0 ≤ session.expiresAt ∧ session.expiresAt ≤ 9223372036854775807))
  let row : SessionRow := ⟨sessionHash, session.username, session.role, session.csrf, session.expiresAt⟩
  let db := { db with sessions := db.sessions ++ [row], session_count := db.session_count + 1 }
  let _ ← readSnapshot cal db
  return ((), db)

/-- `deleteSession(sessionHash)`. -/
def deleteSession (cal : Calendar) (sessionHash : String) (db : AuthTables) : Except Unit (Unit × AuthTables) := do
  let state ← readSnapshot cal db
  if !state.sessions.has sessionHash then return ((), db)
  else
    let kept := db.sessions.filter fun s => s.session_hash ≠ sessionHash
    expect (kept.length + 1 = db.sessions.length)
    let db := { db with sessions := kept, session_count := db.session_count - 1 }
    let _ ← readSnapshot cal db
    return ((), db)

/-! ## What is read back -/

section

variable {cal : Calendar} {users users' : Users} {u row : UserRecord} {rows more : List UserRecord} {db : AuthTables}

theorem expect_ok_iff {ok : Bool} {x : PUnit} : expect ok = .ok x ↔ ok = true := require_ok_iff

theorem columnText_plain (s : String) : columnText (columnText s) = columnText s :=
  columnText_of_noNul fun c hc => by
    unfold columnText at hc
    rw [String.toList_ofList] at hc
    simpa using List.mem_takeWhile_imp hc

/-- A string that a text column answers as it was given: no NUL and no lone surrogate. -/
def Storable (name : Utf16) : Prop := 0 ∉ name ∧ Utf16.wellFormed name = true

instance (name : Utf16) : Decidable (Storable name) := inferInstanceAs (Decidable (_ ∧ _))

/-- **What a text column answers is the string that was written** exactly where that string is storable. -/
theorem encode_column_iff {name : Utf16} :
    Utf16.encode (columnText (Utf16.decode name)) = name ↔ Storable name := by
  constructor
  · intro h
    refine ⟨fun hzero => ?_, ?_⟩
    · rw [← h, Utf16.zero_mem_encode] at hzero
      obtain ⟨c, hc, hnul⟩ := hzero
      refine noNul_of_columnText (columnText_plain _) c hc ?_
      exact UInt32.toNat_inj.mp hnul
    · rw [← h]
      exact Utf16.wellFormed_encode _
  · rintro ⟨hzero, hformed⟩
    have hback := Utf16.encode_decode_iff.mpr hformed
    rw [columnText_of_noNul, hback]
    intro c hc hnul
    refine hzero ?_
    rw [← hback, Utf16.zero_mem_encode]
    exact ⟨c, hc, UInt32.toNat_inj.mpr hnul⟩

theorem Storable.noNul {name : Utf16} (h : Storable name) : ∀ ch ∈ (Utf16.decode name).toList, ch.val ≠ 0 := by
  refine noNul_of_columnText (Utf16.encode_injective ?_)
  rw [encode_column_iff.mpr h, Utf16.encode_decode_iff.mpr h.2]

theorem Users.find_some {name : Utf16} (h : users.find name = some u) :
    u ∈ users.rows ∧ Utf16.encode u.username = name := by
  unfold Users.find at h
  exact ⟨List.mem_of_find?_eq_some h, by simpa using List.find?_some h⟩

/-- A name has one user. -/
theorem Users.find_iff {name : Utf16} :
    users.find name = some u ↔ u ∈ users.rows ∧ Utf16.encode u.username = name := by
  refine ⟨Users.find_some, ?_⟩
  rintro ⟨hu, rfl⟩
  cases hfound : users.find (Utf16.encode u.username) with
  | none =>
    have hall := List.find?_eq_none.mp hfound u hu
    exact absurd (decide_eq_true rfl) hall
  | some v =>
    obtain ⟨hv, hname⟩ := Users.find_some hfound
    have hsame := Utf16.encode_injective hname
    have hu' := Table.lookup_of_mem users.keyed hu
    have hv' := Table.lookup_of_mem users.keyed hv
    rw [hsame, hu'] at hv'
    exact hv'.symm

/-- The units of a string that is read are counted like those of its text. -/
theorem length_decode {name : Utf16} (h : Utf16.wellFormed name = true) : unitLength (Utf16.decode name) = name.length := by
  have hlength : ∀ s : String, (Utf16.encode s).length = unitLength s := by
    intro s
    rw [Utf16.encode, List.length_flatMap, unitLength]
    congr 1
    refine List.map_congr_left fun c _ => ?_
    unfold Utf16.unitsOf
    split <;> rfl
  rw [← hlength, Utf16.encode_decode_iff.mpr h]

/-- A row that is read back as it was written. -/
structure Whole (cal : Calendar) (u : UserRecord) : Prop where
  plain : ∀ ch ∈ u.username.toList, ch.val ≠ 0
  long : 3 ≤ unitLength u.username
  salt : isHexText 32 u.salt = true
  hash : isHexText 128 u.hash = true
  created_at : isCanonical cal u.created_at = true
  time_plain : ∀ ch ∈ u.created_at.toList, ch.val ≠ 0

/-- **What a record that is admitted is.** -/
theorem parseUserRecord_iff {value : Json} {allowLegacyOwner : Bool} {v : UserRecord} :
    parseUserRecord cal value allowLegacyOwner = some v ↔
      (value.getStr "username" = some v.username ∧ 3 ≤ unitLength v.username) ∧
      (value.getStr "salt" = some v.salt ∧ isHexText 32 v.salt = true) ∧
      (value.getStr "hash" = some v.hash ∧ isHexText 128 v.hash = true) ∧
      (value.getStr "created_at" = some v.created_at ∧ (cal.dateParse v.created_at).isSome = true) ∧
      (if allowLegacyOwner && (value.get "role").isNone then some .global_owner
        else (value.getStr "role").bind UserRole.ofText) = some v.role := by
  obtain ⟨username, role, salt, hash, created_at⟩ := v
  unfold parseUserRecord
  simp only [Option.bind_eq_bind, Option.bind_eq_some_iff, Option.filter_eq_some_iff, decide_eq_true_eq, Option.pure_def]
  constructor
  · rintro ⟨username', husername, salt', hsalt, hash', hhash, created_at', htime, hrole⟩
    split at hrole
    · rename_i howner
      simp only [Option.bind_some, Option.some.injEq, UserRecord.mk.injEq] at hrole
      obtain ⟨rfl, rfl, rfl, rfl, rfl⟩ := hrole
      exact ⟨husername, hsalt, hhash, htime, if_pos howner⟩
    · rename_i hnamed
      simp only [Option.bind_eq_some_iff, Option.some.injEq, UserRecord.mk.injEq] at hrole
      obtain ⟨role', ⟨text, htext, hof⟩, rfl, rfl, rfl, rfl, rfl⟩ := hrole
      refine ⟨husername, hsalt, hhash, htime, ?_⟩
      rw [if_neg hnamed, htext]
      exact hof
  · rintro ⟨husername, hsalt, hhash, htime, hrole⟩
    refine ⟨username, husername, salt, hsalt, hash, hhash, created_at, htime, ?_⟩
    split at hrole
    · rename_i howner
      rw [if_pos howner]
      obtain rfl := Option.some.inj hrole
      rfl
    · rename_i hnamed
      rw [if_neg hnamed, hrole]
      rfl

theorem parse_userRow {v : UserRecord} : parseUserRecord cal (userRow row) false = some v ↔
    3 ≤ unitLength (columnText row.username) ∧ isHexText 32 (columnText row.salt) = true ∧
      isHexText 128 (columnText row.hash) = true ∧ (cal.dateParse (columnText row.created_at)).isSome = true ∧
      v = ⟨columnText row.username, row.role, columnText row.salt, columnText row.hash, columnText row.created_at⟩ := by
  obtain ⟨username, role, salt, hash, created_at⟩ := v
  have hname : (userRow row).getStr "username" = some (columnText row.username) := rfl
  have hsalt : (userRow row).getStr "salt" = some (columnText row.salt) := rfl
  have hhash : (userRow row).getStr "hash" = some (columnText row.hash) := rfl
  have htime : (userRow row).getStr "created_at" = some (columnText row.created_at) := rfl
  have hrole : ((userRow row).getStr "role").bind UserRole.ofText = some row.role := UserRole.ofText_text row.role
  rw [parseUserRecord_iff, hname, hsalt, hhash, htime, Bool.false_and, if_neg Bool.false_ne_true, hrole]
  simp only [Option.some.injEq, UserRecord.mk.injEq]
  constructor
  · rintro ⟨⟨rfl, hlong⟩, ⟨rfl, hs⟩, ⟨rfl, hh⟩, ⟨rfl, ht⟩, rfl⟩
    exact ⟨hlong, hs, hh, ht, rfl, rfl, rfl, rfl, rfl⟩
  · rintro ⟨hlong, hs, hh, ht, rfl, rfl, rfl, rfl, rfl⟩
    exact ⟨⟨rfl, hlong⟩, ⟨rfl, hs⟩, ⟨rfl, hh⟩, ⟨rfl, ht⟩, rfl⟩

/-- **What a row that is read is**: its texts up to their first NUL. -/
theorem readUser_ok : readUser cal users row = .ok users' ↔ ∃ v, parseUserRecord cal (userRow row) false = some v ∧
    users.has v.username = false ∧ isCanonical cal v.created_at = true ∧ users' = users.set v := by
  simp only [readUser, bind_ok_iff, demand_ok_iff, expect_ok_iff, pure_ok_iff, Bool.and_eq_true, Bool.not_eq_true',
    exists_const]
  constructor
  · rintro ⟨v, hv, ⟨hnew, htime⟩, rfl⟩
    exact ⟨v, hv, hnew, htime, rfl⟩
  · rintro ⟨v, hv, hnew, htime, rfl⟩
    exact ⟨v, hv, ⟨hnew, htime⟩, rfl⟩

theorem readUser_whole (h : Whole cal u) (hnew : users.has u.username = false) :
    readUser cal users u = .ok (users.set u) := by
  have hname := columnText_of_noNul h.plain
  have hsalt := columnText_of_noNul (noNul_of_isHexText h.salt)
  have hhash := columnText_of_noNul (noNul_of_isHexText h.hash)
  have htime := columnText_of_noNul h.time_plain
  refine readUser_ok.mpr ⟨u, parse_userRow.mpr ?_, hnew, h.created_at, rfl⟩
  rw [hname, hsalt, hhash, htime]
  obtain ⟨t, ht, -⟩ := (Option.any_eq_true _ _).mp h.created_at
  exact ⟨h.long, h.salt, h.hash, by rw [ht]; rfl, rfl⟩

/-- The names of users that were read have no NUL. -/
theorem readUsers_plain (h : foldSteps (readUser cal) users rows = .ok users')
    (hplain : ∀ v ∈ users.rows, columnText v.username = v.username) : ∀ v ∈ users'.rows, columnText v.username = v.username := by
  refine foldSteps_induct (P := fun s : Users => ∀ v ∈ s.rows, columnText v.username = v.username) ?_ h hplain
  intro s row s' hrow hs v hv
  obtain ⟨w, hw, -, -, rfl⟩ := readUser_ok.mp hrow
  obtain ⟨-, -, -, -, rfl⟩ := parse_userRow.mp hw
  rcases Table.mem_put.mp hv with rfl | ⟨hv, -⟩
  · exact columnText_plain _
  · exact hs v hv

/-- Whole rows with new names are read. -/
theorem readUsers_whole (hwhole : ∀ u ∈ more, Whole cal u) (hnames : (more.map UserRecord.username).Nodup)
    (hnew : ∀ u ∈ more, users.has u.username = false) :
    ∃ users', foldSteps (readUser cal) users more = .ok users' ∧ users'.rows = users.rows ++ more := by
  obtain ⟨users', hfold, hrows⟩ := Records.foldSteps_set (f := readUser cal)
    (fun u hu _ hnewu => readUser_whole (hwhole u hu) hnewu) hnames hnew
  rw [List.map_id'] at hrows
  exact ⟨users', hfold, hrows⟩

/-- The entry of a session in a snapshot. -/
def sessionEntry (row : SessionRow) : String × SessionRecord :=
  (row.session_hash, ⟨row.username, row.role, row.csrf, row.expires_at⟩)

/-- A session that is read back as it was written. -/
structure WholeSession (users : Users) (row : SessionRow) : Prop where
  hash : isLowerHexText 64 row.session_hash = true
  csrf : isLowerHexText 48 row.csrf = true
  user : users.has row.username = true
  plain : columnText row.username = row.username
  expires_at : Json.isNonnegative row.expires_at = true

theorem readSession_whole {sessions : Sessions} {row : SessionRow} (h : WholeSession users row)
    (hnew : sessions.has row.session_hash = false) :
    readSession users sessions row = .ok (sessions.set (sessionEntry row)) := by
  have hhash := columnText_of_noNul (noNul_of_isHexText (isHexText_of_lower h.hash))
  have hcsrf := columnText_of_noNul (noNul_of_isHexText (isHexText_of_lower h.csrf))
  simp only [readSession, bind_ok_iff, expect_ok_iff, pure_ok_iff, hhash, hcsrf, h.plain, Bool.and_eq_true,
    Bool.not_eq_true']
  exact ⟨⟨⟩, ⟨⟨⟨⟨h.hash, hnew⟩, h.user⟩, h.csrf⟩, h.expires_at⟩, rfl⟩

theorem readSessions_whole {sessions : Sessions} {rows : List SessionRow} (hwhole : ∀ row ∈ rows, WholeSession users row)
    (hhashes : (rows.map SessionRow.session_hash).Nodup) (hnew : ∀ row ∈ rows, sessions.has row.session_hash = false) :
    ∃ sessions', foldSteps (readSession users) sessions rows = .ok sessions' ∧
      sessions'.rows = sessions.rows ++ rows.map sessionEntry :=
  Records.foldSteps_set (fun row hrow _ hnewrow => readSession_whole (hwhole row hrow) hnewrow) hhashes hnew

/-- What the checks before the rows ask of the counts. -/
structure Counted (db : AuthTables) : Prop where
  users : db.user_count = db.users.length
  sessions : db.session_count = db.sessions.length
  safe : (db.users.length : Int) ≤ Json.maxSafe ∧ (db.sessions.length : Int) ≤ Json.maxSafe
  closed : db.initialized = false → db.users = [] ∧ db.sessions = []
  opened : db.initialized = true → db.users ≠ []

theorem counted_iff : ((Json.isNonnegative db.user_count && Json.isNonnegative db.session_count) = true ∧
    (decide (db.users.length = db.user_count) && decide (db.sessions.length = db.session_count) &&
      (db.initialized || (db.users.isEmpty && db.sessions.isEmpty)) && !(db.initialized && db.users.isEmpty)) = true) ↔
    Counted db := by
  simp only [Json.isNonnegative_iff, Bool.and_eq_true, decide_eq_true_eq, Bool.or_eq_true, List.isEmpty_iff,
    Bool.not_eq_true', Bool.and_eq_false_iff]
  constructor
  · rintro ⟨⟨⟨-, hu⟩, -, hs⟩, ⟨⟨husers, hsessions⟩, hclosed⟩, hopened⟩
    refine ⟨husers.symm, hsessions.symm, ⟨by omega, by omega⟩, fun hinit => ?_, fun hinit hnone => ?_⟩
    · rcases hclosed with hopen | hempty
      · exact absurd (hinit.symm.trans hopen) (by simp)
      · exact hempty
    · rcases hopened with hshut | hsome
      · exact absurd (hinit.symm.trans hshut) (by simp)
      · rw [hnone] at hsome
        exact absurd hsome (by simp)
  · intro h
    obtain ⟨husafe, hssafe⟩ := h.safe
    rw [h.users, h.sessions]
    refine ⟨⟨⟨by omega, husafe⟩, by omega, hssafe⟩, ⟨⟨rfl, rfl⟩, ?_⟩, ?_⟩
    · cases hinit : db.initialized with
      | false => exact Or.inr (h.closed hinit)
      | true => exact Or.inl rfl
    · cases hinit : db.initialized with
      | false => exact Or.inl rfl
      | true =>
        refine Or.inr (Bool.eq_false_iff.mpr fun hempty => ?_)
        exact h.opened hinit (List.isEmpty_iff.mp hempty)

/-- **What a database that is read is.** -/
theorem readSnapshot_ok {s : AuthSnapshot} : readSnapshot cal db = .ok s ↔ Counted db ∧
    s.initialized = db.initialized ∧ foldSteps (readUser cal) .empty db.users = .ok s.users ∧
    foldSteps (readSession s.users) .empty db.sessions = .ok s.sessions := by
  simp only [readSnapshot, bind_ok_iff, expect_ok_iff, pure_ok_iff, exists_const]
  rw [← counted_iff]
  constructor
  · rintro ⟨hcounts, hrows, users, husers, sessions, hsessions, rfl⟩
    exact ⟨⟨hcounts, hrows⟩, rfl, husers, hsessions⟩
  · rintro ⟨⟨hcounts, hrows⟩, hinit, husers, hsessions⟩
    refine ⟨hcounts, hrows, s.users, husers, s.sessions, hsessions, ?_⟩
    rw [← hinit]

/-! ## A database that is in order -/

/-- Every row is read back as it was written, and the counts agree. -/
structure Healthy (cal : Calendar) (db : AuthTables) : Prop where
  counted : Counted db
  users : ∀ u ∈ db.users, Whole cal u
  names : (db.users.map UserRecord.username).Nodup
  sessions : ∀ row ∈ db.sessions, isLowerHexText 64 row.session_hash = true ∧ isLowerHexText 48 row.csrf = true ∧
    row.username ∈ db.users.map UserRecord.username ∧ Json.isNonnegative row.expires_at = true
  hashes : (db.sessions.map SessionRow.session_hash).Nodup

theorem healthy_empty : Healthy cal .empty where
  counted := ⟨rfl, rfl, ⟨by decide, by decide⟩, fun _ => ⟨rfl, rfl⟩, fun h => absurd h (by decide)⟩
  users _ h := absurd h List.not_mem_nil
  names := .nil
  sessions _ h := absurd h List.not_mem_nil
  hashes := .nil

/-- **A database that is in order is read as it stands.** -/
theorem Healthy.read (h : Healthy cal db) : ∃ s, readSnapshot cal db = .ok s ∧ s.initialized = db.initialized ∧
    s.users.rows = db.users ∧ s.sessions.rows = db.sessions.map sessionEntry := by
  obtain ⟨users, husers, hrows⟩ := @readUsers_whole cal .empty db.users h.users h.names fun _ _ => rfl
  rw [Records.rows_empty, List.nil_append] at hrows
  have hwhole : ∀ row ∈ db.sessions, WholeSession users row := by
    intro row hrow
    obtain ⟨hhash, hcsrf, huser, hexpires⟩ := h.sessions row hrow
    refine ⟨hhash, hcsrf, Records.has_iff.mpr (hrows ▸ huser), ?_, hexpires⟩
    obtain ⟨u, hu, hname⟩ := List.mem_map.mp huser
    rw [← hname]
    exact columnText_of_noNul (h.users u hu).plain
  obtain ⟨sessions, hsessions, hentries⟩ := @readSessions_whole users .empty db.sessions hwhole h.hashes fun _ _ => rfl
  rw [Records.rows_empty, List.nil_append] at hentries
  exact ⟨⟨db.initialized, users, sessions⟩, readSnapshot_ok.mpr ⟨h.counted, rfl, husers, hsessions⟩, rfl, hrows, hentries⟩

end

/-! ## A calendar -/

/-- A calendar that writes the epoch as it is written and any other time in strokes. -/
def strokes : Calendar where
  dateParse s :=
    if s = "1970-01-01T00:00:00.000Z" then some 0 else some ((s.toList.count 'p' : Int) - (s.toList.count 'n' : Int))
  toISOString t :=
    if t = 0 then "1970-01-01T00:00:00.000Z"
    else String.ofList (List.replicate t.toNat 'p' ++ List.replicate (-t).toNat 'n')

theorem lawful_strokes : strokes.Lawful where
  parse_iso t _ _ := by
    unfold strokes
    dsimp only
    by_cases ht : t = 0
    · rw [if_pos ht, if_pos rfl, ht]
    · rw [if_neg ht, if_neg]
      · simp only [String.toList_ofList, List.count_append, List.count_replicate, Option.some.injEq]
        simp only [beq_self_eq_true, if_true]
        rw [if_neg (by decide), if_neg (by decide)]
        omega
      · -- a stroke is no digit
        intro hsame
        have hmem : '1' ∈ List.replicate t.toNat 'p' ++ List.replicate (-t).toNat 'n' := by
          have hlist := congrArg String.toList hsame
          rw [String.toList_ofList] at hlist
          rw [hlist]
          decide
        rcases List.mem_append.mp hmem with h | h
        · exact absurd (List.eq_of_mem_replicate h) (by decide)
        · exact absurd (List.eq_of_mem_replicate h) (by decide)
  plain t ch hch := by
    unfold strokes at hch
    dsimp only at hch
    split at hch
    · have hall := (List.all_eq_true (p := fun ch => decide (ch.val ≠ 0))).mp (by decide) ch hch
      exact of_decide_eq_true hall
    · rw [String.toList_ofList, List.mem_append] at hch
      rcases hch with h | h
      · rw [List.eq_of_mem_replicate h]
        decide
      · rw [List.eq_of_mem_replicate h]
        decide

def zeros (n : Nat) : String := String.ofList (List.replicate n '0')

end Auth
end Qlong
