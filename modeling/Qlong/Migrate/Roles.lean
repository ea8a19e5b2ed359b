import Qlong.Migrate.Outcomes

/-!
# Roles

The first version of the center loads its users with `AuthService.loadUsers` of
`packages/registry/src/auth.ts`: the role of a record may be missing only where the record is the only one.
The import reads record by record and supplies the role of every one. `roles_not_raised` says when the
two agree about who is a `global_owner`.
-/

namespace Qlong
namespace Migrate

open Lib Auth Gateway Node

section

variable {host : MigrateHost} {limits : CustodyLimits} {sources : MigrationSources} {now : Int} {db db' : CenterTables}
  {report : ImportReport}

/-- One record of the loop in `loadUsers`. -/
def loadUser (host : MigrateHost) (alone : Bool) (loaded : Users) (value : Json) : Except Unit Users := do
  let u ← demand (parseUserRecord host.calendar value alone) ()
  require (!loaded.has u.username) ()
  return loaded.set u

/-- `loadUsers()`: the users of a center of the first version, or an error that closes it. A marker that
    is missing is written. -/
def loadUsers (host : MigrateHost) (marker contents : Option FileSource) : Except Unit Users :=
  if marker.any fun m => host.utf8 m.bytes ≠ initializedMarker then .error ()
  else
    match contents with
    | none => if marker.isSome then .error () else .ok .empty
    | some src =>
      match host.parse (host.utf8 src.bytes) with
      | some (.arr items) => if items.isEmpty then .error () else foldSteps (loadUser host (items.length = 1)) .empty items
      | _ => .error ()

/-- The records that an import inserts, and the users they are read as. -/
def insertedRecords (host : MigrateHost) (sources : MigrationSources) (db : CenterTables) (report : ImportReport) :
    List (Json × UserRecord) :=
  if report.idempotent then [] else readyUsers host sources (targetSnapshot db)

/-- The record states that its user is a `global_owner`. -/
def StatesOwner (raw : Json) : Prop := raw.getStr "role" = some "global_owner"

/-- The center of the first version, over the same files, has the user as a `global_owner`. -/
def LoadedAsOwner (host : MigrateHost) (sources : MigrationSources) (u : UserRecord) : Prop :=
  ∃ loaded v, loadUsers host sources.initializedMarker sources.usersJson = .ok loaded ∧ loaded.get u.username = some v ∧
    v.role = .global_owner

/-- There is one record, and nothing is wrong with the marker. -/
def SoleRecord (host : MigrateHost) (sources : MigrationSources) : Prop :=
  (userRecords host sources.usersJson).length = 1 ∧
    ∀ marker, sources.initializedMarker = some marker → host.utf8 marker.bytes = initializedMarker

theorem added_inserted (h : importMigration host limits sources now db = .ok (report, db')) :
    addedUsers db db' = (insertedRecords host sources db report).map Prod.snd := by
  rcases import_ok h with ⟨-, hagain, rfl⟩ | ⟨-, hcommits, -⟩
  · unfold addedUsers insertedRecords
    rw [hagain, List.drop_length, if_pos rfl]
    rfl
  · unfold insertedRecords
    rw [added_eq hcommits, hcommits.report, if_neg Bool.false_ne_true]
    rfl

/-- A record that is inserted stands in the file, and its time is canonical. -/
theorem mem_inserted {c : Json × UserRecord} (h : c ∈ insertedRecords host sources db report) :
    c.1 ∈ userRecords host sources.usersJson ∧ parseUserRecord host.calendar c.1 true = some c.2 := by
  unfold insertedRecords at h
  split at h
  · exact absurd h List.not_mem_nil
  · exact ⟨(Reading.mem_chosen h).1, (read_user (Reading.mem_chosen h).2.1).1⟩

/-- A role that is stated is the one that is read. -/
theorem states_of_owner {raw : Json} {u : UserRecord} (h : parseUserRecord host.calendar raw true = some u)
    (hrole : (raw.get "role").isSome = true) (howner : u.role = .global_owner) : StatesOwner raw := by
  obtain ⟨-, -, -, -, hread⟩ := parseUserRecord_iff.mp h
  rw [if_neg (by simp [Option.isSome_iff_ne_none.mp hrole]), howner] at hread
  obtain ⟨text, htext, hof⟩ := Option.bind_eq_some_iff.mp hread
  unfold UserRole.ofText at hof
  unfold StatesOwner
  split at hof
  · rename_i hsame
    rw [htext, hsame]
  · split at hof
    · exact absurd (Option.some.inj hof) (by simp)
    · exact absurd hof (by simp)

/-- A role that is missing is read as that of the owner. -/
theorem owner_of_missing {raw : Json} {u : UserRecord} (h : parseUserRecord host.calendar raw true = some u)
    (hrole : (raw.get "role").isSome = false) : u.role = .global_owner ∧ ¬ StatesOwner raw := by
  have hnone : raw.get "role" = none := Option.not_isSome_iff_eq_none.mp (by simp [hrole])
  obtain ⟨-, -, -, -, hread⟩ := parseUserRecord_iff.mp h
  rw [if_pos (by simp [hnone])] at hread
  refine ⟨(Option.some.inj hread).symm, ?_⟩
  unfold StatesOwner Json.getStr
  rw [hnone]
  exact fun habsurd => absurd habsurd (by simp)

/-- **What the loader of the first version takes** of several records states its role. -/
theorem loaded_states {loaded : Users} (h : loadUsers host sources.initializedMarker sources.usersJson = .ok loaded)
    (hseveral : ¬ SoleRecord host sources) : ∀ raw ∈ userRecords host sources.usersJson, (raw.get "role").isSome = true := by
  unfold loadUsers at h
  split at h
  · exact absurd h (by simp)
  · rename_i hmarker
    have hfine : ∀ marker, sources.initializedMarker = some marker → host.utf8 marker.bytes = initializedMarker := by
      intro marker hsome
      rw [hsome, Option.any_some, decide_eq_true_eq, not_not] at hmarker
      exact hmarker
    cases hsrc : sources.usersJson with
    | none =>
      intro raw hraw
      exact absurd hraw List.not_mem_nil
    | some src =>
      rw [hsrc] at h
      dsimp only at h
      split at h
      · rename_i items hparse
        have hrecords : userRecords host (some src) = items := by
          unfold userRecords
          rw [Option.bind_some, hparse]
          rfl
        split at h
        · exact absurd h (by simp)
        · have hlength : items.length ≠ 1 := fun hone => hseveral ⟨by rw [hsrc, hrecords]; exact hone, hfine⟩
          rw [decide_eq_false hlength] at h
          intro raw hraw
          rw [hrecords] at hraw
          obtain ⟨before, after, hone⟩ := foldSteps_mem h hraw
          simp only [loadUser, bind_ok_iff, demand_ok_iff] at hone
          obtain ⟨u, hu, -⟩ := hone
          obtain ⟨-, -, -, -, hrole⟩ := parseUserRecord_iff.mp hu
          rw [Bool.false_and, if_neg Bool.false_ne_true] at hrole
          obtain ⟨text, htext, -⟩ := Option.bind_eq_some_iff.mp hrole
          obtain ⟨value, hvalue, -⟩ := Option.bind_eq_some_iff.mp htext
          rw [hvalue]
          rfl
      · exact absurd h (by simp)

/-- **The only record is loaded** as the import reads it. -/
theorem sole_loaded (hsole : SoleRecord host sources) {raw : Json} {u : UserRecord}
    (hraw : raw ∈ userRecords host sources.usersJson) (h : parseUserRecord host.calendar raw true = some u)
    (howner : u.role = .global_owner) : LoadedAsOwner host sources u := by
  obtain ⟨hlength, hmarker⟩ := hsole
  obtain ⟨only, honly⟩ := List.length_eq_one_iff.mp hlength
  rw [honly, List.mem_singleton] at hraw
  have hfine : (sources.initializedMarker.any fun m => host.utf8 m.bytes ≠ initializedMarker) = false := by
    cases hsome : sources.initializedMarker with
    | none => rfl
    | some marker => simp [hmarker marker hsome]
  refine ⟨(Records.empty : Users).set u, u, ?_, ?_, howner⟩
  · unfold loadUsers
    rw [hfine, if_neg Bool.false_ne_true]
    unfold userRecords at honly
    cases hsrc : sources.usersJson with
    | none =>
      rw [hsrc] at honly
      exact absurd honly (by simp)
    | some src =>
      rw [hsrc, Option.bind_some] at honly
      dsimp only
      cases hparse : host.parse (host.utf8 src.bytes) with
      | none =>
        rw [hparse] at honly
        exact absurd honly (by simp)
      | some file =>
        rw [hparse, Option.bind_some] at honly
        cases file with
        | arr items =>
          obtain rfl : items = [only] := honly
          rw [hraw] at h
          show foldSteps (loadUser host true) .empty [only] = _
          unfold foldSteps loadUser
          rw [h]
          rfl
        | null | bool | num | str | obj => exact absurd honly (by simp [Json.asArr])
  · exact Table.lookup_of_mem (Records.keyed _) (List.mem_singleton_self _)

/-- **No role is raised exactly when** there is one record under a good marker, or every record that is
    inserted states its role: then a user is inserted as a `global_owner` only where the record says so or
    the first version had the user as one. -/
theorem roles_not_raised (h : importMigration host limits sources now db = .ok (report, db')) :
    addedUsers db db' = (insertedRecords host sources db report).map Prod.snd ∧
    ((∀ c ∈ insertedRecords host sources db report, c.2.role = .global_owner → StatesOwner c.1 ∨ LoadedAsOwner host sources c.2) ↔
      SoleRecord host sources ∨ ∀ c ∈ insertedRecords host sources db report, (c.1.get "role").isSome = true) := by
  refine ⟨added_inserted h, ⟨fun hall => ?_, fun hcases c hc howner => ?_⟩⟩
  · by_cases hsole : SoleRecord host sources
    · exact Or.inl hsole
    · refine Or.inr fun c hc => ?_
      obtain ⟨hraw, hparse⟩ := mem_inserted hc
      by_contra hmissing
      obtain ⟨howner, hunstated⟩ := owner_of_missing hparse (Bool.eq_false_iff.mpr hmissing)
      rcases hall c hc howner with hstates | ⟨loaded, v, hloaded, -, -⟩
      · exact hunstated hstates
      · exact hmissing (loaded_states hloaded hsole c.1 hraw)
  · obtain ⟨hraw, hparse⟩ := mem_inserted hc
    rcases hcases with hsole | hstated
    · exact Or.inr (sole_loaded hsole hraw hparse howner)
    · exact Or.inl (states_of_owner hparse (hstated c hc) howner)

end

/-- A single record without a role is that of the owner, as it always was. -/
theorem roles_not_raised_admin : ∃ report db',
    importMigration (usersHost ["admin"]) defaultLimits (usersSources ["admin"]) 0 (postCenter []) = .ok (report, db') ∧
      ∀ c ∈ insertedRecords (usersHost ["admin"]) (usersSources ["admin"]) (postCenter []) report, c.2.role = .global_owner →
        StatesOwner c.1 ∨ LoadedAsOwner (usersHost ["admin"]) (usersSources ["admin"]) c.2 := by
  obtain ⟨report, db', h⟩ := @users_imported ["admin"] (by decide +kernel)
  refine ⟨report, db', h, (roles_not_raised h).2.mpr (Or.inl ⟨?_, fun _ hnone => absurd hnone (by simp [usersSources])⟩)⟩
  rw [users_records]
  rfl

/-- Of two records without a role both become owners; the first version does not take the file at all. -/
theorem two_owners : ∃ report db',
    importMigration (usersHost ["admin", "other"]) defaultLimits (usersSources ["admin", "other"]) 0 (postCenter []) =
      .ok (report, db') ∧
    (addedUsers (postCenter []) db').map (fun u => (u.username, u.role)) = [("admin", .global_owner), ("other", .global_owner)] ∧
    (∀ raw ∈ userRecords (usersHost ["admin", "other"]) (usersSources ["admin", "other"]).usersJson, ¬ StatesOwner raw) ∧
    ∀ loaded, loadUsers (usersHost ["admin", "other"]) (usersSources ["admin", "other"]).initializedMarker
      (usersSources ["admin", "other"]).usersJson ≠ .ok loaded := by
  have hlong : ∀ name ∈ ["admin", "other"], 3 ≤ unitLength name := by decide +kernel
  have hunstated : ∀ raw ∈ userRecords (usersHost ["admin", "other"]) (usersSources ["admin", "other"]).usersJson,
      (raw.get "role").isSome = false := by
    rw [users_records]
    decide +kernel
  obtain ⟨report, db', h⟩ := users_imported hlong
  refine ⟨report, db', h, ?_, fun raw hraw hstates => ?_, fun loaded hloaded => ?_⟩
  · rcases import_ok h with ⟨hall, -, -⟩ | ⟨-, hcommits, -⟩
    · exact absurd (hall _ List.mem_cons_self) List.not_mem_nil
    · rw [added_eq hcommits, importedUsers, users_inserted hlong (by decide)]
      rfl
  · obtain ⟨value, hvalue, -⟩ := Option.bind_eq_some_iff.mp hstates
    exact absurd (hunstated raw hraw) (by simp [hvalue])
  · have hseveral : ¬ SoleRecord (usersHost ["admin", "other"]) (usersSources ["admin", "other"]) := fun hsole => by
      have hlength := hsole.1
      rw [users_records] at hlength
      exact absurd hlength (by decide)
    have hfirst : userDoc "admin" ∈ userRecords (usersHost ["admin", "other"]) (usersSources ["admin", "other"]).usersJson := by
      rw [users_records]
      exact List.mem_cons_self
    have hstated := loaded_states hloaded hseveral (userDoc "admin") hfirst
    rw [hunstated _ hfirst] at hstated
    exact Bool.false_ne_true hstated

end Migrate
end Qlong
