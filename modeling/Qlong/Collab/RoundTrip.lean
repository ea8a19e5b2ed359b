import Qlong.Collab.Publisher

/-!
# When a delivery gets through

Every file the contract declares is in the workspace and within the budget, so the executor has done its work
(`Promised`). The lead accepts what it collects exactly when publisher, repository and collector agree on the names
(`Deliverable`): the contract names each file once and as a repository writes it, none like the manifest and none
below it, git takes each of them, no name of the tree is one that `ls-tree` quotes, and the tree fits the collector's
budget with the manifest and everything else that is tracked.

Whether git takes a file is seen from its path alone as long as the paths are ordinary (`deliverable_ordinary`).
-/

namespace Qlong
namespace Collab

open Lib

/-- The paths the contract asks for. -/
def contractPaths (offer : Json) : List String :=
  (contractDeliverables (offer.get "contract")).filterMap fun d => d.getStr "path"

/-- A contract the executor can meet and has met. -/
structure Promised (c : PublishContext) (offer : Json) : Prop where
  contract : Lead.isLeadContract (offer.get "contract") = true
  named : ∀ d ∈ contractDeliverables (offer.get "contract"), ∃ p, d.getStr "path" = some p ∧
    admitted c.root p = true ∧ (c.file (repoPath c.root p)).isSome = true
  budget : totalBytes (readDeclared c offer) ≤ c.publishBytes
  limit : (c.publishBytes : Int) ≤ Json.maxSafe
  task : isUuid c.taskId = true
  node : isUuid c.nodeId = true
  attempt : Json.isPositive c.attempt = true
  key_epoch : Json.isPositive c.keyEpoch = true

/-- Publisher, repository and collector agree, where `names` are what git takes. -/
structure Deliverable {host : ArtifactHost} (key : SigningKey host) (c : PublishContext) (offer : Json)
    (names : List String) : Prop where
  once : (contractPaths offer).Nodup
  normal : ∀ p ∈ contractPaths offer, Normal p ∧ p ≠ manifestFile
  place : c.directory manifestFile = false
  picked : picked c.toWorkspace (gitPaths c offer) = some names
  /-- A file is taken, or it was committed before as it is now. -/
  taken : ∀ f ∈ readDeclared c offer, f.path ∈ names ∨ matchesFile host c.tracked (entryOf host f) = true
  plain : ∀ f ∈ branchTree key c offer names, isPlain f.path = true
  fits : totalBytes (branchTree key c offer names) ≤ c.collectBytes
  new : unchanged c.toWorkspace names (branchTree key c offer names) = false

/-! ## The manifest that is signed -/

section

variable {host : ArtifactHost} {key : SigningKey host} {c : PublishContext} {offer : Json}
  {files out : List CollectedFile} {f : CollectedFile}

theorem length_le_totalBytes (hf : f ∈ files) : f.bytes.length ≤ totalBytes files :=
  List.single_le_sum (fun _ _ => Nat.zero_le _) _ (List.mem_map_of_mem hf)

end

/-! ## A contract that can be met -/

namespace Promised

section

variable {host : ArtifactHost} {key : SigningKey host} {c : PublishContext} {offer : Json} {out : List CollectedFile}
  {f : CollectedFile} {p : String}

/-- What a contract names by a path has some text. -/
theorem text (h : Promised c offer) (hp : p ∈ contractPaths offer) : hasText p = true := by
  obtain ⟨d, hd, hpath⟩ := List.mem_filterMap.mp hp
  have hcontract := h.contract
  have hnamed : Lead.isDeliverable d = true := by
    unfold contractDeliverables at hd
    cases hoffer : offer.get "contract" with
    | none =>
      rw [hoffer] at hd
      exact absurd hd List.not_mem_nil
    | some contract =>
      rw [hoffer, Option.bind_some] at hd
      rw [hoffer] at hcontract
      simp only [Lead.isLeadContract, Bool.and_eq_true] at hcontract
      cases hds : contract.get "deliverables" with
      | none =>
        rw [hds] at hd
        exact absurd hd List.not_mem_nil
      | some v =>
        rw [hds] at hd hcontract
        cases v with
        | arr ds => exact List.all_eq_true.mp hcontract.2 d hd
        | null | bool | num | str | obj => exact absurd hd List.not_mem_nil
  have hget : d.get "path" = some (.str p) := by
    obtain ⟨v, hv, hstr⟩ := Option.bind_eq_some_iff.mp hpath
    cases v with
    | str s => rw [hv, Option.some.inj hstr]
    | null | bool | num | arr | obj => exact absurd hstr (by simp [Json.asStr])
  simp only [Lead.isDeliverable, hget, Bool.and_eq_true] at hnamed
  exact (Bool.or_eq_true_iff.mp hnamed.1.1.2).resolve_left Bool.false_ne_true

theorem named_path (h : Promised c offer) (hp : p ∈ contractPaths offer) :
    admitted c.root p = true ∧ (c.file (repoPath c.root p)).isSome = true := by
  obtain ⟨d, hd, hpath⟩ := List.mem_filterMap.mp hp
  obtain ⟨q, hq, hadmitted, hfile⟩ := h.named d hd
  rw [hpath, Option.some.injEq] at hq
  exact hq ▸ ⟨hadmitted, hfile⟩

/-- The publisher takes every path of the contract. -/
theorem declared (h : Promised c offer) : declaredPaths c.root offer = contractPaths offer := by
  apply List.filterMap_congr
  intro d hd
  obtain ⟨p, hpath, hadmitted, -⟩ := h.named d hd
  have hne : p ≠ "" := by
    intro hempty
    have := h.text (List.mem_filterMap.mpr ⟨d, hd, hpath⟩)
    rw [hempty] at this
    exact absurd this (by decide)
  rw [hpath, Option.filter_some, if_pos (by simp [hne, hadmitted])]

theorem read (h : Promised c offer) (hf : f ∈ readDeclared c offer) :
    f.path ∈ contractPaths offer ∧ fileAt c f.path = some f.bytes := by
  obtain ⟨p, hp, hfile⟩ := List.mem_filterMap.mp hf
  obtain ⟨bytes, hbytes, rfl⟩ := Option.map_eq_some_iff.mp hfile
  exact ⟨h.declared ▸ hp, hbytes⟩

/-- Paths written as a repository writes them are all read. -/
theorem read_paths (h : Promised c offer) (hnormal : ∀ p ∈ contractPaths offer, Normal p) :
    (readDeclared c offer).map CollectedFile.path = contractPaths offer := by
  unfold readDeclared
  rw [h.declared, List.map_filterMap, List.filterMap_congr (g := some)]
  · exact List.filterMap_some
  · intro p hp
    obtain ⟨bytes, hbytes⟩ := Option.isSome_iff_exists.mp (h.named_path hp).2
    unfold fileAt
    rw [if_neg (hnormal p hp).last, hbytes]
    rfl

theorem size (h : Promised c offer) (hf : f ∈ readDeclared c offer) : (f.bytes.length : Int) ≤ Json.maxSafe := by
  have hle := length_le_totalBytes hf
  have hbudget := h.budget
  have hlimit := h.limit
  omega

end

end Promised

/-! ## The round trip -/

section

variable {host : ArtifactHost} {key : SigningKey host} {c : PublishContext} {offer : Json} {out : List CollectedFile}

end

/-! ## Ordinary paths -/

section

variable {host : ArtifactHost} {key : SigningKey host} {c : PublishContext} {offer : Json}

theorem manifestFile_normal : Normal manifestFile := by
  refine ⟨[manifestFile.toList], List.cons_ne_nil _ _, fun s hs => ?_, by decide⟩
  rw [List.mem_singleton.mp hs]
  unfold isName
  decide

/-- Where all paths of the contract are ordinary, git takes the files when it leaves none of them out, and the
    condition speaks of paths, files and budgets only. -/
theorem deliverable_ordinary (h : Promised c offer) (hordinary : ∀ p ∈ contractPaths offer, isOrdinary p = true) :
    (∃ names, Deliverable key c offer names) ↔
      (contractPaths offer).Nodup ∧ (∀ p ∈ contractPaths offer, Normal p ∧ p ≠ manifestFile) ∧
      c.directory manifestFile = false ∧
      (∀ p ∈ manifestFile :: contractPaths offer, c.known p = true ∨ c.keeps p = true) ∧
      (∀ f ∈ branchTree key c offer (gitPaths c offer), isPlain f.path = true) ∧
      totalBytes (branchTree key c offer (gitPaths c offer)) ≤ c.collectBytes ∧
      unchanged c.toWorkspace (gitPaths c offer) (branchTree key c offer (gitPaths c offer)) = false := by
  have hperm := (List.perm_insertionSort byPath (readDeclared c offer)).map CollectedFile.path
  -- the arguments are the manifest and paths of the contract, and where these are normal they are all of them
  have hargs : ∀ p ∈ gitPaths c offer, p = manifestFile ∨ p ∈ contractPaths offer := by
    intro p hp
    rcases List.mem_cons.mp hp with rfl | hp
    · exact Or.inl rfl
    · obtain ⟨f, hf, rfl⟩ := List.mem_map.mp (hperm.subset hp)
      exact Or.inr (h.read hf).1
  have hall : ∀ p ∈ gitPaths c offer, isOrdinary p = true := by
    intro p hp
    rcases hargs p hp with rfl | hp
    · decide
    · exact hordinary p hp
  have hpicked : ∀ names, (∀ p ∈ contractPaths offer, Normal p ∧ p ≠ manifestFile) →
      (picked c.toWorkspace (gitPaths c offer) = some names ↔
        (∀ p ∈ manifestFile :: contractPaths offer, c.known p = true ∨ c.keeps p = true) ∧
          names = gitPaths c offer) := by
    intro names hnormal
    have hpaths := h.read_paths fun p hp => (hnormal p hp).1
    rw [picked_ordinary hall fun p hp => (hargs p hp).elim (· ▸ manifestFile_normal) fun hp => (hnormal p hp).1]
    refine and_congr_left fun _ => ⟨fun hkept p hp => hkept p ?_, fun hkept p hp => hkept p ?_⟩
    · rcases List.mem_cons.mp hp with rfl | hp
      · exact List.mem_cons_self
      · exact List.mem_cons_of_mem _ (hperm.symm.subset (hpaths ▸ hp))
    · exact List.mem_cons.mpr (hargs p hp)
  constructor
  · rintro ⟨names, hd⟩
    obtain ⟨hkept, rfl⟩ := (hpicked names hd.normal).mp hd.picked
    exact ⟨hd.once, hd.normal, hd.place, hkept, hd.plain, hd.fits, hd.new⟩
  · rintro ⟨honce, hnormal, hplace, hkept, hplain, hfits, hnew⟩
    exact ⟨gitPaths c offer,
      { once := honce
        normal := hnormal
        place := hplace
        picked := (hpicked _ hnormal).mpr ⟨hkept, rfl⟩
        taken := fun f hf => Or.inl (List.mem_cons_of_mem _ (hperm.symm.subset (List.mem_map_of_mem hf)))
        plain := hplain
        fits := hfits
        new := hnew }⟩

end

/-! ## One file under two spellings -/

namespace Deliverable

/-- The manifest of a contract for one empty file, under the path the contract has for it. -/
def manifestOf (path : String) : Json :=
  .obj [("attempt", .num 1), ("deliverables", .arr [.obj [("path", .str path),
      ("sha256", .str Delivered.emptyDigest), ("size", .num 0)]]),
    ("key_epoch", .num 1), ("node_id", .str "aaaaaaaa-aaaa-4aaa-8aaa-aaaaaaaaaaaa"),
    ("task_id", .str "11111111-1111-4111-8111-111111111111")]

def canonicalOf (path : String) : Bytes :=
  Delivered.ascii ("\x7b\"attempt\":1,\"deliverables\":[\x7b\"path\":\"" ++ path ++ "\",\"sha256\":\"" ++
    Delivered.emptyDigest ++ "\",\"size\":0\x7d],\"key_epoch\":1," ++
    "\"node_id\":\"aaaaaaaa-aaaa-4aaa-8aaa-aaaaaaaaaaaa\",\"task_id\":\"11111111-1111-4111-8111-111111111111\"\x7d")

def plainSig : String := "gBBC6M+SKowGw6wEi07zl8V6q0/8E78XRR+LvUQBZd/cTesCwcTR0qwjOL3o7QaDYwUpruPtOg6T61az1v3FAw=="

def plainSigBytes : Bytes :=
  [128, 16, 66, 232, 207, 146, 42, 140, 6, 195, 172, 4, 139, 78, 243, 151, 197, 122, 171, 79, 252, 19, 191, 23, 69, 31,
    139, 189, 68, 1, 101, 223, 220, 77, 235, 2, 193, 196, 209, 210, 172, 35, 56, 189, 232, 237, 6, 131, 99, 5, 41, 174,
    227, 237, 58, 14, 147, 235, 86, 179, 214, 253, 197, 3]

def dottedSig : String := "PGg2pO2jW6GsN7prtPCn2Rgp959zd8I7NYK97RD8qiqxKxVQlQm/5MzOpQt3cYa1c4G7MvNyZPo9LbD+OcKxBA=="

def dottedSigBytes : Bytes :=
  [60, 104, 54, 164, 237, 163, 91, 161, 172, 55, 186, 107, 180, 240, 167, 217, 24, 41, 247, 159, 115, 119, 194, 59, 53,
    130, 189, 237, 16, 252, 170, 42, 177, 43, 21, 80, 149, 9, 191, 228, 204, 206, 165, 11, 119, 113, 134, 181, 115, 129,
    187, 50, 243, 114, 100, 250, 61, 45, 176, 254, 57, 194, 177, 4]

/-- The key's signatures of the two manifests. -/
def signTable (data : Bytes) : Bytes :=
  if data = canonicalOf "out.txt" then plainSigBytes
  else if data = canonicalOf "./out.txt" then dottedSigBytes
  else []

def base64Table (b : Bytes) : String :=
  if b = plainSigBytes then plainSig else if b = dottedSigBytes then dottedSig else ""

/-- The text of `qlong-manifest.json`. -/
def manifestText (path sig : String) : Bytes :=
  Delivered.ascii "\x7b\"alg\":\"ed25519\",\"manifest\":\x7b\"task_id\":\"11111111-1111-4111-8111-111111111111\"," ++
    Delivered.ascii "\"attempt\":1,\"node_id\":\"aaaaaaaa-aaaa-4aaa-8aaa-aaaaaaaaaaaa\",\"key_epoch\":1," ++
    Delivered.ascii "\"deliverables\":[\x7b\"path\":\"" ++ Delivered.ascii path ++ Delivered.ascii "\",\"sha256\":\"" ++
    Delivered.ascii Delivered.emptyDigest ++ Delivered.ascii "\",\"size\":0\x7d]\x7d,\"sig\":\"" ++
    Delivered.ascii sig ++ Delivered.ascii "\"\x7d"

/-- The platform at what the two deliveries ask of it. -/
def table : ArtifactHost where
  hashBytes b :=
    if b = [] then Delivered.emptyDigest else Delivered.logDigest
  jcsBytes v :=
    if v = manifestOf "out.txt" then canonicalOf "out.txt"
    else if v = manifestOf "./out.txt" then canonicalOf "./out.txt" else []
  fromBase64 s :=
    if s = plainSig then some plainSigBytes
    else if s = dottedSig then some dottedSigBytes
    else if s = "" then some [] else none
  verifyBytes s data key := some (decide (s = signTable data ∧ key = Delivered.pub))

theorem table_decodes (data : Bytes) : table.fromBase64 (base64Table (signTable data)) = some (signTable data) := by
  unfold signTable
  split_ifs <;> decide

theorem table_digest (b : Bytes) : isDigest (table.hashBytes b) = true := by
  unfold table
  dsimp only
  split_ifs <;> decide

def key : SigningKey table where
  pub := Delivered.pub
  signBytes := signTable
  toBase64 := base64Table
  stringify v :=
    if (manifestEntries v).any (fun d => d.getStr "path" = some "out.txt") then manifestText "out.txt" plainSig
    else manifestText "./out.txt" dottedSig
  decodes := table_decodes
  verifies _ := congrArg some (decide_eq_true ⟨rfl, rfl⟩)
  digest_hex := table_digest

theorem root_names : ∀ s ∈ [['w']], isName s := by
  intro s hs
  rw [List.mem_singleton.mp hs]
  unfold isName
  decide

def offerOf (path : String) : Json :=
  .obj [("kind", .str "project"), ("contract", .obj [("deliverables", .arr [.obj [("path", .str path)]])])]

end Deliverable

open Deliverable

end Collab
end Qlong
