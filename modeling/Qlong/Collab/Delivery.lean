import Mathlib.Data.List.Nodup
import Qlong.Collab.Manifest

/-!
# What an accepted delivery says

`verifyArtifactDelivery` of `packages/node/src/collab/artifact-manifest.ts`, read backwards: the
manifest is that of the task, the attempt and the sender, it is signed, its paths are distinct and
its files collected as stated, and it names all that the contract asks for (`delivery_sound`). Two
deliveries accepted under one manifest differ in no file, unless two files have one digest.
-/

namespace Qlong
namespace Collab

variable {host : ArtifactHost} {x y : DeliveryInput}

/-! ## The entries of a manifest -/

theorem validEntry_path {paths : List String} {d : Json} (h : validEntry paths d = true) :
    ∃ path, d.getStr "path" = some path ∧ path ∉ paths := by
  unfold validEntry at h
  simp only [Bool.and_eq_true] at h
  obtain ⟨⟨⟨-, hpath⟩, -⟩, -⟩ := h
  obtain ⟨path, hget, hp⟩ := (Option.any_eq_true _ _).mp hpath
  rw [Bool.and_eq_true, Bool.not_eq_true', List.contains_eq_mem, decide_eq_false_iff_not] at hp
  exact ⟨path, hget, hp.2⟩

/-- The entries that pass have a path each, which no earlier one has. -/
theorem validEntries_paths {paths : List String} {ds : List Json} (h : validEntries paths ds = true) :
    ∃ named : List String, ds.map (fun d => d.getStr "path") = named.map some ∧ named.Nodup ∧ ∀ p ∈ named, p ∉ paths := by
  induction ds generalizing paths with
  | nil => exact ⟨[], rfl, List.nodup_nil, fun _ hp => absurd hp List.not_mem_nil⟩
  | cons d rest ih =>
    rw [validEntries, Bool.and_eq_true] at h
    obtain ⟨hentry, hrest⟩ := h
    obtain ⟨path, hpath, hnew⟩ := validEntry_path hentry
    obtain ⟨named, hnamed, hnodup, hfresh⟩ := ih hrest
    rw [hpath] at hfresh
    refine ⟨path :: named, ?_, ?_, ?_⟩
    · rw [List.map_cons, hnamed, hpath]
      rfl
    · refine List.nodup_cons.mpr ⟨fun hmem => ?_, hnodup⟩
      exact hfresh path hmem List.mem_cons_self
    · intro p hp
      rcases List.mem_cons.mp hp with rfl | hp
      · exact hnew
      · exact fun hmem => hfresh p hp (List.mem_cons_of_mem _ hmem)

theorem manifest_paths {signed : Json} (h : validSignedManifest signed = true) :
    ∃ named : List String, (manifestEntries signed).map (fun d => d.getStr "path") = named.map some ∧ named.Nodup := by
  unfold validSignedManifest at h
  unfold manifestEntries
  cases hm : signed.get "manifest" with
  | none => simp [hm] at h
  | some m =>
    simp only [hm, Bool.and_eq_true] at h
    obtain ⟨-, -, hentries⟩ := h
    obtain ⟨ds, hds, hvalid⟩ := (Option.any_eq_true _ _).mp hentries
    obtain ⟨named, hnamed, hnodup, -⟩ := validEntries_paths hvalid
    rw [Option.bind_some, hds, Option.getD_some]
    exact ⟨named, hnamed, hnodup⟩

/-! ## A delivery that is accepted -/

/-- The four defences, each as it was passed. -/
structure Delivered (host : ArtifactHost) (x : DeliveryInput) : Prop where
  well_formed : validSignedManifest x.signed = true
  contract : Lead.isLeadContract x.contract = true
  task : ((x.signed.get "manifest").getD .null).getStr "task_id" = some x.taskId
  attempt : ((x.signed.get "manifest").getD .null).getNum "attempt" = some x.attempt
  node : ((x.signed.get "manifest").getD .null).getStr "node_id" = some x.fromNodeId
  key_epoch : ((x.signed.get "manifest").getD .null).getNum "key_epoch" = x.fromKeyEpoch
  signed : verifyManifest host x.signed x.pub = true
  collected : ∀ d ∈ manifestEntries x.signed, matchesFile host x.collected d = true
  complete : ∀ c ∈ contractDeliverables x.contract, isListed x.signed c = true

/-- A defence that was passed. -/
theorem passed_iff {p : Prop} [Decidable p] {rest : Bool} : (if p then false else rest) = true ↔ ¬ p ∧ rest = true := by
  by_cases h : p <;> simp [h]

theorem verifyArtifactDelivery_iff : verifyArtifactDelivery host x = true ↔ Delivered host x := by
  unfold verifyArtifactDelivery
  simp only [passed_iff, Bool.or_eq_true, Bool.not_eq_true', not_or, Bool.not_eq_false, ne_eq, not_not, List.all_eq_true]
  constructor
  · rintro ⟨⟨hvalid, hcontract⟩, ⟨htask, hattempt⟩, ⟨hnode, hepoch⟩, hsigned, hcollected, hcomplete⟩
    exact ⟨hvalid, hcontract, htask, hattempt, hnode, hepoch, hsigned, hcollected, hcomplete⟩
  · intro h
    exact ⟨⟨h.well_formed, h.contract⟩, ⟨h.task, h.attempt⟩, ⟨h.node, h.key_epoch⟩, h.signed, h.collected, h.complete⟩

/-- The signature, spelled out. -/
theorem verifyManifest_ok {signed : Json} {pub : Bytes} (h : verifyManifest host signed pub = true) :
    ∃ sig, host.fromBase64 ((signed.getStr "sig").getD "") = some sig ∧
      host.verifyBytes sig (host.jcsBytes ((signed.get "manifest").getD .null)) pub = some true := by
  unfold verifyManifest at h
  split at h
  · exact absurd h (by simp)
  · cases hsig : host.fromBase64 ((signed.getStr "sig").getD "") with
    | none => simp [hsig] at h
    | some sig =>
      refine ⟨sig, rfl, ?_⟩
      cases hverified : host.verifyBytes sig (host.jcsBytes ((signed.get "manifest").getD .null)) pub with
      | none => simp [hsig, hverified] at h
      | some ok =>
        rw [hsig] at h
        simpa [hverified] using h

theorem matchesFile_ok {files : List CollectedFile} {d : Json} {path : String} (hpath : d.getStr "path" = some path)
    (h : matchesFile host files d = true) : ∃ bytes, collectedAt files path = some bytes ∧
      d.getNum "size" = some (bytes.length : Int) ∧ d.getStr "sha256" = some (host.hashBytes bytes) := by
  unfold matchesFile at h
  rw [hpath, Option.getD_some] at h
  cases hbytes : collectedAt files path with
  | none => simp [hbytes] at h
  | some bytes =>
    simp only [hbytes, Bool.and_eq_true, decide_eq_true_eq] at h
    exact ⟨bytes, rfl, h.1, h.2⟩

theorem isListed_ok {signed c : Json} (h : isListed signed c = true) :
    ∃ path, c.getStr "path" = some path ∧ ∃ d ∈ manifestEntries signed, d.getStr "path" = some path := by
  obtain ⟨path, hpath, hany⟩ := (Option.any_eq_true _ _).mp h
  obtain ⟨d, hd, heq⟩ := List.any_eq_true.mp hany
  exact ⟨path, hpath, d, hd, of_decide_eq_true heq⟩

/-- A path the contract asks for was collected, with a size and a digest that the manifest states. -/
theorem Delivered.contract_file (h : Delivered host x) {c : Json} (hc : c ∈ contractDeliverables x.contract) :
    ∃ path bytes, c.getStr "path" = some path ∧ collectedAt x.collected path = some bytes ∧
      ∃ d ∈ manifestEntries x.signed, d.getStr "path" = some path ∧ d.getNum "size" = some (bytes.length : Int) ∧
        d.getStr "sha256" = some (host.hashBytes bytes) := by
  obtain ⟨path, hpath, d, hd, hnamed⟩ := isListed_ok (h.complete c hc)
  obtain ⟨bytes, hbytes, hsize, hdigest⟩ := matchesFile_ok hnamed (h.collected d hd)
  exact ⟨path, bytes, hpath, hbytes, d, hd, hnamed, hsize, hdigest⟩

/-- Under one manifest a path stands for one digest. -/
theorem Delivered.same_file (hx : Delivered host x) (hy : Delivered host y)
    (hsame : y.signed.get "manifest" = x.signed.get "manifest") {c : Json} (hc : c ∈ contractDeliverables x.contract) :
    ∃ path b b', c.getStr "path" = some path ∧ collectedAt x.collected path = some b ∧
      collectedAt y.collected path = some b' ∧ host.hashBytes b = host.hashBytes b' := by
  have hentries : manifestEntries y.signed = manifestEntries x.signed := by
    unfold manifestEntries
    rw [hsame]
  obtain ⟨path, b, hpath, hb, d, hd, hnamed, -, hdigest⟩ := hx.contract_file hc
  obtain ⟨b', hb', -, hdigest'⟩ := matchesFile_ok hnamed (hy.collected d (hentries ▸ hd))
  exact ⟨path, b, b', hpath, hb, hb', Option.some.inj (hdigest.symm.trans hdigest')⟩

/-- **Artifact delivery is sound.** What is accepted carries the task, the attempt, the node and the
    key epoch it is judged for, is signed under the key, names distinct paths with their collected
    sizes and digests, and names every deliverable of the contract. Two accepted deliveries with one
    manifest have the same bytes at every path of the contract, or exhibit two texts with one digest. -/
theorem delivery_sound (h : verifyArtifactDelivery host x = true) :
    (∃ manifest sig, x.signed.get "manifest" = some manifest ∧ manifest.getStr "task_id" = some x.taskId ∧
      manifest.getNum "attempt" = some x.attempt ∧ manifest.getStr "node_id" = some x.fromNodeId ∧
      manifest.getNum "key_epoch" = x.fromKeyEpoch ∧ host.fromBase64 ((x.signed.getStr "sig").getD "") = some sig ∧
      host.verifyBytes sig (host.jcsBytes manifest) x.pub = some true) ∧
    ((manifestEntries x.signed).map fun d => d.getStr "path").Nodup ∧
    (∀ d ∈ manifestEntries x.signed, ∃ path bytes, d.getStr "path" = some path ∧
      collectedAt x.collected path = some bytes ∧ d.getNum "size" = some (bytes.length : Int) ∧
      d.getStr "sha256" = some (host.hashBytes bytes)) ∧
    (∀ c ∈ contractDeliverables x.contract, ∃ path, c.getStr "path" = some path ∧
      ∃ d ∈ manifestEntries x.signed, d.getStr "path" = some path) ∧
    ∀ y, verifyArtifactDelivery host y = true → y.signed.get "manifest" = x.signed.get "manifest" →
      ∀ c ∈ contractDeliverables x.contract, ∃ path b b', c.getStr "path" = some path ∧
        collectedAt x.collected path = some b ∧ collectedAt y.collected path = some b' ∧
        (b = b' ∨ b ≠ b' ∧ host.hashBytes b = host.hashBytes b') := by
  have hx := verifyArtifactDelivery_iff.mp h
  obtain ⟨named, hnamed, hnodup⟩ := manifest_paths hx.well_formed
  -- `hx` holds the verifier's checks one by one; each part of the result needs a few of them
  refine ⟨?_, ?_, ?_, fun c hc => isListed_ok (hx.complete c hc), ?_⟩
  · obtain ⟨sig, hsig, hverified⟩ := verifyManifest_ok hx.signed
    have htask := hx.task
    have hattempt := hx.attempt
    have hnode := hx.node
    have hepoch := hx.key_epoch
    cases hm : x.signed.get "manifest" with
    | none =>
      rw [hm] at htask
      exact absurd htask (by simp [Json.getStr, Json.get])
    | some manifest =>
      rw [hm, Option.getD_some] at htask hattempt hnode hepoch hverified
      exact ⟨manifest, sig, rfl, htask, hattempt, hnode, hepoch, hsig, hverified⟩
  · rw [hnamed]
    exact List.Nodup.map (Option.some_injective _) hnodup
  · intro d hd
    have hmem : d.getStr "path" ∈ named.map some := by
      rw [← hnamed]
      exact List.mem_map_of_mem hd
    obtain ⟨path, -, hpath⟩ := List.mem_map.mp hmem
    obtain ⟨bytes, hbytes, hsize, hdigest⟩ := matchesFile_ok hpath.symm (hx.collected d hd)
    exact ⟨path, bytes, hpath.symm, hbytes, hsize, hdigest⟩
  · intro y hy hsame c hc
    -- both deliveries were checked against the one manifest, so the two files share a digest
    obtain ⟨path, b, b', hpath, hb, hb', hdigest⟩ := hx.same_file (verifyArtifactDelivery_iff.mp hy) hsame hc
    refine ⟨path, b, b', hpath, hb, hb', ?_⟩
    by_cases heq : b = b'
    · exact Or.inl heq
    · exact Or.inr ⟨heq, hdigest⟩

/-! ## Two files, delivered twice -/

namespace Delivered

def emptyDigest : String := "e3b0c44298fc1c149afbf4c8996fb92427ae41e4649b934ca495991b7852b855"

/-- The bytes of a log, `abc`, and their SHA-256. -/
def log : Bytes := [97, 98, 99]

def logDigest : String := "ba7816bf8f01cfea414140de5dae2223b00361a396177a9cb410ff61f20015ad"

def manifest : Json :=
  .obj [("attempt", .num 1),
    ("deliverables", .arr [.obj [("path", .str "log/run.txt"), ("sha256", .str logDigest), ("size", .num 3)],
      .obj [("path", .str "out.txt"), ("sha256", .str emptyDigest), ("size", .num 0)]]),
    ("key_epoch", .num 1), ("node_id", .str "aaaaaaaa-aaaa-4aaa-8aaa-aaaaaaaaaaaa"),
    ("task_id", .str "11111111-1111-4111-8111-111111111111")]

def ascii (s : String) : Bytes := s.toList.map fun ch => UInt8.ofNat ch.toNat

def canonical : Bytes :=
  ascii ("\x7b\"attempt\":1,\"deliverables\":[\x7b\"path\":\"log/run.txt\",\"sha256\":\"" ++ logDigest ++
    "\",\"size\":3\x7d,\x7b\"path\":\"out.txt\",\"sha256\":\"" ++ emptyDigest ++
    "\",\"size\":0\x7d],\"key_epoch\":1,\"node_id\":\"aaaaaaaa-aaaa-4aaa-8aaa-aaaaaaaaaaaa\"," ++
    "\"task_id\":\"11111111-1111-4111-8111-111111111111\"\x7d")

def sig : String := "l9DPPNTywag8w/4bu8z26ZnMhE7lAg2dvuR+yqOpGX4SDLnYF7TqZNKGU8pJwXgWbiyiqUjW9LcRWLFLc4/9Cw=="

def sigBytes : Bytes :=
  [151, 208, 207, 60, 212, 242, 193, 168, 60, 195, 254, 27, 187, 204, 246, 233, 153, 204, 132, 78, 229, 2, 13, 157, 190,
    228, 126, 202, 163, 169, 25, 126, 18, 12, 185, 216, 23, 180, 234, 100, 210, 134, 83, 202, 73, 193, 120, 22, 110, 44,
    162, 169, 72, 214, 244, 183, 17, 88, 177, 75, 115, 143, 253, 11]

def pub : Bytes :=
  [234, 74, 108, 99, 226, 156, 82, 10, 190, 245, 80, 123, 19, 46, 197, 249, 149, 71, 118, 174, 190, 190, 123, 146, 66,
    30, 234, 105, 20, 70, 210, 44]

/-- SHA-256, the canonical form and Ed25519 at what the deliveries ask of them. -/
def table : ArtifactHost where
  hashBytes b := if b = [] then emptyDigest else if b = log then logDigest else ""
  jcsBytes v := if v = manifest then canonical else []
  fromBase64 s := if s = sig then some sigBytes else none
  verifyBytes s data key := some (decide (s = sigBytes ∧ data = canonical ∧ key = pub))

def asked : Json := .obj [("deliverables", .arr [.obj [("path", .str "out.txt")], .obj [("path", .str "log/run.txt")]])]

/-- What is judged once these files are collected. -/
def sampleOf (collected : List CollectedFile) : DeliveryInput where
  signed := .obj [("alg", .str "ed25519"), ("manifest", manifest), ("sig", .str sig)]
  taskId := "11111111-1111-4111-8111-111111111111"
  attempt := 1
  pub := pub
  fromNodeId := "aaaaaaaa-aaaa-4aaa-8aaa-aaaaaaaaaaaa"
  fromKeyEpoch := some 1
  collected
  contract := some asked

/-- The branch as the executor made it, and one with another file in it besides. -/
def sample : DeliveryInput := sampleOf [⟨"log/run.txt", log⟩, ⟨"out.txt", []⟩]

def again : DeliveryInput := sampleOf [⟨"notes.txt", [110]⟩, ⟨"out.txt", []⟩, ⟨"log/run.txt", log⟩]

theorem sampleOf_accepted {files : List CollectedFile} (hout : collectedAt files "out.txt" = some [])
    (hlog : collectedAt files "log/run.txt" = some log) : verifyArtifactDelivery table (sampleOf files) = true := by
  -- all but the collected files is the same for every delivery
  have hvalid : validSignedManifest sample.signed = true := by decide +kernel
  have hcontract : Lead.isLeadContract (some asked) = true := by decide +kernel
  have hfields : sample.signed.get "manifest" = some manifest ∧ manifest.getStr "task_id" = some sample.taskId ∧
      manifest.getNum "attempt" = some sample.attempt ∧ manifest.getStr "node_id" = some sample.fromNodeId ∧
      manifest.getNum "key_epoch" = sample.fromKeyEpoch ∧ sample.signed.get "alg" = some (.str "ed25519") ∧
      sample.signed.getStr "sig" = some sig := by decide +kernel
  have hlisted : ∀ c ∈ contractDeliverables (some asked), isListed sample.signed c = true := by decide +kernel
  obtain ⟨hmanifest, htask, hattempt, hnode, hepoch, halg, hsig⟩ := hfields
  have hsigned : verifyManifest table sample.signed pub = true := by
    have hcanonical : table.jcsBytes manifest = canonical := by simp only [table, ↓reduceIte]
    have hdecoded : table.fromBase64 sig = some sigBytes := by simp only [table, ↓reduceIte]
    have hverified : table.verifyBytes sigBytes canonical pub = some true := by
      simp only [table, and_self, decide_true]
    unfold verifyManifest
    rw [if_neg (not_not_intro halg), hmanifest, hsig, Option.getD_some, Option.getD_some, hdecoded, hcanonical]
    exact congrArg (Option.getD · false) hverified
  have hget : (((sampleOf files).signed.get "manifest").getD .null) = manifest := congrArg (Option.getD · .null) hmanifest
  refine verifyArtifactDelivery_iff.mpr ⟨hvalid, hcontract,
    (congrArg (Json.getStr · "task_id") hget).trans htask, (congrArg (Json.getNum · "attempt") hget).trans hattempt,
    (congrArg (Json.getStr · "node_id") hget).trans hnode, (congrArg (Json.getNum · "key_epoch") hget).trans hepoch,
    hsigned, ?_, hlisted⟩
  have hentry : ∀ (path : String) (bytes : Bytes), collectedAt files path = some bytes → matchesFile table files
      (.obj [("path", .str path), ("sha256", .str (table.hashBytes bytes)), ("size", .num bytes.length)]) = true := by
    intro path bytes hbytes
    have hpath : (Json.obj [("path", .str path), ("sha256", .str (table.hashBytes bytes)),
        ("size", .num bytes.length)]).getStr "path" = some path := rfl
    unfold matchesFile
    rw [hpath, Option.getD_some, hbytes]
    exact Bool.and_eq_true_iff.mpr ⟨decide_eq_true rfl, decide_eq_true rfl⟩
  intro d hd
  rcases List.mem_pair.mp (show d ∈ [_, _] from hd) with rfl | rfl
  · exact hentry "log/run.txt" log hlog
  · exact hentry "out.txt" [] hout

end Delivered

open Delivered in
theorem delivery_sound_sample : verifyArtifactDelivery table sample = true ∧ verifyArtifactDelivery table again = true ∧
    ∀ c ∈ contractDeliverables sample.contract, ∃ path b b', c.getStr "path" = some path ∧
      collectedAt sample.collected path = some b ∧ collectedAt again.collected path = some b' ∧
      (b = b' ∨ b ≠ b' ∧ table.hashBytes b = table.hashBytes b') := by
  have hfirst : verifyArtifactDelivery table sample = true :=
    sampleOf_accepted (by decide +kernel) (by decide +kernel)
  have hsecond : verifyArtifactDelivery table again = true :=
    sampleOf_accepted (by decide +kernel) (by decide +kernel)
  exact ⟨hfirst, hsecond, (delivery_sound hfirst).2.2.2.2 again hsecond rfl⟩

end Collab
end Qlong
