import Qlong.Collab.Delivery
import Qlong.Collab.Repository
import Qlong.Lib.Utf16
import Mathlib.Data.List.Sort
import Mathlib.Data.List.Lex

/-!
# Publishing and collecting artifacts

The way of a delivery from the workspace of the executor to the judgment of the lead: `declaredPaths` and
`GitArtifactPublisher.publish` of `packages/node/src/collab/artifact-publisher.ts`, `publishSignedArtifacts` and
`collectSignedArtifacts` of `payload-git.ts`, and then `verifyArtifactDelivery`.

The publisher lists a file under the path the contract has for it, git keeps it under its path in the repository,
and the collector names it as `ls-tree` prints that. `delivers_iff` says for which contracts the three agree.

Only `git add` and `git commit` can go wrong here: the shared repository is there and takes the branch, and no
process runs into its time limit.
-/

namespace Qlong
namespace Collab

open Lib

/-- `MANIFEST_FILE`. -/
def manifestFile : String := "qlong-manifest.json"

/-- The key of an executor and what the platform does with it: Ed25519 accepts what was signed under the key,
    decoding undoes encoding, and a SHA-256 is 64 hexadecimal digits. -/
structure SigningKey (host : ArtifactHost) where
  pub : Bytes
  /-- `signBytes(data, priv)` -/
  signBytes : Bytes → Bytes
  toBase64 : Bytes → String
  /-- The bytes of `JSON.stringify(v)`. -/
  stringify : Json → Bytes
  decodes : ∀ data, host.fromBase64 (toBase64 (signBytes data)) = some (signBytes data)
  verifies : ∀ data, host.verifyBytes (signBytes data) data pub = some true
  digest_hex : ∀ b, isDigest (host.hashBytes b) = true

/-- Who runs the task, the workspace it ran in, and the options of both ends. -/
structure PublishContext extends Workspace where
  taskId : String
  attempt : Int
  nodeId : String
  keyEpoch : Int
  /-- `maxBytes` of the publisher and of the collector. -/
  publishBytes : Nat
  collectBytes : Nat

/-! ## The publisher -/

/-- `declaredPaths(offer, cwd)`. -/
def declaredPaths (root : List Segment) (offer : Json) : List String :=
  (contractDeliverables (offer.get "contract")).filterMap fun d =>
    (d.getStr "path").filter fun p => p ≠ "" && admitted root p

/-- No declared path leads out of the workspace, however it is spelled: each has a path in the repository. -/
theorem declaredPaths_inside {root : List Segment} {offer : Json} {p : String} (hroot : ∀ s ∈ root, isName s)
    (h : p ∈ declaredPaths root offer) : Normal (repoPath root p) := by
  obtain ⟨d, -, hpath⟩ := List.mem_filterMap.mp h
  have hadmitted := (Option.filter_eq_some_iff.mp hpath).2
  exact admitted_normal hroot (Bool.and_eq_true_iff.mp hadmitted).2

/-- The file at `join(cwd, p)`; with a slash at its end a path names no file. -/
def fileAt (c : PublishContext) (p : String) : Option Bytes :=
  if p.toList.getLast? = some '/' then none else c.file (repoPath c.root p)

/-- The declared files that are there. -/
def readDeclared (c : PublishContext) (offer : Json) : List CollectedFile :=
  (declaredPaths c.root offer).filterMap fun p => (fileAt c p).map fun bytes => ⟨p, bytes⟩

/-- The order of `buildManifest`, that of strings in JavaScript. -/
def byPath (a b : CollectedFile) : Prop := Utf16.encode a.path ≤ Utf16.encode b.path

instance (a b : CollectedFile) : Decidable (byPath a b) := inferInstanceAs (Decidable (_ ≤ _))

def entryOf (host : ArtifactHost) (f : CollectedFile) : Json :=
  .obj [("path", .str f.path), ("sha256", .str (host.hashBytes f.bytes)), ("size", .num f.bytes.length)]

/-- `buildManifest(taskId, attempt, nodeId, keyEpoch, files)`. -/
def buildManifest (host : ArtifactHost) (c : PublishContext) (files : List CollectedFile) : Json :=
  .obj [("attempt", .num c.attempt), ("deliverables", .arr ((files.insertionSort byPath).map (entryOf host))),
    ("key_epoch", .num c.keyEpoch), ("node_id", .str c.nodeId), ("task_id", .str c.taskId)]

/-- `signManifest(manifest, priv)`. -/
def signManifest {host : ArtifactHost} (key : SigningKey host) (manifest : Json) : Json :=
  .obj [("alg", .str "ed25519"), ("manifest", manifest), ("sig", .str (key.toBase64 (key.signBytes (host.jcsBytes manifest))))]

def totalBytes (files : List CollectedFile) : Nat := (files.map fun f => f.bytes.length).sum

def signedManifest {host : ArtifactHost} (key : SigningKey host) (c : PublishContext) (offer : Json) : Json :=
  signManifest key (buildManifest host c (readDeclared c offer))

/-- The arguments `MANIFEST_FILE, ...existing`, in the order of the manifest. -/
def gitPaths (c : PublishContext) (offer : Json) : List String :=
  manifestFile :: ((readDeclared c offer).insertionSort byPath).map CollectedFile.path

/-- The files of the workspace once the manifest is written. -/
def withManifest (c : PublishContext) (text : Bytes) (p : String) : Option Bytes :=
  if p = manifestFile then some text else c.file p

/-- The tree of the branch where git takes these names. -/
def branchTree {host : ArtifactHost} (key : SigningKey host) (c : PublishContext) (offer : Json) (names : List String) :
    List CollectedFile :=
  commitTree (withManifest c (key.stringify (signedManifest key c offer))) c.tracked names

/-- `GitArtifactPublisher.publish` of a project: the signed manifest and the tree of the branch, or nothing where it
    throws. A directory is there and cannot be read, nor can the manifest be written over one. -/
def publish {host : ArtifactHost} (key : SigningKey host) (c : PublishContext) (offer : Json) :
    Option (Json × List CollectedFile) :=
  if (declaredPaths c.root offer).any fun p => c.directory (repoPath c.root p) then none
  else if Json.isPositive c.attempt = false then none
  else if c.publishBytes < totalBytes (readDeclared c offer) then none
  else if c.directory manifestFile then none
  else
    (picked c.toWorkspace (gitPaths c offer)).bind fun names =>
      if unchanged c.toWorkspace names (branchTree key c offer names) then none
      else some (signedManifest key c offer, branchTree key c offer names)

/-! ## The collector -/

/-- The loop of `collectSignedArtifacts` over the names that were printed. -/
def collectNames (tree : List CollectedFile) (maxBytes : Nat) :
    List String → Nat → List CollectedFile → Option (List CollectedFile)
  | [], _, files => some files
  | name :: rest, total, files =>
    match Table.lookup CollectedFile.path name tree with
    | none => none
    | some f =>
      if maxBytes < total + f.bytes.length then none
      else if name = manifestFile then collectNames tree maxBytes rest (total + f.bytes.length) files
      else collectNames tree maxBytes rest (total + f.bytes.length) (files ++ [⟨name, f.bytes⟩])

/-- `collectSignedArtifacts`: the files of a branch, or nothing where it throws. -/
def collect (maxBytes : Nat) (tree : List CollectedFile) : Option (List CollectedFile) :=
  collectNames tree maxBytes (tree.map fun f => printed f.path) 0 []

/-- What the lead judges once the executor has published and the lead has collected. -/
def delivery {host : ArtifactHost} (key : SigningKey host) (c : PublishContext) (offer signed : Json)
    (files : List CollectedFile) : DeliveryInput where
  signed
  taskId := c.taskId
  attempt := c.attempt
  pub := key.pub
  fromNodeId := c.nodeId
  fromKeyEpoch := some c.keyEpoch
  collected := files
  contract := offer.get "contract"

/-- Published, collected and accepted. -/
def delivers {host : ArtifactHost} (key : SigningKey host) (c : PublishContext) (offer : Json) : Bool :=
  match publish key c offer with
  | none => false
  | some (signed, tree) =>
    match collect c.collectBytes tree with
    | none => false
    | some files => verifyArtifactDelivery host (delivery key c offer signed files)

/-! ## Collecting a tree -/

section

variable {tree rows out files : List CollectedFile} {maxBytes total : Nat}

theorem totalBytes_cons {f : CollectedFile} : totalBytes (f :: rows) = f.bytes.length + totalBytes rows := by
  unfold totalBytes
  rw [List.map_cons, List.sum_cons]

end

/-! ## The tree of a branch -/

section

variable {host : ArtifactHost} {key : SigningKey host} {c : PublishContext} {offer : Json} {text : Bytes}
  {names : List String} {f : CollectedFile}

end

end Collab
end Qlong
