import Qlong.Lead.Machine

/-!
# Signed artifact manifests

`packages/node/src/collab/artifact-manifest.ts`: what an executor delivers is listed file by file
in a manifest it signs on its own, and the lead judges a delivery by that manifest, the key the
registry knows, the bytes it has collected and the contract of the task.

A manifest reaches the lead inside the body of a `task.result`, so it stays the JSON value it is
there; `validSignedManifest` is its admission test.
-/

namespace Qlong
namespace Collab

abbrev Bytes := List UInt8

/-- What the platform does with bytes. A verification or a decoding that throws answers `none`. -/
structure ArtifactHost where
  /-- `hashBytes(b)`: SHA-256 in hexadecimal. -/
  hashBytes : Bytes → String
  /-- `te.encode(jcs(manifest))` -/
  jcsBytes : Json → Bytes
  /-- `fromBase64(s)` -/
  fromBase64 : String → Option Bytes
  /-- `verifyBytes(sig, data, pub)` -/
  verifyBytes : Bytes → Bytes → Bytes → Option Bool

/-- A file as the collector hands it over. -/
structure CollectedFile where
  path : String
  bytes : Bytes
deriving DecidableEq, Repr

/-- `verifyManifest(signed, pub)`. -/
def verifyManifest (host : ArtifactHost) (signed : Json) (pub : Bytes) : Bool :=
  if signed.get "alg" ≠ some (.str "ed25519") then false
  else
    ((do
      let sig ← host.fromBase64 ((signed.getStr "sig").getD "")
      host.verifyBytes sig (host.jcsBytes ((signed.get "manifest").getD .null)) pub) : Option Bool).getD
      false

/-- One entry of the manifest: a path with some text that no earlier entry has, a digest, a size. -/
def validEntry (paths : List String) (d : Json) : Bool :=
  d.isRecord && (d.getStr "path").any (fun p => hasText p && !paths.contains p) &&
    (d.getStr "sha256").any isDigest && Json.nonnegative (d.get "size")

/-- The loop over the entries; `paths` are those seen so far. -/
def validEntries (paths : List String) : List Json → Bool
  | [] => true
  | d :: rest => validEntry paths d && validEntries ((d.getStr "path").getD "" :: paths) rest

/-- The entries of a manifest. -/
def manifestEntries (signed : Json) : List Json :=
  ((signed.get "manifest").bind fun m => (m.get "deliverables").bind Json.asArr).getD []

/-- `validSignedManifest(value)`. -/
def validSignedManifest (value : Json) : Bool :=
  value.isRecord && decide (value.get "alg" = some (.str "ed25519")) && (value.getStr "sig").isSome &&
    match value.get "manifest" with
    | some m =>
      m.isRecord && isUuidField (m.get "task_id") && isUuidField (m.get "node_id") &&
        Json.positive (m.get "attempt") && Json.positive (m.get "key_epoch") &&
        ((m.get "deliverables").bind Json.asArr).any (validEntries [])
    | none => false

/-- What a delivery is judged on. -/
structure DeliveryInput where
  signed : Json
  taskId : String
  attempt : Int
  pub : Bytes
  fromNodeId : String
  fromKeyEpoch : Option Int
  collected : List CollectedFile
  contract : Option Json
deriving DecidableEq

/-- `byPath.get(path)`: the last file of a path. -/
def collectedAt (files : List CollectedFile) (path : String) : Option Bytes :=
  (files.reverse.find? fun f => f.path = path).map CollectedFile.bytes

/-- An entry's file was collected, with the size and the digest the entry gives. -/
def matchesFile (host : ArtifactHost) (files : List CollectedFile) (d : Json) : Bool :=
  match collectedAt files ((d.getStr "path").getD "") with
  | some bytes => decide (d.getNum "size" = some (bytes.length : Int)) &&
      decide (d.getStr "sha256" = some (host.hashBytes bytes))
  | none => false

/-- `contract?.deliverables ?? []`. -/
def contractDeliverables (contract : Option Json) : List Json :=
  ((contract.bind fun c => c.get "deliverables").bind Json.asArr).getD []

/-- A deliverable the contract names by a path of the manifest. -/
def isListed (signed : Json) (c : Json) : Bool :=
  (c.getStr "path").any fun path =>
    (manifestEntries signed).any fun d => d.getStr "path" = some path

/-- `verifyArtifactDelivery(input)`. -/
def verifyArtifactDelivery (host : ArtifactHost) (x : DeliveryInput) : Bool :=
  let manifest := (x.signed.get "manifest").getD .null
  if !validSignedManifest x.signed || !Lead.isLeadContract x.contract then false
  else if manifest.getStr "task_id" ≠ some x.taskId ∨ manifest.getNum "attempt" ≠ some x.attempt then false
  else if manifest.getStr "node_id" ≠ some x.fromNodeId ∨ manifest.getNum "key_epoch" ≠ x.fromKeyEpoch then
    false
  else if !verifyManifest host x.signed x.pub then false
  else if !(manifestEntries x.signed).all (matchesFile host x.collected) then false
  else (contractDeliverables x.contract).all (isListed x.signed)

end Collab
end Qlong
