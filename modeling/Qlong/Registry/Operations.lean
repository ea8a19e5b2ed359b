import Mathlib.Data.List.Lex
import Qlong.Lib.Utf16
import Qlong.Registry.State

/-!
# The operations of the registry

The mutating operations of `Registry` in `packages/registry/src/directory.ts`, as they run on a
draft of the whole state. What the platform draws (identifiers, tokens) and the instant of the call
are arguments. A `Draft` also carries who is online, which the database does not hold.
-/

namespace Qlong
namespace Registry

open Lib Lead Node

variable {V : Type}

/-- `RegistryOptions`, with the defaults filled in. -/
structure Options (V : Type) where
  enrollTtlMs : V
  maxKeysPerNode : Nat
  maxNodesPerOwner : Nat
  orphanTeamTtlMs : Int
  offlineNodeTtlMs : Int

/-- The registry an operation works on. -/
structure Draft (V : Type) extends RegistryState V where
  presence : String → Bool

/-- `iso()`. -/
def Center.iso (c : Center V) (now : Int) : Except Failure String :=
  if -8640000000000000 ≤ now ∧ now ≤ 8640000000000000 then .ok (c.toISOString now) else .error .time

/-- `throw new ApiError(code, message, httpStatus)` unless the condition holds. -/
def allow (ok : Bool) (code : ErrorCode) (message : String) (httpStatus : Nat) : Except Failure PUnit :=
  require ok (.domain { code, message, httpStatus })

/-- What a lookup finds, or an `ApiError`. -/
def find {α : Type} (v : Option α) (code : ErrorCode) (message : String) (httpStatus : Nat) : Except Failure α :=
  demand v (.domain { code, message, httpStatus })

def liftApi {α : Type} (x : Except ApiError α) : Except Failure α :=
  match x with
  | .ok a => .ok a
  | .error e => .error (.domain e)

namespace Draft

section

variable (c : Center V) (opts : Options V) (now : Int) (d : Draft V)

def bumpEpoch : Draft V := { d with directoryEpoch := d.directoryEpoch + 1 }

/-! ## Teams and enrollment -/

/-- `createTeam(opts)`; `owner` is `null` when it is not given. -/
def createTeam (uuid : String) (name owner : Option String) : Except Failure (TeamRecord × Draft V) := do
  let created_at ← c.iso now
  let team : TeamRecord :=
    { team_id := uuid, name := name.getD "qlong-team", owner_user_id := some owner
      state := if owner.any nonempty then .active else .orphan, created_at }
  return (team, { d with teams := d.teams.set team })

/-- `issueEnrollToken(teamId, opts)`; `secret` is the token that was drawn. -/
def issueEnrollToken (secret teamId : String) (ttlMs : Option V) (created_by : Option String) :
    Except Failure (String × Draft V) := do
  allow (d.teams.has teamId) .bad_request "team 不存在" 404
  let record : EnrollRecord V :=
    { tokenHash := c.sha secret, team_id := teamId, created_by
      expiresAt := c.plus now (ttlMs.getD opts.enrollTtlMs), used_by := none, consumed_at := none }
  return (secret, { d with enrollTokens := d.enrollTokens.set record })

/-- The nodes that the owner of a team has in all teams. -/
def owned (owner : String) : Nat :=
  ((d.teams.rows.filter fun t => t.owner_user_id = some (some owner)).map fun t =>
    d.nodes.rows.countP fun n => n.team_id = t.team_id).sum

def ownerOf (teamId : String) : Option String :=
  ((d.teams.get teamId).bind fun t => t.owner_user_id.bind id).filter nonempty

structure EnrollInput where
  token : Option String
  pubkey : String
  platform : Option String
  qlong_version : Option String

structure EnrollResult where
  node_id : String
  team_id : String
  node_token : String
  key_epoch : Int

/-- `doEnroll(teamId, input)`. -/
def doEnroll (uuid secret teamId : String) (input : EnrollInput) : Except Failure (EnrollResult × Draft V) := do
  allow ((ownerOf d teamId).all fun owner => d.owned owner < max 1 opts.maxNodesPerOwner) .quota_exceeded
    ("该 owner 名下节点数已达配额(" ++ toString (max 1 opts.maxNodesPerOwner) ++ ")") 429
  let joined_at ← c.iso now
  let node : StoredNode V :=
    { node_id := uuid, team_id := teamId, status := .active, last_seen := none
      name := "node-" ++ String.ofList (uuid.toList.take 8), keys := [⟨1, input.pubkey⟩]
      tokenHash := c.sha secret, platform := input.platform, qlong_version := input.qlong_version
      caps := [], caps_rev := 1, load := some none, joined_at }
  let d := { d with
    nodes := d.nodes.set node
    nodeByTokenHash := d.nodeByTokenHash.set (node.tokenHash, uuid)
    presence := Function.update d.presence uuid false }
  return (⟨uuid, teamId, secret, 1⟩, d.bumpEpoch)

/-- The checks of an invitation. -/
def invitation (token message used expired : String) : Except Failure (EnrollRecord V) := do
  let record ← find (d.enrollTokens.get (c.sha token)) .enroll_token_invalid message 400
  allow (!record.consumed_at.any nonempty) .enroll_token_used used 409
  allow (!c.past now record.expiresAt) .enroll_token_expired expired 400
  return record

/-- `rec.consumed_at = this.iso(); rec.used_by = …`. -/
def consumeToken (record : EnrollRecord V) (nodeId : String) : Except Failure (Draft V) := do
  let consumed_at ← c.iso now
  return { d with
    enrollTokens := d.enrollTokens.set { record with consumed_at := some consumed_at, used_by := some nodeId } }

/-- `enroll(input)`; `team` is the identifier drawn for a team of its own. -/
def enroll (team uuid secret : String) (input : EnrollInput) : Except Failure (EnrollResult × Draft V) := do
  allow (nonempty input.pubkey) .bad_request "pubkey 必填" 400
  match input.token.filter nonempty with
  | none =>
    let (own, d) ← d.createTeam c now team (some "self-owned") none
    let d := { d with teams := d.teams.set { own with state := .self_owned } }
    d.doEnroll c opts now uuid secret own.team_id input
  | some token =>
    let record ← d.invitation c now token "邀请码无效,请重新生成" "邀请码已被使用" "邀请码已过期,请重新生成"
    let (result, d) ← d.doEnroll c opts now uuid secret record.team_id input
    let d ← d.consumeToken c now record result.node_id
    return (result, d)

/-- `authByToken(token)`. -/
def authByToken (token : String) : Except Failure (StoredNode V × Draft V) := do
  let node ← find ((d.nodeByTokenHash.get (c.sha token)).bind fun e => d.nodes.get e.2) .not_team_member "凭证无效" 401
  allow (node.status ≠ .suspended) .node_suspended "本机已被团队 owner 暂停" 403
  allow (node.status ≠ .revoked) .node_revoked "本机已被团队 owner 吊销" 403
  let last_seen ← c.iso now
  let node := { node with last_seen := some last_seen }
  return (node, { d with nodes := d.nodes.set node })

/-- `joinTeam(nodeToken, enrollToken)`. -/
def joinTeam (nodeToken enrollToken : String) : Except Failure (String × Draft V) := do
  let (node, d) ← d.authByToken c now nodeToken
  let record ← d.invitation c now enrollToken "邀请码无效" "邀请码已被使用" "邀请码已过期"
  let d := { d with nodes := d.nodes.set { node with team_id := record.team_id } }
  let d ← d.consumeToken c now record node.node_id
  return (record.team_id, d.bumpEpoch)

/-! ## The life of a node -/

def updateNodeName (token name : String) : Except Failure (StoredNode V × Draft V) := do
  allow (hasText name) .bad_request "name 必填" 400
  let (node, d) ← d.authByToken c now token
  let node := { node with name }
  return (node, { d with nodes := d.nodes.set node })

/-- `keys.push(next)`, and the oldest leave. -/
def pushKey (keys : List KeyEntry) (next : KeyEntry) : List KeyEntry :=
  (keys ++ [next]).drop (keys.length + 1 - max 3 opts.maxKeysPerNode)

/-- `rotateKeys(nodeToken, input, verifyRequestSig)`. -/
def rotateKeys (token pubkey : String) (sig : Option String) (verify : Option (StoredNode V → Bool)) :
    Except Failure (Int × Draft V) := do
  let (node, d) ← d.authByToken c now token
  let verify ← find verify .bad_request "轮换请求签名验证器未配置" 503
  allow (sig.any nonempty) .bad_request "轮换请求签名缺失" 401
  allow (verify node) .bad_request "轮换请求签名验证失败" 401
  allow (nonempty pubkey) .bad_request "pubkey 必填" 400
  -- a node always has a key
  let current ← demand node.keys.getLast? .corrupt
  let next : KeyEntry := ⟨current.epoch + 1, pubkey⟩
  let d := { d with nodes := d.nodes.set { node with keys := pushKey opts node.keys next } }
  return (next.epoch, d.bumpEpoch)

/-- `mustNode(nodeId)`. -/
def mustNode (nodeId : String) : Except Failure (StoredNode V) :=
  find (d.nodes.get nodeId) .bad_request "节点不存在" 404

/-- `node.status = status; this.bumpEpoch()`. -/
def setStatus (node : StoredNode V) (status : NodeStatus) : Draft V :=
  bumpEpoch { d with nodes := d.nodes.set { node with status } }

def suspend (nodeId : String) : Except Failure (Draft V) := do
  let node ← d.mustNode nodeId
  allow (node.status ≠ .revoked) .node_revoked "节点已吊销" 409
  return d.setStatus node .suspended

def resume (nodeId : String) : Except Failure (Draft V) := do
  let node ← d.mustNode nodeId
  return if node.status = .suspended then d.setStatus node .active else d

def revoke (nodeId : String) : Except Failure (Draft V) := do
  let node ← d.mustNode nodeId
  return { d.setStatus node .revoked with presence := Function.update d.presence nodeId false }

/-- `[...tags].sort()`, which compares the code units. -/
def sorted (tags : List String) : List String :=
  tags.mergeSort fun a b => Lib.Utf16.encode a ≤ Lib.Utf16.encode b

/-- `putCaps(nodeToken, tags)`. -/
def putCaps (token : String) (tags : List Json) : Except Failure (Int × Draft V) := do
  let (node, d) ← d.authByToken c now token
  allow (tags.all fun t => isNonEmptyStr (some t)) .bad_request "caps 必须为字符串数组" 400
  let caps := sorted (tags.filterMap Json.asStr)
  let caps_rev := if caps = sorted node.caps then node.caps_rev else node.caps_rev + 1
  return (caps_rev, { d with nodes := d.nodes.set { node with caps, caps_rev } })

def putLoad (token : String) (snapshot : V) : Except Failure (Draft V) := do
  let (node, d) ← d.authByToken c now token
  return { d with nodes := d.nodes.set { node with load := some (some snapshot) } }

/-! ## Grants and the audit log -/

/-- `createGrant(opts)`; a lifetime that is not given, or zero, means none. -/
def createGrant (uuid from_team to_team : String) (caps_visible : List Json) (ttlMs : Option V)
    (created_by : Option String) : Except Failure (GrantRecord V × Draft V) := do
  allow (d.teams.has from_team && d.teams.has to_team) .bad_request "team 不存在" 404
  allow (from_team ≠ to_team) .bad_request "不能对自己团队创建 grant" 400
  let created_at ← c.iso now
  let grant : GrantRecord V :=
    { grant_id := uuid, from_team, to_team, caps_visible
      expires_at := (ttlMs.filter c.truthy).map (c.plus now), created_by, created_at }
  return (grant, bumpEpoch { d with grants := d.grants.set grant })

def revokeGrant (gid : String) : Except Failure (Draft V) := do
  allow (d.grants.has gid) .bad_request "grant 不存在" 404
  return bumpEpoch { d with grants := d.grants.delete gid }

/-- `logAudit(event, node, team, reason, traceId)`: the log keeps the last 10000 events. -/
def logAudit (event node team reason : String) (trace_id : Option String) : Except Failure (Draft V) := do
  let ts ← c.iso now
  let log := d.auditLog ++ [⟨ts, event, node, team, reason, trace_id⟩]
  return if log.length > 10000 then { d with auditLog := log.tail, auditOffset := d.auditOffset + 1 }
    else { d with auditLog := log }

/-! ## The task index -/

/-- What the comparison of a report with its record asks for. -/
def directory : Directory where
  nodes id := (d.nodes.get id).map StoredNode.toNodeRecord
  nodeByTokenHash hash := (d.nodeByTokenHash.get hash).map Prod.snd
  taskIndex id := d.taskIndex.get id

/-- `reportTask(nodeToken, teamId, input)`. A report that says the same again answers the record
    that is there, which is then put in its own place. -/
def reportTask (token teamId : String) (input : Json) : Except Failure (TaskRecord × Draft V) := do
  let (node, d) ← d.authByToken c now token
  let t ← liftApi (parseTaskProjection input)
  allow (node.team_id = teamId ∧ t.team_id = teamId ∧ t.lead = node.node_id) .not_team_member
    "仅本 team 的牵头节点可报告任务" 403
  let updated_at ← c.iso now
  let (record, _) ← liftApi (d.directory.publish c.toPlatform updated_at t)
  return (record, { d with taskIndex := d.taskIndex.set record })

/-- `upsertTask(t)`, of trusted callers. -/
def upsertTask (input : Json) : Except Failure (Draft V) := do
  let seq := (((input.getStr "task_id").bind d.taskIndex.get).map fun r => r.projection.task_seq).getD (-1) + 1
  let t ← liftApi (parseTaskProjection (input.set "task_seq" (.num seq)))
  let updated_at ← c.iso now
  return { d with taskIndex := d.taskIndex.set ⟨t, c.digest t.toJson, updated_at⟩ }

/-! ## Collecting what is left over -/

/-- Nothing refers to the team, and it is old enough. -/
def isOrphaned (team : TeamRecord) : Bool :=
  !(team.owner_user_id.bind id).any nonempty && !(d.nodes.rows.any fun n => n.team_id = team.team_id) &&
    !(d.grants.rows.any fun g => g.from_team = team.team_id || g.to_team = team.team_id) &&
    !(d.taskIndex.rows.any fun t => t.projection.team_id = team.team_id) &&
    (c.dateParse team.created_at).any fun createdAt => opts.orphanTeamTtlMs ≤ now - createdAt

def dropTeam (team : TeamRecord) : Draft V :=
  bumpEpoch { d with
    teams := d.teams.delete team.team_id
    enrollTokens := d.enrollTokens.filter fun r => r.team_id ≠ team.team_id }

def isOffline (n : StoredNode V) : Bool :=
  n.status = .active && !d.presence n.node_id &&
    (c.dateParse (n.last_seen.getD n.joined_at)).any fun ts => opts.offlineNodeTtlMs ≤ now - ts

def retire (n : StoredNode V) : Draft V :=
  bumpEpoch { d with
    nodes := d.nodes.set { n with status := .revoked, caps := [], load := some none }
    presence := Function.update d.presence n.node_id false }

/-- `gc()`. -/
def gc : Draft V :=
  let d := d.teams.rows.foldl (fun d team => if isOrphaned c opts now d team then d.dropTeam team else d) d
  d.nodes.rows.foldl (fun d n => if isOffline c opts now d n then d.retire n else d) d

end

end Draft

/-! ## Calls -/

/-- A call with its arguments and what the platform drew for it. -/
inductive Call (V : Type) where
  | createTeam (uuid : String) (name owner : Option String)
  | issueEnrollToken (secret teamId : String) (ttlMs : Option V) (created_by : Option String)
  | enroll (team uuid secret : String) (input : Draft.EnrollInput)
  | joinTeam (nodeToken enrollToken : String)
  | authByToken (token : String)
  | updateNodeName (token name : String)
  | rotateKeys (token pubkey : String) (sig : Option String) (verify : Option (StoredNode V → Bool))
  | suspend (nodeId : String)
  | resume (nodeId : String)
  | revoke (nodeId : String)
  | putCaps (token : String) (tags : List Json)
  | putLoad (token : String) (snapshot : V)
  | createGrant (uuid from_team to_team : String) (caps_visible : List Json) (ttlMs : Option V) (created_by : Option String)
  | revokeGrant (gid : String)
  | logAudit (event node team reason : String) (trace_id : Option String)
  | reportTask (token teamId : String) (input : Json)
  | upsertTask (input : Json)
  | gc

/-- `randomUUID()` draws identifiers. -/
def Call.Drawn : Call V → Prop
  | .createTeam uuid _ _ => isUuid uuid = true
  | .enroll team uuid _ _ => isUuid team = true ∧ isUuid uuid = true
  | .createGrant uuid _ _ _ _ _ => isUuid uuid = true
  | _ => True

/-- The state a call leaves in the draft. -/
def perform (c : Center V) (opts : Options V) (now : Int) (d : Draft V) : Call V → Except Failure (Draft V)
  | .createTeam uuid name owner => (d.createTeam c now uuid name owner).map Prod.snd
  | .issueEnrollToken secret teamId ttlMs created_by =>
    (d.issueEnrollToken c opts now secret teamId ttlMs created_by).map Prod.snd
  | .enroll team uuid secret input => (d.enroll c opts now team uuid secret input).map Prod.snd
  | .joinTeam nodeToken enrollToken => (d.joinTeam c now nodeToken enrollToken).map Prod.snd
  | .authByToken token => (d.authByToken c now token).map Prod.snd
  | .updateNodeName token name => (d.updateNodeName c now token name).map Prod.snd
  | .rotateKeys token pubkey sig verify => (d.rotateKeys c opts now token pubkey sig verify).map Prod.snd
  | .suspend nodeId => d.suspend nodeId
  | .resume nodeId => d.resume nodeId
  | .revoke nodeId => d.revoke nodeId
  | .putCaps token tags => (d.putCaps c now token tags).map Prod.snd
  | .putLoad token snapshot => d.putLoad c now token snapshot
  | .createGrant uuid from_team to_team caps_visible ttlMs created_by =>
    (d.createGrant c now uuid from_team to_team caps_visible ttlMs created_by).map Prod.snd
  | .revokeGrant gid => d.revokeGrant gid
  | .logAudit event node team reason trace_id => d.logAudit c now event node team reason trace_id
  | .reportTask token teamId input => (d.reportTask c now token teamId input).map Prod.snd
  | .upsertTask input => d.upsertTask c now input
  | .gc => .ok (d.gc c opts now)

end Registry
end Qlong
