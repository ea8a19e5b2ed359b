import Qlong.Gateway.Acl
import Qlong.Gateway.Retention

/-!
# The uplink into custody

`admitCustody` of `packages/gateway/src/ws.ts` with `authorizeUplink` of `core.ts`: the checks an envelope
passes before the gateway takes custody of it, and what the sender is told. A `stored` is sent only after the
transaction of `offer`, which is why a sender may let go of what it names.

The pump of the recipient's connection, and the notice to another authority, follow it as steps of their own.
-/

namespace Qlong
namespace Transport

open Lib Gateway

/-- What the gateway answers a sender. -/
inductive UplinkFrame where
  | nack (from_node msg_id digest reason : String) (retry_after_ms : Int)
  | routing_denied (rule reason_code msg_id : String)
  | stored (from_node msg_id digest : String)
deriving DecidableEq, Repr

/-- The parts of an envelope the verdict reads. -/
def headOf (e : Json) : EnvelopeHeadLite where
  sender := ⟨Env.fromNode e, Env.fromTeam e⟩
  recipient := ⟨Env.toNode e, (e.get "to").bind (·.getStr "team_id")⟩
  body := Env.body e

/-- `authorizeUplink(fromNodeId, envelope)`; `connections.get` may find nothing. -/
def authorizeUplink (conn : Option GatewayConnection) (dir : DirectoryLookup) (e : Json) : AclVerdict :=
  match conn with
  | none => .silent_drop "A0" "acl_rejected_from_pin" "无认证连接"
  | some conn => evaluateUplink conn (headOf e) dir

/-- The result as the `reason` of a nack. -/
def offerReason : OfferResult → String
  | .stored => "stored"
  | .full => "full"
  | .conflict => "conflict"
  | .expired => "expired"
  | .invalid => "invalid"

/-- `admitCustody(state, raw, now)` up to the pump at its end: the frames for the sender, and the table. -/
def admitCustody (cfg : CustodyConfig) (nodeId : String) (verdict : AclVerdict) (rows : List CustodyRow)
    (raw : Json) (now : Int) : Except CustodyError (List UplinkFrame × List CustodyRow) :=
  if !raw.isRecord then .ok ([], rows)
  else
    let digest := cfg.host.digest raw
    let msgId := (raw.getStr "msg_id").getD "unknown"
    let nack (reason : String) : UplinkFrame := .nack nodeId msgId digest reason 1000
    if !(validateEnvelope cfg.host defaultParams false raw).isEmpty then .ok ([nack "invalid"], rows)
    else match verdict with
      | .silent_drop .. => .ok ([], rows)
      | .routing_denied rule reasonCode .. =>
        .ok ([nack "acl_rejected", .routing_denied rule reasonCode (Env.msgId raw)], rows)
      | .route _ =>
        match Custody.offer cfg rows raw now with
        | .error err => .error err
        | .ok (.stored, rows) => .ok ([.stored nodeId msgId digest], rows)
        | .ok (result, rows) => .ok ([nack (offerReason result)], rows)

section

variable {cfg : CustodyConfig} {nodeId team : String} {verdict : AclVerdict} {rows rows' : List CustodyRow}
  {raw : Json} {now : Int} {frames : List UplinkFrame}

/-- **Only the connected node's own envelopes are routed.** -/
theorem route_pinned {conn : GatewayConnection} {head : EnvelopeHeadLite} {dir : DirectoryLookup}
    (h : evaluateUplink conn head dir = .route team) : head.sender.node_id = conn.nodeId := by
  by_contra hne
  have hpin : checkFromPin conn head = some (.silent_drop "A0" "acl_rejected_from_pin" "from.node_id 与连接身份不符") :=
    if_pos hne
  unfold evaluateUplink at h
  rw [hpin] at h
  exact absurd h (by simp)

/-- An authorized envelope names the connected node as its sender. -/
theorem authorizeUplink_route {conn : Option GatewayConnection} {dir : DirectoryLookup} {e : Json}
    (h : authorizeUplink conn dir e = .route team) : ∃ known, conn = some known ∧ Env.fromNode e = known.nodeId := by
  cases conn with
  | none => exact absurd h (by simp [authorizeUplink])
  | some known => exact ⟨known, rfl, route_pinned h⟩

/-- What an admission does to the table: nothing, or what an offer of a routed envelope does. -/
theorem admitCustody_ok (h : admitCustody cfg nodeId verdict rows raw now = .ok (frames, rows')) :
    rows' = rows ∨ (∃ team, verdict = .route team) ∧ ∃ r, Custody.offer cfg rows raw now = .ok (r, rows') := by
  unfold admitCustody at h
  split at h
  · exact Or.inl (Prod.mk.inj (Except.ok.inj h)).2.symm
  · dsimp only at h
    split at h
    · exact Or.inl (Prod.mk.inj (Except.ok.inj h)).2.symm
    · split at h
      · exact Or.inl (Prod.mk.inj (Except.ok.inj h)).2.symm
      · exact Or.inl (Prod.mk.inj (Except.ok.inj h)).2.symm
      · split at h
        · exact absurd h (by simp)
        · rename_i offered hoffer
          obtain ⟨-, rfl⟩ := Prod.mk.inj (Except.ok.inj h)
          exact Or.inr ⟨⟨_, rfl⟩, _, hoffer⟩
        · rename_i result offered hne hoffer
          obtain ⟨-, rfl⟩ := Prod.mk.inj (Except.ok.inj h)
          exact Or.inr ⟨⟨_, rfl⟩, _, hoffer⟩

/-- **`stored` is said after the commit**, and only of an envelope that was routed. -/
theorem admitCustody_stored {fromNode msgId digest : String}
    (h : admitCustody cfg nodeId verdict rows raw now = .ok (frames, rows')) (hframe : .stored fromNode msgId digest ∈ frames) :
    (∃ team, verdict = .route team) ∧ Custody.offer cfg rows raw now = .ok (.stored, rows') ∧
      WellFormed cfg.host defaultParams false raw ∧ fromNode = nodeId ∧ msgId = (raw.getStr "msg_id").getD "unknown" ∧
      digest = cfg.host.digest raw := by
  unfold admitCustody at h
  split at h
  · obtain ⟨rfl, -⟩ := Prod.mk.inj (Except.ok.inj h)
    exact absurd hframe List.not_mem_nil
  · dsimp only at h
    split at h
    · obtain ⟨rfl, -⟩ := Prod.mk.inj (Except.ok.inj h)
      exact absurd hframe (by simp)
    · rename_i hvalid
      split at h
      · obtain ⟨rfl, -⟩ := Prod.mk.inj (Except.ok.inj h)
        exact absurd hframe List.not_mem_nil
      · obtain ⟨rfl, -⟩ := Prod.mk.inj (Except.ok.inj h)
        exact absurd hframe (by simp)
      · rename_i team
        split at h
        · exact absurd h (by simp)
        · rename_i offered hoffer
          obtain ⟨rfl, rfl⟩ := Prod.mk.inj (Except.ok.inj h)
          obtain ⟨rfl, rfl, rfl⟩ : fromNode = nodeId ∧ msgId = (raw.getStr "msg_id").getD "unknown" ∧
              digest = cfg.host.digest raw := by simpa using hframe
          refine ⟨⟨team, rfl⟩, hoffer, ?_, rfl, rfl, rfl⟩
          rw [← validateEnvelope_ok_iff, ← List.isEmpty_iff]
          simpa using hvalid
        · obtain ⟨rfl, -⟩ := Prod.mk.inj (Except.ok.inj h)
          exact absurd hframe (by simp)

end

end Transport
end Qlong
