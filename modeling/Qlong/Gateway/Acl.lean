import Qlong.Core.Covering
import Qlong.Executor.Durable

/-!
# The verdict on an uplink

`evaluateUplink` of `packages/gateway/src/acl.ts`: who sends, to whom, and across teams with which
capabilities. The grant gate and the executor's third gate use one matcher; `caps_compose` says what
follows for a node that owns what was granted.
-/

namespace Qlong
namespace Gateway

/-! ## The directory -/

structure GatewayDirectoryEntry where
  node_id : String
  team_id : String
  status : String
  currentEpoch : Int
deriving DecidableEq

/-- What the verdict asks of the directory. -/
structure DirectoryLookup where
  lookup : String → Option GatewayDirectoryEntry
  /-- The visible capabilities of the active grants, `none` without one. -/
  grantLookup : String → String → Option (List String)

/-- A `GatewayConnection`, as far as the verdict reads it. -/
structure GatewayConnection where
  nodeId : String
  teamId : String

structure NodeAddress where
  node_id : String
  team_id : Option String

/-- An `EnvelopeHeadLite`, as far as the verdict reads it. -/
structure EnvelopeHeadLite where
  sender : NodeAddress
  recipient : NodeAddress
  body : Json

inductive AclVerdict where
  | route (toTeam : String)
  | silent_drop (rule auditEvent reason : String)
  | routing_denied (rule reasonCode auditEvent reason : String)
deriving DecidableEq, Repr

/-! ## The verdict -/

/-- `checkFromPin(conn, head)`. -/
def checkFromPin (conn : GatewayConnection) (head : EnvelopeHeadLite) : Option AclVerdict :=
  if head.sender.node_id ≠ conn.nodeId then
    some (.silent_drop "A0" "acl_rejected_from_pin" "from.node_id 与连接身份不符")
  else if head.sender.team_id.any fun team => team ≠ conn.teamId then
    some (.silent_drop "A0" "acl_rejected_from_pin" "from.team_id 与连接归属不符")
  else none

/-- `requiredCapsOf(body)`. -/
def requiredCapsOf (body : Json) : Option (List String) :=
  match body.get "required_caps" with
  | none => some []
  | some (.arr items) =>
    if items.all fun c => (Json.asStr c).any fun s => decide (s ≠ "") then some (items.filterMap Json.asStr) else none
  | some _ => none

/-- `evaluateUplink(args)`. -/
def evaluateUplink (conn : GatewayConnection) (head : EnvelopeHeadLite) (dir : DirectoryLookup) : AclVerdict :=
  match checkFromPin conn head with
  | some pin => pin
  | none =>
    match dir.lookup conn.nodeId with
    | none => .routing_denied "A2" "not_active" "not_active" "发送节点不在目录"
    | some sender =>
      if sender.status ≠ "active" then
        .routing_denied "A2" "not_active" "not_active" ("发送节点状态 " ++ sender.status)
      else
        match dir.lookup head.recipient.node_id with
        | none => .routing_denied "A1" "not_team_member" "to_mismatch" "接收节点不在目录(P12 失败关闭)"
        | some toTeam =>
          if head.recipient.team_id.any fun team => team ≠ toTeam.team_id then
            .routing_denied "A1" "acl_rejected_cross_team" "acl_rejected_cross_team" "自报 to.team_id 与目录归属不符(伪造信号)"
          else if sender.team_id ≠ toTeam.team_id then
            match dir.grantLookup sender.team_id toTeam.team_id with
            | none =>
              .routing_denied "A1" "acl_rejected_cross_team" "acl_rejected_cross_team" "跨 team 投递被目录锚定拒绝(无 grant)"
            | some visible =>
              match requiredCapsOf head.body with
              | none => .routing_denied "A1" "acl_caps_not_granted" "acl_rejected_cross_team" "required_caps 畸形,失败关闭(P12)"
              | some required =>
                if Caps.matchCaps required visible then .route toTeam.team_id
                else
                  .routing_denied "A1" "acl_caps_not_granted" "acl_rejected_cross_team"
                    ("跨 team 能力未授权:missing=" ++ String.intercalate "," (Caps.missing required visible))
          else .route toTeam.team_id

/-! ## The two gates -/

section

variable {conn : GatewayConnection} {head : EnvelopeHeadLite} {dir : DirectoryLookup} {team : String}

/-- The gateway and the executor read the same requirement. -/
theorem requiredCapsOf_eq (body : Json) : requiredCapsOf body = Executor.requiredCaps body := by
  unfold requiredCapsOf Executor.requiredCaps
  cases hcaps : body.get "required_caps" with
  | none => rfl
  | some caps =>
    cases caps with
    | arr items =>
      dsimp only [Json.asArr, Option.bind_some]
      have hsame : (fun c : Json => (Json.asStr c).any fun s => decide (s ≠ "")) = Executor.isCap := by
        funext c
        cases c with
        | str s => rfl
        | null | bool | num | arr | obj => rfl
      rw [hsame]
    | null | bool | num | str | obj => rfl

/-- **A routed envelope between teams** has a grant, and its requirement is within what the grant shows. -/
theorem granted_of_route (h : evaluateUplink conn head dir = .route team) {sender recipient : GatewayDirectoryEntry}
    (hsender : dir.lookup conn.nodeId = some sender) (hrecipient : dir.lookup head.recipient.node_id = some recipient)
    (hcross : sender.team_id ≠ recipient.team_id) : ∃ visible required,
      dir.grantLookup sender.team_id recipient.team_id = some visible ∧ requiredCapsOf head.body = some required ∧
      Caps.matchCaps required visible = true := by
  unfold evaluateUplink at h
  cases hpin : checkFromPin conn head with
  | some pin =>
    -- a pin that speaks never routes
    rw [hpin] at h
    unfold checkFromPin at hpin
    split at hpin
    · rw [← Option.some.inj hpin] at h
      exact absurd h (by simp)
    · split at hpin
      · rw [← Option.some.inj hpin] at h
        exact absurd h (by simp)
      · exact absurd hpin (by simp)
  | none =>
    rw [hpin, hsender] at h
    dsimp only at h
    split at h
    · exact absurd h (by simp)
    · rw [hrecipient] at h
      dsimp only at h
      split at h
      · exact absurd h (by simp)
      · cases hgrant : dir.grantLookup sender.team_id recipient.team_id with
        | none =>
          rw [hgrant] at h
          exact absurd h (by simp)
        | some visible =>
          rw [hgrant] at h
          dsimp only at h
          cases hrequired : requiredCapsOf head.body with
          | none =>
            rw [hrequired] at h
            exact absurd h (by simp)
          | some required =>
            rw [hrequired] at h
            dsimp only at h
            split at h
            · rename_i hmatch
              exact ⟨visible, required, rfl, rfl, hmatch⟩
            · exact absurd h (by simp)

/-- The executor's third gate, as an offer with this body finds it. -/
def passesCapsGate (body : Json) (own : List String) : Prop :=
  (Executor.requiredCaps body).any (fun caps => Executor.gateCaps caps own) = true

theorem passesCapsGate_of {body : Json} {required own : List String} (hrequired : requiredCapsOf body = some required)
    (h : Caps.matchCaps required own = true) : passesCapsGate body own := by
  unfold passesCapsGate Executor.gateCaps
  rw [← requiredCapsOf_eq, hrequired, Option.any_some, h, Bool.or_true]

/-- **Covering composes**: it is reflexive and transitive, matching grows with what is owned and with what
    is not required, what is met by tags that are met is met, and so what the grant gate lets through passes
    the gate of an executor that owns what was granted. -/
theorem caps_compose :
    (∀ p, (Caps.parseTag p).isSome = true → Caps.matchOne p [p] = true) ∧
    (∀ p q s, Caps.matchOne p [q] = true → Caps.matchOne q [s] = true → Caps.matchOne p [s] = true) ∧
    (∀ required owned more, owned ⊆ more → Caps.matchCaps required owned = true → Caps.matchCaps required more = true) ∧
    (∀ required fewer owned, fewer ⊆ required → Caps.matchCaps required owned = true → Caps.matchCaps fewer owned = true) ∧
    (∀ required visible own, Caps.matchCaps required visible = true → Caps.matchCaps visible own = true →
      Caps.matchCaps required own = true) ∧
    (∀ (conn : GatewayConnection) (head : EnvelopeHeadLite) (dir : DirectoryLookup) (team : String)
      (sender recipient : GatewayDirectoryEntry) (visible own : List String),
      evaluateUplink conn head dir = .route team → dir.lookup conn.nodeId = some sender →
      dir.lookup head.recipient.node_id = some recipient → sender.team_id ≠ recipient.team_id →
      dir.grantLookup sender.team_id recipient.team_id = some visible → Caps.matchCaps visible own = true →
      passesCapsGate head.body own) := by
  refine ⟨fun p hp => Caps.matchOne_refl hp, fun p q s hpq hqs => Caps.matchOne_trans hpq hqs,
    fun required owned more hsub h => Caps.matchCaps_mono hsub h, fun required fewer owned hsub h => Caps.matchCaps_anti hsub h,
    fun required visible own hvisible hown => Caps.matchCaps_trans hvisible hown, ?_⟩
  intro conn head dir team sender recipient visible own hroute hsender hrecipient hcross hgrant hown
  obtain ⟨shown, required, hshown, hrequired, hmatch⟩ := granted_of_route hroute hsender hrecipient hcross
  obtain rfl := Option.some.inj (hgrant.symm.trans hshown)
  exact passesCapsGate_of hrequired (Caps.matchCaps_trans hmatch hown)

end

end Gateway
end Qlong
