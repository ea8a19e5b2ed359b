import Mathlib.Logic.Function.Basic
import Qlong.Lead.Records

/-!
# The registry's task index

`Registry.reportTask` of `packages/registry/src/directory.ts` with the projection check of
`task-projection.ts`. The index holds the last accepted projection of every task. A durable
mutation runs on a draft of the whole directory and commits it, or throws and leaves no trace, so an
operation answers the directory after it or an error.

Of the directory only what `reportTask` reads and writes is modelled: the nodes, the token hashes
and the index. A `Map` is a partial function here; the one order that matters, that of a listing,
is not asked for.
-/

namespace Qlong
namespace Registry

open Lib Lead

/-! ## Errors -/

/-- The codes of `errors.ts` that the directory answers with. -/
inductive ErrorCode where
  | enroll_token_invalid
  | enroll_token_used
  | enroll_token_expired
  | quota_exceeded
  | not_team_member
  | node_revoked
  | node_suspended
  | bad_request
deriving DecidableEq, Repr

/-- `ApiError`; `reason` is its `details.reason`. -/
structure ApiError where
  code : ErrorCode
  message : String
  httpStatus : Nat := 400
  reason : Option String := none
deriving DecidableEq, Repr

/-! ## The projection of a task -/

structure TaskProjection where
  task_id : String
  type : TaskKind
  team_id : String
  lead : String
  exec : Option String
  attempt : Int
  status : LeadState
  task_seq : Int
deriving DecidableEq

/-- `fields`. -/
def projectionFields : List String :=
  ["task_id", "type", "kind", "team_id", "lead", "exec", "attempt", "status", "task_seq"]

/-- A request the check refuses. -/
def badRequest (message : String) : ApiError := { code := .bad_request, message }

/-- A field that is missing, `null` or a named node. -/
def execOf (v : Option Json) : Option (Option String) :=
  match v with
  | none | some .null => some none
  | some (.str node) => if hasText node then some (some node) else none
  | some _ => none

/-- `parseTaskProjection(input)`; the statuses are those of the lead machine. -/
def parseTaskProjection (input : Json) : Except ApiError TaskProjection := do
  let fields ← demand input.asObj (badRequest "任务投影必须为对象")
  require (fields.all fun f => f.1 ∈ projectionFields) (badRequest "任务投影包含未知字段")
  require ((input.get "type").isSome ≠ (input.get "kind").isSome)
    (badRequest "必须且只能提供 type 或 kind")
  let type ← demand (((input.get "type").or (input.get "kind")).bind fun v => v.asStr.bind kindOfText)
    (badRequest "type/kind 必须为 aid 或 project")
  let named (name : String) := demand ((input.getStr name).filter hasText)
    (badRequest "task_id、team_id、lead 必填")
  let task_id ← named "task_id"
  let team_id ← named "team_id"
  let lead ← named "lead"
  let exec ← demand (execOf (input.get "exec")) (badRequest "exec 必须为节点 ID 或 null")
  let task_seq ← demand ((input.getNum "task_seq").filter Json.isNonnegative)
    (badRequest "task_seq 必须为非负安全整数")
  let attempt ← demand ((input.getNum "attempt").filter Json.isPositive)
    (badRequest "attempt 必须为正安全整数")
  let status ← demand ((input.getStr "status").bind LeadState.ofText)
    (badRequest "status 必须为已知牵头方状态")
  return { task_id, type, team_id, lead, exec, attempt, status, task_seq }

/-- What `taskProjectionHash` hashes. -/
def TaskProjection.toJson (t : TaskProjection) : Json :=
  .object [("task_id", some (.str t.task_id)), ("type", some (.str (kindText t.type))),
    ("team_id", some (.str t.team_id)), ("lead", some (.str t.lead)), ("exec", some (nodeOrNull t.exec)),
    ("attempt", some (.num t.attempt)), ("status", some (.str t.status.text)),
    ("task_seq", some (.num t.task_seq))]

/-! ## The directory -/

inductive NodeStatus where
  | active
  | suspended
  | revoked
deriving DecidableEq, Repr

structure NodeRecord where
  node_id : String
  team_id : String
  status : NodeStatus
  last_seen : Option String
deriving DecidableEq, Repr

structure TaskRecord where
  projection : TaskProjection
  content_hash : String
  updated_at : String
deriving DecidableEq

/-- What the platform provides: `sha` of the tokens, `sha256Hex(jcs(v))` of the projections. -/
structure Platform where
  sha : String → String
  digest : Json → String

structure Directory where
  nodes : String → Option NodeRecord
  nodeByTokenHash : String → Option String
  taskIndex : String → Option TaskRecord

namespace Directory

/-- `authByToken(token)` at the time `iso`. -/
def authByToken (host : Platform) (iso : String) (g : Directory) (token : String) :
    Except ApiError (NodeRecord × Directory) := do
  let (nodeId, node) ← demand
    ((g.nodeByTokenHash (host.sha token)).bind fun nodeId => (g.nodes nodeId).map (nodeId, ·))
    { code := .not_team_member, message := "凭证无效", httpStatus := 401 }
  require (node.status ≠ .suspended)
    { code := .node_suspended, message := "本机已被团队 owner 暂停", httpStatus := 403 }
  require (node.status ≠ .revoked)
    { code := .node_revoked, message := "本机已被团队 owner 吊销", httpStatus := 403 }
  let node := { node with last_seen := some iso }
  return (node, { g with nodes := Function.update g.nodes nodeId (some node) })

/-- A report the index has no room for. -/
def conflict (message reason : String) : ApiError :=
  { code := .bad_request, message, httpStatus := 409, reason := some reason }

/-- The part of `reportTask` that compares a report with the record of its task. -/
def publish (host : Platform) (iso : String) (g : Directory) (t : TaskProjection) :
    Except ApiError (TaskRecord × Directory) :=
  let record : TaskRecord := ⟨t, host.digest t.toJson, iso⟩
  let enrolled := t.exec.all fun node => (g.nodes node).isSome
  let published := do
    require enrolled (badRequest "exec 节点不存在")
    return (record, { g with taskIndex := Function.update g.taskIndex t.task_id (some record) })
  match g.taskIndex t.task_id with
  | none => published
  | some previous => do
    require (previous.projection.team_id = t.team_id ∧ previous.projection.lead = t.lead)
      { code := .not_team_member, message := "任务归属团队与牵头节点不可变更", httpStatus := 403 }
    require (previous.projection.type = t.type) (conflict "任务类型不可变更" "task_kind_conflict")
    if previous.projection.task_seq = t.task_seq then
      require (previous.content_hash = record.content_hash)
        (conflict "同一任务修订内容冲突" "task_revision_conflict")
      return (previous, g)
    else
      require (previous.projection.task_seq ≤ t.task_seq ∧ previous.projection.attempt ≤ t.attempt)
        (conflict "过期任务投影不可覆盖新修订" "stale_task_report")
      published

/-- `reportTask(nodeToken, teamId, input)` at the time `iso`. -/
def reportTask (host : Platform) (iso : String) (token teamId : String) (input : Json) (g : Directory) :
    Except ApiError (TaskRecord × Directory) := do
  let (node, g) ← authByToken host iso g token
  let t ← parseTaskProjection input
  require (node.team_id = teamId ∧ t.team_id = teamId ∧ t.lead = node.node_id)
    { code := .not_team_member, message := "仅本 team 的牵头节点可报告任务", httpStatus := 403 }
  publish host iso g t

end Directory

/-! ## What a report can do -/

section

variable {host : Platform} {iso token teamId : String} {input : Json} {g g' : Directory}
  {t : TaskProjection} {record : TaskRecord} {e : ApiError}

theorem authByToken_ok {node : NodeRecord} (h : g.authByToken host iso token = .ok (node, g')) :
    g'.taskIndex = g.taskIndex := by
  simp only [Directory.authByToken, bind_ok_iff, pure_ok_iff, Prod.mk.injEq] at h
  obtain ⟨_, _, _, _, _, _, -, rfl⟩ := h
  rfl

/-- **A report that is taken**: it is the record of its task from then on, or was already. -/
theorem publish_ok (h : g.publish host iso t = .ok (record, g')) :
    (∀ previous, g.taskIndex t.task_id = some previous → previous.projection.team_id = t.team_id ∧
      previous.projection.lead = t.lead ∧ previous.projection.type = t.type) ∧
    ((g' = g ∧ g.taskIndex t.task_id = some record ∧ record.projection.task_seq = t.task_seq) ∨
      (g'.taskIndex = Function.update g.taskIndex t.task_id (some record) ∧ record.projection = t ∧
        ∀ previous, g.taskIndex t.task_id = some previous →
          previous.projection.task_seq < t.task_seq ∧ previous.projection.attempt ≤ t.attempt)) := by
  unfold Directory.publish at h
  cases hprev : g.taskIndex t.task_id with
  | none =>
    rw [hprev] at h
    simp only [bind_ok_iff, pure_ok_iff, Prod.mk.injEq] at h
    obtain ⟨_, _, rfl, rfl⟩ := h
    exact ⟨fun _ h => absurd h (by simp), Or.inr ⟨rfl, rfl, fun _ h => absurd h (by simp)⟩⟩
  | some previous =>
    rw [hprev] at h
    simp only [bind_ok_iff, require_ok_iff, decide_eq_true_eq] at h
    obtain ⟨_, ⟨hteam, hlead⟩, _, htype, h⟩ := h
    refine ⟨fun p hp => ?_, ?_⟩
    · obtain rfl := Option.some.inj hp
      exact ⟨hteam, hlead, htype⟩
    · split at h
      · rename_i hseq
        simp only [bind_ok_iff, pure_ok_iff, Prod.mk.injEq] at h
        obtain ⟨_, _, rfl, rfl⟩ := h
        exact Or.inl ⟨rfl, rfl, hseq⟩
      · rename_i hseq
        simp only [bind_ok_iff, require_ok_iff, decide_eq_true_eq, pure_ok_iff, Prod.mk.injEq] at h
        obtain ⟨_, ⟨hle, hatt⟩, _, _, rfl, rfl⟩ := h
        refine Or.inr ⟨rfl, rfl, fun p hp => ?_⟩
        obtain rfl := Option.some.inj hp
        exact ⟨by omega, hatt⟩

theorem reportTask_ok (h : g.reportTask host iso token teamId input = .ok (record, g')) :
    ∃ (g1 : Directory) (t : TaskProjection), g1.taskIndex = g.taskIndex ∧ parseTaskProjection input = .ok t ∧
      g1.publish host iso t = .ok (record, g') := by
  simp only [Directory.reportTask, bind_ok_iff] at h
  obtain ⟨⟨node, g1⟩, hauth, t, hparse, _, _, hpub⟩ := h
  exact ⟨g1, t, authByToken_ok hauth, hparse, hpub⟩

theorem demand_error_iff {α : Type} {v : Option α} {e' : ApiError} :
    demand v e' = .error e ↔ v = none ∧ e' = e := by
  cases v <;> simp [demand]

theorem require_error_iff {ok : Bool} {e' : ApiError} :
    (require ok e' : Except ApiError PUnit) = .error e ↔ ok = false ∧ e' = e := by
  cases ok <;> simp [require]

theorem bind_error_iff {α β : Type} {x : Except ApiError α} {f : α → Except ApiError β} :
    x >>= f = .error e ↔ x = .error e ∨ ∃ a, x = .ok a ∧ f a = .error e := by
  cases x <;> simp [bind, Except.bind]

theorem parseTaskProjection_error (h : parseTaskProjection input = .error e) : e.httpStatus = 400 := by
  simp only [parseTaskProjection, bind_error_iff, demand_error_iff, require_error_iff] at h
  rcases h with ⟨-, rfl⟩ | ⟨_, -, ⟨-, rfl⟩ | ⟨_, -, ⟨-, rfl⟩ | ⟨_, -, ⟨-, rfl⟩ | ⟨_, -, ⟨-, rfl⟩ | ⟨_, -,
    ⟨-, rfl⟩ | ⟨_, -, ⟨-, rfl⟩ | ⟨_, -, ⟨-, rfl⟩ | ⟨_, -, ⟨-, rfl⟩ | ⟨_, -, ⟨-, rfl⟩ | ⟨_, -, ⟨-, rfl⟩ | ⟨_, -,
    h⟩⟩⟩⟩⟩⟩⟩⟩⟩⟩⟩
  all_goals first
    | rfl
    | exact absurd h (by simp [pure, Except.pure])

theorem authByToken_error (h : g.authByToken host iso token = .error e) :
    e.httpStatus = 401 ∨ e.httpStatus = 403 := by
  simp only [Directory.authByToken, bind_error_iff, demand_error_iff, require_error_iff] at h
  rcases h with ⟨-, rfl⟩ | ⟨_, -, ⟨-, rfl⟩ | ⟨_, -, ⟨-, rfl⟩ | ⟨_, -, h⟩⟩⟩
  all_goals first
    | decide
    | exact absurd h (by simp [pure, Except.pure])

/-- A record of this team and lead that the report does not fit. -/
def Conflicts (g : Directory) (t : TaskProjection) : Prop :=
  ∃ previous, g.taskIndex t.task_id = some previous ∧ previous.projection.lead = t.lead ∧
    (previous.projection.type ≠ t.type ∨ t.task_seq ≤ previous.projection.task_seq ∨
      t.attempt < previous.projection.attempt)

theorem publish_error (h : g.publish host iso t = .error e) :
    e.httpStatus = 400 ∨ e.httpStatus = 403 ∨ e.httpStatus = 409 ∧ Conflicts g t := by
  unfold Directory.publish at h
  dsimp only at h
  cases hprev : g.taskIndex t.task_id with
  | none =>
    rw [hprev] at h
    simp only [bind_error_iff, require_error_iff] at h
    rcases h with ⟨-, rfl⟩ | ⟨_, -, h⟩
    · exact Or.inl rfl
    · exact absurd h (by simp [pure, Except.pure])
  | some previous =>
    rw [hprev] at h
    simp only [bind_error_iff, require_error_iff] at h
    rcases h with ⟨-, rfl⟩ | ⟨_, hown, h⟩
    · exact Or.inr (Or.inl rfl)
    simp only [require_ok_iff, decide_eq_true_eq] at hown
    have hconflict : (previous.projection.type ≠ t.type ∨ t.task_seq ≤ previous.projection.task_seq ∨
        t.attempt < previous.projection.attempt) → Conflicts g t :=
      fun hwhy => ⟨previous, hprev, hown.2, hwhy⟩
    rcases h with ⟨htype, rfl⟩ | ⟨_, -, h⟩
    · exact Or.inr (Or.inr ⟨rfl, hconflict (Or.inl (by simpa using htype))⟩)
    split at h
    · rename_i hseq
      simp only [bind_error_iff, require_error_iff] at h
      rcases h with ⟨-, rfl⟩ | ⟨_, -, h⟩
      · exact Or.inr (Or.inr ⟨rfl, hconflict (Or.inr (Or.inl (by omega)))⟩)
      · exact absurd h (by simp [pure, Except.pure])
    · simp only [bind_error_iff, require_error_iff] at h
      rcases h with ⟨hstale, rfl⟩ | ⟨_, -, ⟨-, rfl⟩ | ⟨_, -, h⟩⟩
      · simp only [decide_eq_false_iff_not, not_and_or, Int.not_le] at hstale
        refine Or.inr (Or.inr ⟨rfl, hconflict (Or.inr ?_)⟩)
        rcases hstale with hstale | hstale
        · exact Or.inl (by omega)
        · exact Or.inr hstale
      · exact Or.inl rfl
      · exact absurd h (by simp [pure, Except.pure])

/-- **A report that is refused**: with a 409 only when it conflicts with the record of its task. -/
theorem reportTask_error (h : g.reportTask host iso token teamId input = .error e) :
    e.httpStatus = 400 ∨ e.httpStatus = 401 ∨ e.httpStatus = 403 ∨
      e.httpStatus = 409 ∧ ∃ t, parseTaskProjection input = .ok t ∧ Conflicts g t := by
  simp only [Directory.reportTask, bind_error_iff] at h
  rcases h with h | ⟨⟨node, g1⟩, hauth, h | ⟨t, hparse, h | ⟨_, -, h⟩⟩⟩
  · rcases authByToken_error h with h | h
    · exact Or.inr (Or.inl h)
    · exact Or.inr (Or.inr (Or.inl h))
  · exact Or.inl (parseTaskProjection_error h)
  · rw [require_error_iff] at h
    rw [← h.2]
    exact Or.inr (Or.inr (Or.inl rfl))
  · rcases publish_error h with h | h | ⟨h, hconflict⟩
    · exact Or.inl h
    · exact Or.inr (Or.inr (Or.inl h))
    · refine Or.inr (Or.inr (Or.inr ⟨h, t, hparse, ?_⟩))
      unfold Conflicts at hconflict ⊢
      rw [← authByToken_ok hauth]
      exact hconflict

/-- **Another lead's task**: the report is refused, and not with a 409. -/
theorem reportTask_foreign {previous : TaskRecord}
    (hparse : ∀ t, parseTaskProjection input = .ok t → g.taskIndex t.task_id = some previous ∧
      previous.projection.lead ≠ t.lead) :
    ∃ e, g.reportTask host iso token teamId input = .error e ∧ e.httpStatus ≠ 409 := by
  cases h : g.reportTask host iso token teamId input with
  | ok r =>
    obtain ⟨record, g'⟩ := r
    obtain ⟨g1, t, hindex, ht, hpub⟩ := reportTask_ok h
    obtain ⟨hprev, hlead⟩ := hparse t ht
    rw [← hindex] at hprev
    exact absurd ((publish_ok hpub).1 previous hprev).2.1 hlead
  | error e =>
    refine ⟨e, rfl, ?_⟩
    rcases reportTask_error h with h | h | h | ⟨-, t, ht, record, hrecord, hlead, -⟩
    · simp [h]
    · simp [h]
    · simp [h]
    · obtain ⟨hprev, hne⟩ := hparse t ht
      rw [hprev] at hrecord
      obtain rfl := Option.some.inj hrecord
      exact absurd hlead hne

end

end Registry
end Qlong
