import Qlong.Registry.Durability

/-!
# Invitations, and what is collected

`issueEnrollToken`, `enroll`, `joinTeam` and `gc` of `packages/registry/src/directory.ts`. An
invitation is redeemed by an enrollment or by a node that joins; the collection drops the invitations
of the teams it drops.

The record of an invitation tells how it was issued, and until it is consumed that nobody has
redeemed it since (`Told`). A redemption reads the record, so it is the first one after its issue.
-/

namespace Qlong
namespace Registry

open Lib Lead Node

variable {V : Type} {c : Center V} {opts : Options V} {now : Int} {s s' : RegistryState V} {d d' : Draft V}

/-! ## Issued and redeemed -/

/-- The call redeems the invitation of this hash. -/
def Call.Redeems (c : Center V) (hash : String) : Call V → Prop
  | .enroll _ _ _ input => ∃ token, input.token.filter nonempty = some token ∧ c.sha token = hash
  | .joinTeam _ enrollToken => c.sha enrollToken = hash
  | _ => False

/-- The call issues the invitation with this record. -/
def Call.Issues (c : Center V) (opts : Options V) (now : Int) (r : EnrollRecord V) : Call V → Prop
  | .issueEnrollToken secret teamId ttlMs created_by =>
    r = { tokenHash := c.sha secret, team_id := teamId, created_by, expiresAt := c.plus now (ttlMs.getD opts.enrollTtlMs)
          used_by := none, consumed_at := none }
  | _ => False

/-- A node after a sweep, and whether it is online. -/
def Draft.Swept (c : Center V) (opts : Options V) (now : Int) (d r : Draft V) (n : StoredNode V) : Prop :=
  if d.isOffline c opts now n then
    r.nodes.get n.node_id = some { n with status := .revoked, caps := [], load := some none } ∧
      r.presence n.node_id = false
  else r.nodes.get n.node_id = some n ∧ r.presence n.node_id = d.presence n.node_id

/-- Nothing is left to collect. -/
def Draft.Settled (c : Center V) (opts : Options V) (now : Int) (d : Draft V) : Prop :=
  (∀ team ∈ d.teams.rows, d.isOrphaned c opts now team = false) ∧ ∀ n ∈ d.nodes.rows, d.isOffline c opts now n = false

theorem foldl_unless {α β : Type} {p : β → α → Bool} {f : β → α → β} {b : β} {xs : List α}
    (h : ∀ x ∈ xs, p b x = false) : xs.foldl (fun b x => if p b x then f b x else b) b = b := by
  induction xs with
  | nil => rfl
  | cons x xs ih =>
    rw [List.foldl_cons, if_neg (by simp [h x List.mem_cons_self])]
    exact ih fun y hy => h y (List.mem_cons_of_mem _ hy)

theorem Draft.Settled.gc (h : d.Settled c opts now) : d.gc c opts now = d := by
  unfold Draft.gc
  dsimp only
  rw [foldl_unless h.1, foldl_unless h.2]

section

variable [DecidableEq V] {hist : List (Entry (CenterState V) (CenterLabel V))} {x : CenterState V}

/-- An invitation with this record is issued in the step. -/
def Issued (c : Center V) (opts : Options V) (e : Entry (CenterState V) (CenterLabel V)) (r : EnrollRecord V) : Prop :=
  ∃ made now fault, e.label = .call made now fault ∧ (made.run c opts now fault e.pre).1 = .ok () ∧ made.Issues c opts now r

/-- The invitation of this hash is redeemed in the step, at this time. -/
def Redeemed (c : Center V) (opts : Options V) (e : Entry (CenterState V) (CenterLabel V)) (hash : String) (now : Int) :
    Prop :=
  ∃ made fault, e.label = .call made now fault ∧ (made.run c opts now fault e.pre).1 = .ok () ∧ made.Redeems c hash

/-- How the invitation of a hash was issued, and that nobody has redeemed it since unless it is consumed. -/
def Told (c : Center V) (opts : Options V) (past : List (Entry (CenterState V) (CenterLabel V))) (hash : String)
    (r : EnrollRecord V) : Prop :=
  ∃ since issue before issued, past = since ++ issue :: before ∧ Issued c opts issue issued ∧ issued.tokenHash = hash ∧
    r.team_id = issued.team_id ∧ r.expiresAt = issued.expiresAt ∧
    (r.consumed_at.any nonempty = false → ∀ e ∈ since, ∀ now, ¬ Redeemed c opts e hash now)

theorem Told.later {past : List (Entry (CenterState V) (CenterLabel V))} {hash : String} {r r' : EnrollRecord V}
    (h : Told c opts past hash r) {e : Entry (CenterState V) (CenterLabel V)} (hteam : r'.team_id = r.team_id)
    (hexpires : r'.expiresAt = r.expiresAt)
    (hunused : r'.consumed_at.any nonempty = false →
      r.consumed_at.any nonempty = false ∧ ∀ now, ¬ Redeemed c opts e hash now) : Told c opts (e :: past) hash r' := by
  obtain ⟨since, issue, before, issued, rfl, hissued, hhash, hissuedTeam, hissuedExpires, hnobody⟩ := h
  refine ⟨e :: since, issue, before, issued, rfl, hissued, hhash, hteam.trans hissuedTeam, hexpires.trans hissuedExpires, ?_⟩
  intro hr' y hy
  obtain ⟨hr, hnot⟩ := hunused hr'
  rcases List.mem_cons.mp hy with rfl | hy
  · exact hnot
  · exact hnobody hr y hy

end

/-! ## An invitation that is redeemed -/

namespace Invited

/-- A team, an invitation to it, and a node that enrols with it. -/
def calls : List (Call Unit) :=
  [.enroll Recovered.team Recovered.nodeA "first" ⟨some "invitation", "key", none, none⟩,
    .issueEnrollToken "invitation" Recovered.team none none, .createTeam Recovered.team none none]

def played : List (Entry (CenterState Unit) (CenterLabel Unit)) := (play Recovered.carryOut Recovered.start calls).1

theorem run_played : Run (centerSystem Recovered.center Recovered.options) played
    (play Recovered.carryOut Recovered.start calls).2 :=
  .next (.next (.next (.start rfl) ⟨(by decide : isUuid Recovered.team = true), rfl⟩) ⟨trivial, rfl⟩)
    ⟨⟨by decide, by decide⟩, rfl⟩

end Invited

end Registry
end Qlong
