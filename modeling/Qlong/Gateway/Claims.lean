import Qlong.Lib.Fallible
import Qlong.Lib.Runs
import Qlong.Lib.Table
import Qlong.Node.StoreFacts

/-!
# Claims: which authority holds a node's connection

`packages/gateway/src/claim.ts` (the registry of one process) and `claim-store.ts` (the one all
authorities share). A claim carries a generation, the fencing token. The high water of a node's
generations is kept apart from its claim and is never deleted.

The `Map` of claims and the table of claims are lists of rows in insertion order; writing a row
keeps its place, as `Map.set` and an upsert do. The table is read back through its columns: a TEXT
column answers up to its first NUL, and `load` refuses a row that could not have been written.

`generation + 1` is added as doubles add, so it stands still at 2⁵³. Lease times are integers; a
sum that leaves the safe range is refused by `load` whatever it is rounded to.
-/

namespace Qlong
namespace Gateway

open Lib

/-- `Claim`. -/
structure Claim where
  nodeId : String
  authorityId : String
  generation : Int
  leaseExpiresAt : Int
deriving DecidableEq, Repr

/-- `validTime`. -/
def validTime (t : Int) : Bool := decide (-8640000000000000 ≤ t ∧ t ≤ 8640000000000000)

/-- The times a `Date` can hold. -/
theorem validTime_iff {t : Int} : validTime t = true ↔ -8640000000000000 ≤ t ∧ t ≤ 8640000000000000 := by
  simp [validTime]

/-- `generation + 1`. -/
def successor (generation : Int) : Int := if generation ≤ Json.maxSafe then generation + 1 else generation

/-! ## The calls -/

/-- The calls both implementations have. -/
inductive ClaimCall where
  | claim (nodeId authorityId : String) (now : Int)
  | lookup (nodeId : String)
  | release (nodeId authorityId : String) (generation : Int)
  | renew (nodeId authorityId : String) (generation now : Int)
  | reapExpired (now : Int)
  | reopen
deriving DecidableEq, Repr

/-- What they answer. -/
inductive ClaimReply where
  | claimed (claim : Claim)
  | found (claim : Option Claim)
  | fenced (held : Bool)
  | reaped (nodes : List String)
  | reopened
deriving DecidableEq, Repr

/-! ## The registry of one process -/

/-- `LocalClaimRegistry`: `claims` and `highWater`. -/
structure LocalClaimRegistry where
  claims : List Claim
  highWater : String → Int

namespace LocalClaimRegistry

/-- No claims, and no generation given yet. -/
def empty : LocalClaimRegistry := ⟨[], fun _ => 0⟩

/-- A new claim has the next generation and replaces the one before, whoever held it. -/
def claim (ttl : Int) (r : LocalClaimRegistry) (nodeId authorityId : String) (now : Int) :
    Claim × LocalClaimRegistry :=
  let generation := successor (r.highWater nodeId)
  let claim : Claim := ⟨nodeId, authorityId, generation, now + ttl⟩
  (claim, { claims := Table.put Claim.nodeId claim r.claims
            highWater := Function.update r.highWater nodeId generation })

/-- The claim of a node. -/
def lookup (r : LocalClaimRegistry) (nodeId : String) : Option Claim :=
  Table.lookup Claim.nodeId nodeId r.claims

/-- The holder gives its claim up; nobody else can. -/
def release (r : LocalClaimRegistry) (nodeId authorityId : String) (generation : Int) :
    Bool × LocalClaimRegistry :=
  match r.lookup nodeId with
  | some current =>
    if current.authorityId = authorityId ∧ current.generation = generation then
      (true, { r with claims := Table.remove Claim.nodeId nodeId r.claims })
    else (false, r)
  | none => (false, r)

/-- The holder moves its lease on; nobody else can. -/
def renew (ttl : Int) (r : LocalClaimRegistry) (nodeId authorityId : String) (generation now : Int) :
    Bool × LocalClaimRegistry :=
  match r.lookup nodeId with
  | some current =>
    if current.authorityId = authorityId ∧ current.generation = generation then
      (true, { r with claims := Table.put Claim.nodeId { current with leaseExpiresAt := now + ttl } r.claims })
    else (false, r)
  | none => (false, r)

/-- Claims whose lease is over are removed. -/
def reapExpired (r : LocalClaimRegistry) (now : Int) : List String × LocalClaimRegistry :=
  ((r.claims.filter fun c => c.leaseExpiresAt ≤ now).map Claim.nodeId,
    { r with claims := r.claims.filter fun c => ¬ c.leaseExpiresAt ≤ now })

/-- A call; a process that is started again is not asked about. -/
def perform (ttl : Int) (r : LocalClaimRegistry) : ClaimCall → ClaimReply × LocalClaimRegistry
  | .claim nodeId authorityId now =>
    let (claim, r) := r.claim ttl nodeId authorityId now
    (.claimed claim, r)
  | .lookup nodeId => (.found (r.lookup nodeId), r)
  | .release nodeId authorityId generation =>
    let (held, r) := r.release nodeId authorityId generation
    (.fenced held, r)
  | .renew nodeId authorityId generation now =>
    let (held, r) := r.renew ttl nodeId authorityId generation now
    (.fenced held, r)
  | .reapExpired now =>
    let (nodes, r) := r.reapExpired now
    (.reaped nodes, r)
  | .reopen => (.reopened, r)

end LocalClaimRegistry

/-! ## The shared store -/

/-- `outOfRange` is node:sqlite's own: it does not read an integer that is not safe. -/
inductive ClaimError where
  | badArgument
  | outOfRange
  | corrupt
  | constraint
  | faulted
deriving DecidableEq, Repr

/-- A row of `gateway_claim`. -/
structure ClaimRow where
  node_id : String
  authority_id : String
  generation : Int
  claimed_at : Int
  lease_expires_at : Int
deriving DecidableEq, Repr

/-- A row of `gateway_claim_seq`. -/
structure SeqRow where
  node_id : String
  last_generation : Int
deriving DecidableEq, Repr

/-- `SqliteClaimStore`: its two tables, and whether the storage below has faulted. -/
structure ClaimStore where
  claims : List ClaimRow
  seq : List SeqRow
  faulted : Bool

namespace ClaimStore

/-- A new database. -/
def empty : ClaimStore := ⟨[], [], false⟩

/-- `load(raw)`. -/
def load (row : ClaimRow) : Except ClaimError Claim := do
  let authority := Node.columnText row.authority_id
  require (Json.isSafe row.generation && Json.isSafe row.claimed_at && Json.isSafe row.lease_expires_at) .outOfRange
  require (isUuid row.node_id && authority ≠ "" && Json.isPositive row.generation &&
    validTime row.claimed_at && validTime row.lease_expires_at && row.claimed_at ≤ row.lease_expires_at) .corrupt
  return { nodeId := row.node_id, authorityId := authority, generation := row.generation,
           leaseExpiresAt := row.lease_expires_at }

/-- `store.transaction`: what throws is rolled back, and a damaged row faults the store. -/
def transaction {α : Type} (s : ClaimStore) (body : Except ClaimError (α × ClaimStore)) :
    Except ClaimError α × ClaimStore :=
  if s.faulted then (.error .faulted, s) else
    match body with
    | .ok (a, s') => (.ok a, s')
    | .error .corrupt => (.error .corrupt, { s with faulted := true })
    | .error e => (.error e, s)

/-- The upsert of the high water, and what it returns. -/
def bump (s : ClaimStore) (nodeId : String) : Int × ClaimStore :=
  let last := match Table.lookup SeqRow.node_id nodeId s.seq with
    | some row => row.last_generation + 1
    | none => 1
  (last, { s with seq := Table.put SeqRow.node_id ⟨nodeId, last⟩ s.seq })

/-- `claim`, in one transaction: the counter, then the row. -/
def claim (ttl : Int) (s : ClaimStore) (nodeId authorityId : String) (now : Int) :
    Except ClaimError Claim × ClaimStore :=
  if isUuid nodeId && authorityId ≠ "" && validTime now then
    s.transaction do
      let (generation, s) := s.bump nodeId
      require (Json.isSafe generation) .outOfRange
      require (Json.isPositive generation) .corrupt
      require (now ≤ now + ttl) .constraint
      return (⟨nodeId, authorityId, generation, now + ttl⟩,
        { s with claims := Table.put ClaimRow.node_id ⟨nodeId, authorityId, generation, now, now + ttl⟩ s.claims })
  else (.error .badArgument, s)

/-- `lookup`: the row is checked before it is answered. -/
def lookup (s : ClaimStore) (nodeId : String) : Except ClaimError (Option Claim) × ClaimStore :=
  if isUuid nodeId then
    s.transaction do
      match Table.lookup ClaimRow.node_id nodeId s.claims with
      | some row =>
        let claim ← load row
        return (some claim, s)
      | none => return (none, s)
  else (.ok none, s)

/-- The rows `WHERE node_id = ? AND authority_id = ? AND generation = ?`. -/
def holds (nodeId authorityId : String) (generation : Int) (row : ClaimRow) : Bool :=
  row.node_id = nodeId && row.authority_id = authorityId && row.generation = generation

/-- `release`: one DELETE, which hits the holder's row or none. -/
def release (s : ClaimStore) (nodeId authorityId : String) (generation : Int) :
    Except ClaimError Bool × ClaimStore :=
  if isUuid nodeId && Json.isPositive generation then
    s.transaction (.ok ((s.claims.filter (holds nodeId authorityId generation)).length = 1,
      { s with claims := s.claims.filter fun row => !holds nodeId authorityId generation row }))
  else (.ok false, s)

/-- `renew`: one UPDATE. The row's CHECK compares the new end of the lease with the old `claimed_at`. -/
def renew (ttl : Int) (s : ClaimStore) (nodeId authorityId : String) (generation now : Int) :
    Except ClaimError Bool × ClaimStore :=
  if isUuid nodeId && Json.isPositive generation && validTime now then
    s.transaction do
      require (s.claims.all fun row => !holds nodeId authorityId generation row || row.claimed_at ≤ now + ttl)
        .constraint
      return ((s.claims.filter (holds nodeId authorityId generation)).length = 1,
        { s with claims := s.claims.map fun row =>
            if holds nodeId authorityId generation row then { row with lease_expires_at := now + ttl } else row })
  else (.ok false, s)

/-- `reapExpired`: the rows are read, then deleted. -/
def reapExpired (s : ClaimStore) (now : Int) : Except ClaimError (List String) × ClaimStore :=
  if validTime now then
    s.transaction do
      let expired ← (s.claims.filter fun row => row.lease_expires_at ≤ now).mapM load
      return (expired.map Claim.nodeId, { s with claims := s.claims.filter fun row => ¬ row.lease_expires_at ≤ now })
  else (.ok [], s)

/-- The constructor over tables that are there: every claim is read, with the high water joined to it. -/
def validate (s : ClaimStore) : Except ClaimError PUnit :=
  s.claims.forM fun row => do
    let claim ← load row
    require ((Table.lookup SeqRow.node_id row.node_id s.seq).any fun seq =>
      Json.isPositive seq.last_generation && claim.generation ≤ seq.last_generation) .corrupt

/-- The storage is closed and opened again, and the store constructed over it. -/
def reopen (s : ClaimStore) : Except ClaimError PUnit × ClaimStore :=
  let s := { s with faulted := false }
  s.transaction ((·, s) <$> validate s)

/-- A call. -/
def perform (ttl : Int) (s : ClaimStore) : ClaimCall → Except ClaimError ClaimReply × ClaimStore
  | .claim nodeId authorityId now =>
    let (r, s) := s.claim ttl nodeId authorityId now
    (.claimed <$> r, s)
  | .lookup nodeId =>
    let (r, s) := s.lookup nodeId
    (.found <$> r, s)
  | .release nodeId authorityId generation =>
    let (r, s) := s.release nodeId authorityId generation
    (.fenced <$> r, s)
  | .renew nodeId authorityId generation now =>
    let (r, s) := s.renew ttl nodeId authorityId generation now
    (.fenced <$> r, s)
  | .reapExpired now =>
    let (r, s) := s.reapExpired now
    (.reaped <$> r, s)
  | .reopen =>
    let (r, s) := s.reopen
    ((fun _ => .reopened) <$> r, s)

/-! ### What a call leaves -/

section

variable {s s' : ClaimStore} {ttl : Int}

/-- A transaction answers where the store works and its body answers. -/
theorem transaction_ok {α : Type} {body : Except ClaimError (α × ClaimStore)} {a : α} :
    s.transaction body = (.ok a, s') ↔ s.faulted = false ∧ body = .ok (a, s') := by
  unfold transaction
  cases s.faulted with
  | true => simp
  | false =>
    simp only [Bool.false_eq_true, if_false, true_and]
    split
    · simp
    · simp
    · simp

/-- One that throws leaves the tables as they were. -/
theorem transaction_error {α : Type} {body : Except ClaimError (α × ClaimStore)} {e : ClaimError}
    (h : s.transaction body = (.error e, s')) : s'.claims = s.claims ∧ s'.seq = s.seq := by
  unfold transaction at h
  split at h
  · simp only [Prod.mk.injEq] at h
    rw [h.2]
    exact ⟨rfl, rfl⟩
  · split at h
    · simp at h
    · simp only [Prod.mk.injEq] at h
      rw [← h.2]
      exact ⟨rfl, rfl⟩
    · simp only [Prod.mk.injEq] at h
      rw [← h.2]
      exact ⟨rfl, rfl⟩

/-- What fences a row. -/
def token (row : ClaimRow) : String × Int := (row.node_id, row.generation)

/-- What of a row only a claim changes. -/
def stamp (row : ClaimRow) : String × String × Int := (row.node_id, row.authority_id, row.generation)

/-- The last generation of a node. -/
def last (s : ClaimStore) (nodeId : String) : Option Int :=
  (Table.lookup SeqRow.node_id nodeId s.seq).map SeqRow.last_generation

/-- A call that issues nothing: the high waters stay, and no claim appears. -/
structure Keeps (s s' : ClaimStore) : Prop where
  seq : s'.seq = s.seq
  stamps : (s'.claims.map stamp).Sublist (s.claims.map stamp)

/-- No new token comes up. -/
theorem Keeps.tokens (h : Keeps s s') : (s'.claims.map token).Sublist (s.claims.map token) := by
  have htoken : ∀ s : ClaimStore, s.claims.map token = (s.claims.map stamp).map fun x => (x.1, x.2.2) := by
    intro s
    rw [List.map_map]
    rfl
  rw [htoken, htoken]
  exact h.stamps.map _

theorem Keeps.same (hclaims : s'.claims = s.claims) (hseq : s'.seq = s.seq) : Keeps s s' :=
  ⟨hseq, by rw [hclaims]⟩

/-- A claim that is granted. -/
structure Grants (ttl : Int) (s : ClaimStore) (nodeId authorityId : String) (now : Int) (claim : Claim)
    (s' : ClaimStore) : Prop where
  granted : claim = ⟨nodeId, authorityId, (s.last nodeId).getD 0 + 1, now + ttl⟩
  seq : s'.seq = Table.put SeqRow.node_id ⟨nodeId, claim.generation⟩ s.seq
  claims : s'.claims = Table.put ClaimRow.node_id ⟨nodeId, authorityId, claim.generation, now, now + ttl⟩ s.claims
  faulted : s'.faulted = s.faulted

theorem bump_fst (nodeId : String) : (s.bump nodeId).1 = (s.last nodeId).getD 0 + 1 := by
  unfold bump last
  cases Table.lookup SeqRow.node_id nodeId s.seq <;> simp

/-- A claim that answers has granted. -/
theorem claim_ok {nodeId authorityId : String} {now : Int} {c : Claim}
    (h : s.claim ttl nodeId authorityId now = (.ok c, s')) :
    s.faulted = false ∧ Grants ttl s nodeId authorityId now c s' := by
  unfold claim at h
  split at h
  · obtain ⟨hfaulted, h⟩ := transaction_ok.mp h
    simp only [bind_ok_iff, require_ok_iff, pure_ok_iff, Prod.mk.injEq] at h
    obtain ⟨_, -, _, -, _, -, rfl, rfl⟩ := h
    refine ⟨hfaulted, ?_, ?_, rfl, rfl⟩
    · rw [bump_fst]
    · rfl
  · simp at h

/-- One that throws has written nothing. -/
theorem claim_error {nodeId authorityId : String} {now : Int} {e : ClaimError}
    (h : s.claim ttl nodeId authorityId now = (.error e, s')) : s'.claims = s.claims ∧ s'.seq = s.seq := by
  unfold claim at h
  split at h
  · exact transaction_error h
  · simp only [Prod.mk.injEq] at h
    rw [← h.2]
    exact ⟨rfl, rfl⟩

/-- The token a call is fenced by. -/
def fences : ClaimCall → Option (String × Int)
  | .release nodeId _ generation | .renew nodeId _ generation _ => some (nodeId, generation)
  | _ => none

/-- **What a call can do**: grant a claim, or issue nothing; and what answers `true` to a token has it. -/
inductive Effect (ttl : Int) (s : ClaimStore) : ClaimCall → Except ClaimError ClaimReply → ClaimStore → Prop
  | granted {nodeId authorityId : String} {now : Int} {c : Claim} {s' : ClaimStore}
      (h : Grants ttl s nodeId authorityId now c s') :
      Effect ttl s (.claim nodeId authorityId now) (.ok (.claimed c)) s'
  | kept {call : ClaimCall} {r : Except ClaimError ClaimReply} {s' : ClaimStore} (h : Keeps s s')
      (hclaimed : ∀ c, r ≠ .ok (.claimed c))
      (hheld : r = .ok (.fenced true) → ∃ t, fences call = some t ∧ t ∈ s.claims.map token) :
      Effect ttl s call r s'

theorem token_of_holds {nodeId authorityId : String} {generation : Int}
    (h : (s.claims.filter (holds nodeId authorityId generation)).length = 1) :
    (nodeId, generation) ∈ s.claims.map token := by
  obtain ⟨row, hrow⟩ := List.length_eq_one_iff.mp h
  have hmem : row ∈ s.claims.filter (holds nodeId authorityId generation) := by rw [hrow]; exact List.mem_cons_self
  obtain ⟨hmem, hholds⟩ := List.mem_filter.mp hmem
  simp only [holds, Bool.and_eq_true, decide_eq_true_eq] at hholds
  refine List.mem_map.mpr ⟨row, hmem, ?_⟩
  rw [token, hholds.1.1, hholds.2]

/-- A release that succeeds held the token. -/
theorem release_ok {nodeId authorityId : String} {generation : Int} {b : Bool}
    (h : s.release nodeId authorityId generation = (.ok b, s')) :
    Keeps s s' ∧ (b = true → (nodeId, generation) ∈ s.claims.map token) := by
  unfold release at h
  split at h
  · obtain ⟨-, h⟩ := transaction_ok.mp h
    simp only [Except.ok.injEq, Prod.mk.injEq] at h
    obtain ⟨rfl, rfl⟩ := h
    refine ⟨⟨rfl, List.filter_sublist.map _⟩, fun hb => token_of_holds (of_decide_eq_true hb)⟩
  · simp only [Prod.mk.injEq, Except.ok.injEq] at h
    obtain ⟨rfl, rfl⟩ := h
    exact ⟨.same rfl rfl, fun hb => absurd hb (by simp)⟩

/-- A renewal that succeeds held it. -/
theorem renew_ok {nodeId authorityId : String} {generation now : Int} {b : Bool}
    (h : s.renew ttl nodeId authorityId generation now = (.ok b, s')) :
    Keeps s s' ∧ (b = true → (nodeId, generation) ∈ s.claims.map token) := by
  unfold renew at h
  split at h
  · obtain ⟨-, h⟩ := transaction_ok.mp h
    simp only [bind_ok_iff, require_ok_iff, pure_ok_iff, Prod.mk.injEq] at h
    obtain ⟨_, -, rfl, rfl⟩ := h
    refine ⟨⟨rfl, ?_⟩, fun hb => token_of_holds (of_decide_eq_true hb)⟩
    have hstamps : (s.claims.map fun row => if holds nodeId authorityId generation row then
        { row with lease_expires_at := now + ttl } else row).map stamp = s.claims.map stamp := by
      rw [List.map_map]
      apply List.map_congr_left
      intro row _
      simp only [Function.comp]
      split <;> rfl
    exact hstamps ▸ List.Sublist.refl _
  · simp only [Prod.mk.injEq, Except.ok.injEq] at h
    obtain ⟨rfl, rfl⟩ := h
    exact ⟨.same rfl rfl, fun hb => absurd hb (by simp)⟩

/-- Reaping takes rows away and gives none. -/
theorem reapExpired_ok {now : Int} {nodes : List String} (h : s.reapExpired now = (.ok nodes, s')) : Keeps s s' := by
  unfold reapExpired at h
  split at h
  · obtain ⟨-, h⟩ := transaction_ok.mp h
    simp only [bind_ok_iff, pure_ok_iff, Prod.mk.injEq] at h
    obtain ⟨_, -, -, rfl⟩ := h
    exact ⟨rfl, List.filter_sublist.map _⟩
  · simp only [Prod.mk.injEq] at h
    obtain ⟨-, rfl⟩ := h
    exact .same rfl rfl

/-- A look changes nothing. -/
theorem lookup_ok {nodeId : String} {c : Option Claim} (h : s.lookup nodeId = (.ok c, s')) : s' = s := by
  unfold lookup at h
  split at h
  · obtain ⟨-, h⟩ := transaction_ok.mp h
    cases hrow : Table.lookup ClaimRow.node_id nodeId s.claims with
    | none =>
      rw [hrow] at h
      simp only [pure_ok_iff, Prod.mk.injEq] at h
      exact h.2.symm
    | some row =>
      rw [hrow] at h
      simp only [bind_ok_iff, pure_ok_iff, Prod.mk.injEq] at h
      obtain ⟨_, -, -, rfl⟩ := h
      rfl
  · simp only [Prod.mk.injEq] at h
    exact h.2.symm

/-- A call that is refused before the transaction, or throws in it. -/
theorem guarded_error {α : Type} {c : Bool} {body : Except ClaimError (α × ClaimStore)} {x : α} {e : ClaimError}
    (h : (if c then s.transaction body else (.ok x, s)) = (.error e, s')) : Keeps s s' := by
  split at h
  · exact .same (transaction_error h).1 (transaction_error h).2
  · simp at h

theorem reply_error {α β : Type} {x : Except ClaimError α × ClaimStore} {f : α → β} {e : ClaimError}
    (h : (f <$> x.1, x.2) = (.error e, s')) : x = (.error e, s') := by
  obtain ⟨r, s1⟩ := x
  cases r with
  | ok a => simp [Functor.map, Except.map] at h
  | error err => simpa [Functor.map, Except.map] using h

/-- A call that throws changes no row. -/
theorem perform_error {call : ClaimCall} {e : ClaimError} (h : s.perform ttl call = (.error e, s')) : Keeps s s' := by
  cases call with
  | claim nodeId authorityId now =>
    have hclaim := claim_error (reply_error h)
    exact .same hclaim.1 hclaim.2
  | lookup nodeId =>
    have hlookup := reply_error h
    exact guarded_error hlookup
  | release nodeId authorityId generation =>
    have hrelease := reply_error h
    exact guarded_error hrelease
  | renew nodeId authorityId generation now =>
    have hrenew := reply_error h
    exact guarded_error hrenew
  | reapExpired now =>
    have hreap := reply_error h
    exact guarded_error hreap
  | reopen =>
    have hreopen : s.reopen = (.error e, s') := reply_error h
    unfold reopen at hreopen
    exact .same (transaction_error hreopen).1 (transaction_error hreopen).2

theorem reply_ok {α β : Type} {x : Except ClaimError α × ClaimStore} {f : α → β} {b : β}
    (h : (f <$> x.1, x.2) = (.ok b, s')) : ∃ a, x = (.ok a, s') ∧ b = f a := by
  obtain ⟨r, s1⟩ := x
  cases r with
  | ok a =>
    simp only [Functor.map, Except.map, Prod.mk.injEq, Except.ok.injEq] at h
    obtain ⟨rfl, rfl⟩ := h
    exact ⟨a, rfl, rfl⟩
  | error err => simp [Functor.map, Except.map] at h

/-- **What a call does**: it grants, or keeps what is there. -/
theorem perform_effect {call : ClaimCall} {r : Except ClaimError ClaimReply} (h : s.perform ttl call = (r, s')) :
    Effect ttl s call r s' := by
  cases r with
  | error e => exact .kept (perform_error h) (fun _ => by simp) (fun hr => absurd hr (by simp))
  | ok reply =>
    cases call with
    | claim nodeId authorityId now =>
      obtain ⟨c, hclaim, rfl⟩ := reply_ok h
      exact .granted (claim_ok hclaim).2
    | lookup nodeId =>
      obtain ⟨c, hlookup, rfl⟩ := reply_ok h
      obtain rfl := lookup_ok hlookup
      exact .kept (.same rfl rfl) (fun _ => by simp) (fun hr => absurd hr (by simp))
    | release nodeId authorityId generation =>
      obtain ⟨b, hrelease, rfl⟩ := reply_ok h
      obtain ⟨hkeeps, hheld⟩ := release_ok hrelease
      refine .kept hkeeps (fun _ => by simp) (fun hr => ⟨_, rfl, hheld ?_⟩)
      simpa using hr
    | renew nodeId authorityId generation now =>
      obtain ⟨b, hrenew, rfl⟩ := reply_ok h
      obtain ⟨hkeeps, hheld⟩ := renew_ok hrenew
      refine .kept hkeeps (fun _ => by simp) (fun hr => ⟨_, rfl, hheld ?_⟩)
      simpa using hr
    | reapExpired now =>
      obtain ⟨nodes, hreap, rfl⟩ := reply_ok h
      exact .kept (reapExpired_ok hreap) (fun _ => by simp) (fun hr => absurd hr (by simp))
    | reopen =>
      obtain ⟨_, hreopen, rfl⟩ : ∃ a, s.reopen = (.ok a, s') ∧ reply = .reopened := reply_ok h
      unfold reopen at hreopen
      obtain ⟨-, hbody⟩ := transaction_ok.mp hreopen
      simp only [map_ok_iff, Prod.mk.injEq] at hbody
      obtain ⟨_, -, -, rfl⟩ := hbody
      exact .kept (.same rfl rfl) (fun _ => by simp) (fun hr => absurd hr (by simp))

theorem last_put {nodeId : String} {g : Int} (hk : Table.Keyed SeqRow.node_id s.seq)
    (h : s'.seq = Table.put SeqRow.node_id ⟨nodeId, g⟩ s.seq) (node : String) :
    s'.last node = if node = nodeId then some g else s.last node := by
  unfold last
  rw [h, Table.lookup_put hk]
  split <;> rfl

/-! The calls themselves, as the gateways make them. -/

/-- A release that throws keeps what is there as well; so do the other calls but `claim`. -/
theorem release_keeps {nodeId authorityId : String} {generation : Int} :
    Keeps s (s.release nodeId authorityId generation).2 := by
  generalize hr : s.release nodeId authorityId generation = x
  obtain ⟨r, s1⟩ := x
  cases r with
  | ok b => exact (release_ok hr).1
  | error e =>
    unfold release at hr
    exact guarded_error hr

/-- A release takes no row away but one that has the token. -/
theorem release_spares {nodeId authorityId : String} {generation : Int} {row : ClaimRow} (hrow : row ∈ s.claims)
    (hother : holds nodeId authorityId generation row = false) :
    row ∈ (s.release nodeId authorityId generation).2.claims := by
  unfold release
  split
  · unfold transaction
    split
    · exact hrow
    · exact List.mem_filter.mpr ⟨hrow, by rw [hother]; rfl⟩
  · exact hrow

theorem renew_keeps {nodeId authorityId : String} {generation now : Int} :
    Keeps s (s.renew ttl nodeId authorityId generation now).2 := by
  generalize hr : s.renew ttl nodeId authorityId generation now = x
  obtain ⟨r, s1⟩ := x
  cases r with
  | ok b => exact (renew_ok hr).1
  | error e =>
    unfold renew at hr
    exact guarded_error hr

theorem reapExpired_keeps {now : Int} : Keeps s (s.reapExpired now).2 := by
  generalize hr : s.reapExpired now = x
  obtain ⟨r, s1⟩ := x
  cases r with
  | ok nodes => exact reapExpired_ok hr
  | error e =>
    unfold reapExpired at hr
    exact guarded_error hr

theorem lookup_keeps {nodeId : String} : Keeps s (s.lookup nodeId).2 := by
  generalize hr : s.lookup nodeId = x
  obtain ⟨r, s1⟩ := x
  cases r with
  | ok c => exact .same (by rw [lookup_ok hr]) (by rw [lookup_ok hr])
  | error e =>
    unfold lookup at hr
    exact guarded_error hr

/-- What `lookup` finds is an active row, named up to its first NUL. -/
theorem lookup_found {nodeId : String} {c : Claim} (h : s.lookup nodeId = (.ok (some c), s')) :
    ∃ row ∈ s.claims, row.node_id = nodeId ∧ Node.columnText row.authority_id = c.authorityId ∧
      row.generation = c.generation := by
  unfold lookup at h
  split at h
  · obtain ⟨-, h⟩ := transaction_ok.mp h
    cases hrow : Table.lookup ClaimRow.node_id nodeId s.claims with
    | none =>
      rw [hrow] at h
      simp at h
    | some row =>
      rw [hrow] at h
      simp only [bind_ok_iff, pure_ok_iff, Prod.mk.injEq] at h
      obtain ⟨c', hload, hc, -⟩ := h
      obtain rfl := Option.some.inj hc
      simp only [load, bind_ok_iff, pure_ok_iff] at hload
      obtain ⟨_, -, _, -, rfl⟩ := hload
      exact ⟨row, Table.lookup_some_mem hrow, Table.lookup_some_key hrow, rfl, rfl⟩
  · simp at h

/-- One row a node in each table, and an active claim is the last one of its node. -/
structure Sound (s : ClaimStore) : Prop where
  seqKeyed : Table.Keyed SeqRow.node_id s.seq
  claimsKeyed : Table.Keyed ClaimRow.node_id s.claims
  current : ∀ t ∈ s.claims.map token, s.last t.1 = some t.2

theorem Sound.empty : empty.Sound where
  seqKeyed := .nil
  claimsKeyed := .nil
  current t h := absurd h (by simp [ClaimStore.empty])

/-- A grant raises the counter of its node, and of no other. -/
theorem Grants.last {nodeId authorityId : String} {now : Int} {c : Claim} (h : Grants ttl s nodeId authorityId now c s')
    (hs : s.Sound) (node : String) : s'.last node = if node = nodeId then some c.generation else s.last node :=
  last_put hs.seqKeyed h.seq node

/-- The counters stay. -/
theorem Keeps.last (h : Keeps s s') (node : String) : s'.last node = s.last node := by
  unfold ClaimStore.last
  rw [h.seq]

/-- After a grant the new row is within its counter. -/
theorem Sound.granted {nodeId authorityId : String} {now : Int} {c : Claim} (hs : s.Sound)
    (h : Grants ttl s nodeId authorityId now c s') : s'.Sound := by
  refine ⟨?_, ?_, fun t ht => ?_⟩
  · rw [h.seq]
    exact hs.seqKeyed.put
  · rw [h.claims]
    exact hs.claimsKeyed.put
  · rw [h.claims] at ht
    obtain ⟨row, hrow, rfl⟩ := List.mem_map.mp ht
    rw [h.last hs]
    rcases Table.mem_put.mp hrow with rfl | ⟨hrow, hne⟩
    · exact if_pos rfl
    · rw [if_neg (by exact hne)]
      exact hs.current _ (List.mem_map_of_mem hrow)

/-- Rows that stay are within theirs. -/
theorem Sound.kept (hs : s.Sound) (h : Keeps s s') : s'.Sound := by
  have hnodes : ∀ s : ClaimStore, s.claims.map ClaimRow.node_id = (s.claims.map token).map Prod.fst := by
    intro s
    rw [List.map_map]
    rfl
  refine ⟨?_, ?_, fun t ht => ?_⟩
  · rw [h.seq]
    exact hs.seqKeyed
  · have hkeyed := hs.claimsKeyed
    unfold Table.Keyed at hkeyed ⊢
    rw [hnodes] at hkeyed ⊢
    exact hkeyed.sublist (h.tokens.map _)
  · rw [h.last]
    exact hs.current t (h.tokens.subset ht)

end

end ClaimStore

/-! ## Both under the same calls -/

/-- The two implementations. -/
structure Implementations where
  registry : LocalClaimRegistry
  store : ClaimStore

/-- Valid ids, and clock readings that are safe integers. -/
def Admissible : ClaimCall → Prop
  | .claim nodeId authorityId now => isUuid nodeId = true ∧ authorityId ≠ "" ∧ Json.isSafe now = true
  | .lookup nodeId => isUuid nodeId = true
  | .release nodeId authorityId _ => isUuid nodeId = true ∧ authorityId ≠ ""
  | .renew nodeId authorityId _ now => isUuid nodeId = true ∧ authorityId ≠ "" ∧ Json.isSafe now = true
  | .reapExpired now => Json.isSafe now = true
  | .reopen => True

def claimSystem (ttl : Int) : System Implementations ClaimCall where
  init p := p = ⟨.empty, .empty⟩
  step p call p' := Admissible call ∧ p' = ⟨(p.registry.perform ttl call).2, (p.store.perform ttl call).2⟩

/-- The generations the store has issued for a node, latest first. -/
def issued (ttl : Int) (node : String) (hist : List (Entry Implementations ClaimCall)) : List Int :=
  hist.filterMap fun x =>
    match (x.pre.store.perform ttl x.label).1 with
    | .ok (.claimed c) => if c.nodeId = node then some c.generation else none
    | _ => none

/-- What the store's tables know of the generations issued. -/
structure Ledger (ttl : Int) (hist : List (Entry Implementations ClaimCall)) (s : ClaimStore) : Prop where
  sound : s.Sound
  latest : ∀ node, (issued ttl node hist).head? = s.last node
  rising : ∀ node, (issued ttl node hist).Pairwise (· > ·)
  positive : ∀ node, ∀ g ∈ issued ttl node hist, 0 < g

section

variable {ttl : Int} {hist : List (Entry Implementations ClaimCall)} {p p' : Implementations}

theorem Ledger.empty : Ledger ttl [] ClaimStore.empty where
  sound := .empty
  latest _ := rfl
  rising _ := .nil
  positive _ g h := absurd h (by simp [issued])

/-- A call that grants nothing to the node leaves its generations. -/
theorem issued_cons {node : String} {x : Entry Implementations ClaimCall}
    (h : ∀ c, (x.pre.store.perform ttl x.label).1 = .ok (.claimed c) → c.nodeId ≠ node) :
    issued ttl node (x :: hist) = issued ttl node hist := by
  unfold issued
  rw [List.filterMap_cons]
  split
  · rfl
  · rename_i heq
    split at heq
    · rename_i c hc
      rw [if_neg (h c hc)] at heq
      exact absurd heq (by simp)
    · exact absurd heq (by simp)

/-- A grant is the latest of them. -/
theorem issued_claimed {x : Entry Implementations ClaimCall} {c : Claim}
    (h : (x.pre.store.perform ttl x.label).1 = .ok (.claimed c)) :
    issued ttl c.nodeId (x :: hist) = c.generation :: issued ttl c.nodeId hist := by
  unfold issued
  rw [List.filterMap_cons, h]
  simp

/-- A granted claim has a generation above all that were issued. -/
theorem Ledger.granted {x : Entry Implementations ClaimCall} {nodeId authorityId : String} {now : Int} {c : Claim}
    {s' : ClaimStore} (h : Ledger ttl hist x.pre.store)
    (hgrants : ClaimStore.Grants ttl x.pre.store nodeId authorityId now c s')
    (hclaimed : (x.pre.store.perform ttl x.label).1 = .ok (.claimed c)) : Ledger ttl (x :: hist) s' := by
  have hnode : c.nodeId = nodeId := by rw [hgrants.granted]
  have hgeneration : c.generation = (x.pre.store.last nodeId).getD 0 + 1 := by rw [hgrants.granted]
  have hlast := hgrants.last h.sound
  have hother : ∀ node, node ≠ nodeId → issued ttl node (x :: hist) = issued ttl node hist := by
    intro node hne
    refine issued_cons fun c' hc' => ?_
    rw [hclaimed] at hc'
    obtain rfl : c = c' := by simpa using hc'
    rw [hnode]
    exact fun h => hne h.symm
  have hself : issued ttl nodeId (x :: hist) = c.generation :: issued ttl nodeId hist := by
    rw [← hnode]
    exact issued_claimed hclaimed
  -- the head of what was issued is the last generation, and the rest is below it
  have habove : ∀ g ∈ issued ttl nodeId hist, g < c.generation := by
    intro g hg
    have hrising := h.rising nodeId
    have hlatest := h.latest nodeId
    cases hissued : issued ttl nodeId hist with
    | nil => rw [hissued] at hg; exact absurd hg (by simp)
    | cons top rest =>
      rw [hissued] at hg hrising hlatest
      rw [hgeneration, ← hlatest]
      simp only [List.head?_cons, Option.getD_some]
      rcases List.mem_cons.mp hg with rfl | hg
      · omega
      · have := (List.pairwise_cons.mp hrising).1 g hg
        omega
  refine ⟨h.sound.granted hgrants, ?_, ?_, ?_⟩
  · intro node
    rw [hlast]
    by_cases hne : node = nodeId
    · subst hne
      rw [hself, if_pos rfl]
      rfl
    · rw [hother node hne, if_neg hne]
      exact h.latest node
  · intro node
    by_cases hne : node = nodeId
    · subst hne
      rw [hself]
      exact List.pairwise_cons.mpr ⟨fun g hg => habove g hg, h.rising node⟩
    · rw [hother node hne]
      exact h.rising node
  · intro node g hg
    by_cases hne : node = nodeId
    · subst hne
      rw [hself] at hg
      rcases List.mem_cons.mp hg with rfl | hg
      · have hlatest := h.latest node
        cases hissued : issued ttl node hist with
        | nil =>
          rw [hissued] at hlatest
          rw [hgeneration, ← hlatest]
          simp
        | cons top rest =>
          have := h.positive node top (by rw [hissued]; exact List.mem_cons_self)
          rw [hissued] at hlatest
          rw [hgeneration, ← hlatest]
          simp only [List.head?_cons, Option.getD_some]
          omega
      · exact h.positive node g hg
    · rw [hother node hne] at hg
      exact h.positive node g hg

/-- The account of generations over a call that grants nothing. -/
theorem Ledger.kept {x : Entry Implementations ClaimCall} {s' : ClaimStore} (h : Ledger ttl hist x.pre.store)
    (hkeeps : ClaimStore.Keeps x.pre.store s')
    (hclaimed : ∀ c, (x.pre.store.perform ttl x.label).1 ≠ .ok (.claimed c)) : Ledger ttl (x :: hist) s' := by
  have hissued : ∀ node, issued ttl node (x :: hist) = issued ttl node hist :=
    fun node => issued_cons fun c hc => absurd hc (hclaimed c)
  refine ⟨h.sound.kept hkeeps, fun node => ?_, fun node => ?_, fun node => ?_⟩
  · rw [hissued, hkeeps.last]
    exact h.latest node
  · rw [hissued]
    exact h.rising node
  · rw [hissued]
    exact h.positive node

/-- **The store's ledger is right after every run**, whatever threw in it. -/
theorem run_ledger (run : Run (claimSystem ttl) hist p) : Ledger ttl hist p.store := by
  refine run.history (P := fun hist p => Ledger ttl hist p.store) ?_ ?_
  · rintro p rfl
    exact .empty
  · rintro past x - - ⟨-, hpost⟩ h
    have heffect := ClaimStore.perform_effect (Prod.mk.eta (p := x.pre.store.perform ttl x.label)).symm
    rw [hpost]
    generalize hr : (x.pre.store.perform ttl x.label).1 = r at heffect
    generalize hs : (x.pre.store.perform ttl x.label).2 = s' at heffect ⊢
    generalize hl : x.label = call at heffect
    cases heffect with
    | granted hgrants => exact h.granted hgrants hr
    | kept hkeeps hclaimed => exact h.kept hkeeps fun c hc => hclaimed c (hr.symm.trans hc)

/-- A claim row as the registry of one process holds it. -/
def ClaimRow.claim (row : ClaimRow) : Claim :=
  { nodeId := row.node_id, authorityId := row.authority_id, generation := row.generation,
    leaseExpiresAt := row.lease_expires_at }

/-- The store holds what the registry holds, and can read it. -/
structure Paired (p : Implementations) : Prop where
  healthy : p.store.faulted = false
  loads : ∀ row ∈ p.store.claims, ClaimStore.load row = .ok row.claim
  same : p.registry.claims = p.store.claims.map ClaimRow.claim
  marks : ∀ node, p.registry.highWater node = (p.store.last node).getD 0

/-- The calls on which the two do the same: a claim or a renewal at a time the store admits, with a lease that
    ends at such a time and, for a renewal, not before the claim was made; a claim of an authority whose name
    has no NUL, while generations are left; a reap at a time the store admits, or of nothing. -/
def Regular (ttl : Int) (p : Implementations) : ClaimCall → Prop
  | .claim nodeId authorityId now => (∀ c ∈ authorityId.toList, c.val ≠ 0) ∧ validTime now = true ∧
      validTime (now + ttl) = true ∧ p.registry.highWater nodeId < Json.maxSafe
  | .renew nodeId authorityId generation now => ∀ row ∈ p.store.claims,
      ClaimStore.holds nodeId authorityId generation row = true →
        validTime now = true ∧ validTime (now + ttl) = true ∧ row.claimed_at ≤ now + ttl
  | .reapExpired now => validTime now = true ∨ p.registry.claims = []
  | _ => True

/-- A row is readable exactly where its columns are what was written, and pass their checks. -/
theorem load_eq {row : ClaimRow} : ClaimStore.load row = .ok row.claim ↔
    Node.columnText row.authority_id = row.authority_id ∧ row.authority_id ≠ "" ∧ isUuid row.node_id = true ∧
      Json.isPositive row.generation = true ∧ validTime row.claimed_at = true ∧
      validTime row.lease_expires_at = true ∧ row.claimed_at ≤ row.lease_expires_at := by
  simp only [ClaimStore.load, bind_ok_iff, require_ok_iff, pure_ok_iff, ClaimRow.claim, Claim.mk.injEq,
    Bool.and_eq_true, decide_eq_true_eq, true_and, and_true]
  constructor
  · rintro ⟨_, -, _, ⟨⟨⟨⟨⟨hid, hne⟩, hpos⟩, hat⟩, hlease⟩, hle⟩, htext⟩
    exact ⟨htext, htext ▸ hne, hid, hpos, hat, hlease, hle⟩
  · rintro ⟨htext, hne, hid, hpos, hat, hlease, hle⟩
    refine ⟨⟨⟩, ⟨⟨?_, ?_⟩, ?_⟩, ⟨⟩, ⟨⟨⟨⟨⟨hid, ?_⟩, hpos⟩, hat⟩, hlease⟩, hle⟩, htext⟩
    · rw [Json.isPositive_iff] at hpos
      rw [Json.isSafe_iff]
      unfold Json.maxSafe at *
      omega
    · rw [validTime_iff] at hat
      rw [Json.isSafe_iff]
      unfold Json.maxSafe
      omega
    · rw [validTime_iff] at hlease
      rw [Json.isSafe_iff]
      unfold Json.maxSafe
      omega
    · rw [htext]
      exact hne

/-- A counter is not negative: it begins at nothing. -/
theorem Ledger.last_nonneg {s : ClaimStore} (h : Ledger ttl hist s) (node : String) : 0 ≤ (s.last node).getD 0 := by
  rw [← h.latest]
  cases hissued : issued ttl node hist with
  | nil => simp
  | cons g rest =>
    have := h.positive node g (by rw [hissued]; exact List.mem_cons_self)
    simp only [List.head?_cons, Option.getD_some]
    omega

/-- The rows a fenced statement picks: the row of the node, when it has the token. -/
theorem filter_holds {s : ClaimStore} (hk : Table.Keyed ClaimRow.node_id s.claims) (nodeId authorityId : String)
    (generation : Int) : s.claims.filter (ClaimStore.holds nodeId authorityId generation)
      = ((Table.lookup ClaimRow.node_id nodeId s.claims).filter fun row =>
          row.authority_id = authorityId && row.generation = generation).toList := by
  have hsplit : s.claims.filter (ClaimStore.holds nodeId authorityId generation)
      = (s.claims.filter fun row => row.node_id = nodeId).filter fun row =>
          row.authority_id = authorityId && row.generation = generation := by
    rw [List.filter_filter]
    congr 1
    funext row
    simp [ClaimStore.holds, Bool.and_comm, Bool.and_left_comm]
  rw [hsplit, Table.filter_key hk]
  cases Table.lookup ClaimRow.node_id nodeId s.claims with
  | none => rfl
  | some row =>
    simp only [Option.toList_some, Option.filter, List.filter_cons, List.filter_nil]
    split <;> rfl

/-- Both find the same claim of a node. -/
theorem Paired.lookup (h : Paired p) (nodeId : String) :
    p.registry.lookup nodeId = (Table.lookup ClaimRow.node_id nodeId p.store.claims).map ClaimRow.claim := by
  unfold LocalClaimRegistry.lookup
  rw [h.same]
  exact Table.lookup_map fun _ => rfl

/-- A transaction over healthy storage that returns. -/
theorem transaction_of {α : Type} {s s' : ClaimStore} {a : α} {body : Except ClaimError (α × ClaimStore)}
    (hs : s.faulted = false) (hbody : body = .ok (a, s')) : s.transaction body = (.ok a, s') :=
  ClaimStore.transaction_ok.mpr ⟨hs, hbody⟩

/-- Both grant the same claim. -/
theorem Paired.claims (h : Paired p) (hl : Ledger ttl hist p.store) {nodeId authorityId : String} {now : Int}
    (hadm : Admissible (.claim nodeId authorityId now)) (hreg : Regular ttl p (.claim nodeId authorityId now))
    (httl : 0 < ttl) : ∃ s', p.store.claim ttl nodeId authorityId now
        = (.ok (p.registry.claim ttl nodeId authorityId now).1, s') ∧
      Paired ⟨(p.registry.claim ttl nodeId authorityId now).2, s'⟩ := by
  obtain ⟨hid, hauthority, -⟩ := hadm
  obtain ⟨hnul, hnow, hlease, hleft⟩ := hreg
  have hnonneg := hl.last_nonneg nodeId
  have hmark := h.marks nodeId
  rw [hmark] at hleft
  -- both number the claim one above the last generation of the node
  have hgeneration : successor (p.registry.highWater nodeId) = (p.store.last nodeId).getD 0 + 1 := by
    rw [hmark, successor, if_pos (by omega)]
  have hpositive : Json.isPositive ((p.store.last nodeId).getD 0 + 1) = true := by
    rw [Json.isPositive_iff]
    omega
  generalize hg : (p.store.last nodeId).getD 0 + 1 = g at hgeneration hpositive
  have hle : now ≤ now + ttl := by omega
  -- the store grants it: within `Regular` no check of its columns can refuse the row
  have hok : ∃ c s', p.store.claim ttl nodeId authorityId now = (.ok c, s') := by
    have hsafe : Json.isSafe g = true := by
      rw [Json.isPositive_iff] at hpositive
      rw [Json.isSafe_iff]
      unfold Json.maxSafe at *
      omega
    unfold ClaimStore.claim
    rw [if_pos (by simp [hid, hauthority, hnow])]
    refine ⟨⟨nodeId, authorityId, g, now + ttl⟩, { (p.store.bump nodeId).2 with
      claims := (Table.put ClaimRow.node_id ⟨nodeId, authorityId, g, now, now + ttl⟩ p.store.claims) },
      transaction_of h.healthy ?_⟩
    simp only [ClaimStore.bump_fst, hg, hsafe, hpositive, hle, decide_true, bind_ok_iff, require_ok_iff,
      pure_ok_iff, Prod.mk.injEq, true_and]
    exact ⟨⟨⟩, ⟨⟩, ⟨⟩, rfl⟩
  obtain ⟨c, s', hclaim⟩ := hok
  obtain ⟨-, hgrants⟩ := ClaimStore.claim_ok hclaim
  have hc : c = ⟨nodeId, authorityId, g, now + ttl⟩ := by rw [hgrants.granted, hg]
  subst hc
  -- what it wrote is what the registry holds, row by row and mark by mark
  refine ⟨s', ?_, hgrants.faulted.trans h.healthy, ?_, ?_, ?_⟩
  · rw [hclaim]
    simp only [LocalClaimRegistry.claim, hgeneration]
  · intro row hrow
    rw [hgrants.claims] at hrow
    rcases Table.mem_put.mp hrow with rfl | ⟨hrow, -⟩
    · exact load_eq.mpr ⟨Node.columnText_of_noNul hnul, hauthority, hid, hpositive, hnow, hlease, hle⟩
    · exact h.loads row hrow
  · rw [hgrants.claims, @Table.map_put _ _ _ ClaimRow.node_id _ Claim.nodeId ClaimRow.claim fun _ => rfl]
    simp only [LocalClaimRegistry.claim, hgeneration, h.same]
    rfl
  · intro node
    rw [hgrants.last hl.sound]
    simp only [LocalClaimRegistry.claim, Function.update_apply, hgeneration]
    split
    · rfl
    · exact h.marks node

/-- Whether the registry's fence lets a call through. -/
theorem Paired.held (h : Paired p) (hl : Ledger ttl hist p.store) (nodeId authorityId : String) (generation : Int) :
    ((p.store.claims.filter (ClaimStore.holds nodeId authorityId generation)).length = 1 ↔
      ∃ current, p.registry.lookup nodeId = some current ∧ current.authorityId = authorityId ∧
        current.generation = generation) ∧
    (∀ row ∈ p.store.claims, ClaimStore.holds nodeId authorityId generation row = true ↔
      row.node_id = nodeId ∧ (p.store.claims.filter (ClaimStore.holds nodeId authorityId generation)).length = 1) := by
  rw [filter_holds hl.sound.claimsKeyed, h.lookup]
  cases hrow : Table.lookup ClaimRow.node_id nodeId p.store.claims with
  | none =>
    refine ⟨by simp, fun row hmem => ?_⟩
    rw [Table.lookup_none_iff] at hrow
    simp [ClaimStore.holds, hrow row hmem]
  | some known =>
    constructor
    · by_cases hmatch : known.authority_id = authorityId ∧ known.generation = generation
      · simp [hmatch, ClaimRow.claim]
      · simp [hmatch, ClaimRow.claim]
    · intro row hmem
      constructor
      · intro hholds
        simp only [ClaimStore.holds, Bool.and_eq_true, decide_eq_true_eq] at hholds
        have hsame : row = known := by
          have := (Table.lookup_iff_mem hl.sound.claimsKeyed).mpr ⟨hmem, hholds.1.1⟩
          rw [hrow] at this
          exact (Option.some.inj this).symm
        subst hsame
        refine ⟨hholds.1.1, ?_⟩
        simp [hholds.1.2, hholds.2]
      · rintro ⟨hnode, hlength⟩
        have hsame : row = known := by
          have := (Table.lookup_iff_mem hl.sound.claimsKeyed).mpr ⟨hmem, hnode⟩
          rw [hrow] at this
          exact (Option.some.inj this).symm
        subst hsame
        by_cases hmatch : row.authority_id = authorityId ∧ row.generation = generation
        · simp [ClaimStore.holds, hnode, hmatch]
        · exfalso
          revert hlength
          simp [Option.filter, hmatch]

/-- Both release, or both do not. -/
theorem Paired.releases (h : Paired p) (hl : Ledger ttl hist p.store) {nodeId authorityId : String} {generation : Int}
    (hid : isUuid nodeId = true) : ∃ s', p.store.release nodeId authorityId generation
        = (.ok (p.registry.release nodeId authorityId generation).1, s') ∧
      Paired ⟨(p.registry.release nodeId authorityId generation).2, s'⟩ := by
  obtain ⟨hlength, hholds⟩ := h.held hl nodeId authorityId generation
  -- the DELETE hits a row exactly where the registry finds the holder
  by_cases hheld : (p.store.claims.filter (ClaimStore.holds nodeId authorityId generation)).length = 1
  · obtain ⟨current, hcurrent, hmatch⟩ := hlength.mp hheld
    have hpositive : Json.isPositive generation = true := by
      rw [h.lookup, Option.map_eq_some_iff] at hcurrent
      obtain ⟨row, hrow, rfl⟩ := hcurrent
      rw [← hmatch.2]
      exact (load_eq.mp (h.loads row (Table.lookup_some_mem hrow))).2.2.2.1
    have hregistry : p.registry.release nodeId authorityId generation
        = (true, { p.registry with claims := Table.remove Claim.nodeId nodeId p.registry.claims }) := by
      unfold LocalClaimRegistry.release
      rw [hcurrent]
      exact if_pos hmatch
    rw [hregistry]
    unfold ClaimStore.release
    rw [if_pos (by simp [hid, hpositive])]
    refine ⟨{ p.store with
      claims := (p.store.claims.filter fun row => !ClaimStore.holds nodeId authorityId generation row) },
      transaction_of h.healthy (by rw [hheld]; rfl), h.healthy, ?_, ?_, h.marks⟩
    · intro row hrow
      exact h.loads row (List.mem_of_mem_filter hrow)
    -- a node has one claim, so deleting the held row is removing the node
    -- nothing was held, and the filter keeps every row
    · have hrest : (p.store.claims.filter fun row => !ClaimStore.holds nodeId authorityId generation row)
          = Table.remove ClaimRow.node_id nodeId p.store.claims := by
        unfold Table.remove
        apply List.filter_congr
        intro row hrow
        have hiff : ClaimStore.holds nodeId authorityId generation row = decide (row.node_id = nodeId) := by
          rw [Bool.eq_iff_iff, hholds row hrow, decide_eq_true_eq]
          exact and_iff_left hheld
        simp [hiff]
      simp only [hrest, h.same, Table.remove, List.filter_map]
      rfl
  · have hregistry : p.registry.release nodeId authorityId generation = (false, p.registry) := by
      unfold LocalClaimRegistry.release
      cases hcurrent : p.registry.lookup nodeId with
      | none => rfl
      | some current => exact if_neg fun hmatch => hheld (hlength.mpr ⟨current, hcurrent, hmatch⟩)
    rw [hregistry]
    unfold ClaimStore.release
    split
    · refine ⟨{ p.store with
        claims := (p.store.claims.filter fun row => !ClaimStore.holds nodeId authorityId generation row) },
        transaction_of h.healthy (by simp only [hheld, decide_false]), h.healthy, ?_, ?_, h.marks⟩
      · intro row hrow
        exact h.loads row (List.mem_of_mem_filter hrow)
      · have hrest : (p.store.claims.filter fun row => !ClaimStore.holds nodeId authorityId generation row)
            = p.store.claims := by
          rw [List.filter_eq_self]
          intro row hrow
          have := hholds row hrow
          simp [hheld] at this
          simp [this]
        rw [hrest]
        exact h.same
    · exact ⟨_, rfl, h⟩

/-- Both renew, or both do not; `Regular` keeps the store's CHECK from refusing. -/
theorem Paired.renews (h : Paired p) (hl : Ledger ttl hist p.store) {nodeId authorityId : String}
    {generation now : Int} (hid : isUuid nodeId = true)
    (hreg : Regular ttl p (.renew nodeId authorityId generation now)) :
    ∃ s', p.store.renew ttl nodeId authorityId generation now
        = (.ok (p.registry.renew ttl nodeId authorityId generation now).1, s') ∧
      Paired ⟨(p.registry.renew ttl nodeId authorityId generation now).2, s'⟩ := by
  obtain ⟨hlength, hholds⟩ := h.held hl nodeId authorityId generation
  by_cases hheld : (p.store.claims.filter (ClaimStore.holds nodeId authorityId generation)).length = 1
  · obtain ⟨current, hcurrent, hmatch⟩ := hlength.mp hheld
    have hregistry : p.registry.renew ttl nodeId authorityId generation now = (true, { p.registry with
        claims := Table.put Claim.nodeId { current with leaseExpiresAt := now + ttl } p.registry.claims }) := by
      unfold LocalClaimRegistry.renew
      rw [hcurrent]
      exact if_pos hmatch
    rw [h.lookup, Option.map_eq_some_iff] at hcurrent
    obtain ⟨known, hknown, rfl⟩ := hcurrent
    have hmem := Table.lookup_some_mem hknown
    have hnode := Table.lookup_some_key hknown
    obtain ⟨hnow, hlease, hafter⟩ := hreg known hmem ((hholds known hmem).mpr ⟨hnode, hheld⟩)
    have hknownOk := load_eq.mp (h.loads known hmem)
    have hpositive : Json.isPositive generation = true := by
      rw [← hmatch.2]
      exact hknownOk.2.2.2.1
    -- the one row of the node is the one both of them renew
    have hrows : ∀ row ∈ p.store.claims, row.node_id = nodeId → row = known := by
      intro row hrow hrownode
      have := (Table.lookup_iff_mem hl.sound.claimsKeyed).mpr ⟨hrow, hrownode⟩
      rw [hknown] at this
      exact (Option.some.inj this).symm
    rw [hregistry]
    unfold ClaimStore.renew
    rw [if_pos (by simp [hid, hpositive, hnow])]
    have hcheck : (p.store.claims.all fun row =>
        !ClaimStore.holds nodeId authorityId generation row || decide (row.claimed_at ≤ now + ttl)) = true := by
      rw [List.all_eq_true]
      intro row hrow
      by_cases hrowholds : ClaimStore.holds nodeId authorityId generation row = true
      · obtain rfl := hrows row hrow ((hholds row hrow).mp hrowholds).1
        simp [hafter]
      · simp [hrowholds]
    refine ⟨{ p.store with
      claims := (p.store.claims.map fun row =>
        if ClaimStore.holds nodeId authorityId generation row then { row with lease_expires_at := now + ttl }
        else row) }, transaction_of h.healthy ?_, h.healthy, ?_, ?_, h.marks⟩
    · rw [hcheck, hheld]
      rfl
    · intro row hrow
      obtain ⟨old, hold, rfl⟩ := List.mem_map.mp hrow
      split
      · rename_i holdholds
        obtain rfl := hrows old hold ((hholds old hold).mp holdholds).1
        exact load_eq.mpr ⟨hknownOk.1, hknownOk.2.1, hknownOk.2.2.1, hknownOk.2.2.2.1, hknownOk.2.2.2.2.1, hlease,
          hafter⟩
      · exact h.loads old hold
    · have hput : Table.put Claim.nodeId { known.claim with leaseExpiresAt := now + ttl } p.registry.claims
          = Table.modify Claim.nodeId nodeId (fun _ => { known.claim with leaseExpiresAt := now + ttl })
              p.registry.claims := by
        have hlookup : Table.lookup Claim.nodeId nodeId p.registry.claims = some known.claim := by
          have := h.lookup nodeId
          rw [hknown] at this
          exact this
        unfold Table.put
        simp only [show known.claim.nodeId = nodeId from hnode, hlookup]
      refine hput.trans ?_
      rw [h.same]
      simp only [Table.modify, List.map_map]
      apply List.map_congr_left
      intro row hrow
      simp only [Function.comp]
      by_cases hrownode : row.node_id = nodeId
      · obtain rfl := hrows row hrow hrownode
        rw [if_pos (show row.claim.nodeId = nodeId from hrownode), if_pos ((hholds row hrow).mpr ⟨hrownode, hheld⟩)]
        rfl
      · rw [if_neg (show ¬ row.claim.nodeId = nodeId from hrownode),
          if_neg fun hrowholds => hrownode ((hholds row hrow).mp hrowholds).1]
  · have hregistry : p.registry.renew ttl nodeId authorityId generation now = (false, p.registry) := by
      unfold LocalClaimRegistry.renew
      cases hcurrent : p.registry.lookup nodeId with
      | none => rfl
      | some current => exact if_neg fun hmatch => hheld (hlength.mpr ⟨current, hcurrent, hmatch⟩)
    have hnone : ∀ row ∈ p.store.claims, ClaimStore.holds nodeId authorityId generation row = false := by
      intro row hrow
      have := hholds row hrow
      simpa [hheld] using this
    rw [hregistry]
    unfold ClaimStore.renew
    split
    · have hcheck : (p.store.claims.all fun row =>
          !ClaimStore.holds nodeId authorityId generation row || decide (row.claimed_at ≤ now + ttl)) = true := by
        rw [List.all_eq_true]
        intro row hrow
        simp [hnone row hrow]
      have hrest : (p.store.claims.map fun row => if ClaimStore.holds nodeId authorityId generation row then
          { row with lease_expires_at := now + ttl } else row) = p.store.claims := by
        conv_rhs => rw [← List.map_id p.store.claims]
        apply List.map_congr_left
        intro row hrow
        simp [hnone row hrow]
      refine ⟨p.store, transaction_of h.healthy ?_, h⟩
      rw [hcheck, hrest]
      simp only [hheld, decide_false]
      rfl
    · exact ⟨_, rfl, h⟩

/-- Both reap the same nodes. -/
theorem Paired.reaps (h : Paired p) {now : Int} (hreg : Regular ttl p (.reapExpired now)) :
    ∃ s', p.store.reapExpired now = (.ok (p.registry.reapExpired now).1, s') ∧
      Paired ⟨(p.registry.reapExpired now).2, s'⟩ := by
  unfold ClaimStore.reapExpired
  split
  · refine ⟨{ p.store with claims := (p.store.claims.filter fun row => ¬ row.lease_expires_at ≤ now) },
      transaction_of h.healthy ?_, h.healthy, ?_, ?_, h.marks⟩
    · rw [mapM_ok fun row hrow => h.loads row (List.mem_of_mem_filter hrow)]
      simp only [LocalClaimRegistry.reapExpired, h.same, List.filter_map, List.map_map, bind, Except.bind, pure,
        Except.pure]
      rfl
    · intro row hrow
      exact h.loads row (List.mem_of_mem_filter hrow)
    · simp only [LocalClaimRegistry.reapExpired, h.same, List.filter_map]
      rfl
  · rename_i htime
    rcases hreg with hreg | hreg
    · exact absurd hreg htime
    · have hempty : p.registry.reapExpired now = ([], p.registry) := by
        obtain ⟨⟨claims, marks⟩, store⟩ := p
        subst hreg
        rfl
      rw [hempty]
      exact ⟨p.store, rfl, h⟩

/-- A look answers alike. -/
theorem Paired.looks (h : Paired p) {nodeId : String} (hid : isUuid nodeId = true) :
    p.store.lookup nodeId = (.ok (p.registry.lookup nodeId), p.store) := by
  unfold ClaimStore.lookup
  rw [if_pos hid, h.lookup]
  cases hrow : Table.lookup ClaimRow.node_id nodeId p.store.claims with
  | none => exact transaction_of h.healthy rfl
  | some row =>
    refine transaction_of h.healthy ?_
    dsimp only
    rw [h.loads row (Table.lookup_some_mem hrow)]
    rfl

/-- Opening the store again changes nothing, as every row is readable. -/
theorem Paired.reopens (h : Paired p) (hl : Ledger ttl hist p.store) : p.store.reopen = (.ok ⟨⟩, p.store) := by
  have hsame : { p.store with faulted := false } = p.store := by rw [← h.healthy]
  have hvalid : p.store.validate = .ok ⟨⟩ := by
    refine forM_ok fun row hrow => ?_
    have hload := h.loads row hrow
    have hlast := hl.sound.current _ (List.mem_map_of_mem hrow)
    obtain ⟨mark, hmark, hgeneration⟩ := Option.map_eq_some_iff.mp hlast
    change mark.last_generation = row.generation at hgeneration
    change Table.lookup SeqRow.node_id row.node_id p.store.seq = some mark at hmark
    refine bind_ok_iff.mpr ⟨_, hload, require_ok_iff.mpr ?_⟩
    rw [hmark]
    simp [hgeneration, (load_eq.mp hload).2.2.2.1, ClaimRow.claim]
  unfold ClaimStore.reopen
  rw [hsame]
  refine transaction_of h.healthy ?_
  rw [hvalid]
  rfl

/-- **One call**: both answer the same, the store does not throw, and both hold the same afterwards. -/
theorem Paired.step (h : Paired p) (hl : Ledger ttl hist p.store) (httl : 0 < ttl) {call : ClaimCall}
    (hadm : Admissible call) (hreg : Regular ttl p call) : ∃ s',
    p.store.perform ttl call = (.ok (p.registry.perform ttl call).1, s') ∧
      Paired ⟨(p.registry.perform ttl call).2, s'⟩ := by
  cases call with
  | claim nodeId authorityId now =>
    obtain ⟨s', hclaim, hpaired⟩ := h.claims hl hadm hreg httl
    exact ⟨s', by simp only [ClaimStore.perform, hclaim]; rfl, hpaired⟩
  | lookup nodeId => exact ⟨p.store, by simp only [ClaimStore.perform, h.looks hadm]; rfl, h⟩
  | release nodeId authorityId generation =>
    obtain ⟨s', hrelease, hpaired⟩ := @Paired.releases _ _ _ h hl nodeId authorityId generation hadm.1
    exact ⟨s', by simp only [ClaimStore.perform, hrelease]; rfl, hpaired⟩
  | renew nodeId authorityId generation now =>
    obtain ⟨s', hrenew, hpaired⟩ := h.renews hl hadm.1 hreg
    exact ⟨s', by simp only [ClaimStore.perform, hrenew]; rfl, hpaired⟩
  | reapExpired now =>
    obtain ⟨s', hreap, hpaired⟩ := h.reaps hreg
    exact ⟨s', by simp only [ClaimStore.perform, hreap]; rfl, hpaired⟩
  | reopen => exact ⟨p.store, by simp only [ClaimStore.perform, h.reopens hl]; rfl, h⟩

/-- **In every run** of regular calls the two stay paired. -/
theorem run_paired (httl : 0 < ttl) (run : Run (claimSystem ttl) hist p)
    (hreg : ∀ x ∈ hist, Regular ttl x.pre x.label) : Paired p := by
  refine (run.history (P := fun hist p => Ledger ttl hist p.store ∧ Paired p) ?_ ?_).2
  · rintro p rfl
    refine ⟨.empty, rfl, fun row hrow => absurd hrow (by simp [ClaimStore.empty]), rfl, fun node => rfl⟩
  · rintro past x hx hpast hstep ⟨hl, hp⟩
    obtain ⟨hadm, hpost⟩ := hstep
    obtain ⟨s', hperform, hpaired⟩ := hp.step hl httl hadm (hreg x hx)
    refine ⟨run_ledger (hpast.next ⟨hadm, hpost⟩), ?_⟩
    rw [hpost, hperform]
    exact hpaired

/-- **The claim registries agree and fence.** In every run whose calls are regular: no call throws, both
    implementations give the same answer, the generations issued for a node rise for ever, and a renewal or a
    release succeeds only with the latest of them. -/
theorem claims_agree (httl : 0 < ttl) (run : Run (claimSystem ttl) hist p)
    (hreg : ∀ x ∈ hist, Regular ttl x.pre x.label) :
    (∀ x ∈ hist, (x.pre.store.perform ttl x.label).1 = .ok (x.pre.registry.perform ttl x.label).1) ∧
    (∀ node, (issued ttl node hist).Pairwise (· > ·)) ∧
    ∀ newer x older, hist = newer ++ x :: older → ∀ t, ClaimStore.fences x.label = some t →
      (x.pre.registry.perform ttl x.label).1 = .fenced true → (issued ttl t.1 older).head? = some t.2 := by
  have hsame : ∀ newer x older, hist = newer ++ x :: older →
      (x.pre.store.perform ttl x.label).1 = .ok (x.pre.registry.perform ttl x.label).1 := by
    rintro newer x older rfl
    have hbefore := run.before
    have hpaired := run_paired httl hbefore fun y hy => hreg y (by simp [hy])
    obtain ⟨hadm, -⟩ := run.step_of_mem x (by simp)
    obtain ⟨s', hperform, -⟩ := hpaired.step (run_ledger hbefore) httl hadm (hreg x (by simp))
    rw [hperform]
  refine ⟨fun x hx => ?_, (run_ledger run).rising, ?_⟩
  · obtain ⟨newer, older, rfl⟩ := List.append_of_mem hx
    exact hsame newer x older rfl
  · intro newer x older hsplit t ht hheld
    have hanswer := hsame newer x older hsplit
    subst hsplit
    have hl := run_ledger run.before
    rw [hheld] at hanswer
    -- the store answers `true` to tokens it holds only, and the ledger knows them to be the latest
    have heffect := ClaimStore.perform_effect (Prod.mk.eta (p := x.pre.store.perform ttl x.label)).symm
    rw [hanswer] at heffect
    generalize hs : (x.pre.store.perform ttl x.label).2 = s' at heffect
    generalize hlabel : x.label = call at heffect ht
    cases heffect with
    | kept hkeeps hclaimed hfenced =>
      obtain ⟨t', ht', hmem⟩ := hfenced rfl
      obtain rfl : t = t' := Option.some.inj (ht.symm.trans ht')
      rw [hl.latest]
      exact hl.sound.current t hmem

end

/-! ## A clock that goes back -/

namespace Fenced

def node : String := "11111111-1111-4111-8111-111111111111"

/-- Half a minute. -/
def lease : Int := 30000

/-- One call of the run. -/
def call (p : Implementations) (c : ClaimCall) : ClaimCall × Implementations :=
  (c, ⟨(p.registry.perform lease c).2, (p.store.perform lease c).2⟩)

/-- A claim and its renewal at a time that is further back than the lease is long; latest first. -/
def setBack : List ClaimCall := [.renew node "gw1" 1 1000, .claim node "gw1" 1000000]

/-- A claim, its renewal and a takeover by another authority. -/
def takenOver : List ClaimCall := [.renew node "gw1" 1 1002000, .claim node "gw2" 1001000, .renew node "gw1" 1 999000,
  .claim node "gw1" 1000000]

/-- A list of admissible calls is a run. -/
theorem run_calls {calls : List ClaimCall} (h : ∀ c ∈ calls, Admissible c) :
    Run (claimSystem lease) (play call ⟨.empty, .empty⟩ calls).1 (play call ⟨.empty, .empty⟩ calls).2 := by
  induction calls with
  | nil => exact .start rfl
  | cons c earlier ih =>
    exact .next (ih fun c hc => h c (List.mem_cons_of_mem _ hc)) ⟨h c List.mem_cons_self, rfl⟩

end Fenced

open Fenced in
/-- **A renewal that throws.** The registry of one process renews the claim; the shared store runs into its own
    `CHECK (lease_expires_at >= claimed_at)`. -/
theorem claims_disagree : ∃ hist p, Run (claimSystem lease) hist p ∧ ∃ x ∈ hist,
    (x.pre.registry.perform lease x.label).1 = .fenced true ∧
    (x.pre.store.perform lease x.label).1 = .error .constraint := by
  refine ⟨_, _, @run_calls setBack ?_, _, List.mem_cons_self, by decide, by decide⟩
  intro c hc
  simp only [setBack, List.mem_cons, List.not_mem_nil, or_false] at hc
  rcases hc with rfl | rfl
  · exact ⟨by decide, by decide, by decide⟩
  · exact ⟨by decide, by decide, by decide⟩

open Fenced in
/-- A takeover: the first authority is fenced off, and both implementations say so. -/
theorem claims_agree_takenOver :
    (issued lease node (play call ⟨.empty, .empty⟩ takenOver).1).Pairwise (· > ·) := by
  have hadm : ∀ c ∈ takenOver, Admissible c := by
    intro c hc
    simp only [takenOver, List.mem_cons, List.not_mem_nil, or_false] at hc
    rcases hc with rfl | rfl | rfl | rfl
    all_goals exact ⟨by decide, by decide, by decide⟩
  refine (claims_agree (by decide) (run_calls hadm) ?_).2.1 node
  refine forall_play ?_ (forall_play ?_ (forall_play ?_ (forall_play ?_ fun x hx => absurd hx List.not_mem_nil)))
  · intro row hrow hholds
    revert hholds
    revert row
    decide
  · exact ⟨by simp, by decide, by decide, by decide⟩
  · intro row hrow hholds
    revert hholds
    revert row
    decide
  · exact ⟨by simp, by decide, by decide, by decide⟩

end Gateway
end Qlong
