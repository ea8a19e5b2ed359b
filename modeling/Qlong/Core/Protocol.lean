import Qlong.Core.Json

/-!
# The protocol's constants and small predicates

`packages/core/src/{ids,params,reason-codes,lease}.ts`: identifiers, the default parameter
table, the reason-code registers and the business-lease contract. Nothing here reads a clock
or keeps state; both state machines and the stores import it.

Times and counters are integers. The source computes with doubles, which agree with integers
up to `maxSafe`; a sum beyond it is only ever compared or refused, and the checks that refuse
it do so for the rounded value as well.
-/

namespace Qlong

/-! ## Identifiers -/

/-- The bytes of a text as characters. The grammars below are ASCII, and a byte of a longer
    UTF-8 sequence becomes a character none of them has. -/
def ascii (s : String) : List Char := s.toByteArray.data.toList.map Char.ofUInt8

def isLowerHex (c : Char) : Bool := ('0' ≤ c && c ≤ '9') || ('a' ≤ c && c ≤ 'f')

def isHex (c : Char) : Bool := isLowerHex c || ('A' ≤ c && c ≤ 'F')

/-- Groups of hexadecimal digits of the given lengths, separated by `-`. -/
def hexGroups : List Nat → List Char → Bool
  | [], _ => false
  | [n], cs => decide (cs.length = n) && cs.all isHex
  | n :: rest, cs =>
    decide ((cs.take n).length = n) && (cs.take n).all isHex &&
      (match cs.drop n with
        | '-' :: tail => hexGroups rest tail
        | _ => false)

/-- `UUID_RE.test(s)`. -/
def isUuid (s : String) : Bool := hexGroups [8, 4, 4, 4, 12] (ascii s)

theorem hexGroups_chars : ∀ {groups : List Nat} {cs : List Char}, hexGroups groups cs = true →
    ∀ c ∈ cs, isHex c = true ∨ c = '-' := by
  intro groups
  induction groups with
  | nil => intro cs h; exact absurd h (by simp [hexGroups])
  | cons n rest ih =>
    intro cs h c hc
    cases rest with
    | nil =>
      simp only [hexGroups, Bool.and_eq_true, List.all_eq_true] at h
      exact Or.inl (h.2 c hc)
    | cons n' rest =>
      simp only [hexGroups, Bool.and_eq_true, List.all_eq_true] at h
      obtain ⟨⟨-, htake⟩, hdrop⟩ := h
      rw [← List.take_append_drop n cs, List.mem_append] at hc
      rcases hc with hc | hc
      · exact Or.inl (htake c hc)
      · split at hdrop
        · rename_i tail heq
          rw [heq, List.mem_cons] at hc
          rcases hc with rfl | hc
          · exact Or.inr rfl
          · exact ih hdrop c hc
        · exact absurd hdrop (by simp)

/-- A text has the NULs its bytes have. -/
theorem noNul_of_ascii {s : String} (h : Char.ofUInt8 0 ∉ ascii s) : ∀ c ∈ s.toList, c.val ≠ 0 := by
  intro c hc hnul
  have hchar : c = Char.ofNat 0 := Char.ext hnul
  subst hchar
  have hbyte : (0 : UInt8) ∈ s.toByteArray.data.toList := by
    rw [← String.utf8Encode_toList, List.utf8Encode]
    simp only [List.data_toByteArray, List.mem_flatMap]
    exact ⟨_, hc, by decide⟩
  exact h (List.mem_map_of_mem hbyte)

theorem noNul_of_isUuid {s : String} (h : isUuid s = true) : ∀ c ∈ s.toList, c.val ≠ 0 := by
  apply noNul_of_ascii
  intro hnul
  have := hexGroups_chars h (Char.ofUInt8 0) hnul
  revert this
  decide

/-- `isUuid(v)` of a field: the value must be there and be a string. -/
def isUuidField (v : Option Json) : Bool :=
  match v with
  | some (.str s) => isUuid s
  | _ => false

theorem isUuidField_iff {v : Option Json} :
    isUuidField v = true ↔ ∃ s, v = some (.str s) ∧ isUuid s = true := by
  unfold isUuidField
  split
  · simp
  · rename_i h
    simp only [Bool.false_eq_true, false_iff]
    rintro ⟨s, hs, -⟩
    exact h s hs

/-- `/^[0-9a-f]{64}$/.test(s)`. -/
def isDigest (s : String) : Bool := decide ((ascii s).length = 64) && (ascii s).all isLowerHex

theorem noNul_of_isDigest {s : String} (h : isDigest s = true) : ∀ c ∈ s.toList, c.val ≠ 0 := by
  apply noNul_of_ascii
  intro hnul
  simp only [isDigest, Bool.and_eq_true, List.all_eq_true] at h
  have := h.2 (Char.ofUInt8 0) hnul
  revert this
  decide

/-- The characters `String.prototype.trim` strips. -/
def isTrimmed (c : Char) : Bool :=
  decide (c.val ∈ [9, 10, 11, 12, 13, 32, 0xA0, 0x1680, 0x2028, 0x2029, 0x202F, 0x205F, 0x3000,
    0xFEFF]) || decide (0x2000 ≤ c.val ∧ c.val ≤ 0x200A)

/-- `s.trim().length > 0`. -/
def hasText (s : String) : Bool := s.toList.any fun c => !isTrimmed c

/-! ## Parameters -/

inductive TaskKind where
  | aid
  | project
deriving DecidableEq, Repr

/-- `QlongParams`. -/
structure QlongParams where
  offerTtlMsProject : Int
  offerTtlMsAid : Int
  leaseMsProject : Int
  leaseMsAid : Int
  graceMs : Int
  drainMs : Int
  cancelWaitMs : Int
  expDriftBudgetMs : Int
  expHorizonMs : Int
  maxAttempts : Int
  maxDispatchRounds : Int
  maxHops : Int
  maxBodyInlineBytes : Int
deriving DecidableEq, Repr

/-- `DEFAULT_PARAMS`. -/
def defaultParams : QlongParams where
  offerTtlMsProject := 60000
  offerTtlMsAid := 10000
  leaseMsProject := 300000
  leaseMsAid := 120000
  graceMs := 30000
  drainMs := 30000
  cancelWaitMs := 30000
  expDriftBudgetMs := 10 * 60 * 1000
  expHorizonMs := 24 * 60 * 60 * 1000
  maxAttempts := 3
  maxDispatchRounds := 3
  maxHops := 8
  maxBodyInlineBytes := 256 * 1024

def defaultOfferTtlMs (kind : TaskKind) (p : QlongParams) : Int :=
  match kind with
  | .aid => p.offerTtlMsAid
  | .project => p.offerTtlMsProject

def defaultLeaseMs (kind : TaskKind) (p : QlongParams) : Int :=
  match kind with
  | .aid => p.leaseMsAid
  | .project => p.leaseMsProject

/-- The heartbeat interval: a third of the lease. -/
def heartbeatIntervalMs (leaseMs : Int) : Int := leaseMs / 3

/-- How long after the last sign of life the lead calls a run lost. -/
def lostAfterMs (leaseMs : Int) (p : QlongParams) : Int := 2 * heartbeatIntervalMs leaseMs + p.graceMs

/-- `assertLeaseInvariant` does not throw. -/
def leaseInvariant (leaseMs : Int) (p : QlongParams) : Bool :=
  decide (p.graceMs ≤ leaseMs - 2 * heartbeatIntervalMs leaseMs)

/-! ## Reason codes -/

def rejectCodes : List String :=
  ["busy", "policy_denied", "unsupported_caps", "unsupported_version", "unsupported_type", "expired",
    "refused_loop", "stale_attempt", "other"]

def failCodes : List String :=
  ["deadline_exceeded", "caps_missing", "payload_unavailable", "payload_corrupt", "internal_error",
    "cancelled_by_peer", "other"]

/-- An unregistered code counts as `other`; it is never an error. -/
def normalizeCode (codes : List String) (raw : String) : String :=
  if raw ∈ codes then raw else "other"

def normalizeRejectCode (raw : String) : String := normalizeCode rejectCodes raw

def normalizeFailCode (raw : String) : String := normalizeCode failCodes raw

/-! ## The business lease -/

/-- The run a lease belongs to. -/
structure LeaseFence where
  task_id : String
  attempt : Int
  generation : Int
  run_id : String
deriving DecidableEq, Repr

def isLeaseFence (f : LeaseFence) : Bool :=
  isUuid f.task_id && Json.isPositive f.attempt && Json.isPositive f.generation && isUuid f.run_id

/-- A renewal body: shape only. `deadline_ms` may be any number. -/
def isLeaseRenewalBody (v : Json) : Bool :=
  v.isRecord && Json.positive (v.get "generation") && isUuidField (v.get "run_id") &&
    isUuidField (v.get "progress_msg_id") && Json.positive (v.get "progress_seq") &&
    Json.positive (v.get "renewal_seq") && (v.getNum "deadline_ms").isSome

/-- What a renewal is compared with. -/
structure RenewalContext where
  fence : LeaseFence
  progressMsgId : String
  progressSeq : Int
  lastRenewalSeq : Int
  now : Int
  maxLeaseMs : Int
  currentDeadlineMs : Int

/-- `canApplyLeaseRenewal`: the body answers the pending progress of this very run, its
    sequence number is new, and the deadline it grants lies between now and now plus the
    accepted lease. A lease that has run out is not revived. -/
def canApplyLeaseRenewal (body : Json) (c : RenewalContext) : Bool :=
  isLeaseRenewalBody body && isLeaseFence c.fence &&
  isUuid c.progressMsgId && Json.isPositive c.progressSeq &&
  Json.isNonnegative c.lastRenewalSeq && decide (0 < c.maxLeaseMs) &&
  decide (body.getNum "generation" = some c.fence.generation) &&
  decide (body.getStr "run_id" = some c.fence.run_id) &&
  decide (body.getStr "progress_msg_id" = some c.progressMsgId) &&
  decide (body.getNum "progress_seq" = some c.progressSeq) &&
  (match body.getNum "renewal_seq", body.getNum "deadline_ms" with
    | some seq, some deadline =>
      decide (c.lastRenewalSeq < seq) && decide (c.now < c.currentDeadlineMs) &&
        decide (c.now < deadline) && decide (deadline ≤ c.now + c.maxLeaseMs)
    | _, _ => false)

end Qlong
