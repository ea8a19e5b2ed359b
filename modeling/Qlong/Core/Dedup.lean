import Qlong.Core.Envelope
import Qlong.Lib.Recent

/-!
# The dedup store

`packages/core/src/dedup.ts`: a message of a task is told by `(task_id, attempt, type)`, and a second one of the
same key within the retention is a duplicate, or a mismatch where its body is another. A progress is never looked
up.

The text key of the source, `task:attempt:type`, tells the three apart for the envelopes that come this far: a
task id is a uuid and a type is a dotted word.

Bodies aside, the store is a `Recent` of such keys: `recent_check` and `check_first_iff`.
-/

namespace Qlong

open Lib

/-- `dedupRetentionMs(kind, p)`. -/
def dedupRetentionMs (kind : TaskKind) (p : QlongParams) : Int :=
  max (defaultOfferTtlMs kind p) (defaultLeaseMs kind p) * p.maxAttempts + p.drainMs

namespace Dedup

/-- What tells a message: its task, its attempt and its type. -/
structure Key where
  task_id : String
  attempt : Int
  type : String
deriving DecidableEq, Repr

/-- What is remembered of a message: the digest of its body, and when it was first seen. -/
structure DedupEntry where
  key : Key
  bodyHash : String
  recordedAtMs : Int
deriving DecidableEq, Repr

/-- The answers of a check. -/
inductive DedupVerdict where
  | first
  | duplicate
  | mismatch
deriving DecidableEq, Repr

/-- The entries in the order they were recorded. -/
structure DedupStore where
  retentionMs : Int
  map : List DedupEntry
deriving DecidableEq, Repr

def create (retentionMs : Int) : DedupStore := ⟨retentionMs, []⟩

/-- Every check first forgets what is older than the retention. -/
def evict (s : DedupStore) (now : Int) : DedupStore :=
  { s with map := s.map.filter fun e => !decide (s.retentionMs < now - e.recordedAtMs) }

/-- Looks the key up and remembers it where it is new. A message seen before keeps the time of its first sight,
    so a repetition does not make it live longer. -/
def checkAndRecord (host : Host) (s : DedupStore) (k : Key) (body : Json) (now : Int) : DedupStore × DedupVerdict :=
  if k.type = "task.progress" then (s, .first)
  else
    let s := evict s now
    match s.map.find? fun e => e.key = k with
    | none => ({ s with map := s.map ++ [⟨k, host.digest body, now⟩] }, .first)
    -- a mismatch leaves the first body on record
    | some prev => (s, if prev.bodyHash = host.digest body then .duplicate else .mismatch)

/-! ## The keys alone -/

/-- The keys of a store with the times they were recorded at. -/
def DedupStore.recent (s : DedupStore) : Recent Key := ⟨s.retentionMs, s.map.map fun e => (e.key, e.recordedAtMs)⟩

section

variable {host : Host} {s : DedupStore} {k : Key} {body : Json} {now : Int}

/-- The keys are forgotten by the same rule. -/
theorem recent_evict : (evict s now).recent = s.recent.evict now := by
  unfold DedupStore.recent evict Recent.evict
  dsimp only
  rw [List.filter_map]
  congr 2
  apply List.filter_congr
  intro e _
  show (!decide (s.retentionMs < now - e.recordedAtMs)) = decide (now - e.recordedAtMs ≤ s.retentionMs)
  rw [← decide_not]
  exact decide_eq_decide.mpr not_lt

theorem takenSince_recent : s.recent.takenSince k now =
    ((evict s now).map.find? fun e => e.key = k).map DedupEntry.recordedAtMs := by
  unfold Recent.takenSince
  rw [← recent_evict]
  unfold DedupStore.recent
  dsimp only
  rw [List.find?_map, Option.map_map]
  rfl

/-- **What a check records** is what the keys alone would. -/
theorem recent_check (h : k.type ≠ "task.progress") :
    (checkAndRecord host s k body now).1.recent = s.recent.arrive k now := by
  unfold checkAndRecord Recent.arrive
  rw [if_neg h, takenSince_recent]
  dsimp only
  cases hfound : (evict s now).map.find? fun e => e.key = k with
  | some prev => exact recent_evict
  | none =>
    show DedupStore.recent _ = _
    rw [← recent_evict]
    simp [DedupStore.recent, evict]

/-- A key is first where it is free. -/
theorem check_first_iff (h : k.type ≠ "task.progress") :
    (checkAndRecord host s k body now).2 = .first ↔ s.recent.takenSince k now = none := by
  unfold checkAndRecord
  rw [if_neg h, takenSince_recent]
  dsimp only
  cases (evict s now).map.find? fun e => e.key = k with
  | some prev =>
    dsimp only
    split <;> simp
  | none => simp

end

end Dedup
end Qlong
