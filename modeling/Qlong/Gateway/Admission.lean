import Mathlib.Algebra.BigOperators.Group.List.Basic
import Qlong.Gateway.Tickets

/-!
# From the outbox into custody

Three doors of one pipeline: `seal` of `createDurableNode`, the outbox of the node's store, `offer` of the
gateway's custody. Each checks size, nesting, numbers, ids, signature and times for itself, and on all of
these the last door takes what the second took: the budget of `jsonSnapshot` is never spent before the bytes
of the text are, and a time `seal` writes is an absolute one.

They part on the lifetime. `seal` writes an expiry 24 hours after the node's clock, custody refuses one more
than 24 hours after the gateway's: a gateway whose clock is behind the node's refuses what was just sealed.

**`offered_iff`**: the clock of the gateway has to have reached the time of the seal, unless the envelope is
known there already.
-/

namespace Qlong
namespace Gateway

open Lib

/-! ## The budget of a snapshot -/

/-- One value entered: a unit of the budget, and the limit on nesting. -/
def enter (left : Int) (depth : Nat) : Option Int :=
  if left - 1 < 0 ∨ Json.maxDepth < depth then none else some (left - 1)

mutual
/-- `jsonSnapshot`: what is left of the budget once the value is detached. -/
def jsonSnapshot : Json → Int → Nat → Option Int
  | .null, left, depth | .bool _, left, depth => enter left depth
  | .num n, left, depth => do
    let left ← enter left depth
    if Json.isSafe n then some left else none
  | .str s, left, depth => do
    let left ← enter left depth
    if left - utf16Length s < 0 then none else some (left - utf16Length s)
  | .arr items, left, depth => do
    let left ← enter left depth
    if left < items.length then none else snapshotItems items left (depth + 1)
  | .obj fields, left, depth => do
    let left ← enter left depth
    snapshotFields fields left (depth + 1)

def snapshotItems : List Json → Int → Nat → Option Int
  | [], left, _ => some left
  | x :: xs, left, depth => do
    let left ← jsonSnapshot x left depth
    snapshotItems xs left depth

def snapshotFields : List (String × Json) → Int → Nat → Option Int
  | [], left, _ => some left
  | (k, x) :: xs, left, depth => do
    let left ← jsonSnapshot x (left - utf16Length k) depth
    snapshotFields xs left depth
end

mutual
/-- What a snapshot takes from the budget. -/
def cost : Json → Nat
  | .null | .bool _ | .num _ => 1
  | .str s => 1 + utf16Length s
  | .arr items => 1 + itemsCost items
  | .obj fields => 1 + fieldsCost fields

def itemsCost : List Json → Nat
  | [] => 0
  | x :: xs => cost x + itemsCost xs

def fieldsCost : List (String × Json) → Nat
  | [] => 0
  | (k, x) :: xs => utf16Length k + cost x + fieldsCost xs
end

theorem enter_some {left : Int} {depth : Nat} (hleft : 1 ≤ left) (hdepth : depth ≤ Json.maxDepth) :
    enter left depth = some (left - 1) := by
  unfold enter
  rw [if_neg]
  omega

theorem cost_pos (v : Json) : 1 ≤ cost v := by
  cases v
  case null | bool | num => exact Nat.le_refl _
  case str | arr | obj =>
    unfold cost
    exact Nat.le_add_right _ _

/-- A list costs a unit an element at the least, so the check of its length is no further limit. -/
theorem length_le_itemsCost (xs : List Json) : xs.length ≤ itemsCost xs := by
  induction xs with
  | nil => exact Nat.le_refl _
  | cons x xs ih =>
    have hx := cost_pos x
    simp only [itemsCost, List.length_cons]
    omega

mutual
/-- **A value within the limits on nesting, numbers and budget is detached, and its cost spent.** -/
theorem jsonSnapshot_eq : ∀ (v : Json) (left : Int) (depth : Nat), v.visit depth = true → v.safeNumbers = true →
    (cost v : Int) ≤ left → jsonSnapshot v left depth = some (left - cost v)
  | .null, left, depth, hvisit, _, hcost | .bool _, left, depth, hvisit, _, hcost => by
    simp only [Json.visit, decide_eq_true_eq] at hvisit
    simp only [cost] at hcost ⊢
    exact enter_some (by omega) hvisit
  | .num n, left, depth, hvisit, hsafe, hcost => by
    simp only [Json.visit, decide_eq_true_eq] at hvisit
    simp only [Json.safeNumbers] at hsafe
    simp only [cost] at hcost
    have henter : enter left depth = some (left - 1) := enter_some (by omega) hvisit
    simp only [jsonSnapshot, henter, Option.bind_eq_bind, Option.bind_some, hsafe, if_true, cost]
    rfl
  | .str s, left, depth, hvisit, _, hcost => by
    simp only [Json.visit, decide_eq_true_eq] at hvisit
    simp only [cost] at hcost
    have henter : enter left depth = some (left - 1) := enter_some (by omega) hvisit
    simp only [jsonSnapshot, henter, Option.bind_eq_bind, Option.bind_some, cost]
    rw [if_neg (by omega)]
    congr 1
    omega
  | .arr items, left, depth, hvisit, hsafe, hcost => by
    simp only [Json.visit, Bool.and_eq_true, decide_eq_true_eq] at hvisit
    simp only [Json.safeNumbers] at hsafe
    simp only [cost] at hcost
    have hlength := length_le_itemsCost items
    have henter : enter left depth = some (left - 1) := enter_some (by omega) hvisit.1
    simp only [jsonSnapshot, henter, Option.bind_eq_bind, Option.bind_some, cost]
    rw [if_neg (by omega), snapshotItems_eq items (left - 1) (depth + 1) hvisit.2 hsafe (by omega)]
    congr 1
    omega
  | .obj fields, left, depth, hvisit, hsafe, hcost => by
    simp only [Json.visit, Bool.and_eq_true, decide_eq_true_eq] at hvisit
    simp only [Json.safeNumbers] at hsafe
    simp only [cost] at hcost
    have henter : enter left depth = some (left - 1) := enter_some (by omega) hvisit.1
    simp only [jsonSnapshot, henter, Option.bind_eq_bind, Option.bind_some, cost]
    rw [snapshotFields_eq fields (left - 1) (depth + 1) hvisit.2 hsafe (by omega)]
    congr 1
    omega

theorem snapshotItems_eq : ∀ (xs : List Json) (left : Int) (depth : Nat), Json.visitItems xs depth = true →
    Json.safeItems xs = true → (itemsCost xs : Int) ≤ left →
    snapshotItems xs left depth = some (left - itemsCost xs)
  | [], left, _, _, _, _ => by simp [snapshotItems, itemsCost]
  | x :: xs, left, depth, hvisit, hsafe, hcost => by
    simp only [Json.visitItems, Bool.and_eq_true] at hvisit
    simp only [Json.safeItems, Bool.and_eq_true] at hsafe
    simp only [itemsCost] at hcost
    simp only [snapshotItems, jsonSnapshot_eq x left depth hvisit.1 hsafe.1 (by omega), Option.bind_eq_bind,
      Option.bind_some, itemsCost]
    rw [snapshotItems_eq xs (left - cost x) depth hvisit.2 hsafe.2 (by omega)]
    congr 1
    omega

theorem snapshotFields_eq : ∀ (xs : List (String × Json)) (left : Int) (depth : Nat),
    Json.visitFields xs depth = true → Json.safeFields xs = true → (fieldsCost xs : Int) ≤ left →
    snapshotFields xs left depth = some (left - fieldsCost xs)
  | [], left, _, _, _, _ => by simp [snapshotFields, fieldsCost]
  | (k, x) :: xs, left, depth, hvisit, hsafe, hcost => by
    simp only [Json.visitFields, Bool.and_eq_true] at hvisit
    simp only [Json.safeFields, Bool.and_eq_true] at hsafe
    simp only [fieldsCost] at hcost
    simp only [snapshotFields, jsonSnapshot_eq x (left - utf16Length k) depth hvisit.1 hsafe.1 (by omega),
      Option.bind_eq_bind, Option.bind_some, fieldsCost]
    rw [snapshotFields_eq xs (left - utf16Length k - cost x) depth hvisit.2 hsafe.2 (by omega)]
    congr 1
    omega
end

/-! ## The budget and the bytes -/

/-- A character takes no more units than bytes. -/
theorem utf16_le_utf8 (c : Char) : (if c.val < 0x10000 then 1 else 2) ≤ c.utf8Size := by
  split
  · exact Char.utf8Size_pos c
  · rename_i h
    have hfour : c.utf8Size = 4 := Char.utf8Size_eq_four_iff.mpr (by
      rw [UInt32.lt_iff_toNat_lt] at h ⊢
      simp only [UInt32.reduceToNat] at h ⊢
      omega)
    omega

theorem sum_units_le : ∀ cs : List Char,
    (cs.map fun c => if c.val < 0x10000 then 1 else 2).sum ≤ cs.utf8Encode.size
  | [] => Nat.zero_le _
  | c :: cs => by
    have hc := utf16_le_utf8 c
    have hcs := sum_units_le cs
    have hsize : [c].utf8Encode.size = c.utf8Size := by
      rw [← String.toByteArray_singleton, String.size_toByteArray, String.utf8ByteSize_singleton]
    rw [List.utf8Encode_cons, ByteArray.size_append, hsize, List.map_cons, List.sum_cons]
    exact Nat.add_le_add hc hcs

theorem textBytes_pos (b : UInt8) : 1 ≤ Json.textBytes b := by
  unfold Json.textBytes
  split
  · decide
  · split
    · decide
    · split <;> decide

theorem utf16Length_lt (s : String) : utf16Length s + 2 ≤ Json.stringBytes s := by
  have hunits := sum_units_le s.toList
  have hbytes : s.toByteArray.data.toList.length ≤ (s.toByteArray.data.toList.map Json.textBytes).sum := by
    refine le_trans (le_of_eq ?_) (List.length_le_sum_of_one_le _ ?_)
    · exact (List.length_map _).symm
    · intro n hn
      obtain ⟨b, -, rfl⟩ := List.mem_map.mp hn
      exact textBytes_pos b
  have hsize : s.toList.utf8Encode.size = s.toByteArray.data.toList.length := by
    rw [← String.toByteArray_ofList, String.ofList_toList]
    rfl
  unfold utf16Length Json.stringBytes
  omega

mutual
/-- **The budget is never spent before the bytes are.** -/
theorem cost_le_byteLength : ∀ v : Json, cost v ≤ v.byteLength
  | .null => by decide
  | .bool b => by cases b <;> decide
  | .num n => by
    have hdigits : 0 < (Nat.toDigits 10 n.natAbs).length := Nat.length_toDigits_pos
    simp only [cost, Json.byteLength, Json.intBytes]
    omega
  | .str s => by
    have hs := utf16Length_lt s
    simp only [cost, Json.byteLength]
    omega
  | .arr items => by
    have hitems := itemsCost_le items
    simp only [cost, Json.byteLength]
    omega
  | .obj fields => by
    have hfields := fieldsCost_le fields
    simp only [cost, Json.byteLength]
    omega

theorem itemsCost_le : ∀ xs : List Json, itemsCost xs ≤ Json.itemsBytes xs
  | [] => Nat.le_refl _
  | x :: xs => by
    have hx := cost_le_byteLength x
    have hxs := itemsCost_le xs
    simp only [itemsCost, Json.itemsBytes]
    omega

theorem fieldsCost_le : ∀ xs : List (String × Json), fieldsCost xs ≤ Json.fieldsBytes xs
  | [] => Nat.le_refl _
  | (k, x) :: xs => by
    have hk := utf16Length_lt k
    have hx := cost_le_byteLength x
    have hxs := fieldsCost_le xs
    simp only [fieldsCost, Json.fieldsBytes]
    omega
end

/-! ## The three doors -/

/-- `encodeCustody`: the snapshot, then the checks of its text. -/
def encodeCustody (host : Host) (e : Json) : Option Encoded :=
  match jsonSnapshot e Node.maxTransportBytes 0 with
  | some _ => Custody.encode host e
  | none => none

/-- The snapshot refuses nothing that the checks after it let through. -/
theorem encodeCustody_eq (host : Host) (e : Json) : encodeCustody host e = Custody.encode host e := by
  unfold encodeCustody
  cases hencode : Custody.encode host e with
  | none => split <;> rfl
  | some encoded =>
    obtain ⟨⟨hvisit, hbytes, hwell, -, -⟩, -⟩ := Custody.encode_eq.mp hencode
    have hcost := cost_le_byteLength e
    rw [jsonSnapshot_eq e Node.maxTransportBytes 0 hvisit hwell.numbers (by omega)]

/-- What `Date` documents of the texts `toISOString` writes: one that is an RFC 3339 time (its year has four
    digits) is a date of the calendar, and `Date.parse` answers the instant it was written for. -/
structure Calendar (host : Host) : Prop where
  reads : ∀ t, isRfc3339Text (host.toISOString t) = true →
    isAbsoluteText (host.toISOString t) = true ∧ validTime t = true ∧ host.dateParse (host.toISOString t) = some t

/-- A node and the gateway it posts to, on platforms that agree on digests and dates. -/
structure Pipeline where
  me : Identity
  store : Node.Config
  custody : CustodyConfig
  host_eq : custody.host = store.host
  calendar : Calendar store.host

/-- The gateway can encode an envelope, and does not answer that it is invalid. -/
def Admits (cfg : CustodyConfig) (rows : List CustodyRow) (e : Json) (now : Int) : Prop :=
  (encodeCustody cfg.host e).isSome = true ∧ ∀ rows', Custody.offer cfg rows e now ≠ .ok (.invalid, rows')

/-- The identity of an envelope stands in custody. -/
def Known (rows : List CustodyRow) (e : Json) : Prop :=
  ∃ row ∈ rows, row.key = (Env.fromNode e, Env.msgId e)

section

variable {line : Pipeline} {stamp : Stamp} {out : Outbound} {e : Json} {t t' : Node.Tables} {attempts lastAt : Int}
  {rows : List CustodyRow} {now : Int}

/-- The texts `seal` writes for its two times. -/
theorem sealed_times {host : Host} {me : Identity} {p : QlongParams}
    (hseal : sealEnvelope host me p stamp out = .ok e) :
    e.get "ts" = some (.str (host.toISOString stamp.now)) ∧
      e.get "exp" = some (.str (host.toISOString (stamp.now + p.expHorizonMs))) := by
  obtain ⟨-, rfl⟩ := sealEnvelope_ok_iff.mp hseal
  rw [get_signEnvelope (by decide), get_signEnvelope (by decide)]
  constructor <;> simp [unsigned, Json.get_object_cons]

theorem Calendar.absoluteTime_eq {host : Host} (hcal : Calendar host) {time : Int}
    (h : isRfc3339Text (host.toISOString time) = true) :
    absoluteTime host (some (.str (host.toISOString time))) = some time := by
  obtain ⟨htext, hvalid, hparse⟩ := hcal.reads time h
  simp only [absoluteTime, htext, if_true, hparse, Option.filter_some, hvalid]

/-- **What the outbox takes, custody can encode**: with the expiry `seal` wrote. -/
theorem sealed_encodes (hseal : sealEnvelope line.store.host line.me defaultParams stamp out = .ok e)
    (hsave : Node.save line.store t e attempts lastAt = .ok t') :
    Custody.encode line.custody.host e = some ⟨e, e.byteLength, line.custody.host.digest e,
      stamp.now + defaultParams.expHorizonMs⟩ := by
  simp only [Node.save, bind_ok_iff] at hsave
  obtain ⟨_, hentry, -⟩ := hsave
  obtain ⟨digest, hdigest, -⟩ := Node.saveEntry_cases hentry
  obtain ⟨hheight, hbytes, hwell, hsigned, -⟩ := Node.encode_ok_iff.mp hdigest
  obtain ⟨hts, hexp⟩ := sealed_times hseal
  have htsText : isRfc3339Text (line.store.host.toISOString stamp.now) = true := by
    have h := hwell.ts
    rw [hts] at h
    exact (Bool.and_eq_true_iff.mp h).1
  have hexpText : isRfc3339Text (line.store.host.toISOString (stamp.now + defaultParams.expHorizonMs)) = true := by
    have h := hwell.exp
    rw [checkExp, hexp] at h
    exact (Bool.and_eq_true_iff.mp (check_eq_nil.mp h)).1
  rw [line.host_eq, Custody.encode_eq]
  refine ⟨⟨?_, hbytes, hwell, hsigned, ?_⟩, _, ?_, rfl⟩
  · rw [Json.visit_iff]
    omega
  · rw [hts, line.calendar.absoluteTime_eq htsText]
    rfl
  · rw [hexp, line.calendar.absoluteTime_eq hexpText]

/-- What `offer` looks up. -/
theorem unknown_iff : Table.lookup CustodyRow.key (Env.fromNode e, Env.msgId e) rows = none ↔ ¬ Known rows e := by
  rw [Table.lookup_none_iff]
  unfold Known
  push Not
  rfl

/-- What custody answers before the expiry: never invalid for an identity it has, and for a new one exactly
    when too much of the lifetime is left. -/
theorem offer_invalid_iff {cfg : CustodyConfig} {encoded : Encoded} (hencode : Custody.encode cfg.host e = some encoded)
    (hvalid : validTime now = true) (hlate : now < encoded.expires) :
    (∃ rows', Custody.offer cfg rows e now = .ok (.invalid, rows')) ↔
      ¬ Known rows e ∧ maxTransportLifetimeMs < encoded.expires - now := by
  obtain ⟨-, expires, -, hencoded⟩ := Custody.encode_eq.mp hencode
  have henvelope : encoded.envelope = e := by rw [hencoded]
  unfold Custody.offer
  rw [hencode]
  dsimp only
  rw [if_pos hvalid]
  unfold Custody.offerInTransaction
  rw [henvelope]
  constructor
  · rintro ⟨rows', h⟩
    simp only [bind_ok_iff] at h
    obtain ⟨found, hfound, h⟩ := h
    obtain rfl := Custody.find_ok hfound
    cases hlookup : Table.lookup CustodyRow.key (Env.fromNode e, Env.msgId e) rows with
    | some existing =>
      -- a known identity is stored or in conflict
      rw [hlookup] at h
      simp only [pure_ok_iff, Prod.mk.injEq] at h
      split at h <;> exact absurd h.1 (by simp)
    | none =>
      refine ⟨unknown_iff.mp hlookup, ?_⟩
      rw [hlookup] at h
      dsimp only at h
      rw [if_neg (by omega)] at h
      split at h
      · assumption
      · -- within the lifetime the answer is that it is stored, or that there is no room
        simp only [bind_ok_iff] at h
        obtain ⟨_, -, -, -, h⟩ := h
        split at h <;> simp [pure_ok_iff] at h
  · intro h
    obtain ⟨hunknown, hlong⟩ := h
    have hfind : Custody.find cfg rows (Env.fromNode e) (Env.msgId e) = .ok none := by
      unfold Custody.find
      rw [unknown_iff.mpr hunknown]
    refine ⟨rows, ?_⟩
    rw [hfind]
    show (if encoded.expires ≤ now then _ else _) = _
    rw [if_neg (by omega), if_pos hlong]
    rfl

/-- **A fresh envelope enters custody when the gateway's clock has reached the time of its seal**, and not
    before, whatever the two clocks may differ by. -/
theorem offered_iff (hseal : sealEnvelope line.store.host line.me defaultParams stamp out = .ok e)
    (hsave : Node.save line.store t e attempts lastAt = .ok t') (hvalid : validTime now = true)
    (hlate : now < stamp.now + defaultParams.expHorizonMs) :
    Admits line.custody rows e now ↔ stamp.now ≤ now ∨ Known rows e := by
  have hencode := sealed_encodes hseal hsave
  have hinvalid := @offer_invalid_iff e rows now line.custody _ hencode hvalid hlate
  dsimp only at hinvalid
  unfold Admits
  rw [encodeCustody_eq, hencode]
  simp only [Option.isSome_some, true_and]
  rw [← not_exists, hinvalid]
  -- the horizon of the default parameters is the longest lifetime custody takes
  have hhorizon : defaultParams.expHorizonMs = maxTransportLifetimeMs := rfl
  rw [hhorizon]
  constructor
  · intro h
    by_cases hknown : Known rows e
    · exact Or.inr hknown
    · refine Or.inl (not_lt.mp fun hbehind => h ⟨hknown, ?_⟩)
      omega
  · intro h hrefused
    cases h with
    | inl hreached => exact absurd hrefused.2 (by omega)
    | inr hknown => exact hrefused.1 hknown

end

/-! ## A gateway one millisecond behind -/

namespace Midnight

/-- The platform of both: the calendar of two days, no text for other instants. -/
def lineHost : Host :=
  { Host.ofTables [] Sample.calendar with
    toISOString := fun n => ((Sample.calendar.find? fun d => d.2 = n).map Prod.fst).getD "" }

theorem lineHost_calendar : Calendar lineHost where
  reads := by
    intro t htext
    have hall : ∀ d ∈ Sample.calendar,
        isAbsoluteText d.1 = true ∧ validTime d.2 = true ∧ lineHost.dateParse d.1 = some d.2 := by
      decide +kernel
    have htoISO : lineHost.toISOString t = ((Sample.calendar.find? fun d => d.2 = t).map Prod.fst).getD "" := rfl
    cases hfind : Sample.calendar.find? fun d => d.2 = t with
    | none =>
      rw [htoISO, hfind] at htext
      exact absurd htext (by decide)
    | some d =>
      have htime : d.2 = t := by simpa using List.find?_some hfind
      rw [htoISO, hfind, ← htime]
      exact hall d (List.mem_of_find?_eq_some hfind)

def line : Pipeline where
  me := Sample.identityA
  store := ⟨lineHost, Sample.nodeA, 10000, 67108864, none, Sample.nodeA_uuid, Sample.entries_ok, Sample.bytes_ok⟩
  custody := ⟨lineHost, 10000, 67108864, 1000, none, Sample.entries_ok, Sample.bytes_ok, Sample.perNode_ok⟩
  host_eq := rfl
  calendar := lineHost_calendar

def offered : Outbound := ⟨"task.offer", Sample.nodeB, some Sample.task, some 1, none, .obj []⟩

def midnight : Stamp := ⟨Sample.now, Sample.msg 1, Sample.task⟩

/-- The letter sealed at midnight. -/
def letter : Json := signEnvelope lineHost (unsigned lineHost line.me defaultParams midnight offered)

theorem letter_sealed : sealEnvelope line.store.host line.me defaultParams midnight offered = .ok letter :=
  sealEnvelope_ok_iff.mpr ⟨validateEnvelope_ok_iff.mp (by decide +kernel), rfl⟩

/-- The tables of the node with the letter in its outbox. -/
def posted : Node.Tables :=
  { Node.Tables.empty with
    delivery := [⟨Sample.nodeA, Sample.msg 1, lineHost.digest letter, .pending, none⟩]
    outbox := [⟨Sample.nodeA, Sample.msg 1, letter, 0, 0⟩] }

theorem letter_saved : Node.save line.store .empty letter 0 0 = .ok posted := by rfl

end Midnight

open Midnight in
/-- At midnight, on a gateway whose clock agrees. -/
theorem offered_at_midnight : Admits line.custody [] letter Sample.now :=
  (offered_iff letter_sealed letter_saved (by decide) (by decide)).mpr (Or.inl (le_refl _))

open Midnight in
/-- A gateway one millisecond behind answers that the letter is invalid. -/
theorem behind_refuses :
    sealEnvelope line.store.host line.me defaultParams midnight offered = .ok letter ∧
    Node.save line.store .empty letter 0 0 = .ok posted ∧
    midnight.now - (midnight.now - 1) ≤ defaultParams.expDriftBudgetMs ∧
    midnight.now - 1 < midnight.now + defaultParams.expHorizonMs ∧
    Custody.offer line.custody [] letter (midnight.now - 1) = .ok (.invalid, []) :=
  ⟨letter_sealed, letter_saved, by decide, by decide, by rfl⟩

end Gateway
end Qlong
