import Mathlib.Data.List.Basic
import Mathlib.Tactic.Ring

/-!
# JSON data

Everything the node exchanges and persists is JSON data: envelopes, offer bodies, the state
snapshots in `node_state`, the payloads of effects. A JavaScript property that is
`undefined` is a *missing* field here (`get` answers `none`), and an object is the list of
its own enumerable fields; which order they were written in means nothing, and nothing below
reads it.

Numbers are integers. Fractions and non-finite numbers never get past
`assertNoFloats` (envelopes) or `protocolJson` (persisted offers), and every numeric field the
modelled code computes with is first tested by `Number.isSafeInteger`.

`height` is the nesting the depth limits are about: `visit v d`, the recursion of
`packages/node/src/runtime/store.ts`, refuses `v` exactly when `d + height v` exceeds 64
(`visit_iff`).
-/

namespace Qlong

/-- JSON data. -/
inductive Json where
  | null
  | bool (b : Bool)
  | num (n : Int)
  | str (s : String)
  | arr (items : List Json)
  | obj (fields : List (String × Json))

namespace Json

/-! ## Equality is decidable -/

mutual
/-- Structural equality test. -/
def same : Json → Json → Bool
  | .null, .null => true
  | .bool a, .bool b => a == b
  | .num a, .num b => a == b
  | .str a, .str b => a == b
  | .arr a, .arr b => sameItems a b
  | .obj a, .obj b => sameFields a b
  | _, _ => false

def sameItems : List Json → List Json → Bool
  | [], [] => true
  | x :: xs, y :: ys => same x y && sameItems xs ys
  | _, _ => false

def sameFields : List (String × Json) → List (String × Json) → Bool
  | [], [] => true
  | (k, x) :: xs, (l, y) :: ys => k == l && same x y && sameFields xs ys
  | _, _ => false
end

mutual
/-- The comparison decides equality, which makes values usable as keys and in `decide`. -/
theorem same_iff : ∀ a b : Json, same a b = true ↔ a = b
  | .null, b => by cases b <;> simp [same]
  | .bool a, b => by cases b <;> simp [same]
  | .num a, b => by cases b <;> simp [same]
  | .str a, b => by cases b <;> simp [same]
  | .arr a, b => by cases b <;> simp [same, sameItems_iff]
  | .obj a, b => by cases b <;> simp [same, sameFields_iff]

theorem sameItems_iff : ∀ a b : List Json, sameItems a b = true ↔ a = b
  | [], b => by cases b <;> simp [sameItems]
  | x :: xs, b => by cases b <;> simp [sameItems, same_iff, sameItems_iff]

theorem sameFields_iff : ∀ a b : List (String × Json), sameFields a b = true ↔ a = b
  | [], b => by cases b <;> simp [sameFields]
  | (k, x) :: xs, b => by
    rcases b with _ | ⟨⟨l, y⟩, ys⟩ <;> simp [sameFields, same_iff, sameFields_iff]
end

instance : DecidableEq Json := fun a b => decidable_of_iff (same a b = true) (same_iff a b)

/-! ## Reading a value -/

/-- `v[name]`; `none` is JavaScript's `undefined`. -/
def get (v : Json) (name : String) : Option Json :=
  match v with
  | .obj fields => (fields.find? fun f => f.1 = name).map Prod.snd
  | _ => none

/-- `typeof v === 'object' && v !== null && !Array.isArray(v)`. -/
def isRecord : Json → Bool
  | .obj _ => true
  | _ => false

def isArray : Json → Bool
  | .arr _ => true
  | _ => false

def asStr : Json → Option String
  | .str s => some s
  | _ => none

def asNum : Json → Option Int
  | .num n => some n
  | _ => none

def asBool : Json → Option Bool
  | .bool b => some b
  | _ => none

def asArr : Json → Option (List Json)
  | .arr items => some items
  | _ => none

def asObj : Json → Option (List (String × Json))
  | .obj fields => some fields
  | _ => none

/-- The string at a field, if there is one and it is a string. -/
def getStr (v : Json) (name : String) : Option String := (v.get name).bind asStr

/-- The number at a field, if there is one and it is a number. -/
def getNum (v : Json) (name : String) : Option Int := (v.get name).bind asNum

/-- An object literal in which a property whose value is `undefined` is left out. -/
def object (fields : List (String × Option Json)) : Json :=
  .obj (fields.filterMap fun f => f.2.map (f.1, ·))

/-- `{ ...v, name: x }`. -/
def set (v : Json) (name : String) (x : Json) : Json :=
  match v with
  | .obj fields => .obj (fields.filter (fun f => f.1 ≠ name) ++ [(name, x)])
  | v => v

/-- The field lookup of an object literal: read the first entry of that name. Literals never
    repeat a name, so this is the whole story. -/
theorem get_object_cons {name k : String} {x : Option Json} {fields : List (String × Option Json)} :
    (object ((k, x) :: fields)).get name
      = if k = name then x.or ((object fields).get name) else (object fields).get name := by
  cases x with
  | none => by_cases h : k = name <;> simp [object, h]
  | some x => by_cases h : k = name <;> simp [object, get, h]

@[simp] theorem get_object_nil {name : String} : (object []).get name = none := rfl

/-- What `object` makes is a record, whatever fields are absent. -/
@[simp] theorem isRecord_object {fields : List (String × Option Json)} :
    (object fields).isRecord = true := rfl

/-- A field that was written is read back. -/
theorem get_set_self {v x : Json} {name : String} (h : v.isRecord = true) :
    (v.set name x).get name = some x := by
  cases v with
  | obj fields =>
    have : (fields.filter fun f => f.1 ≠ name).find? (fun f => f.1 = name) = none := by
      rw [List.find?_eq_none]
      intro f hf
      simpa using (List.mem_filter.mp hf).2
    simp only [set, get, List.find?_append, this, Option.none_or]
    simp
  | _ => exact absurd h (by simp [isRecord])

/-- Writing one field leaves the others alone. -/
theorem get_set_other {v x : Json} {name other : String} (h : other ≠ name) :
    (v.set name x).get other = v.get other := by
  cases v with
  | obj fields =>
    simp only [set, get, List.find?_append, List.find?_filter]
    have hx : [(name, x)].find? (fun f => decide (f.1 = other)) = none := by
      simp [Ne.symm h]
    rw [hx, Option.or_none]
    congr 2
    funext f
    by_cases hf : f.1 = other <;> simp [hf, h]
  | _ => rfl

@[simp] theorem isRecord_set {v x : Json} {name : String} :
    (v.set name x).isRecord = v.isRecord := by cases v <;> rfl

/-! ## Safe integers -/

/-- `Number.MAX_SAFE_INTEGER`. -/
def maxSafe : Int := 9007199254740991

/-- `Number.isSafeInteger` of an integer. -/
def isSafe (n : Int) : Bool := decide (-maxSafe ≤ n ∧ n ≤ maxSafe)

theorem isSafe_iff {n : Int} : isSafe n = true ↔ -maxSafe ≤ n ∧ n ≤ maxSafe := by
  simp [isSafe]

/-- `Number.isSafeInteger(n) && n > 0`. -/
def isPositive (n : Int) : Bool := isSafe n && decide (0 < n)

/-- The counters of the protocol: positive and safe. -/
theorem isPositive_iff {n : Int} : isPositive n = true ↔ 0 < n ∧ n ≤ maxSafe := by
  simp only [isPositive, Bool.and_eq_true, isSafe_iff, decide_eq_true_eq, maxSafe]
  omega

/-- `n === 0 || positive(n)`. -/
def isNonnegative (n : Int) : Bool := isSafe n && decide (0 ≤ n)

/-- The times and sizes: not negative and safe. -/
theorem isNonnegative_iff {n : Int} : isNonnegative n = true ↔ 0 ≤ n ∧ n ≤ maxSafe := by
  simp only [isNonnegative, Bool.and_eq_true, isSafe_iff, decide_eq_true_eq, maxSafe]
  omega

/-- The `positive(value)` guard on a field. -/
def positive (v : Option Json) : Bool :=
  match v with
  | some (.num n) => isPositive n
  | _ => false

/-- The `nonnegative(value)` guard on a field. -/
def nonnegative (v : Option Json) : Bool :=
  match v with
  | some (.num n) => isNonnegative n
  | _ => false

theorem positive_iff {v : Option Json} :
    positive v = true ↔ ∃ n, v = some (.num n) ∧ 0 < n ∧ n ≤ maxSafe := by
  unfold positive
  split
  · rename_i n
    simp [isPositive_iff]
  · rename_i h
    simp only [Bool.false_eq_true, false_iff]
    rintro ⟨n, hn, -⟩
    exact h n hn

mutual
/-- Every number in the value is a safe integer. -/
def safeNumbers : Json → Bool
  | .num n => isSafe n
  | .arr items => safeItems items
  | .obj fields => safeFields fields
  | _ => true

def safeItems : List Json → Bool
  | [] => true
  | x :: xs => safeNumbers x && safeItems xs

def safeFields : List (String × Json) → Bool
  | [] => true
  | (_, x) :: xs => safeNumbers x && safeFields xs
end

/-- Every field has safe numbers only. -/
theorem safeFields_iff {fields : List (String × Json)} :
    safeFields fields = true ↔ ∀ f ∈ fields, safeNumbers f.2 = true := by
  induction fields with
  | nil => simp [safeFields]
  | cons f rest ih => obtain ⟨k, x⟩ := f; simp [safeFields, ih]

theorem safeNumbers_get {v x : Json} {name : String} (h : v.safeNumbers = true)
    (hx : v.get name = some x) : x.safeNumbers = true := by
  cases v with
  | obj fields =>
    simp only [get, Option.map_eq_some_iff] at hx
    obtain ⟨f, hf, rfl⟩ := hx
    exact safeFields_iff.mp h f (List.mem_of_find?_eq_some hf)
  | _ => simp [get] at hx

theorem safeNumbers_object {fields : List (String × Option Json)} :
    (object fields).safeNumbers = true ↔ ∀ f ∈ fields, ∀ x, f.2 = some x → x.safeNumbers = true := by
  simp only [object, safeNumbers, safeFields_iff, List.mem_filterMap]
  constructor
  · intro h f hf x hx
    exact h (f.1, x) ⟨f, hf, by simp [hx]⟩
  · rintro h ⟨k, x⟩ ⟨f, hf, hfx⟩
    simp only [Option.map_eq_some_iff, Prod.mk.injEq] at hfx
    obtain ⟨y, hy, -, rfl⟩ := hfx
    exact h f hf y hy

/-- A safe value written into a safe record leaves it safe. -/
theorem safeNumbers_set {v x : Json} {name : String} (h : v.safeNumbers = true)
    (hx : x.safeNumbers = true) : (v.set name x).safeNumbers = true := by
  cases v with
  | obj fields =>
    simp only [set, safeNumbers, safeFields_iff, List.mem_append, List.mem_filter,
      List.mem_singleton] at h ⊢
    rintro f (hf | rfl)
    · exact h f hf.1
    · exact hx
  | _ => exact h

/-! ## Nesting -/

mutual
/-- How deep the value nests: 0 for a scalar and for an empty array or object. -/
def height : Json → Nat
  | .arr items => itemsHeight items
  | .obj fields => fieldsHeight fields
  | _ => 0

def itemsHeight : List Json → Nat
  | [] => 0
  | x :: xs => max (height x + 1) (itemsHeight xs)

def fieldsHeight : List (String × Json) → Nat
  | [] => 0
  | (_, x) :: xs => max (height x + 1) (fieldsHeight xs)
end

/-- The nesting limit of persisted values. -/
def maxDepth : Nat := 64

mutual
/-- `visit` of `json()`: refuse a value nested deeper than 64. The other refusals of `visit`
    (accessors, cycles, class instances, sparse arrays) are about values that are not JSON
    data at all. -/
def visit : Json → Nat → Bool
  | .arr items, depth => decide (depth ≤ maxDepth) && visitItems items (depth + 1)
  | .obj fields, depth => decide (depth ≤ maxDepth) && visitFields fields (depth + 1)
  | _, depth => decide (depth ≤ maxDepth)

def visitItems : List Json → Nat → Bool
  | [], _ => true
  | x :: xs, depth => visit x depth && visitItems xs depth

def visitFields : List (String × Json) → Nat → Bool
  | [], _ => true
  | (_, x) :: xs, depth => visit x depth && visitFields xs depth
end

mutual
/-- A value is visited to its end exactly where it nests no deeper than the limit, counted from its place. -/
theorem visit_iff : ∀ (v : Json) (d : Nat), visit v d = true ↔ d + height v ≤ maxDepth
  | .null, d | .bool _, d | .num _, d | .str _, d => by simp [visit, height]
  | .arr items, d => by
    simp only [visit, height, Bool.and_eq_true, decide_eq_true_eq, visitItems_iff items (d + 1)]
    omega
  | .obj fields, d => by
    simp only [visit, height, Bool.and_eq_true, decide_eq_true_eq, visitFields_iff fields (d + 1)]
    omega

theorem visitItems_iff : ∀ (xs : List Json) (d : Nat),
    visitItems xs d = true ↔ (itemsHeight xs = 0 ∨ d - 1 + itemsHeight xs ≤ maxDepth ∧ 0 < d
      ∨ d = 0 ∧ itemsHeight xs ≤ maxDepth + 1)
  | [], d => by simp [visitItems, itemsHeight]
  | x :: xs, d => by
    simp only [visitItems, itemsHeight, Bool.and_eq_true, visit_iff x d, visitItems_iff xs d]
    omega

theorem visitFields_iff : ∀ (xs : List (String × Json)) (d : Nat),
    visitFields xs d = true ↔ (fieldsHeight xs = 0 ∨ d - 1 + fieldsHeight xs ≤ maxDepth ∧ 0 < d
      ∨ d = 0 ∧ fieldsHeight xs ≤ maxDepth + 1)
  | [], d => by simp [visitFields, fieldsHeight]
  | (k, x) :: xs, d => by
    simp only [visitFields, fieldsHeight, Bool.and_eq_true, visit_iff x d, visitFields_iff xs d]
    omega
end

/-- A bound on the fields is a bound on each of them. -/
theorem fieldsHeight_le_iff {fields : List (String × Json)} {n : Nat} :
    fieldsHeight fields ≤ n ↔ ∀ f ∈ fields, height f.2 + 1 ≤ n := by
  induction fields with
  | nil => simp [fieldsHeight]
  | cons f rest ih => obtain ⟨k, x⟩ := f; simp [fieldsHeight, ih]

/-- A field nests at least one level less than its record. -/
theorem height_get_lt {v x : Json} {name : String} (hx : v.get name = some x) :
    x.height + 1 ≤ v.height := by
  cases v with
  | obj fields =>
    simp only [get, Option.map_eq_some_iff] at hx
    obtain ⟨f, hf, rfl⟩ := hx
    exact fieldsHeight_le_iff.mp (Nat.le_refl _) f (List.mem_of_find?_eq_some hf)
  | _ => simp [get] at hx

/-- The height of an object literal is bounded field by field. -/
theorem height_object_le_iff {fields : List (String × Option Json)} {n : Nat} :
    (object fields).height ≤ n ↔ ∀ f ∈ fields, ∀ x, f.2 = some x → x.height + 1 ≤ n := by
  simp only [object, height, fieldsHeight_le_iff, List.mem_filterMap]
  constructor
  · intro h f hf x hx
    exact h (f.1, x) ⟨f, hf, by simp [hx]⟩
  · rintro h ⟨k, x⟩ ⟨f, hf, hfx⟩
    simp only [Option.map_eq_some_iff, Prod.mk.injEq] at hfx
    obtain ⟨y, hy, -, rfl⟩ := hfx
    exact h f hf y hy

/-- A written field nests a record no deeper than itself or the value with one level more. -/
theorem height_set_le {v x : Json} {name : String} :
    (v.set name x).height ≤ max v.height (x.height + 1) := by
  cases v with
  | obj fields =>
    simp only [set, height, fieldsHeight_le_iff, List.mem_append, List.mem_filter,
      List.mem_singleton]
    rintro f (hf | rfl)
    · have := fieldsHeight_le_iff.mp (Nat.le_refl (fieldsHeight fields)) f hf.1
      omega
    · exact Nat.le_max_right _ _
  | _ => exact Nat.le_max_left _ _

/-! ## The size of the canonical text -/

/-- Bytes one byte of a string takes in its JSON text: the two-character escapes, the
    six-character `\u00xx` of the other control characters, itself otherwise. The bytes of a
    longer UTF-8 sequence are 128 and above, so none of them is escaped. -/
def textBytes (b : UInt8) : Nat :=
  if b = 34 ∨ b = 92 then 2
  else if b = 8 ∨ b = 9 ∨ b = 10 ∨ b = 12 ∨ b = 13 then 2
  else if b < 32 then 6
  else 1

/-- A string between its quotes, with its escapes. -/
def stringBytes (s : String) : Nat := 2 + (s.toByteArray.data.toList.map textBytes).sum

/-- A number with its sign. -/
def intBytes (n : Int) : Nat := (if n < 0 then 1 else 0) + (Nat.toDigits 10 n.natAbs).length

mutual
/-- `Buffer.byteLength(jcs(v))`: canonicalisation orders the fields, which moves no byte in or
    out. -/
def byteLength : Json → Nat
  | .null => 4
  | .bool b => if b then 4 else 5
  | .num n => intBytes n
  | .str s => stringBytes s
  | .arr items => 2 + (items.length - 1) + itemsBytes items
  | .obj fields => 2 + (fields.length - 1) + fieldsBytes fields

def itemsBytes : List Json → Nat
  | [] => 0
  | x :: xs => byteLength x + itemsBytes xs

def fieldsBytes : List (String × Json) → Nat
  | [] => 0
  | (k, x) :: xs => stringBytes k + 1 + byteLength x + fieldsBytes xs
end

/-! ## The same data

Two values are the same JSON data when they differ in the order of object fields only; the
canonical form sorts them by name. -/

/-- Insert a field, keeping the names ascending. -/
def insertField (f : String × Json) : List (String × Json) → List (String × Json)
  | [] => [f]
  | g :: rest => if f.1 < g.1 then f :: g :: rest else g :: insertField f rest

mutual
/-- The value with every object's fields in name order. -/
def canonical : Json → Json
  | .arr items => .arr (canonicalItems items)
  | .obj fields => .obj (canonicalFields fields)
  | v => v

def canonicalItems : List Json → List Json
  | [] => []
  | x :: xs => canonical x :: canonicalItems xs

def canonicalFields : List (String × Json) → List (String × Json)
  | [] => []
  | (k, x) :: xs => insertField (k, canonical x) (canonicalFields xs)
end

example : canonical (.obj [("b", .num 1), ("a", .arr [.obj []])])
    = canonical (.obj [("a", .arr [.obj []]), ("b", .num 1)]) := by decide

end Json
end Qlong
