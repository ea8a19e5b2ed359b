import Qlong.Core.Json

/-!
# JavaScript values

A driver and a publisher answer any JavaScript value, and only some values are JSON data: an array
may have holes, an object may be a `Map` or the instance of a class. Three readers look at such an
answer, and each sees something else. `protocolJson` of `packages/node/src/runtime/executor.ts`
walks over the items of arrays and the enumerable properties of objects, and sees neither holes nor
prototypes; `structuredClone` turns some values into plain data, keeps built-in ones and refuses
others; `json()` of `packages/node/src/runtime/store.ts` takes plain data only.

A value is a finite tree here. A cycle never passes `protocolJson`, whose depth is bounded, and what
is shared counts as often as it is reached. Properties are the object's own, and reading one answers
the same each time; numbers are integers, as in `Json`.
-/

namespace Qlong

/-- What an object or an array is besides its items and fields. -/
inductive Shape where
  | plain
  /-- the instance of a class, or one with accessors or hidden properties -/
  | ofClass
  /-- with properties that are named by symbols -/
  | tagged
  /-- a `Map`, a `Date` or another built-in object; an array with fields -/
  | builtin
  /-- what cannot be cloned: a promise, a proxy, whatever holds a function out of sight -/
  | bound
deriving DecidableEq, Repr

/-- A JavaScript value. -/
inductive Value where
  | null
  | bool (b : Bool)
  | num (n : Int)
  | str (s : String)
  /-- `undefined`, a function, a symbol, a number that is not finite; `structuredClone` takes it or not -/
  | other (clones : Bool)
  /-- `none` is a hole -/
  | array (shape : Shape) (items : List (Option Value))
  | object (shape : Shape) (fields : List (String × Value))

namespace Value

/-! ## Reading a value -/

/-- `v[name]`. -/
def get (v : Value) (name : String) : Option Value :=
  match v with
  | .object _ fields => (fields.find? fun f => f.1 = name).map Prod.snd
  | _ => none

/-- `record(v)`: an object that is no array. -/
def isRecord : Value → Bool
  | .object _ _ => true
  | _ => false

def asStr : Value → Option String
  | .str s => some s
  | _ => none

def getStr (v : Value) (name : String) : Option String := (v.get name).bind asStr

mutual
/-- `protocolJson(value, depth)`: `every` skips the holes of an array, and `Object.values` whatever is no
    enumerable property. -/
def protocolJson : Value → Nat → Bool
  | .array _ items, depth => decide (depth ≤ Json.maxDepth) && protocolItems items (depth + 1)
  | .object _ fields, depth => decide (depth ≤ Json.maxDepth) && protocolFields fields (depth + 1)
  | .num n, depth => decide (depth ≤ Json.maxDepth) && Json.isSafe n
  | .other _, _ => false
  | _, depth => decide (depth ≤ Json.maxDepth)

def protocolItems : List (Option Value) → Nat → Bool
  | [], _ => true
  | none :: rest, depth => protocolItems rest depth
  | some x :: rest, depth => protocolJson x depth && protocolItems rest depth

def protocolFields : List (String × Value) → Nat → Bool
  | [], _ => true
  | (_, x) :: rest, depth => protocolJson x depth && protocolFields rest depth
end

/-! ## JSON data as values -/

mutual
/-- What `JSON.parse` makes of JSON data. -/
def ofJson : Json → Value
  | .null => .null
  | .bool b => .bool b
  | .num n => .num n
  | .str s => .str s
  | .arr items => .array .plain (ofItems items)
  | .obj fields => .object .plain (ofFields fields)

def ofItems : List Json → List (Option Value)
  | [] => []
  | x :: rest => some (ofJson x) :: ofItems rest

def ofFields : List (String × Json) → List (String × Value)
  | [] => []
  | (k, x) :: rest => (k, ofJson x) :: ofFields rest
end

theorem get_ofFields (fields : List (String × Json)) (shape : Shape) (name : String) :
    (object shape (ofFields fields)).get name = ((Json.obj fields).get name).map ofJson := by
  induction fields with
  | nil => rfl
  | cons f rest ih =>
    obtain ⟨k, x⟩ := f
    simp only [get, Json.get, ofFields, List.find?_cons] at ih ⊢
    by_cases hk : k = name
    · simp [hk]
    · simpa [hk] using ih

theorem get_ofJson (j : Json) (name : String) : (ofJson j).get name = (j.get name).map ofJson := by
  cases j with
  | obj fields => exact get_ofFields fields .plain name
  | _ => rfl

@[simp] theorem isRecord_ofJson (j : Json) : (ofJson j).isRecord = j.isRecord := by cases j <;> rfl

@[simp] theorem asStr_ofJson (j : Json) : (ofJson j).asStr = j.asStr := by cases j <;> rfl

-- Of JSON data `protocolJson` sees everything.
mutual
theorem protocolJson_ofJson : ∀ (j : Json) (depth : Nat),
    (ofJson j).protocolJson depth = (j.visit depth && j.safeNumbers)
  | .null, _ | .bool _, _ | .str _, _ => by simp [ofJson, protocolJson, Json.visit, Json.safeNumbers]
  | .num _, _ => by simp [ofJson, protocolJson, Json.visit, Json.safeNumbers]
  | .arr items, depth => by
    simp [ofJson, protocolJson, Json.visit, Json.safeNumbers, protocolItems_ofItems items (depth + 1), Bool.and_assoc]
  | .obj fields, depth => by
    simp [ofJson, protocolJson, Json.visit, Json.safeNumbers, protocolFields_ofFields fields (depth + 1),
      Bool.and_assoc]

theorem protocolItems_ofItems : ∀ (items : List Json) (depth : Nat),
    protocolItems (ofItems items) depth = (Json.visitItems items depth && Json.safeItems items)
  | [], _ => rfl
  | x :: rest, depth => by
    simp only [ofItems, protocolItems, Json.visitItems, Json.safeItems, protocolJson_ofJson x depth,
      protocolItems_ofItems rest depth]
    ac_rfl

theorem protocolFields_ofFields : ∀ (fields : List (String × Json)) (depth : Nat),
    protocolFields (ofFields fields) depth = (Json.visitFields fields depth && Json.safeFields fields)
  | [], _ => rfl
  | (k, x) :: rest, depth => by
    simp only [ofFields, protocolFields, Json.visitFields, Json.safeFields, protocolJson_ofJson x depth,
      protocolFields_ofFields rest depth]
    ac_rfl
end

/-! ## What `json()` takes -/

mutual
/-- The JSON data that a value is; `none` is one that `json()` refuses at any depth. -/
def data : Value → Option Json
  | .null => some .null
  | .bool b => some (.bool b)
  | .num n => some (.num n)
  | .str s => some (.str s)
  | .array .plain items => (dataItems items).map .arr
  | .object .plain fields => (dataFields fields).map .obj
  | _ => none

def dataItems : List (Option Value) → Option (List Json)
  | [] => some []
  | none :: _ => none
  | some x :: rest => (data x).bind fun j => (dataItems rest).map (j :: ·)

def dataFields : List (String × Value) → Option (List (String × Json))
  | [] => some []
  | (k, x) :: rest => (data x).bind fun j => (dataFields rest).map ((k, j) :: ·)
end

mutual
theorem data_ofJson : ∀ j : Json, (ofJson j).data = some j
  | .null | .bool _ | .num _ | .str _ => rfl
  | .arr items => by simp [ofJson, data, dataItems_ofItems items]
  | .obj fields => by simp [ofJson, data, dataFields_ofFields fields]

theorem dataItems_ofItems : ∀ items : List Json, dataItems (ofItems items) = some items
  | [] => rfl
  | x :: rest => by simp [ofItems, dataItems, data_ofJson x, dataItems_ofItems rest]

theorem dataFields_ofFields : ∀ fields : List (String × Json), dataFields (ofFields fields) = some fields
  | [] => rfl
  | (k, x) :: rest => by simp [ofFields, dataFields, data_ofJson x, dataFields_ofFields rest]
end

mutual
theorem eq_ofJson : ∀ {v : Value} {j : Json}, v.data = some j → v = ofJson j
  | .null, j, h | .bool _, j, h | .num _, j, h | .str _, j, h => by
    simp only [data, Option.some.injEq] at h
    rw [← h, ofJson]
  | .other _, j, h => by simp [data] at h
  | .array shape items, j, h => by
    cases shape <;> simp only [data, Option.map_eq_some_iff, reduceCtorEq] at h
    obtain ⟨xs, hxs, rfl⟩ := h
    rw [ofJson, eq_ofItems hxs]
  | .object shape fields, j, h => by
    cases shape <;> simp only [data, Option.map_eq_some_iff, reduceCtorEq] at h
    obtain ⟨fs, hfs, rfl⟩ := h
    rw [ofJson, eq_ofFields hfs]

theorem eq_ofItems : ∀ {items : List (Option Value)} {xs : List Json}, dataItems items = some xs → items = ofItems xs
  | [], xs, h => by
    obtain rfl := Option.some.inj h
    rfl
  | none :: rest, xs, h => by simp [dataItems] at h
  | some x :: rest, xs, h => by
    simp only [dataItems, Option.bind_eq_some_iff, Option.map_eq_some_iff] at h
    obtain ⟨j, hj, js, hjs, rfl⟩ := h
    rw [ofItems, ← eq_ofJson hj, ← eq_ofItems hjs]

theorem eq_ofFields : ∀ {fields : List (String × Value)} {fs : List (String × Json)},
    dataFields fields = some fs → fields = ofFields fs
  | [], fs, h => by
    obtain rfl := Option.some.inj h
    rfl
  | (k, x) :: rest, fs, h => by
    simp only [dataFields, Option.bind_eq_some_iff, Option.map_eq_some_iff] at h
    obtain ⟨j, hj, js, hjs, rfl⟩ := h
    rw [ofFields, ← eq_ofJson hj, ← eq_ofFields hjs]
end

/-- **`json()` takes JSON data and nothing else.** -/
theorem data_iff {v : Value} {j : Json} : v.data = some j ↔ v = ofJson j :=
  ⟨eq_ofJson, fun h => h ▸ data_ofJson j⟩

/-- A sparse array and a `Map` pass `protocolJson`, and are no JSON data. -/
example : let v : Value := .object .plain [("list", .array .plain [none]), ("map", .object .builtin [])]
    v.protocolJson 0 = true ∧ v.data = none := by decide

/-- `{ ...v }`, as far as it is JSON data. A spread copies the properties that symbols name; what is no
    object has none. -/
def spread : Value → Option Json
  | .object .tagged _ => none
  | .object _ fields => (dataFields fields).map .obj
  | _ => some (.obj [])

/-- What a spread of an object gives has been seen by `protocolJson`. -/
theorem spread_cases {v : Value} {j : Json} (hv : v.isRecord = true) (h : v.spread = some j) :
    ∃ shape fields, v = .object shape (ofFields fields) ∧ j = .obj fields ∧
      ∀ depth, v.protocolJson depth = (j.visit depth && j.safeNumbers) := by
  cases v with
  | object shape fields =>
    have hfields : ∃ fs, dataFields fields = some fs ∧ .obj fs = j := by
      cases shape with
      | tagged => exact absurd h (by simp [spread])
      | _ => exact Option.map_eq_some_iff.mp h
    obtain ⟨fs, hfs, rfl⟩ := hfields
    obtain rfl := eq_ofFields hfs
    refine ⟨shape, fs, rfl, rfl, fun depth => ?_⟩
    rw [← protocolJson_ofJson]
    rfl
  | _ => exact absurd hv Bool.false_ne_true

/-! ## Clones -/

/-- The shape of a clone. -/
def cloneShape : Shape → Option Shape
  | .plain | .ofClass | .tagged => some .plain
  | .builtin => some .builtin
  | .bound => none

mutual
/-- `structuredClone(v)`; `none` is a `DataCloneError`. The clone of a built-in object keeps what it is made
    of, and none of its properties. -/
def clone : Value → Option Value
  | .other clones => if clones then some (.other clones) else none
  | .array shape items => (cloneShape shape).bind fun s => (cloneItems items).map (.array s)
  | .object .builtin _ => some (.object .builtin [])
  | .object shape fields => (cloneShape shape).bind fun s => (cloneFields fields).map (.object s)
  | v => some v

def cloneItems : List (Option Value) → Option (List (Option Value))
  | [] => some []
  | none :: rest => (cloneItems rest).map (none :: ·)
  | some x :: rest => (clone x).bind fun y => (cloneItems rest).map (some y :: ·)

def cloneFields : List (String × Value) → Option (List (String × Value))
  | [] => some []
  | (k, x) :: rest => (clone x).bind fun y => (cloneFields rest).map ((k, y) :: ·)
end

mutual
theorem clone_ofJson : ∀ j : Json, (ofJson j).clone = some (ofJson j)
  | .null | .bool _ | .num _ | .str _ => rfl
  | .arr items => by simp [ofJson, clone, cloneShape, cloneItems_ofItems items]
  | .obj fields => by simp [ofJson, clone, cloneShape, cloneFields_ofFields fields]

theorem cloneItems_ofItems : ∀ items : List Json, cloneItems (ofItems items) = some (ofItems items)
  | [] => rfl
  | x :: rest => by simp [ofItems, cloneItems, clone_ofJson x, cloneItems_ofItems rest]

theorem cloneFields_ofFields : ∀ fields : List (String × Json), cloneFields (ofFields fields) = some (ofFields fields)
  | [] => rfl
  | (k, x) :: rest => by simp [ofFields, cloneFields, clone_ofJson x, cloneFields_ofFields rest]
end

/-- The clone of an object that is not built in. -/
theorem clone_object {shape : Shape} {fields : List (String × Value)} {w : Value}
    (h : (object shape fields).clone = some w) :
    (shape = .builtin ∧ w = .object .builtin []) ∨ ∃ fields', cloneFields fields = some fields' ∧ w = .object .plain fields' := by
  cases shape with
  | builtin => exact .inl ⟨rfl, (Option.some.inj h).symm⟩
  | bound => exact absurd h (by simp [clone, cloneShape])
  | plain | ofClass | tagged =>
    simp only [clone, cloneShape, Option.bind_some, Option.map_eq_some_iff] at h
    obtain ⟨fields', hfields, hw⟩ := h
    exact .inr ⟨fields', hfields, hw.symm⟩

theorem isRecord_clone {v w : Value} (hv : v.isRecord = true) (h : v.clone = some w) : w.isRecord = true := by
  cases v with
  | object shape fields =>
    rcases clone_object h with ⟨-, rfl⟩ | ⟨fields', -, rfl⟩
    · rfl
    · rfl
  | _ => exact absurd hv Bool.false_ne_true

/-- A property and its clone. -/
inductive ClonedAs : Option Value → Option Value → Prop
  | absent : ClonedAs none none
  | cloned {x y : Value} (h : x.clone = some y) : ClonedAs (some x) (some y)

theorem get_cloneFields {fields fields' : List (String × Value)} (h : cloneFields fields = some fields')
    (s s' : Shape) (name : String) : ClonedAs ((object s fields).get name) ((object s' fields').get name) := by
  induction fields generalizing fields' with
  | nil =>
    obtain rfl := Option.some.inj h
    exact .absent
  | cons f rest ih =>
    obtain ⟨k, x⟩ := f
    simp only [cloneFields, Option.bind_eq_some_iff, Option.map_eq_some_iff] at h
    obtain ⟨y, hy, rest', hrest, rfl⟩ := h
    have hlater := ih hrest
    simp only [get, List.find?_cons] at hlater ⊢
    by_cases hk : k = name
    · simpa [hk] using ClonedAs.cloned hy
    · simpa [hk] using hlater

/-- A clone has the clones of the properties, unless it is built in. -/
theorem get_clone {v w : Value} (h : v.clone = some w) (hw : w ≠ .object .builtin []) (name : String) :
    ClonedAs (v.get name) (w.get name) := by
  cases v with
  | object shape fields =>
    rcases clone_object h with ⟨-, rfl⟩ | ⟨fields', hfields, rfl⟩
    · exact absurd rfl hw
    · exact get_cloneFields hfields _ _ name
  | array shape items =>
    simp only [clone, Option.bind_eq_some_iff, Option.map_eq_some_iff] at h
    obtain ⟨s, -, items', -, rfl⟩ := h
    exact .absent
  | other clones =>
    cases clones with
    | true =>
      obtain rfl := Option.some.inj h
      exact .absent
    | false => exact absurd h (by simp [clone])
  | _ =>
    obtain rfl := Option.some.inj h
    exact .absent

/-- A clone is a string where the value is. -/
theorem asStr_clone {v w : Value} (h : v.clone = some w) : w.asStr = v.asStr := by
  cases v with
  | object shape fields =>
    rcases clone_object h with ⟨-, rfl⟩ | ⟨fields', -, rfl⟩
    · rfl
    · rfl
  | array shape items =>
    simp only [clone, Option.bind_eq_some_iff, Option.map_eq_some_iff] at h
    obtain ⟨s, -, items', -, rfl⟩ := h
    rfl
  | other clones =>
    cases clones with
    | true =>
      obtain rfl := Option.some.inj h
      rfl
    | false => exact absurd h (by simp [clone])
  | _ =>
    obtain rfl := Option.some.inj h
    rfl

theorem ClonedAs.asStr {x y : Option Value} (h : ClonedAs x y) : y.bind Value.asStr = x.bind Value.asStr := by
  cases h with
  | absent => rfl
  | cloned h => exact asStr_clone h

-- What a reader has admitted it admits again as a clone.
mutual
theorem protocolJson_clone : ∀ {v w : Value} {depth : Nat}, v.protocolJson depth = true → v.clone = some w →
    w.protocolJson depth = true
  | .null, w, depth, hv, h | .bool _, w, depth, hv, h | .num _, w, depth, hv, h | .str _, w, depth, hv, h => by
    obtain rfl := Option.some.inj h
    exact hv
  | .other _, w, depth, hv, h => absurd hv Bool.false_ne_true
  | .array shape items, w, depth, hv, h => by
    simp only [clone, Option.bind_eq_some_iff, Option.map_eq_some_iff] at h
    obtain ⟨s, -, items', hitems, rfl⟩ := h
    simp only [protocolJson, Bool.and_eq_true] at hv ⊢
    exact ⟨hv.1, protocolItems_clone hv.2 hitems⟩
  | .object shape fields, w, depth, hv, h => by
    simp only [protocolJson, Bool.and_eq_true] at hv
    rcases clone_object h with ⟨-, rfl⟩ | ⟨fields', hfields, rfl⟩
    · simp only [protocolJson, Bool.and_eq_true]
      exact ⟨hv.1, rfl⟩
    · simp only [protocolJson, Bool.and_eq_true]
      exact ⟨hv.1, protocolFields_clone hv.2 hfields⟩

theorem protocolItems_clone : ∀ {items items' : List (Option Value)} {depth : Nat}, protocolItems items depth = true →
    cloneItems items = some items' → protocolItems items' depth = true
  | [], _, depth, _, h => by
    obtain rfl := Option.some.inj h
    rfl
  | none :: rest, _, depth, hv, h => by
    obtain ⟨rest', hrest, rfl⟩ := Option.map_eq_some_iff.mp h
    simp only [protocolItems] at hv ⊢
    exact protocolItems_clone hv hrest
  | some x :: rest, _, depth, hv, h => by
    simp only [cloneItems, Option.bind_eq_some_iff, Option.map_eq_some_iff] at h
    obtain ⟨y, hy, rest', hrest, rfl⟩ := h
    simp only [protocolItems, Bool.and_eq_true] at hv ⊢
    exact ⟨protocolJson_clone hv.1 hy, protocolItems_clone hv.2 hrest⟩

theorem protocolFields_clone : ∀ {fields fields' : List (String × Value)} {depth : Nat},
    protocolFields fields depth = true → cloneFields fields = some fields' → protocolFields fields' depth = true
  | [], _, depth, _, h => by
    obtain rfl := Option.some.inj h
    rfl
  | (k, x) :: rest, _, depth, hv, h => by
    simp only [cloneFields, Option.bind_eq_some_iff, Option.map_eq_some_iff] at h
    obtain ⟨y, hy, rest', hrest, rfl⟩ := h
    simp only [protocolFields, Bool.and_eq_true] at hv ⊢
    exact ⟨protocolJson_clone hv.1 hy, protocolFields_clone hv.2 hrest⟩
end

end Value
end Qlong
