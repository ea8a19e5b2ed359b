import Qlong.Lib.Fallible
import Qlong.Lib.Table

/-!
# Writing differences

Two versions of a keyed table, and a store that holds the first. Instead of writing the second out
whole, drop the keys it has lost and put the rows that changed. `merge` says what the store then
holds: the surviving keys in their old places with their new rows, then the new keys in theirs.
It is the second version up to order, and in order as well when no key of the first was moved.

A `Records` is a map that remembers the order of insertion: rows with distinct keys.
-/

namespace Qlong
namespace Lib
namespace Table

universe u v

variable {α : Type u} {κ : Type v} [DecidableEq κ] {key : α → κ} {old next rows : List α}

/-! ## What a rewrite by differences holds -/

/-- The old keys that stay, with their new rows, and then the new keys. -/
def merge (key : α → κ) (old next : List α) : List α :=
  old.filterMap (fun r => lookup key (key r) next) ++ next.filter fun r => (lookup key (key r) old).isNone

/-- Every key of the first version that the second still has is in its old place, before the new ones. -/
def InOrder (key : α → κ) (old next : List α) : Prop :=
  next.map key = (old.map key).filter (fun k => (lookup key k next).isSome) ++
    (next.map key).filter fun k => (lookup key k old).isNone

theorem lookup_isSome_iff {k : κ} : (lookup key k rows).isSome = true ↔ k ∈ rows.map key := by
  constructor
  · intro h
    obtain ⟨r, hr⟩ := Option.isSome_iff_exists.mp h
    exact lookup_some_key hr ▸ List.mem_map_of_mem (lookup_some_mem hr)
  · intro h
    obtain ⟨r, hr, rfl⟩ := List.mem_map.mp h
    rw [Option.isSome_iff_ne_none]
    intro hnone
    exact lookup_none_iff.mp hnone r hr rfl

theorem lookup_isNone_iff {k : κ} : (lookup key k rows).isNone = true ↔ k ∉ rows.map key := by
  rw [← lookup_isSome_iff, Option.isNone_iff_eq_none, Option.isSome_iff_ne_none, not_not]

/-- A row of the merged table is the row of its key in the second version. -/
theorem mem_merge (hnext : Keyed key next) {r : α} (h : r ∈ merge key old next) :
    lookup key (key r) next = some r := by
  rcases List.mem_append.mp h with h | h
  · obtain ⟨x, -, hx⟩ := List.mem_filterMap.mp h
    rw [lookup_some_key hx]
    exact hx
  · exact lookup_of_mem hnext (List.mem_of_mem_filter h)

theorem merge_keys (key : α → κ) (old next : List α) :
    (merge key old next).map key = (old.map key).filter (fun k => (lookup key k next).isSome) ++
      (next.map key).filter fun k => (lookup key k old).isNone := by
  unfold merge
  rw [List.map_append, List.filter_map, List.filter_map]
  congr 1
  induction old with
  | nil => rfl
  | cons x rest ih =>
    cases hx : lookup key (key x) next with
    | none => simpa [List.filterMap_cons, hx] using ih
    | some y => simpa [List.filterMap_cons, hx, lookup_some_key hx] using ih

theorem keyed_merge (hold : Keyed key old) (hnext : Keyed key next) : Keyed key (merge key old next) := by
  unfold Keyed
  rw [merge_keys]
  refine List.Nodup.append (List.Nodup.filter _ hold) (List.Nodup.filter _ hnext) ?_
  intro k h1 h2
  obtain ⟨hk, -⟩ := List.mem_filter.mp h1
  exact lookup_isNone_iff.mp (List.mem_filter.mp h2).2 hk

/-- **Nothing is lost, stale or duplicated.** -/
theorem merge_perm (hold : Keyed key old) (hnext : Keyed key next) : (merge key old next).Perm next := by
  refine (List.perm_ext_iff_of_nodup (keyed_merge hold hnext).of_map hnext.of_map).mpr fun r => ?_
  constructor
  · intro h
    exact lookup_some_mem (mem_merge hnext h)
  · intro h
    by_cases hk : key r ∈ old.map key
    · obtain ⟨x, hx, hxk⟩ := List.mem_map.mp hk
      refine List.mem_append_left _ (List.mem_filterMap.mpr ⟨x, hx, ?_⟩)
      rw [hxk]
      exact lookup_of_mem hnext h
    · exact List.mem_append_right _ (List.mem_filter.mpr ⟨h, lookup_isNone_iff.mpr hk⟩)

/-- A table is told by its keys, when every row is the one `next` has of its key. -/
theorem eq_of_keys (hrows : ∀ r ∈ rows, lookup key (key r) next = some r) :
    rows = (rows.map key).filterMap fun k => lookup key k next := by
  induction rows with
  | nil => rfl
  | cons x rest ih =>
    rw [List.map_cons, List.filterMap_cons, hrows x List.mem_cons_self]
    exact congrArg _ (ih fun r hr => hrows r (List.mem_cons_of_mem _ hr))

/-- **And nothing is moved**, when the second version moved nothing. -/
theorem merge_of_inOrder (hnext : Keyed key next) (h : InOrder key old next) : merge key old next = next := by
  rw [eq_of_keys fun r hr => mem_merge hnext hr, merge_keys, ← h]
  exact (eq_of_keys fun r hr => lookup_of_mem hnext hr).symm

/-! ## The rewrite itself -/

theorem foldl_remove (ks : List κ) : ks.foldl (fun rows k => remove key k rows) rows =
    rows.filter fun r => key r ∉ ks := by
  induction ks generalizing rows with
  | nil => simp
  | cons k ks ih =>
    rw [List.foldl_cons, ih, remove, List.filter_filter]
    congr 1
    funext r
    simp [Bool.and_comm]

/-- Putting the row that is there changes nothing. -/
theorem put_same (hk : Keyed key rows) {r : α} (h : lookup key (key r) rows = some r) : put key r rows = rows := by
  unfold put
  rw [h]
  dsimp only
  unfold modify
  conv_rhs => rw [← List.map_id rows]
  apply List.map_congr_left
  intro x hx
  by_cases hxk : key x = key r
  · rw [if_pos hxk]
    have hlook := lookup_of_mem hk hx
    rw [hxk, h] at hlook
    exact Option.some.inj hlook
  · exact if_neg hxk

/-- The rows put one after another: each in the place its key has, the new keys at the end. -/
theorem foldl_put (hrows : Keyed key rows) (hnext : Keyed key next) :
    next.foldl (fun rows r => put key r rows) rows =
      rows.map (fun r => (lookup key (key r) next).getD r) ++ next.filter fun r => (lookup key (key r) rows).isNone := by
  induction next generalizing rows with
  | nil => simp
  | cons x rest ih =>
    unfold Keyed at hnext
    rw [List.map_cons, List.nodup_cons] at hnext
    obtain ⟨hx, hrest⟩ := hnext
    have hxrest : lookup key (key x) rest = none := lookup_none_iff.mpr fun r hr hrk => hx (hrk ▸ List.mem_map_of_mem hr)
    -- a later row has another key, and finds the table as it was
    have hlater : ∀ r ∈ rest, (lookup key (key r) (put key x rows)).isNone = (lookup key (key r) rows).isNone := by
      intro r hr
      rw [lookup_put hrows, if_neg]
      intro hrk
      exact hx (hrk ▸ List.mem_map_of_mem hr)
    rw [List.foldl_cons, ih hrows.put hrest, List.filter_congr hlater]
    unfold put
    cases hfound : lookup key (key x) rows with
    | none =>
      have habsent := lookup_none_iff.mp hfound
      rw [List.map_append, List.map_singleton, hxrest, List.filter_cons, hfound, List.append_assoc]
      simp only [Option.getD_none, Option.isNone_none, if_true, List.singleton_append]
      congr 1
      apply List.map_congr_left
      intro r hr
      simp [lookup, (habsent r hr).symm]
    | some old =>
      rw [List.filter_cons, hfound]
      simp only [Option.isNone_some, Bool.false_eq_true, if_false]
      congr 1
      unfold modify
      rw [List.map_map]
      apply List.map_congr_left
      intro r _
      by_cases hrk : key r = key x
      · rw [Function.comp, if_pos hrk, hrk, hxrest, lookup, List.find?_cons]
        simp
      · have hxr : key x ≠ key r := fun h => hrk h.symm
        simp [Function.comp, hrk, hxr, lookup]

/-- **Dropping what is lost and putting what there is** leaves the merged table. -/
theorem rewrite_eq (hold : Keyed key old) (hnext : Keyed key next) :
    next.foldl (fun rows r => put key r rows) (old.filter fun r => (lookup key (key r) next).isSome) =
      merge key old next := by
  rw [foldl_put hold.filter hnext]
  unfold merge
  congr 1
  · clear hold
    induction old with
    | nil => rfl
    | cons r rest ih => cases hr : lookup key (key r) next <;> simp [hr, ih]
  · apply List.filter_congr
    intro r hr
    rw [lookup_filter hold]
    cases hfound : lookup key (key r) old with
    | none => rfl
    | some x =>
      have hsome : (lookup key (key r) next).isSome = true := lookup_isSome_iff.mpr (List.mem_map_of_mem hr)
      rw [← lookup_some_key hfound] at hsome
      rw [Option.filter_some_pos (by exact hsome)]

/-! ## Versions that move nothing -/

theorem inOrder_same (h : next.map key = old.map key) : InOrder key old next := by
  unfold InOrder
  have hstay : (old.map key).filter (fun k => (lookup key k next).isSome) = old.map key :=
    List.filter_eq_self.mpr fun k hk => lookup_isSome_iff.mpr (h ▸ hk)
  have hnew : (next.map key).filter (fun k => (lookup key k old).isNone) = [] :=
    List.filter_eq_nil_iff.mpr fun k hk hnone => lookup_isNone_iff.mp hnone (h ▸ hk)
  rw [hstay, hnew, List.append_nil, h]

/-- New keys at the end move nothing. -/
theorem inOrder_prefix (hnext : Keyed key next) (h : old.map key <+: next.map key) : InOrder key old next := by
  obtain ⟨more, hmore⟩ := h
  unfold Keyed at hnext
  have hstay : (old.map key).filter (fun k => (lookup key k next).isSome) = old.map key :=
    List.filter_eq_self.mpr fun k hk => lookup_isSome_iff.mpr (hmore ▸ List.mem_append_left _ hk)
  have hgone : (old.map key).filter (fun k => (lookup key k old).isNone) = [] :=
    List.filter_eq_nil_iff.mpr fun k hk hnone => lookup_isNone_iff.mp hnone hk
  have hnew : more.filter (fun k => (lookup key k old).isNone) = more := by
    refine List.filter_eq_self.mpr fun k hk => lookup_isNone_iff.mpr fun hold => ?_
    rw [← hmore] at hnext
    exact List.disjoint_of_nodup_append hnext hold hk
  unfold InOrder
  rw [hstay, ← hmore, List.filter_append, hgone, hnew, List.nil_append]

theorem keys_put_prefix (r : α) (rows : List α) : rows.map key <+: (put key r rows).map key := by
  rw [map_key_put]
  split
  · exact List.prefix_rfl
  · exact List.prefix_append _ _

theorem keys_filter (hnext : Keyed key next) (p : α → Bool) :
    (next.filter p).map key = (next.map key).filter fun k => (lookup key k (next.filter p)).isSome := by
  rw [List.filter_map]
  congr 1
  apply List.filter_congr
  intro r hr
  rw [Function.comp, lookup_filter hnext, lookup_of_mem hnext hr]
  cases hp : p r <;> simp [Option.filter, hp]

/-- Rows that are dropped as well move nothing. -/
theorem InOrder.filter (hnext : Keyed key next) (h : InOrder key old next) (p : α → Bool) :
    InOrder key old (next.filter p) := by
  have hkeys := keys_filter hnext p
  unfold InOrder at h ⊢
  conv_lhs => rw [hkeys, h, List.filter_append]
  congr 1
  · rw [List.filter_filter]
    apply List.filter_congr
    intro k _
    rw [lookup_filter hnext]
    cases lookup key k next <;> simp
  · conv_rhs => rw [hkeys]
    rw [List.filter_filter, List.filter_filter]
    apply List.filter_congr
    intro k _
    rw [Bool.and_comm]

end Table

/-! ## Maps in insertion order -/

/-- A map whose rows hold their own keys, in the order in which the keys came. -/
structure Records {α : Type u} {κ : Type v} (key : α → κ) where
  rows : List α
  keyed : Table.Keyed key rows

namespace Records

universe u v

variable {α : Type u} {κ : Type v} [DecidableEq κ] {key : α → κ}

omit [DecidableEq κ] in
@[ext] theorem ext {m m' : Records key} (h : m.rows = m'.rows) : m = m' := by
  cases m
  cases m'
  subst h
  rfl

def empty : Records key := ⟨[], .nil⟩

def get (m : Records key) (k : κ) : Option α := Table.lookup key k m.rows

def has (m : Records key) (k : κ) : Bool := (m.get k).isSome

/-- A new key goes to the end; an old one keeps its place. -/
def set (m : Records key) (r : α) : Records key := ⟨Table.put key r m.rows, m.keyed.put⟩

def filter (m : Records key) (p : α → Bool) : Records key := ⟨m.rows.filter p, m.keyed.filter⟩

def delete (m : Records key) (k : κ) : Records key := m.filter fun r => key r ≠ k

omit [DecidableEq κ] in
@[simp] theorem rows_empty : (empty : Records key).rows = [] := rfl

@[simp] theorem rows_set (m : Records key) (r : α) : (m.set r).rows = Table.put key r m.rows := rfl

omit [DecidableEq κ] in
@[simp] theorem rows_filter (m : Records key) (p : α → Bool) : (m.filter p).rows = m.rows.filter p := rfl

theorem has_iff {m : Records key} {k : κ} : m.has k = true ↔ k ∈ m.rows.map key := Table.lookup_isSome_iff

theorem rows_set_new {m : Records key} {r : α} (h : m.has (key r) = false) : (m.set r).rows = m.rows ++ [r] := by
  have hnone : m.get (key r) = none := by
    rw [← Option.isNone_iff_eq_none, ← Option.not_isSome, Bool.not_eq_true']
    exact h
  rw [rows_set, Table.put, show Table.lookup key (key r) m.rows = none from hnone]

/-- Rows with new keys, each of which is taken by itself, are taken one after another. -/
theorem foldSteps_set {ε : Type*} {β : Type u} {f : Records key → β → Except ε (Records key)} {entry : β → α}
    {xs : List β} {m : Records key} (step : ∀ x ∈ xs, ∀ m, m.has (key (entry x)) = false → f m x = .ok (m.set (entry x)))
    (hkeys : (xs.map fun x => key (entry x)).Nodup) (hnew : ∀ x ∈ xs, m.has (key (entry x)) = false) :
    ∃ m', foldSteps f m xs = .ok m' ∧ m'.rows = m.rows ++ xs.map entry := by
  induction xs generalizing m with
  | nil => exact ⟨m, rfl, (List.append_nil _).symm⟩
  | cons x rest ih =>
    rw [List.map_cons, List.nodup_cons] at hkeys
    obtain ⟨hfirst, hrest⟩ := hkeys
    have hnewx := hnew x List.mem_cons_self
    have hrows := rows_set_new hnewx
    have hstill : ∀ y ∈ rest, (m.set (entry x)).has (key (entry y)) = false := by
      intro y hy
      rw [Bool.eq_false_iff]
      intro hhas
      have hmem := has_iff.mp hhas
      rw [hrows, List.map_append, List.mem_append] at hmem
      rcases hmem with hold | hlast
      · rw [← has_iff, hnew y (List.mem_cons_of_mem _ hy)] at hold
        exact absurd hold (by simp)
      · rw [List.map_singleton, List.mem_singleton] at hlast
        rw [← hlast] at hfirst
        exact hfirst (List.mem_map_of_mem (f := fun x => key (entry x)) hy)
    obtain ⟨m', hfold, hall⟩ := ih (fun y hy => step y (List.mem_cons_of_mem _ hy)) hrest hstill
    refine ⟨m', ?_, ?_⟩
    · rw [foldSteps, step x List.mem_cons_self m hnewx]
      exact hfold
    · rw [hall, hrows, List.append_assoc]
      rfl

end Records

end Lib
end Qlong
