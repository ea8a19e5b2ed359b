import Mathlib.Algebra.GroupWithZero.Nat
import Mathlib.Data.List.Basic
import Mathlib.Data.List.Nodup

/-!
# Keyed tables

A table is a list of rows in insertion order; a key function names the primary key. The
operations are the four a relational store uses: look a row up by key, append a row, change
the rows of a key, drop rows. `Keyed` is the primary-key constraint.

`key` stays a parameter throughout: one table may be read under more than one key.
-/

namespace Qlong
namespace Lib
namespace Table

universe u v

variable {α : Type u} {κ : Type v} [DecidableEq κ] {key : α → κ}

/-- The row of key `k`, if any. -/
def lookup (key : α → κ) (k : κ) (rows : List α) : Option α :=
  rows.find? fun r => key r = k

/-- Replace every row of key `k` by `f` of it. -/
def modify (key : α → κ) (k : κ) (f : α → α) (rows : List α) : List α :=
  rows.map fun r => if key r = k then f r else r

/-- Write a row: in the place its key has, or at the end. -/
def put (key : α → κ) (r : α) (rows : List α) : List α :=
  match lookup key (key r) rows with
  | some _ => modify key (key r) (fun _ => r) rows
  | none => rows ++ [r]

/-- Drop every row of key `k`. -/
def remove (key : α → κ) (k : κ) (rows : List α) : List α :=
  rows.filter fun r => key r ≠ k

/-- The primary-key constraint. -/
def Keyed (key : α → κ) (rows : List α) : Prop := (rows.map key).Nodup

/-! ## Looking a row up -/

@[simp] theorem lookup_nil (k : κ) : lookup key k ([] : List α) = none := rfl

theorem lookup_some_mem {k : κ} {rows : List α} {r : α} (h : lookup key k rows = some r) :
    r ∈ rows := List.mem_of_find?_eq_some h

theorem lookup_some_key {k : κ} {rows : List α} {r : α} (h : lookup key k rows = some r) :
    key r = k := by
  have := List.find?_some h
  simpa using this

theorem lookup_none_iff {k : κ} {rows : List α} :
    lookup key k rows = none ↔ ∀ r ∈ rows, key r ≠ k := by
  simp [lookup]

theorem lookup_append {k : κ} {rows more : List α} :
    lookup key k (rows ++ more) = (lookup key k rows).or (lookup key k more) := by
  simp [lookup]

theorem lookup_append_single {k : κ} {rows : List α} {r : α} :
    lookup key k (rows ++ [r]) = (lookup key k rows).or (if key r = k then some r else none) := by
  rw [lookup_append]
  congr 1
  by_cases h : key r = k <;> simp [lookup, h]

/-- Appending a row of a fresh key: that key now reads the row. -/
theorem lookup_append_new {k : κ} {rows : List α} {r : α} (hr : key r = k)
    (h : lookup key k rows = none) : lookup key k (rows ++ [r]) = some r := by
  simp [lookup_append_single, h, hr]

/-- Appending a row leaves every other key alone. -/
theorem lookup_append_other {k : κ} {rows : List α} {r : α} (h : key r ≠ k) :
    lookup key k (rows ++ [r]) = lookup key k rows := by
  simp [lookup_append_single, h]

theorem lookup_of_mem {rows : List α} (hk : Keyed key rows) {r : α} (hr : r ∈ rows) :
    lookup key (key r) rows = some r := by
  induction rows with
  | nil => exact absurd hr (by simp)
  | cons x rest ih =>
    unfold Keyed at hk
    rw [List.map_cons, List.nodup_cons] at hk
    rcases List.mem_cons.mp hr with rfl | hr
    · simp [lookup]
    · have hne : key x ≠ key r := fun h => hk.1 (h ▸ List.mem_map_of_mem hr)
      have := ih hk.2 hr
      simpa [lookup, hne] using this

theorem lookup_iff_mem {rows : List α} (hk : Keyed key rows) {k : κ} {r : α} :
    lookup key k rows = some r ↔ r ∈ rows ∧ key r = k :=
  ⟨fun h => ⟨lookup_some_mem h, lookup_some_key h⟩, fun ⟨hr, h⟩ => h ▸ lookup_of_mem hk hr⟩

/-- Under the primary-key constraint a key has the one row `lookup` answers. -/
theorem filter_key {rows : List α} (hk : Keyed key rows) {k : κ} :
    (rows.filter fun r => key r = k) = (lookup key k rows).toList := by
  induction rows with
  | nil => rfl
  | cons x rest ih =>
    unfold Keyed at hk
    rw [List.map_cons, List.nodup_cons] at hk
    by_cases hx : key x = k
    · subst hx
      have hrest : (rest.filter fun r => key r = key x) = [] := by
        rw [List.filter_eq_nil_iff]
        intro r hr h
        exact hk.1 (of_decide_eq_true h ▸ List.mem_map_of_mem hr)
      simp [lookup, hrest]
    · have := ih hk.2
      simpa [lookup, hx] using this

/-! ## Changing the rows of a key -/

theorem lookup_modify {f : α → α} (hf : ∀ r, key (f r) = key r) {k k' : κ} {rows : List α} :
    lookup key k (modify key k' f rows)
      = if k = k' then (lookup key k rows).map f else lookup key k rows := by
  induction rows with
  | nil => simp [modify]
  | cons x rest ih =>
    unfold modify lookup at ih ⊢
    rw [List.map_cons, List.find?_cons, List.find?_cons]
    by_cases hx : key x = k'
    · rw [if_pos hx, hf]
      by_cases hk : key x = k
      · have hkk : k = k' := hk ▸ hx
        simp [hk, hkk]
      · simp only [hk, decide_false]
        exact ih
    · rw [if_neg hx]
      by_cases hk : key x = k
      · have hkk : k ≠ k' := fun h => hx (hk.trans h)
        simp [hk, hkk]
      · simp only [hk, decide_false]
        exact ih

theorem lookup_modify_self {f : α → α} (hf : ∀ r, key (f r) = key r) {k : κ} {rows : List α} :
    lookup key k (modify key k f rows) = (lookup key k rows).map f := by
  rw [lookup_modify hf, if_pos rfl]

theorem lookup_modify_other {f : α → α} (hf : ∀ r, key (f r) = key r) {k k' : κ}
    {rows : List α} (h : k ≠ k') :
    lookup key k (modify key k' f rows) = lookup key k rows := by
  rw [lookup_modify hf, if_neg h]

theorem mem_modify {f : α → α} {k : κ} {rows : List α} {r : α} :
    r ∈ modify key k f rows ↔ ∃ x ∈ rows, (if key x = k then f x else x) = r := by
  simp [modify]

@[simp] theorem length_modify {f : α → α} {k : κ} {rows : List α} :
    (modify key k f rows).length = rows.length := by simp [modify]

theorem map_key_modify {f : α → α} (hf : ∀ r, key (f r) = key r) {k : κ} {rows : List α} :
    (modify key k f rows).map key = rows.map key := by
  unfold modify
  rw [List.map_map]
  apply List.map_congr_left
  intro r _
  by_cases h : key r = k <;> simp [h, hf]

/-- A change of a key no row has is no change. -/
theorem modify_absent {f : α → α} {k : κ} {rows : List α} (h : lookup key k rows = none) :
    modify key k f rows = rows := by
  rw [lookup_none_iff] at h
  unfold modify
  conv_rhs => rw [← List.map_id rows]
  apply List.map_congr_left
  intro r hr
  simp [h r hr]

/-! ## Writing a row -/

theorem mem_put {r x : α} {rows : List α} :
    x ∈ put key r rows ↔ x = r ∨ (x ∈ rows ∧ key x ≠ key r) := by
  unfold put
  cases h : lookup key (key r) rows with
  | none =>
    rw [lookup_none_iff] at h
    simp only [List.mem_append, List.mem_singleton]
    constructor
    · rintro (hx | rfl)
      · exact Or.inr ⟨hx, h x hx⟩
      · exact Or.inl rfl
    · rintro (rfl | ⟨hx, -⟩)
      · exact Or.inr rfl
      · exact Or.inl hx
  | some old =>
    have hold := lookup_some_mem h
    simp only [mem_modify]
    constructor
    · rintro ⟨y, hy, rfl⟩
      by_cases hk : key y = key r
      · exact Or.inl (if_pos hk)
      · rw [if_neg hk]
        exact Or.inr ⟨hy, hk⟩
    · rintro (rfl | ⟨hx, hk⟩)
      · exact ⟨old, hold, if_pos (lookup_some_key h)⟩
      · exact ⟨x, hx, if_neg hk⟩

theorem map_key_put {r : α} {rows : List α} :
    (put key r rows).map key
      = if (lookup key (key r) rows).isSome then rows.map key else rows.map key ++ [key r] := by
  unfold put
  cases h : lookup key (key r) rows with
  | none => simp
  | some old =>
    simp only [modify, List.map_map, Option.isSome_some, if_true]
    apply List.map_congr_left
    intro x _
    by_cases hk : key x = key r <;> simp [hk]

theorem Keyed.put {r : α} {rows : List α} (h : Keyed key rows) : Keyed key (put key r rows) := by
  unfold Keyed at h ⊢
  rw [map_key_put]
  cases hl : lookup key (key r) rows with
  | some old => exact h
  | none =>
    rw [lookup_none_iff] at hl
    refine List.Nodup.append h (List.nodup_singleton _) ?_
    intro k hk1 hk2
    obtain ⟨x, hx, rfl⟩ := List.mem_map.mp hk1
    exact hl x hx (List.mem_singleton.mp hk2)

/-- What tells the rows apart still does when the new row is unlike those of other keys. -/
theorem nodup_map_put {β : Type*} {f : α → β} {r : α} {rows : List α} (hk : Keyed key rows) (h : (rows.map f).Nodup)
    (hnew : ∀ x ∈ rows, key x ≠ key r → f x ≠ f r) : ((put key r rows).map f).Nodup := by
  unfold put
  cases hfound : lookup key (key r) rows with
  | none =>
    have habsent : ∀ x ∈ rows, key x ≠ key r := lookup_none_iff.mp hfound
    rw [List.map_append, List.nodup_append]
    refine ⟨h, List.nodup_singleton _, ?_⟩
    intro a ha b hb
    obtain ⟨x, hx, rfl⟩ := List.mem_map.mp ha
    rw [List.map_singleton, List.mem_singleton] at hb
    subst hb
    exact hnew x hx (habsent x hx)
  | some old =>
    dsimp only
    unfold modify
    rw [List.map_map]
    refine List.Nodup.map_on ?_ (List.Nodup.of_map f h)
    intro x hx y hy hxy
    by_cases hxk : key x = key r
    · by_cases hyk : key y = key r
      · exact List.inj_on_of_nodup_map hk hx hy (hxk.trans hyk.symm)
      · simp only [Function.comp, if_pos hxk, if_neg hyk] at hxy
        exact absurd hxy.symm (hnew y hy hyk)
    · by_cases hyk : key y = key r
      · simp only [Function.comp, if_neg hxk, if_pos hyk] at hxy
        exact absurd hxy (hnew x hx hxk)
      · simp only [Function.comp, if_neg hxk, if_neg hyk] at hxy
        exact List.inj_on_of_nodup_map h hx hy hxy

theorem length_put_le {r : α} {rows : List α} : (put key r rows).length ≤ rows.length + 1 := by
  unfold put
  cases lookup key (key r) rows with
  | none => simp
  | some old => simp

theorem lookup_put {r : α} {rows : List α} (hk : Keyed key rows) (k : κ) :
    lookup key k (put key r rows) = if k = key r then some r else lookup key k rows := by
  by_cases h : k = key r
  · rw [if_pos h]
    exact (lookup_iff_mem hk.put).mpr ⟨mem_put.mpr (Or.inl rfl), h.symm⟩
  · rw [if_neg h]
    cases hl : lookup key k rows with
    | none =>
      rw [lookup_none_iff] at hl ⊢
      intro x hx
      rcases mem_put.mp hx with rfl | ⟨hx, -⟩
      · exact fun hk => h hk.symm
      · exact hl x hx
    | some x =>
      have hx := (lookup_iff_mem hk).mp hl
      refine (lookup_iff_mem hk.put).mpr ⟨mem_put.mpr (Or.inr ⟨hx.1, ?_⟩), hx.2⟩
      rw [hx.2]
      exact h

/-- A row that is put in its own place changes only what tells it from the row that was there. -/
theorem map_put_same {β : Type*} {f : α → β} {r o : α} {rows : List α} (hk : Keyed key rows)
    (h : lookup key (key r) rows = some o) (hf : f o = f r) : (put key r rows).map f = rows.map f := by
  rw [put, h]
  dsimp only
  unfold modify
  rw [List.map_map]
  apply List.map_congr_left
  intro x hx
  by_cases hid : key x = key r
  · have hx0 := lookup_of_mem hk hx
    rw [hid, h] at hx0
    obtain rfl := Option.some.inj hx0
    simp [Function.comp, hid, hf]
  · simp [Function.comp, hid]

theorem lookup_map {β : Type*} {key' : β → κ} {f : α → β} (hf : ∀ x, key' (f x) = key x) {k : κ} {rows : List α} :
    lookup key' k (rows.map f) = (lookup key k rows).map f := by
  unfold lookup
  rw [List.find?_map]
  congr 2
  funext x
  simp [hf]

/-- Two tables with the same keys are written alike. -/
theorem map_put {β : Type*} {key' : β → κ} {f : α → β} (hf : ∀ x, key' (f x) = key x) {r : α} {rows : List α} :
    (put key r rows).map f = put key' (f r) (rows.map f) := by
  have hlookup : lookup key' (key' (f r)) (rows.map f) = (lookup key (key r) rows).map f := by
    rw [lookup_map hf, hf]
  unfold put
  rw [hlookup]
  cases h : lookup key (key r) rows with
  | none => simp
  | some old =>
    simp only [modify, List.map_map, Option.map_some]
    apply List.map_congr_left
    intro x _
    by_cases hk : key x = key r <;> simp [hf, hk]

/-! ## Dropping rows -/

theorem lookup_filter {k : κ} {p : α → Bool} {rows : List α} (hk : Keyed key rows) :
    lookup key k (rows.filter p) = (lookup key k rows).filter p := by
  cases h : lookup key k rows with
  | none =>
    rw [Option.filter_none, lookup_none_iff]
    rw [lookup_none_iff] at h
    exact fun r hr => h r (List.mem_of_mem_filter hr)
  | some r =>
    have hkf : Keyed key (rows.filter p) := hk.sublist (List.filter_sublist.map key)
    have hmem := (lookup_iff_mem hk).mp h
    by_cases hp : p r
    · rw [Option.filter_some_pos hp]
      exact (lookup_iff_mem hkf).mpr ⟨List.mem_filter.mpr ⟨hmem.1, hp⟩, hmem.2⟩
    · rw [Option.filter_some_neg (by simpa using hp), lookup_none_iff]
      intro x hx hxk
      obtain ⟨hx, hpx⟩ := List.mem_filter.mp hx
      have : x = r := by
        have h1 := (lookup_iff_mem hk).mpr ⟨hx, hxk⟩
        rw [h] at h1
        exact (Option.some.inj h1).symm
      exact hp (this ▸ hpx)

theorem lookup_remove_self {k : κ} {rows : List α} : lookup key k (remove key k rows) = none := by
  rw [lookup_none_iff]
  intro r hr
  simpa using (List.mem_filter.mp hr).2

theorem lookup_remove_other {k k' : κ} {rows : List α} (h : k ≠ k') :
    lookup key k (remove key k' rows) = lookup key k rows := by
  unfold lookup remove
  rw [List.find?_filter]
  congr 1
  funext r
  by_cases hr : key r = k <;> simp [hr, h]

theorem mem_remove {k : κ} {rows : List α} {r : α} :
    r ∈ remove key k rows ↔ r ∈ rows ∧ key r ≠ k := by
  simp [remove]

/-! ## The primary key is kept -/

omit [DecidableEq κ] in
@[simp] theorem Keyed.nil : Keyed key ([] : List α) := List.nodup_nil

theorem Keyed.append {rows : List α} {r : α} (hk : Keyed key rows)
    (h : lookup key (key r) rows = none) : Keyed key (rows ++ [r]) := by
  unfold Keyed
  rw [List.map_append, List.map_singleton]
  refine List.Nodup.append hk (List.nodup_singleton _) ?_
  intro k hk1 hk2
  obtain ⟨x, hx, rfl⟩ := List.mem_map.mp hk1
  exact lookup_none_iff.mp h x hx (List.mem_singleton.mp hk2)

theorem Keyed.modify {f : α → α} (hf : ∀ r, key (f r) = key r) {k : κ} {rows : List α}
    (hk : Keyed key rows) : Keyed key (modify key k f rows) := by
  unfold Keyed
  rw [map_key_modify hf]
  exact hk

omit [DecidableEq κ] in
theorem Keyed.filter {p : α → Bool} {rows : List α} (hk : Keyed key rows) :
    Keyed key (rows.filter p) := hk.sublist (List.filter_sublist.map key)

theorem Keyed.remove {k : κ} {rows : List α} (hk : Keyed key rows) :
    Keyed key (remove key k rows) := hk.filter

/-! ## Counting rows -/

theorem countP_put {p : α → Bool} {r o : α} {rows : List α} (hk : Keyed key rows)
    (h : lookup key (key r) rows = some o) :
    (put key r rows).countP p + (if p o then 1 else 0) = rows.countP p + if p r then 1 else 0 := by
  rw [put, h]
  dsimp only
  induction rows with
  | nil => exact absurd h (by simp)
  | cons x rest ih =>
    unfold Keyed at hk
    rw [List.map_cons, List.nodup_cons] at hk
    by_cases hx : key x = key r
    · have hrest : lookup key (key r) rest = none := by
        rw [lookup_none_iff]
        intro y hy hyr
        exact hk.1 (hx.trans hyr.symm ▸ List.mem_map_of_mem hy)
      have hxo : x = o := by
        rw [lookup, List.find?_cons_of_pos (by simpa using hx)] at h
        exact Option.some.inj h
      have hsame := modify_absent (f := fun _ => r) hrest
      unfold modify at hsame ⊢
      rw [List.map_cons, hsame, if_pos hx, List.countP_cons, List.countP_cons, hxo]
      dsimp only
      omega
    · have hxo : lookup key (key r) rest = some o := by
        rw [lookup, List.find?_cons_of_neg (by simpa using hx)] at h
        exact h
      have hih := ih hk.2 hxo
      unfold modify at hih ⊢
      rw [List.map_cons, if_neg hx, List.countP_cons, List.countP_cons]
      omega

theorem countP_put_new {p : α → Bool} {r : α} {rows : List α} (h : lookup key (key r) rows = none) :
    (put key r rows).countP p = rows.countP p + if p r then 1 else 0 := by
  rw [put, h]
  simp [List.countP_append, List.countP_cons]

/-- Counting the items of each row that passes, or looking up the row of each item. -/
theorem sum_countP {β : Type*} {f : β → κ} {p : α → Bool} {rows : List α} (hk : Keyed key rows) (items : List β) :
    ((rows.filter p).map fun r => items.countP fun b => f b = key r).sum =
      items.countP fun b => (lookup key (f b) rows).any p := by
  induction items with
  | nil => simp
  | cons b rest ih =>
    have hone : ((rows.filter p).map fun r => if decide (f b = key r) = true then 1 else 0).sum =
        if (lookup key (f b) rows).any p then 1 else 0 := by
      have hcount : ∀ xs : List α, (xs.map fun r => if decide (f b = key r) = true then 1 else 0).sum =
          (xs.filter fun r => key r = f b).length := by
        intro xs
        induction xs with
        | nil => rfl
        | cons x xs ihx =>
          rw [List.map_cons, List.sum_cons, ihx, List.filter_cons]
          by_cases hx : key x = f b
          · simp [hx, Nat.add_comm]
          · have hxb : f b ≠ key x := fun h => hx h.symm
            simp [hx, hxb]
      rw [hcount, filter_key (Keyed.filter hk), lookup_filter hk]
      cases lookup key (f b) rows with
      | none => rfl
      | some r => cases hp : p r <;> simp [hp, Option.filter]
    have hadd : ∀ (g h : α → Nat) (xs : List α), (xs.map fun r => g r + h r).sum = (xs.map g).sum + (xs.map h).sum := by
      intro g h xs
      induction xs with
      | nil => rfl
      | cons x xs ihx =>
        simp only [List.map_cons, List.sum_cons, ihx]
        omega
    simp only [List.countP_cons]
    rw [hadd, ih, hone]

end Table
end Lib
end Qlong
