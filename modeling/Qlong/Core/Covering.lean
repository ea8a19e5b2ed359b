import Qlong.Core.Caps

/-!
# Tags that cover each other

A tag is covered by another when a node that owns only the other meets it. Covering is reflexive, on the
tags that parse, and transitive: class and value are compared whole, a version by its segments, and a
segment by its number or its text. Lists of tags inherit it (`matchCaps_trans`).
-/

namespace Qlong
namespace Caps

/-- The version an owner states meets the one that is required. -/
def Answers : Option (List String) → Option (List String) → Prop
  | none, _ => True
  | some _, none => False
  | some req, some own => versionMatch req own = true

theorem segmentMatch_iff {r o : String} : segmentMatch r o = true ↔
    (isNumeric r = true ∧ isNumeric o = true ∧ numberOf r = numberOf o) ∨ r = o := by
  unfold segmentMatch
  split
  · rename_i h
    rw [Bool.and_eq_true] at h
    rw [decide_eq_true_eq]
    constructor
    · intro hsame
      exact Or.inl ⟨h.1, h.2, hsame⟩
    · intro hcases
      cases hcases with
      | inl hnumbers => exact hnumbers.2.2
      | inr htext => rw [htext]
  · rename_i h
    rw [Bool.and_eq_true] at h
    rw [decide_eq_true_eq]
    exact ⟨Or.inr, fun hcases => hcases.resolve_left fun hnumbers => h ⟨hnumbers.1, hnumbers.2.1⟩⟩

theorem segmentMatch_refl (s : String) : segmentMatch s s = true := segmentMatch_iff.mpr (Or.inr rfl)

theorem segmentMatch_trans {a b c : String} (hab : segmentMatch a b = true) (hbc : segmentMatch b c = true) :
    segmentMatch a c = true := by
  rw [segmentMatch_iff] at hab hbc ⊢
  cases hab with
  | inr htext => exact htext ▸ hbc
  | inl hnumbers =>
    cases hbc with
    | inr htext => exact Or.inl (htext ▸ hnumbers)
    | inl hmore => exact Or.inl ⟨hnumbers.1, hmore.2.1, hnumbers.2.2.trans hmore.2.2⟩

@[simp] theorem versionMatch_nil {own : List String} : versionMatch [] own = true := by
  unfold versionMatch
  rw [List.zip_nil_left]
  exact Bool.and_eq_true_iff.mpr ⟨decide_eq_true (Nat.zero_le _), rfl⟩

theorem versionMatch_cons {r : String} {req own : List String} : versionMatch (r :: req) own = true ↔
    ∃ o rest, own = o :: rest ∧ segmentMatch r o = true ∧ versionMatch req rest = true := by
  cases own with
  | nil => simp [versionMatch]
  | cons o rest =>
    simp only [versionMatch, List.length_cons, List.zip_cons_cons, List.all_cons, Bool.and_eq_true, decide_eq_true_eq,
      Nat.add_le_add_iff_right, List.cons.injEq]
    constructor
    · intro h
      exact ⟨o, rest, ⟨rfl, rfl⟩, h.2.1, h.1, h.2.2⟩
    · rintro ⟨_, _, ⟨rfl, rfl⟩, hfirst, hlength, hrest⟩
      exact ⟨hlength, hfirst, hrest⟩

theorem versionMatch_refl (v : List String) : versionMatch v v = true := by
  induction v with
  | nil => exact versionMatch_nil
  | cons s rest ih => exact versionMatch_cons.mpr ⟨s, rest, rfl, segmentMatch_refl s, ih⟩

/-- Versions are met through a third, as far as the first was written. -/
theorem versionMatch_trans {a b c : List String} (hab : versionMatch a b = true) (hbc : versionMatch b c = true) :
    versionMatch a c = true := by
  induction a generalizing b c with
  | nil => exact versionMatch_nil
  | cons s rest ih =>
    obtain ⟨t, more, rfl, hst, hrest⟩ := versionMatch_cons.mp hab
    obtain ⟨u, last, rfl, htu, hmore⟩ := versionMatch_cons.mp hbc
    exact versionMatch_cons.mpr ⟨u, last, rfl, segmentMatch_trans hst htu, ih hrest hmore⟩

theorem Answers.refl (v : Option (List String)) : Answers v v := by
  cases v with
  | none => trivial
  | some v => exact versionMatch_refl v

theorem Answers.trans {a b c : Option (List String)} (hab : Answers a b) (hbc : Answers b c) : Answers a c := by
  cases a with
  | none => trivial
  | some a =>
    cases b with
    | none => exact hab.elim
    | some b =>
      cases c with
      | none => exact hbc.elim
      | some c => exact versionMatch_trans hab hbc

/-- **One tag meets a requirement**: of one class, and of a known class with one value and a version that
    answers, of an unknown class the same text. -/
theorem meets_iff {p q : String} {r : ParsedTag} : meets p r q = true ↔ ∃ o, parseTag q = some o ∧ o.cls = r.cls ∧
    (r.cls ∈ knownCapClasses → o.value = r.value ∧ Answers r.version o.version) ∧ (r.cls ∉ knownCapClasses → q = p) := by
  unfold meets
  cases hq : parseTag q with
  | none => simp
  | some o =>
    simp only [Option.some.injEq, exists_eq_left', Bool.and_eq_true, decide_eq_true_eq]
    apply and_congr_right
    intro _
    by_cases hknown : r.cls ∈ knownCapClasses
    · rw [if_pos hknown, Bool.and_eq_true, decide_eq_true_eq]
      -- what is left is whether the version answers
      have hparts : ∀ {b c : Prop}, (b ↔ Answers r.version o.version) → (o.value = r.value ∧ b ↔
          (r.cls ∈ knownCapClasses → o.value = r.value ∧ Answers r.version o.version) ∧ (r.cls ∉ knownCapClasses → c)) := by
        intro b c hversion
        constructor
        · intro h
          exact ⟨fun _ => ⟨h.1, hversion.mp h.2⟩, fun hnot => absurd hknown hnot⟩
        · intro h
          exact ⟨(h.1 hknown).1, hversion.mpr (h.1 hknown).2⟩
      apply hparts
      cases r.version with
      | none => exact iff_of_true rfl trivial
      | some rv =>
        cases o.version with
        | none => exact iff_of_false Bool.false_ne_true id
        | some pv => exact Iff.rfl
    · rw [if_neg hknown, decide_eq_true_eq]
      exact ⟨fun h => ⟨fun hin => absurd hin hknown, fun _ => h⟩, fun h => h.2 hknown⟩

/-- **One tag covers another.** -/
theorem matchOne_singleton {p q : String} : matchOne p [q] = true ↔
    ∃ r o, parseTag p = some r ∧ parseTag q = some o ∧ o.cls = r.cls ∧
      (r.cls ∈ knownCapClasses → o.value = r.value ∧ Answers r.version o.version) ∧ (r.cls ∉ knownCapClasses → q = p) := by
  unfold matchOne
  cases hp : parseTag p with
  | none => simp
  | some r =>
    dsimp only
    rw [List.any_cons, List.any_nil, Bool.or_false, meets_iff]
    simp

/-- A list meets a tag when one of its tags does. -/
theorem matchOne_iff {p : String} {owned : List String} : matchOne p owned = true ↔ ∃ q ∈ owned, matchOne p [q] = true := by
  unfold matchOne
  cases parseTag p with
  | none => simp
  | some r => simp

theorem matchOne_refl {p : String} (h : (parseTag p).isSome = true) : matchOne p [p] = true := by
  obtain ⟨r, hr⟩ := Option.isSome_iff_exists.mp h
  exact matchOne_singleton.mpr ⟨r, r, hr, hr, rfl, fun _ => ⟨rfl, Answers.refl _⟩, fun _ => rfl⟩

theorem matchOne_trans {p q s : String} (hpq : matchOne p [q] = true) (hqs : matchOne q [s] = true) :
    matchOne p [s] = true := by
  obtain ⟨r, o, hp, hq, hcls, hknown, hunknown⟩ := matchOne_singleton.mp hpq
  obtain ⟨o', t, hq', hs, hcls', hknown', hunknown'⟩ := matchOne_singleton.mp hqs
  obtain rfl := Option.some.inj (hq.symm.trans hq')
  refine matchOne_singleton.mpr ⟨r, t, hp, hs, hcls'.trans hcls, fun hin => ?_, fun hout => ?_⟩
  · have hfirst := hknown hin
    have hsecond := hknown' (hcls.symm ▸ hin)
    exact ⟨hsecond.1.trans hfirst.1, hfirst.2.trans hsecond.2⟩
  · exact (hunknown' (hcls.symm ▸ hout)).trans (hunknown hout)

theorem matchCaps_iff {required owned : List String} :
    matchCaps required owned = true ↔ ∀ r ∈ required, matchOne r owned = true := by
  unfold matchCaps missing
  rw [List.isEmpty_iff, List.filter_eq_nil_iff]
  simp

theorem matchCaps_mono {required owned more : List String} (hsub : owned ⊆ more) (h : matchCaps required owned = true) :
    matchCaps required more = true := by
  rw [matchCaps_iff] at h ⊢
  intro r hr
  obtain ⟨q, hq, hcovers⟩ := matchOne_iff.mp (h r hr)
  exact matchOne_iff.mpr ⟨q, hsub hq, hcovers⟩

theorem matchCaps_anti {required fewer owned : List String} (hsub : fewer ⊆ required) (h : matchCaps required owned = true) :
    matchCaps fewer owned = true := by
  rw [matchCaps_iff] at h ⊢
  intro r hr
  exact h r (hsub hr)

/-- **What is met by tags that are met is met.** -/
theorem matchCaps_trans {required visible own : List String} (hvisible : matchCaps required visible = true)
    (hown : matchCaps visible own = true) : matchCaps required own = true := by
  rw [matchCaps_iff] at hvisible hown ⊢
  intro r hr
  obtain ⟨q, hq, hcovers⟩ := matchOne_iff.mp (hvisible r hr)
  obtain ⟨s, hs, hmore⟩ := matchOne_iff.mp (hown q hq)
  exact matchOne_iff.mpr ⟨s, hs, matchOne_trans hcovers hmore⟩

end Caps
end Qlong
