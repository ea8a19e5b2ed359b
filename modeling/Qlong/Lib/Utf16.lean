import Mathlib.Data.List.Basic

/-!
# Strings of 16-bit units

A string of a language that counts in UTF-16 is a list of 16-bit units, and nothing keeps a unit of a
surrogate pair from standing alone. Text is a list of characters: every text has its units (`encode`), but
only units without lone surrogates are those of a text. `decode` reads units as text all the same, with the
replacement character for each lone surrogate, as an encoder does that may not fail.

**`encode_decode_iff`** says when nothing is lost: decoding and encoding again gives the units back exactly when
none of them is a lone surrogate. The other way round nothing is ever lost (`decode_encode`).
-/

namespace Qlong
namespace Lib

/-- A string as its 16-bit units. -/
abbrev Utf16 := List UInt16

namespace Utf16

/-! ## Units and characters -/

/-- The first half of a surrogate pair. -/
def isHigh (u : UInt16) : Bool := decide (0xd800 ≤ u.toNat ∧ u.toNat < 0xdc00)

/-- The second half of a surrogate pair. -/
def isLow (u : UInt16) : Bool := decide (0xdc00 ≤ u.toNat ∧ u.toNat < 0xe000)

/-- The units of a character: one, or a pair beyond the basic plane. -/
def unitsOf (c : Char) : Utf16 :=
  if c.toNat < 0x10000 then [UInt16.ofNat c.toNat]
  else [UInt16.ofNat (0xd800 + (c.toNat - 0x10000) / 0x400), UInt16.ofNat (0xdc00 + (c.toNat - 0x10000) % 0x400)]

def encode (s : String) : Utf16 := s.toList.flatMap unitsOf

/-- U+FFFD. -/
def replacement : Char := Char.ofNat 0xfffd

/-- The character of a unit that is half of no pair. -/
def charOf (u : UInt16) : Char := if isHigh u || isLow u then replacement else Char.ofNat u.toNat

/-- The character of a pair. -/
def pairOf (hi lo : UInt16) : Char := Char.ofNat (0x10000 + (hi.toNat - 0xd800) * 0x400 + (lo.toNat - 0xdc00))

def chars : Utf16 → List Char
  | [] => []
  | [u] => [charOf u]
  | u :: v :: rest => if isHigh u && isLow v then pairOf u v :: chars rest else charOf u :: chars (v :: rest)

/-- The text of the units, U+FFFD for each lone surrogate. -/
def decode (units : Utf16) : String := String.ofList (chars units)

/-- No unit is a lone surrogate. -/
def wellFormed : Utf16 → Bool
  | [] => true
  | [u] => !isHigh u && !isLow u
  | u :: v :: rest => if isHigh u && isLow v then wellFormed rest else !isHigh u && !isLow u && wellFormed (v :: rest)

/-! ## One character -/

variable {c : Char} {u v : UInt16} {units rest : Utf16}

theorem toNat_ofNat {n : Nat} (h : n < 0x10000) : (UInt16.ofNat n).toNat = n := by
  rw [UInt16.toNat_ofNat']
  exact Nat.mod_eq_of_lt h

/-- A character is no surrogate and lies in the code space. -/
theorem char_range (c : Char) : c.toNat < 0xd800 ∨ 0xdfff < c.toNat ∧ c.toNat < 0x110000 := by
  have hvalid := c.valid
  simp only [UInt32.isValidChar, Nat.isValidChar] at hvalid
  exact hvalid

theorem toNat_char {n : Nat} (h : n < 0xd800 ∨ 0xdfff < n ∧ n < 0x110000) : (Char.ofNat n).toNat = n := by
  have hvalid : n.isValidChar := h
  rw [Char.ofNat, dif_pos hvalid]
  exact BitVec.toNat_ofNatLT n _

theorem unitsOf_basic (h : c.toNat < 0x10000) : ∃ u, unitsOf c = [u] ∧ isHigh u = false ∧ isLow u = false ∧
    u.toNat = c.toNat := by
  have hn := toNat_ofNat h
  have hc := char_range c
  refine ⟨UInt16.ofNat c.toNat, if_pos h, ?_, ?_, hn⟩
  · rw [isHigh, hn, decide_eq_false_iff_not]
    omega
  · rw [isLow, hn, decide_eq_false_iff_not]
    omega

theorem unitsOf_pair (h : ¬ c.toNat < 0x10000) : ∃ hi lo, unitsOf c = [hi, lo] ∧ isHigh hi = true ∧ isLow lo = true ∧
    pairOf hi lo = c := by
  have hc := char_range c
  have hhi : (UInt16.ofNat (0xd800 + (c.toNat - 0x10000) / 0x400)).toNat = 0xd800 + (c.toNat - 0x10000) / 0x400 :=
    toNat_ofNat (by omega)
  have hlo : (UInt16.ofNat (0xdc00 + (c.toNat - 0x10000) % 0x400)).toNat = 0xdc00 + (c.toNat - 0x10000) % 0x400 :=
    toNat_ofNat (by omega)
  refine ⟨_, _, if_neg h, ?_, ?_, ?_⟩
  · rw [isHigh, hhi, decide_eq_true_eq]
    omega
  · rw [isLow, hlo, decide_eq_true_eq]
    omega
  · rw [pairOf, hhi, hlo]
    have hsum : 0x10000 + (0xd800 + (c.toNat - 0x10000) / 0x400 - 0xd800) * 0x400 +
        (0xdc00 + (c.toNat - 0x10000) % 0x400 - 0xdc00) = c.toNat := by omega
    rw [hsum, Char.ofNat_toNat]

/-- A unit that is no surrogate is the unit of its character. -/
theorem unitsOf_charOf (hhigh : isHigh u = false) (hlow : isLow u = false) : unitsOf (charOf u) = [u] := by
  have hbound := u.toNat_lt
  rw [isHigh, decide_eq_false_iff_not] at hhigh
  rw [isLow, decide_eq_false_iff_not] at hlow
  have hn : (Char.ofNat u.toNat).toNat = u.toNat := toNat_char (by omega)
  have hchar : charOf u = Char.ofNat u.toNat := by
    unfold charOf isHigh isLow
    rw [if_neg]
    simp only [Bool.or_eq_true, decide_eq_true_eq]
    omega
  rw [hchar, unitsOf, hn, if_pos (by omega), UInt16.ofNat_toNat]

/-- A lone surrogate is not a unit of the character it is read as. -/
theorem unitsOf_lone (h : isHigh u = true ∨ isLow u = true) : ∃ w, unitsOf (charOf u) = [w] ∧ w ≠ u := by
  have hchar : charOf u = replacement := by
    unfold charOf
    rw [if_pos (by simpa using h)]
  refine ⟨0xfffd, by rw [hchar]; decide, ?_⟩
  rintro rfl
  revert h
  decide

theorem unitsOf_pairOf (hhigh : isHigh u = true) (hlow : isLow v = true) : unitsOf (pairOf u v) = [u, v] := by
  rw [isHigh, decide_eq_true_eq] at hhigh
  rw [isLow, decide_eq_true_eq] at hlow
  have hn : (pairOf u v).toNat = 0x10000 + (u.toNat - 0xd800) * 0x400 + (v.toNat - 0xdc00) := by
    unfold pairOf
    exact toNat_char (by omega)
  have hu : 0xd800 + ((pairOf u v).toNat - 0x10000) / 0x400 = u.toNat := by omega
  have hv : 0xdc00 + ((pairOf u v).toNat - 0x10000) % 0x400 = v.toNat := by omega
  rw [unitsOf, if_neg (by omega), hu, hv, UInt16.ofNat_toNat, UInt16.ofNat_toNat]

/-! ## Whole strings -/

/-- Units that are half of no pair at the front are read one by one. -/
theorem chars_single (h : isHigh u = false) : chars (u :: rest) = charOf u :: chars rest := by
  cases rest with
  | nil => rfl
  | cons v rest => rw [chars, if_neg (by simp [h])]

theorem chars_pair (hhigh : isHigh u = true) (hlow : isLow v = true) : chars (u :: v :: rest) = pairOf u v :: chars rest := by
  rw [chars, if_pos (by simp [hhigh, hlow])]

/-- Text is read back from its units. -/
theorem decode_encode (s : String) : decode (encode s) = s := by
  have hchars : ∀ cs : List Char, chars (cs.flatMap unitsOf) = cs := by
    intro cs
    induction cs with
    | nil => rfl
    | cons c cs ih =>
      rw [List.flatMap_cons]
      by_cases hc : c.toNat < 0x10000
      · obtain ⟨u, hunits, hhigh, hlow, hu⟩ := unitsOf_basic hc
        have hchar : charOf u = c := by
          rw [charOf, hhigh, hlow, if_neg (by decide), hu, Char.ofNat_toNat]
        rw [hunits, List.singleton_append, chars_single hhigh, ih, hchar]
      · obtain ⟨hi, lo, hunits, hhigh, hlow, hpair⟩ := unitsOf_pair hc
        rw [hunits, List.cons_append, List.singleton_append, chars_pair hhigh hlow, ih, hpair]
  unfold decode encode
  rw [hchars, String.ofList_toList]

theorem encode_injective {s t : String} (h : encode s = encode t) : s = t := by
  rw [← decode_encode s, h, decode_encode]

theorem encode_decode (units : Utf16) : encode (decode units) = (chars units).flatMap unitsOf := by
  rw [encode, decode, String.toList_ofList]

/-- **When units are those of a text**: none of them is a lone surrogate. -/
theorem encode_decode_iff : encode (decode units) = units ↔ wellFormed units = true := by
  rw [encode_decode]
  induction units using chars.induct with
  | case1 => simp [chars, wellFormed]
  | case2 u =>
    simp only [chars, wellFormed, List.flatMap_cons, List.flatMap_nil, List.append_nil]
    by_cases hlone : isHigh u = true ∨ isLow u = true
    · obtain ⟨w, hunits, hne⟩ := unitsOf_lone hlone
      rw [hunits]
      rcases hlone with h | h <;> simp [hne, h]
    · simp only [not_or, Bool.not_eq_true] at hlone
      rw [unitsOf_charOf hlone.1 hlone.2]
      simp [hlone]
  | case3 u v rest hpair ih =>
    rw [Bool.and_eq_true] at hpair
    rw [chars_pair hpair.1 hpair.2, wellFormed, if_pos (by simp [hpair]), List.flatMap_cons,
      unitsOf_pairOf hpair.1 hpair.2, ← ih]
    simp
  | case4 u v rest hpair ih =>
    rw [chars, if_neg hpair, wellFormed, if_neg hpair, List.flatMap_cons]
    by_cases hlone : isHigh u = true ∨ isLow u = true
    · obtain ⟨w, hunits, hne⟩ := unitsOf_lone hlone
      rw [hunits, List.singleton_append]
      rcases hlone with h | h <;> simp [hne, h]
    · simp only [not_or, Bool.not_eq_true] at hlone
      rw [unitsOf_charOf hlone.1 hlone.2, List.singleton_append, List.cons_inj_right, ih]
      simp [hlone]

theorem wellFormed_encode (s : String) : wellFormed (encode s) = true :=
  encode_decode_iff.mp (congrArg encode (decode_encode s))

/-- The zero unit is that of the NUL character only. -/
theorem zero_mem_encode {s : String} : 0 ∈ encode s ↔ ∃ c ∈ s.toList, c.toNat = 0 := by
  have hzero : ∀ c : Char, 0 ∈ unitsOf c ↔ c.toNat = 0 := by
    intro c
    by_cases hc : c.toNat < 0x10000
    · obtain ⟨u, hunits, -, -, hu⟩ := unitsOf_basic hc
      rw [hunits, List.mem_singleton, ← hu, ← UInt16.toNat_inj]
      exact eq_comm
    · obtain ⟨hi, lo, hunits, hhigh, hlow, -⟩ := unitsOf_pair hc
      rw [hunits, List.mem_pair]
      refine iff_of_false ?_ (by omega)
      rintro (rfl | rfl)
      · exact absurd hhigh (by decide)
      · exact absurd hlow (by decide)
  simp only [encode, List.mem_flatMap, hzero]

end Utf16
end Lib
end Qlong
