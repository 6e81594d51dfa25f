import Keel.Address

/-!
# Pages by their numbers

What the roundings of `Align` do, said of the values of words: rounding down to `2 ^ k` takes the last `k` bits off,
rounding up adds `2 ^ k - 1` first. For pages these are divisions by 4096 that `omega` can work with (`toNat_pageFloor`,
`pageCeil?_eq_some`, `pageCeil?_eq_none`), and inside a page an offset is added without a carry (`toNat_add_of_lt`). A
checked sum of an address and a length is the sum of their values (`add?_eq_some`).
-/

namespace Keel.Align

/-- The offset of a word in its block of `2 ^ k` and the rest of the word have no bit in common. -/
theorem and_not_two_pow_sub_one (n k : Nat) (hk : k ≤ 64) (hn : n < 2 ^ 64) :
    n &&& (2 ^ 64 - 1 - (2 ^ k - 1)) = n / 2 ^ k * 2 ^ k := by
  have hsucc : 2 ^ 64 - 1 - (2 ^ k - 1) = 2 ^ 64 - ((2 ^ k - 1) + 1) := by omega
  have hlt : 2 ^ k - 1 < 2 ^ 64 := by
    have := Nat.pow_le_pow_right (n := 2) (by decide) hk
    omega
  refine Nat.eq_of_testBit_eq fun i => ?_
  rw [Nat.testBit_and, hsucc, Nat.testBit_two_pow_sub_succ hlt, Nat.testBit_two_pow_sub_one, Nat.testBit_mul_two_pow,
    Nat.testBit_div_two_pow]
  by_cases hi : i < k
  · simp [hi, Nat.not_le.2 hi]
  · have hle : k ≤ i := Nat.le_of_not_lt hi
    by_cases h64 : i < 64
    · simp [hi, hle, h64]
    · have hb : n.testBit i = false :=
        Nat.testBit_lt_two_pow (Nat.lt_of_lt_of_le hn (Nat.pow_le_pow_right (by decide) (Nat.le_of_not_lt h64)))
      simp [hi, hle, h64, hb]

theorem toNat_two_pow {k : Nat} (hk : k < 64) : (UInt64.ofNat (2 ^ k)).toNat = 2 ^ k := by
  rw [UInt64.toNat_ofNat', Nat.mod_eq_of_lt (Nat.pow_lt_pow_right (by decide) hk)]

theorem toNat_two_pow_sub_one {k : Nat} (hk : k < 64) : (UInt64.ofNat (2 ^ k) - 1).toNat = 2 ^ k - 1 := by
  have h1 : (1 : UInt64) ≤ UInt64.ofNat (2 ^ k) := by
    rw [UInt64.le_iff_toNat_le, toNat_two_pow hk]
    exact Nat.one_le_two_pow
  rw [UInt64.toNat_sub_of_le _ _ h1, toNat_two_pow hk]
  rfl

/-- Rounding down takes the last bits off. -/
theorem toNat_floor {v : UInt64} {k : Nat} (hk : k < 64) :
    (floor v (UInt64.ofNat (2 ^ k))).toNat = v.toNat / 2 ^ k * 2 ^ k := by
  rw [floor, UInt64.toNat_and, UInt64.toNat_not, toNat_two_pow_sub_one hk]
  exact and_not_two_pow_sub_one _ _ (Nat.le_of_lt hk) v.toNat_lt

/-- Rounding up fails only where the sum with `2 ^ k - 1` does not fit a word. -/
theorem ceil?_eq_some {v w : UInt64} {k : Nat} (hk : k < 64) : ceil? v (UInt64.ofNat (2 ^ k)) = some w ↔
    v.toNat + (2 ^ k - 1) < 2 ^ 64 ∧ w.toNat = (v.toNat + (2 ^ k - 1)) / 2 ^ k * 2 ^ k := by
  unfold ceil? Word.add?
  rw [toNat_two_pow_sub_one hk]
  split
  · rename_i h
    have hv : (v + (UInt64.ofNat (2 ^ k) - 1)).toNat = v.toNat + (2 ^ k - 1) := by
      rw [UInt64.toNat_add, toNat_two_pow_sub_one hk, Nat.mod_eq_of_lt h]
    have hf := toNat_floor (v := v + (UInt64.ofNat (2 ^ k) - 1)) hk
    rw [floor, hv] at hf
    rw [Option.map_some, Option.some.injEq, ← UInt64.toNat_inj, hf]
    exact ⟨fun e => ⟨h, e.symm⟩, fun e => e.2.symm⟩
  · rename_i h
    exact ⟨fun e => absurd e (Option.some_ne_none w).symm, fun e => absurd e.1 h⟩

theorem ceil?_eq_none {v : UInt64} {k : Nat} (hk : k < 64) :
    ceil? v (UInt64.ofNat (2 ^ k)) = none ↔ 2 ^ 64 ≤ v.toNat + (2 ^ k - 1) := by
  rw [ceil?, Option.map_eq_none_iff, Word.add?_eq_none, toNat_two_pow_sub_one hk]

theorem isMultiple_iff {v : UInt64} {k : Nat} (hk : k < 64) :
    isMultiple v (UInt64.ofNat (2 ^ k)) = true ↔ v.toNat % 2 ^ k = 0 := by
  rw [isMultiple, beq_iff_eq, ← UInt64.toNat_inj, UInt64.toNat_and, toNat_two_pow_sub_one hk,
    Nat.and_two_pow_sub_one_eq_mod]
  rfl

/-! ## Pages -/

theorem page_eq : page = UInt64.ofNat (2 ^ 12) := rfl

private theorem two_pow_twelve : 2 ^ 12 = 4096 := rfl

theorem toNat_pageFloor (v : UInt64) : (pageFloor v).toNat = v.toNat / 4096 * 4096 := by
  rw [pageFloor, page_eq, toNat_floor (by decide), two_pow_twelve]

theorem pageCeil?_eq_some {v w : UInt64} :
    pageCeil? v = some w ↔ v.toNat + 4095 < 2 ^ 64 ∧ w.toNat = (v.toNat + 4095) / 4096 * 4096 := by
  rw [pageCeil?, page_eq, ceil?_eq_some (by decide), two_pow_twelve]

theorem pageCeil?_eq_none {v : UInt64} : pageCeil? v = none ↔ 2 ^ 64 ≤ v.toNat + 4095 := by
  rw [pageCeil?, page_eq, ceil?_eq_none (by decide), two_pow_twelve]

theorem isMultiple_page {v : UInt64} : isMultiple v page = true ↔ v.toNat % 4096 = 0 := by
  rw [page_eq, isMultiple_iff (by decide), two_pow_twelve]

theorem frameOf_eq (v : UInt64) : frameOf v = v.toNat / 4096 := rfl

theorem frameOf_pageFloor (v : UInt64) : frameOf (pageFloor v) = v.toNat / 4096 := by
  rw [frameOf_eq, toNat_pageFloor, Nat.mul_div_cancel _ (by decide)]

theorem frameOf_of_pageCeil? {v w : UInt64} (h : pageCeil? v = some w) : frameOf w = (v.toNat + 4095) / 4096 := by
  rw [frameOf_eq, (pageCeil?_eq_some.1 h).2, Nat.mul_div_cancel _ (by decide)]

theorem toNat_frameStart {f : Nat} (h : f < 2 ^ 52) : (frameStart f).toNat = f * 4096 := by
  rw [frameStart, UInt64.toNat_ofNat', Nat.mod_eq_of_lt (by simp only [Layout.pageSize]; omega)]
  rfl

theorem frameOf_frameStart {f : Nat} (h : f < 2 ^ 52) : frameOf (frameStart f) = f := by
  rw [frameOf_eq, toNat_frameStart h, Nat.mul_div_cancel _ (by decide)]

/-- A word is the start of its frame and an offset in it. -/
theorem frameStart_add_mod (v : UInt64) : frameStart (v.toNat / 4096) + UInt64.ofNat (v.toNat % 4096) = v := by
  have hlt := v.toNat_lt
  have hstart := toNat_frameStart (f := v.toNat / 4096) (by omega)
  rw [← UInt64.toNat_inj, UInt64.toNat_add, hstart, UInt64.toNat_ofNat']
  omega

/-! ## Offsets -/

/-- An offset is added without a carry where the sum fits a word. -/
theorem toNat_add_of_lt {a b : UInt64} (h : a.toNat + b.toNat < 2 ^ 64) : (a + b).toNat = a.toNat + b.toNat := by
  rw [UInt64.toNat_add, Nat.mod_eq_of_lt h]

theorem toNat_add_ofNat {a : UInt64} {n : Nat} (h : a.toNat + n < 2 ^ 64) : (a + UInt64.ofNat n).toNat = a.toNat + n := by
  have hn : (UInt64.ofNat n).toNat = n := by rw [UInt64.toNat_ofNat', Nat.mod_eq_of_lt (by omega)]
  rw [toNat_add_of_lt (by omega), hn]

end Keel.Align

namespace Keel.Address

variable {s : Space} {a b : Address s} {n : UInt64}

theorem add?_eq_some : a.add? n = some b ↔ a.raw.toNat + n.toNat = b.raw.toNat := by
  rw [add?, Option.map_eq_some_iff, ← Word.add?_eq_some]
  constructor
  · rintro ⟨w, hw, rfl⟩
    exact hw
  · exact fun h => ⟨b.raw, h, rfl⟩

theorem add?_eq_none : a.add? n = none ↔ 2 ^ 64 ≤ a.raw.toNat + n.toNat := by
  rw [add?, Option.map_eq_none_iff, Word.add?_eq_none]

end Keel.Address
