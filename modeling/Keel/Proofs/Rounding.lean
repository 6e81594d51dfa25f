import Mathlib.Order.Bounds.Basic
import Keel.Proofs.Pages

/-!
# Rounding to multiples

What the masks of `Align` do, said with division. The words that pass for powers of two are the powers of two
(`isPower_iff`). To one of them, masking goes down to the greatest multiple that is not above a word
(`isGreatest_floor`). Going up masks the sum with all the bits below the power, and that sum is a word exactly where the
least multiple that is not below is one (`leastMultiple_lt`), so that multiple is found, or is no word
(`ceil?_eq_leastMultiple`, `ceil?_eq_none_iff`).

All else comes from greatest and least: the words that stay where they are are the multiples (`floor_eq_self_iff`,
`ceil?_eq_self_iff`), which is what the test asks (`isMultiple_iff_dvd`), so a second rounding changes nothing, and the
order of words is kept (`floor_mono`, `ceil?_mono`). Together, for the checked functions: **`rounds_to_multiples`**.
-/

namespace Keel.Align

variable {ε : Type} {a u v w : UInt64}

/-! ## Powers of two -/

/-- The words that pass for powers of two are powers of two. -/
theorem exists_two_pow (h : isPower a = true) : ∃ k < 64, a = UInt64.ofNat (2 ^ k) := by
  simp only [isPower, Bool.and_eq_true, bne_iff_ne, beq_iff_eq] at h
  obtain ⟨hzero, hbits⟩ := h
  have hpos : a.toNat ≠ 0 := fun h => hzero (UInt64.toNat_inj.1 h)
  have hone : (1 : UInt64) ≤ a := UInt64.le_iff_toNat_le.2 (Nat.one_le_iff_ne_zero.2 hpos)
  have hmask : a.toNat &&& (a.toNat - 1) = 0 := by
    have hnat := congrArg UInt64.toNat hbits
    rwa [UInt64.toNat_and, UInt64.toNat_sub_of_le _ _ hone] at hnat
  obtain ⟨k, hk⟩ := (Nat.and_sub_one_eq_zero_iff_isPowerOfTwo hpos).1 hmask
  have hlt : k < 64 := (Nat.pow_lt_pow_iff_right (by decide)).1 (hk ▸ a.toNat_lt)
  exact ⟨k, hlt, UInt64.toNat_inj.1 (by rw [hk, toNat_two_pow hlt])⟩

theorem isPower_iff : isPower a = true ↔ ∃ k, a.toNat = 2 ^ k := by
  constructor
  · intro ha
    obtain ⟨k, hk, rfl⟩ := exists_two_pow ha
    exact ⟨k, toNat_two_pow hk⟩
  · rintro ⟨k, hk⟩
    have hlt : k < 64 := (Nat.pow_lt_pow_iff_right (by decide)).1 (hk ▸ a.toNat_lt)
    rw [show a = UInt64.ofNat (2 ^ k) from UInt64.toNat_inj.1 (by rw [hk, toNat_two_pow hlt])]
    exact isPower_two_pow hlt

theorem toNat_pos_of_isPower (ha : isPower a = true) : 0 < a.toNat := by
  obtain ⟨k, hk⟩ := isPower_iff.1 ha
  exact hk ▸ Nat.two_pow_pos k

/-- A power of two that is at most a page divides whatever is a whole number of pages. -/
theorem dvd_of_pages (ha : isPower a = true) (hle : a.toNat ≤ 4096) {n : Nat} (hn : n % 4096 = 0) :
    a.toNat ∣ n := by
  obtain ⟨k, hk, rfl⟩ := exists_two_pow ha
  rw [toNat_two_pow hk] at hle ⊢
  have hk12 : k ≤ 12 := (Nat.pow_le_pow_iff_right (by decide)).1 (show 2 ^ k ≤ 2 ^ 12 from hle)
  exact Nat.dvd_trans (Nat.pow_dvd_pow 2 hk12) (Nat.dvd_of_mod_eq_zero hn)

/-! ## Multiples of a number -/

/-- The least multiple of `a` that is not below `n`. -/
def leastMultiple (n a : Nat) : Nat := (n + (a - 1)) / a * a

theorem isLeast_leastMultiple {a : Nat} (ha : 0 < a) (n : Nat) : IsLeast {m | a ∣ m ∧ n ≤ m} (leastMultiple n a) := by
  have hdiv := Nat.div_add_mod (n + (a - 1)) a
  have hmod := Nat.mod_lt (n + (a - 1)) ha
  have hcomm := Nat.mul_comm a ((n + (a - 1)) / a)
  refine ⟨⟨Nat.dvd_mul_left _ _, ?_⟩, ?_⟩
  · unfold leastMultiple
    omega
  · rintro m ⟨⟨c, rfl⟩, hle⟩
    have hlt : (n + (a - 1)) / a < c + 1 := (Nat.div_lt_iff_lt_mul ha).2 (by
      rw [Nat.succ_mul, Nat.mul_comm c a]
      omega)
    rw [leastMultiple, Nat.mul_comm a c]
    exact Nat.mul_le_mul_right a (Nat.le_of_lt_succ hlt)

theorem isGreatest_div_mul {a : Nat} (ha : 0 < a) (n : Nat) : IsGreatest {m | a ∣ m ∧ m ≤ n} (n / a * a) := by
  refine ⟨⟨Nat.dvd_mul_left _ _, Nat.div_mul_le_self n a⟩, ?_⟩
  rintro m ⟨⟨c, rfl⟩, hle⟩
  have hc : c ≤ n / a := (Nat.le_div_iff_mul_le ha).2 (Nat.mul_comm a c ▸ hle)
  rw [Nat.mul_comm a c]
  exact Nat.mul_le_mul_right a hc

/-- A number is its own greatest multiple exactly if it is a multiple. -/
theorem isGreatest_eq_self_iff {a n d : Nat} (h : IsGreatest {m | a ∣ m ∧ m ≤ n} d) : d = n ↔ a ∣ n := by
  constructor
  · rintro rfl
    exact h.1.1
  · intro hdvd
    exact h.unique ⟨⟨hdvd, Nat.le_refl n⟩, fun m hm => hm.2⟩

/-- A number is its own least multiple exactly if it is a multiple. -/
theorem isLeast_eq_self_iff {a n m : Nat} (h : IsLeast {m | a ∣ m ∧ n ≤ m} m) : m = n ↔ a ∣ n := by
  constructor
  · rintro rfl
    exact h.1.1
  · intro hdvd
    exact h.unique ⟨⟨hdvd, Nat.le_refl n⟩, fun m hm => hm.2⟩

/-- Up to a power of two there is a multiple below `2 ^ 64` exactly if the sum that rounding up begins with is below. -/
theorem leastMultiple_lt {k : Nat} (hk : k < 64) (n : Nat) :
    leastMultiple n (2 ^ k) < 2 ^ 64 ↔ n + (2 ^ k - 1) < 2 ^ 64 := by
  have hpos : 0 < 2 ^ k := Nat.two_pow_pos k
  unfold leastMultiple
  constructor
  · intro hlt
    have hpow : 2 ^ (64 - k) * 2 ^ k = 2 ^ 64 := by rw [← Nat.pow_add, Nat.sub_add_cancel (Nat.le_of_lt hk)]
    rw [← hpow] at hlt ⊢
    exact (Nat.div_lt_iff_lt_mul hpos).1 (Nat.lt_of_mul_lt_mul_right hlt)
  · exact Nat.lt_of_le_of_lt (Nat.div_mul_le_self _ _)

/-! ## Masks -/

theorem isGreatest_floor (ha : isPower a = true) (v : UInt64) :
    IsGreatest {m | a.toNat ∣ m ∧ m ≤ v.toNat} (floor v a).toNat := by
  have hpos := toNat_pos_of_isPower ha
  obtain ⟨k, hk, rfl⟩ := exists_two_pow ha
  rw [toNat_two_pow hk] at hpos ⊢
  rw [toNat_floor hk]
  exact isGreatest_div_mul hpos v.toNat

/-- Rounding up as a word finds the least multiple, if that fits a word. -/
theorem ceil?_eq_leastMultiple (ha : isPower a = true) :
    ceil? v a = some w ↔ w.toNat = leastMultiple v.toNat a.toNat := by
  obtain ⟨k, hk, rfl⟩ := exists_two_pow ha
  rw [ceil?_eq_some hk, toNat_two_pow hk, ← leastMultiple_lt hk]
  exact ⟨fun h => h.2, fun h => ⟨h ▸ w.toNat_lt, h⟩⟩

/-- There is no rounding up exactly where the least multiple is past the last word. -/
theorem ceil?_eq_none_iff (ha : isPower a = true) : ceil? v a = none ↔ 2 ^ 64 ≤ leastMultiple v.toNat a.toNat := by
  obtain ⟨k, hk, rfl⟩ := exists_two_pow ha
  rw [ceil?_eq_none hk, toNat_two_pow hk, ← Nat.not_lt, ← Nat.not_lt, leastMultiple_lt hk]

theorem isLeast_ceil? (ha : isPower a = true) (h : ceil? v a = some w) :
    IsLeast {m | a.toNat ∣ m ∧ v.toNat ≤ m} w.toNat := by
  rw [(ceil?_eq_leastMultiple ha).1 h]
  exact isLeast_leastMultiple (toNat_pos_of_isPower ha) v.toNat

/-- Rounding up never goes down. -/
theorem le_ceil? (ha : isPower a = true) (h : ceil? v a = some w) : v.toNat ≤ w.toNat := (isLeast_ceil? ha h).1.2

/-- What is rounded up to a power of two is a multiple of it. -/
theorem dvd_of_ceil? (ha : isPower a = true) (h : ceil? v a = some w) : a.toNat ∣ w.toNat :=
  (isLeast_ceil? ha h).1.1

theorem isMultiple_iff_dvd (ha : isPower a = true) : isMultiple v a = true ↔ a.toNat ∣ v.toNat := by
  obtain ⟨k, hk, rfl⟩ := exists_two_pow ha
  rw [isMultiple_iff hk, toNat_two_pow hk, Nat.dvd_iff_mod_eq_zero]

/-! ## What stays where it is, and order -/

theorem floor_eq_self_iff (ha : isPower a = true) : floor v a = v ↔ a.toNat ∣ v.toNat := by
  rw [← UInt64.toNat_inj]
  exact isGreatest_eq_self_iff (isGreatest_floor ha v)

theorem ceil?_eq_self_iff (ha : isPower a = true) : ceil? v a = some v ↔ a.toNat ∣ v.toNat := by
  rw [ceil?_eq_leastMultiple ha, eq_comm]
  exact isLeast_eq_self_iff (isLeast_leastMultiple (toNat_pos_of_isPower ha) v.toNat)

theorem floor_mono (ha : isPower a = true) (h : v ≤ w) : floor v a ≤ floor w a := by
  rw [UInt64.le_iff_toNat_le] at h ⊢
  exact (isGreatest_floor ha v).mono (isGreatest_floor ha w) fun m hm => ⟨hm.1, Nat.le_trans hm.2 h⟩

/-- Where a word has a rounding up, the words below it have one, and none of them is higher. -/
theorem ceil?_mono (ha : isPower a = true) (h : v ≤ w) (hw : ceil? w a = some u) : ∃ t, ceil? v a = some t ∧ t ≤ u := by
  have hleast := isLeast_leastMultiple (toNat_pos_of_isPower ha) v.toNat
  have hle : leastMultiple v.toNat a.toNat ≤ u.toNat :=
    (isLeast_ceil? ha hw).mono hleast fun m hm => ⟨hm.1, Nat.le_trans (UInt64.le_iff_toNat_le.1 h) hm.2⟩
  cases hv : ceil? v a with
  | none => exact absurd (Nat.le_trans ((ceil?_eq_none_iff ha).1 hv) hle) (Nat.not_le.2 u.toNat_lt)
  | some t => exact ⟨t, rfl, UInt64.le_iff_toNat_le.2 ((ceil?_eq_leastMultiple ha).1 hv ▸ hle)⟩

/-! ## The checked functions -/

theorem down_eq_ok (ha : isPower a = true) : down (ε := ε) v a = .ok w ↔ floor v a = w := by
  rw [down, if_pos ha, Except.ok.injEq]

theorem up_eq_ok (ha : isPower a = true) {o : Option UInt64} : up (ε := ε) v a = .ok o ↔ ceil? v a = o := by
  rw [up, if_pos ha, Except.ok.injEq]

theorem test_eq_ok (ha : isPower a = true) {b : Bool} : test (ε := ε) v a = .ok b ↔ isMultiple v a = b := by
  have hzero : a ≠ 0 := by
    rintro rfl
    exact absurd (toNat_pos_of_isPower ha) (by decide)
  rw [test, if_neg hzero, Except.ok.injEq]

/-- The roundings to `a` and the test for `a` always answer, and their answers are those of division by `a`. -/
structure Rounds (ε : Type) (a : UInt64) : Prop where
  /-- Rounding down finds the greatest multiple that is not above a word. -/
  greatest : ∀ v, ∃ d, down (ε := ε) v a = .ok d ∧ IsGreatest {m | a.toNat ∣ m ∧ m ≤ v.toNat} d.toNat
  /-- Rounding up finds the least multiple that is not below a word, and nothing exactly where that is no word. -/
  least : ∀ v, ∃ n, IsLeast {m | a.toNat ∣ m ∧ v.toNat ≤ m} n ∧
    (∀ u, up (ε := ε) v a = .ok (some u) ↔ u.toNat = n) ∧ (up (ε := ε) v a = .ok none ↔ 2 ^ 64 ≤ n)
  /-- The test accepts the multiples, which are the words that each of the roundings leaves where they are. -/
  multiple : ∀ v, ∃ b, test (ε := ε) v a = .ok b ∧ (b = true ↔ a.toNat ∣ v.toNat) ∧
    (b = true ↔ down (ε := ε) v a = .ok v) ∧ (b = true ↔ up (ε := ε) v a = .ok (some v))
  down_again : ∀ v d, down (ε := ε) v a = .ok d → down (ε := ε) d a = .ok d
  up_again : ∀ v u, up (ε := ε) v a = .ok (some u) → up (ε := ε) u a = .ok (some u)
  down_mono : ∀ v w d e, v ≤ w → down (ε := ε) v a = .ok d → down (ε := ε) w a = .ok e → d ≤ e
  /-- A word with nothing to round up to counts as one that is rounded past all words. -/
  up_mono : ∀ v w u, v ≤ w → up (ε := ε) w a = .ok (some u) → ∃ t, up (ε := ε) v a = .ok (some t) ∧ t ≤ u

/-- **Masking is rounding to multiples**, to every power of two that is a word, up to `2 ^ 63`. -/
theorem rounds_to_multiples (ε : Type) (h : a.toNat.isPowerOfTwo) : Rounds ε a := by
  have ha : isPower a = true := isPower_iff.2 h
  constructor
  case greatest =>
    intro v
    exact ⟨floor v a, (down_eq_ok ha).2 rfl, isGreatest_floor ha v⟩
  case least =>
    intro v
    refine ⟨leastMultiple v.toNat a.toNat, isLeast_leastMultiple (toNat_pos_of_isPower ha) v.toNat, fun u => ?_, ?_⟩
    · rw [up_eq_ok ha, ceil?_eq_leastMultiple ha]
    · rw [up_eq_ok ha, ceil?_eq_none_iff ha]
  case multiple =>
    intro v
    refine ⟨isMultiple v a, (test_eq_ok ha).2 rfl, isMultiple_iff_dvd ha, ?_, ?_⟩
    · rw [down_eq_ok ha, floor_eq_self_iff ha, isMultiple_iff_dvd ha]
    · rw [up_eq_ok ha, ceil?_eq_self_iff ha, isMultiple_iff_dvd ha]
  case down_again =>
    intro v d hd
    obtain rfl := (down_eq_ok ha).1 hd
    exact (down_eq_ok ha).2 ((floor_eq_self_iff ha).2 (isGreatest_floor ha v).1.1)
  case up_again =>
    intro v u hu
    have hdvd := dvd_of_ceil? ha ((up_eq_ok ha).1 hu)
    exact (up_eq_ok ha).2 ((ceil?_eq_self_iff ha).2 hdvd)
  case down_mono =>
    intro v w d e hle hd he
    obtain rfl := (down_eq_ok ha).1 hd
    obtain rfl := (down_eq_ok ha).1 he
    exact floor_mono ha hle
  case up_mono =>
    intro v w u hle hu
    obtain ⟨t, ht, htu⟩ := ceil?_mono ha hle ((up_eq_ok ha).1 hu)
    exact ⟨t, (up_eq_ok ha).2 ht, htu⟩

/-- To the greatest of the powers, the words up to it are rounded up to it, and past it there is nothing to go up to. -/
theorem rounds_highest : (0x8000000000000000 : UInt64).toNat.isPowerOfTwo ∧ Rounds Fault 0x8000000000000000 ∧
    up (ε := Fault) 0x8000000000000000 0x8000000000000000 = .ok (some 0x8000000000000000) ∧
    up (ε := Fault) 0x8000000000000001 0x8000000000000000 = .ok none :=
  ⟨⟨63, rfl⟩, rounds_to_multiples Fault ⟨63, rfl⟩, by decide, by decide⟩

end Keel.Align
