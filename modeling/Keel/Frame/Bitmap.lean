import Keel.Word

/-!
# Bitmaps

A bitmap is an array of words; bit `i` is bit `i % 64` of word `i / 64`. Bits outside the array do not exist, and asking
for one halts.
- `isSet_of_mark`, `isSet_of_unmark`: what setting or clearing one bit does to every bit; `fresh_of_mark` and
  `old_of_unmark` say what is answered;
- `markRun` and `unmarkRun` change a run of bits and count those that were different before.
-/

namespace Keel.Frame

/-- Bits, sixty-four to a word. -/
structure Bitmap where
  words : Array UInt64

namespace Bitmap

variable {ε : Type}

/-- A word with all bits set. -/
def full : UInt64 := 0xffffffffffffffff

/-- The number of words that hold `n` bits. -/
def wordsFor (n : Nat) : Nat := (n + 63) / 64

/-- The word whose only set bit is the one of index `i`. -/
def mask (i : Nat) : UInt64 := 1 <<< UInt64.ofNat (i % 64)

/-- Whether bit `i` exists and is set. -/
def isSet (b : Bitmap) (i : Nat) : Bool := (b.words[i / 64]?).any fun w => w &&& mask i != 0

/-- Whether bit `i` is set. -/
def test (b : Bitmap) (i : Nat) : Checked ε Bool :=
  match b.words[i / 64]? with
  | some w => .ok (w &&& mask i != 0)
  | none => .error (.halt (.outOfBounds (i / 64) b.words.size))

/-- Sets bit `i`; the answer says whether it was clear before. -/
def mark (b : Bitmap) (i : Nat) : Checked ε (Bool × Bitmap) :=
  match b.words[i / 64]? with
  | some w => .ok (w &&& mask i == 0, ⟨b.words.setIfInBounds (i / 64) (w ||| mask i)⟩)
  | none => .error (.halt (.outOfBounds (i / 64) b.words.size))

/-- Clears bit `i`; the answer says whether it was set before. -/
def unmark (b : Bitmap) (i : Nat) : Checked ε (Bool × Bitmap) :=
  match b.words[i / 64]? with
  | some w => .ok (w &&& mask i != 0, ⟨b.words.setIfInBounds (i / 64) (w &&& ~~~mask i)⟩)
  | none => .error (.halt (.outOfBounds (i / 64) b.words.size))

/-- Sets the `n` bits from `i` on; the answer is `acc` and the number of those that were clear. -/
def markRun (b : Bitmap) (i : Nat) : Nat → Nat → Checked ε (Nat × Bitmap)
  | 0, acc => .ok (acc, b)
  | n + 1, acc =>
    match b.mark i with
    | .error e => .error e
    | .ok (fresh, b') => b'.markRun (i + 1) n (if fresh then acc + 1 else acc)

/-- Clears the `n` bits from `i` on; the answer is `acc` and the number of those that were set. -/
def unmarkRun (b : Bitmap) (i : Nat) : Nat → Nat → Checked ε (Nat × Bitmap)
  | 0, acc => .ok (acc, b)
  | n + 1, acc =>
    match b.unmark i with
    | .error e => .error e
    | .ok (fresh, b') => b'.unmarkRun (i + 1) n (if fresh then acc + 1 else acc)

/-- The number of set bits among the `n` from `i` on. -/
def countRun (b : Bitmap) (i : Nat) : Nat → Nat → Checked ε Nat
  | 0, acc => .ok acc
  | n + 1, acc =>
    match b.test i with
    | .error e => .error e
    | .ok set => b.countRun (i + 1) n (if set then acc + 1 else acc)

/-- Sets all bits of the first `n` words. -/
def fillWords (b : Bitmap) (n : Nat) : Bitmap := ⟨b.words.mapIdx fun k w => if k < n then full else w⟩

/-- The number of set bits below the lowest clear one. -/
def trailingOnes (w : UInt64) : Nat := (List.range 64).findIdx fun i => w &&& mask i == 0

/-- The lowest clear bit of the first word among `[start, stop)` that has one. -/
def firstClear? (b : Bitmap) (start stop : Nat) : Option Nat :=
  (List.range' start (stop - start)).findSome? fun k =>
    (b.words[k]?).bind fun w => if w = full then none else some (k * 64 + trailingOnes w)

/-! ## Single bits -/

theorem test_of_lt {b : Bitmap} {i : Nat} (h : i / 64 < b.words.size) : b.test (ε := ε) i = .ok (b.isSet i) := by
  simp [test, isSet, h]

theorem size_of_mark {b b' : Bitmap} {i : Nat} {fresh : Bool} (h : b.mark (ε := ε) i = .ok (fresh, b')) :
    b'.words.size = b.words.size := by
  unfold mark at h
  split at h
  · simp only [Except.ok.injEq, Prod.mk.injEq] at h
    rw [← h.2]; simp
  · cases h

theorem size_of_unmark {b b' : Bitmap} {i : Nat} {fresh : Bool} (h : b.unmark (ε := ε) i = .ok (fresh, b')) :
    b'.words.size = b.words.size := by
  unfold unmark at h
  split at h
  · simp only [Except.ok.injEq, Prod.mk.injEq] at h
    rw [← h.2]; simp
  · cases h

theorem size_fillWords (b : Bitmap) (n : Nat) : (b.fillWords n).words.size = b.words.size := by simp [fillWords]

/-- The mask of a bit has just that bit. -/
theorem getLsbD_mask (i k : Nat) : (mask i).toBitVec.getLsbD k = decide (k = i % 64) := by
  have hi : i % 64 < 64 := Nat.mod_lt _ (by decide)
  have hs : ((UInt64.ofNat (i % 64)).toBitVec % 64).toNat = i % 64 := by
    simp [BitVec.toNat_umod]
  rw [mask, UInt64.toBitVec_shiftLeft, BitVec.shiftLeft_eq', BitVec.getLsbD_shiftLeft, hs]
  rw [show (1 : UInt64).toBitVec = 1#64 from rfl, BitVec.getLsbD_one, Bool.eq_iff_iff]
  simp only [Bool.and_eq_true, decide_eq_true_eq, Bool.not_eq_true', decide_eq_false_iff_not]
  omega

/-- A word meets the mask of a bit exactly where it has the bit. -/
theorem and_mask_ne_zero (w : UInt64) (i : Nat) : (w &&& mask i != 0) = w.toBitVec.getLsbD (i % 64) := by
  rw [Bool.eq_iff_iff, bne_iff_ne, ne_eq, ← UInt64.toBitVec_inj]
  constructor
  · intro h
    cases hb : w.toBitVec.getLsbD (i % 64) with
    | true => rfl
    | false =>
      refine absurd (BitVec.eq_of_getLsbD_eq fun k _ => ?_) h
      rw [UInt64.toBitVec_and, BitVec.getLsbD_and, getLsbD_mask]
      by_cases hk : k = i % 64
      · simp [hk, hb]
      · simp [hk]
  · intro h hz
    have := congrArg (fun v => BitVec.getLsbD v (i % 64)) hz
    simp [UInt64.toBitVec_and, BitVec.getLsbD_and, getLsbD_mask, h] at this

theorem and_mask_eq_zero (w : UInt64) (i : Nat) : (w &&& mask i == 0) = !w.toBitVec.getLsbD (i % 64) := by
  rw [← and_mask_ne_zero, bne, Bool.not_not]

/-- Marking sets one bit and no other. -/
theorem isSet_of_mark {b b' : Bitmap} {i : Nat} {fresh : Bool} (h : b.mark (ε := ε) i = .ok (fresh, b')) (j : Nat) :
    b'.isSet j = (j == i || b.isSet j) := by
  unfold mark at h
  split at h
  · rename_i w hw
    simp only [Except.ok.injEq, Prod.mk.injEq] at h
    obtain ⟨hi, hwi⟩ := Array.getElem?_eq_some_iff.1 hw
    rw [← h.2]
    by_cases hj : j / 64 = i / 64
    · simp only [isSet, hj, Array.getElem?_setIfInBounds_self_of_lt hi, hw, Option.any_some, and_mask_ne_zero,
        UInt64.toBitVec_or, BitVec.getLsbD_or, getLsbD_mask]
      by_cases hji : j = i
      · simp [hji]
      · have : j % 64 ≠ i % 64 := by omega
        simp [hji, this]
    · have hji : j ≠ i := by rintro rfl; exact hj rfl
      simp [isSet, Array.getElem?_setIfInBounds_ne (Ne.symm hj), hji]
  · cases h

/-- Marking says whether the bit was clear. -/
theorem fresh_of_mark {b b' : Bitmap} {i : Nat} {fresh : Bool} (h : b.mark (ε := ε) i = .ok (fresh, b')) :
    fresh = !b.isSet i := by
  unfold mark at h
  split at h
  · rename_i w hw
    simp only [Except.ok.injEq, Prod.mk.injEq] at h
    rw [← h.1, isSet, hw, Option.any_some, and_mask_eq_zero, and_mask_ne_zero]
  · cases h

/-- Clearing clears one bit and no other. -/
theorem isSet_of_unmark {b b' : Bitmap} {i : Nat} {old : Bool} (h : b.unmark (ε := ε) i = .ok (old, b')) (j : Nat) :
    b'.isSet j = (j != i && b.isSet j) := by
  unfold unmark at h
  split at h
  · rename_i w hw
    simp only [Except.ok.injEq, Prod.mk.injEq] at h
    obtain ⟨hi, hwi⟩ := Array.getElem?_eq_some_iff.1 hw
    rw [← h.2]
    by_cases hj : j / 64 = i / 64
    · have hk : j % 64 < 64 := Nat.mod_lt _ (by decide)
      simp only [isSet, hj, Array.getElem?_setIfInBounds_self_of_lt hi, hw, Option.any_some, and_mask_ne_zero,
        UInt64.toBitVec_and, UInt64.toBitVec_not, BitVec.getLsbD_and, BitVec.getLsbD_not, getLsbD_mask]
      by_cases hji : j = i
      · simp [hji]
      · have : j % 64 ≠ i % 64 := by omega
        simp [hji, this, hk]
    · have hji : j ≠ i := by rintro rfl; exact hj rfl
      simp [isSet, Array.getElem?_setIfInBounds_ne (Ne.symm hj), hji]
  · cases h

/-- Clearing says whether the bit was set. -/
theorem old_of_unmark {b b' : Bitmap} {i : Nat} {old : Bool} (h : b.unmark (ε := ε) i = .ok (old, b')) :
    old = b.isSet i := by
  unfold unmark at h
  split at h
  · rename_i w hw
    simp only [Except.ok.injEq, Prod.mk.injEq] at h
    rw [← h.1, isSet, hw, Option.any_some]
  · cases h

end Bitmap

end Keel.Frame
