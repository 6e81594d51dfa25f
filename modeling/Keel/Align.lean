import Keel.Word
import Keel.Layout

/-!
# Rounding to powers of two

`floor` and `ceil?` round a word to a multiple of a power of two by masking its low bits; `up`, `down` and `test` are
the same behind a check of their argument, which halts where rounding would have no meaning.
- `isPower_two_pow`: every `2 ^ k` below `2 ^ 64` passes the check;
- `floor_le`: masking never goes up.
-/

namespace Keel.Align

variable {ε : Type}

/-- A power of two has one bit set, so clearing the lowest set bit leaves nothing. -/
def isPower (a : UInt64) : Bool := a != 0 && a &&& (a - 1) == 0

/-- `v` with its bits below the power of two `a` cleared. -/
def floor (v a : UInt64) : UInt64 := v &&& ~~~(a - 1)

/-- The least multiple of the power of two `a` that is not below `v`, if it fits a word. -/
def ceil? (v a : UInt64) : Option UInt64 := (Word.add? v (a - 1)).map fun w => w &&& ~~~(a - 1)

/-- Whether no bit of `v` below the power of two `a` is set. -/
def isMultiple (v a : UInt64) : Bool := v &&& (a - 1) == 0

/-- Rounds down to a multiple of `a`. -/
def down (v a : UInt64) : Checked ε UInt64 :=
  if isPower a then .ok (floor v a) else .error (.halt .alignment)

/-- Rounds up to a multiple of `a`; nothing if the multiple does not fit a word. -/
def up (v a : UInt64) : Checked ε (Option UInt64) :=
  if isPower a then .ok (ceil? v a) else .error (.halt .alignment)

/-- Whether `v` is a multiple of `a`; the mask of `a = 0` does not exist. -/
def test (v a : UInt64) : Checked ε Bool :=
  if a = 0 then .error (.halt .subOverflow) else .ok (isMultiple v a)

/-! ## Pages -/

/-- The page size as a word. -/
def page : UInt64 := 4096

/-- The start of the page that holds `v`. -/
def pageFloor (v : UInt64) : UInt64 := floor v page

/-- The first page boundary that is not below `v`, if it fits a word. -/
def pageCeil? (v : UInt64) : Option UInt64 := ceil? v page

/-- The number of the frame that starts at `v`. -/
def frameOf (v : UInt64) : Nat := v.toNat / Layout.pageSize

/-- The start of frame `f`. -/
def frameStart (f : Nat) : UInt64 := UInt64.ofNat (f * Layout.pageSize)

/-! ## Masks and division -/

theorem isPower_two_pow {k : Nat} (h : k < 64) : isPower (UInt64.ofNat (2 ^ k)) = true := by
  have : ∀ k : Fin 64, isPower (UInt64.ofNat (2 ^ k.val)) = true := by decide
  exact this ⟨k, h⟩

theorem floor_le (v a : UInt64) : floor v a ≤ v := by
  rw [UInt64.le_iff_toNat_le, floor, UInt64.toNat_and]
  exact Nat.and_le_left

example : page.toNat = Layout.pageSize ∧ isPower page = true := by decide

end Keel.Align
