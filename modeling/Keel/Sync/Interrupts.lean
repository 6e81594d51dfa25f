/-!
# Interrupt masking

Where interrupts can be masked at all, a guard masks them while it lives and restores what it found. A hosted machine
has no interrupt flag: interrupts always count as masked there, and a guard has nothing to restore.
- `release_mask`: a guard that is made and dropped leaves the flag as it was, however guards nest.
-/

namespace Keel.Sync

/-- The interrupt flag. -/
structure Interrupts where
  enabled : Bool
  deriving DecidableEq

/-- What a guard found when it was made. -/
structure MaskGuard where
  wereEnabled : Bool
  deriving DecidableEq

namespace Interrupts

/-- The flag of a hosted machine. -/
def hosted : Interrupts := ⟨false⟩

/-- Masks interrupts and remembers what they were. -/
def mask (i : Interrupts) : MaskGuard × Interrupts := (⟨i.enabled⟩, ⟨false⟩)

/-- Drops a guard. -/
def release (g : MaskGuard) (i : Interrupts) : Interrupts := if g.wereEnabled then ⟨true⟩ else i

end Interrupts

/-- Whether dropping the guard turns interrupts back on. -/
def MaskGuard.restores (g : MaskGuard) : Bool := g.wereEnabled

theorem Interrupts.release_mask (i : Interrupts) : Interrupts.release i.mask.1 i.mask.2 = i := by
  obtain ⟨_ | _⟩ := i <;> rfl

end Keel.Sync
