import Keel.Align
import Keel.Text.Hex

/-!
# Addresses

An address belongs to one of two spaces: a *physical* one names a place in RAM as the boot memory map reports it, a
*virtual* one a place in the kernel's own view. The two never mix; a `Mapper` goes from one to the other.
-/

namespace Keel

/-- The two address spaces. -/
inductive Space
  | physical
  | virtual
  deriving DecidableEq

/-- An address of the space `s`. -/
structure Address (s : Space) where
  raw : UInt64
  deriving DecidableEq

/-- A place in RAM. -/
abbrev PhysAddr := Address .physical

/-- A place in the kernel's view. -/
abbrev VirtAddr := Address .virtual

/-- A virtual address as a raw word of memory; zero points nowhere. -/
abbrev Ptr := UInt64

namespace Address

variable {ε : Type} {s : Space}

/-- Address zero. -/
def zero : Address s := ⟨0⟩

/-- Whether the address is zero, which no valid object has. -/
def isNull (a : Address s) : Bool := a.raw == 0

/-- Whether the address is a multiple of `align`. -/
def isAligned (a : Address s) (align : UInt64) : Checked ε Bool := Align.test a.raw align

/-- The address rounded down to a multiple of `align`. -/
def alignDown (a : Address s) (align : UInt64) : Checked ε (Address s) := (Align.down a.raw align).map Address.mk

/-- The address `n` bytes further, if there is one. -/
def add? (a : Address s) (n : UInt64) : Option (Address s) := (Word.add? a.raw n).map Address.mk

/-- The address `n` bytes further, which is expected to exist. -/
def add (a : Address s) (n : UInt64) : Checked ε (Address s) := (Word.add a.raw n).map Address.mk

/-- Addresses are ordered by their words. -/
protected def compare (a b : Address s) : Ordering := Ord.compare a.raw b.raw

/-- The address in sixteen upper-case digits. -/
def text (a : Address s) : String := Text.Hex.wideUpper a.raw.toNat

/-- The letter that names a space in a description. -/
def letter : Space → String
  | .physical => "PA"
  | .virtual => "VA"

/-- The address with its space, as in `PA(0x0000000000001000)`. -/
def describe (a : Address s) : String := letter s ++ "(" ++ a.text ++ ")"

end Address

end Keel
