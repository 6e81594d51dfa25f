import Keel.Address
import Keel.Layout

/-!
# Mappers

A mapper says at which virtual address a physical one is visible, and back. A direct map adds a fixed offset, modulo
the size of the address space, so it is one-to-one (`toPhys_direct`, `toVirt_direct`).
-/

namespace Keel

/-- The two directions of a translation between the spaces. -/
structure Mapper where
  toVirt : PhysAddr → VirtAddr
  toPhys : VirtAddr → PhysAddr

namespace Mapper

/-- All of physical memory at a fixed offset. -/
def direct (offset : UInt64) : Mapper := ⟨fun pa => ⟨offset + pa.raw⟩, fun va => ⟨va.raw - offset⟩⟩

/-- The kernel's direct map. -/
def kernel : Mapper := direct Layout.directMapBase

/-- Every address stands for itself. -/
def identity : Mapper := ⟨fun pa => ⟨pa.raw⟩, fun va => ⟨va.raw⟩⟩

/-- All of physical memory at one and the same address: no translation to work with. -/
def collapsed (va : VirtAddr) : Mapper := ⟨fun _ => va, fun _ => .zero⟩

theorem toPhys_direct (offset : UInt64) (pa : PhysAddr) : (direct offset).toPhys ((direct offset).toVirt pa) = pa := by
  show (⟨offset + pa.raw - offset⟩ : PhysAddr) = pa
  rw [UInt64.add_comm, UInt64.add_sub_cancel]

theorem toVirt_direct (offset : UInt64) (va : VirtAddr) : (direct offset).toVirt ((direct offset).toPhys va) = va := by
  show (⟨offset + (va.raw - offset)⟩ : VirtAddr) = va
  rw [UInt64.add_comm, UInt64.sub_add_cancel]

end Mapper

end Keel
