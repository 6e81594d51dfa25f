import Keel.Address

/-!
# The boot memory map

What the boot stage hands over: the regions of physical memory with their kinds, and the blobs it loaded next to the
kernel. `Region.end?` is the end of a region, where one exists.
-/

namespace Keel

/-- What a range of physical memory is good for. -/
inductive RegionKind
  | usable
  | reserved
  | kernel
  | bad
  deriving DecidableEq

namespace RegionKind

/-- All kinds, in the order of their numbers. -/
def all : List RegionKind := [.usable, .reserved, .kernel, .bad]

/-- The kind of a memory type of the UEFI specification, as it is after the boot services have ended. -/
def ofFirmware (type : UInt32) : RegionKind :=
  match type.toNat with
  | 3 | 4 | 7 => usable
  | 1 | 2 => kernel
  | 8 => bad
  | _ => reserved

/-- The word for a kind. -/
def word : RegionKind → String
  | usable => "usable"
  | reserved => "reserved"
  | kernel => "kernel"
  | bad => "bad"

/-- The name of a kind. -/
def name : RegionKind → String
  | usable => "Usable"
  | reserved => "Reserved"
  | kernel => "Kernel"
  | bad => "Bad"

/-- The number of a kind. -/
def number : RegionKind → Nat
  | usable => 0
  | reserved => 1
  | kernel => 2
  | bad => 3

end RegionKind

/-- One entry of the memory map; the length is in bytes. -/
structure Region where
  base : PhysAddr
  length : UInt64
  kind : RegionKind
  deriving DecidableEq

namespace Region

/-- The usable region of `length` bytes at `base`. -/
def usable (base : PhysAddr) (length : UInt64) : Region := ⟨base, length, .usable⟩

/-- The first address past the region, if it fits a word. -/
def end? (r : Region) : Option UInt64 := Word.add? r.base.raw r.length

/-- Whether the region has no bytes. -/
def isEmpty (r : Region) : Bool := r.length == 0

/-- The regions that have bytes. -/
def nonEmpty (rs : List Region) : List Region := rs.filter fun r => !r.isEmpty

/-- The region with its fields named. -/
def describe (r : Region) : String :=
  "MemoryRegion \x7b base: " ++ r.base.describe ++ ", length: " ++ toString r.length.toNat ++ ", kind: " ++
    r.kind.name ++ " \x7d"

end Region

/-- A blob the boot stage loaded, of `size` bytes at `addr`. -/
structure BootModule where
  path : String
  addr : PhysAddr
  size : UInt64
  deriving DecidableEq

namespace BootModule

/-- The last component of the path. -/
def fileName (m : BootModule) : String :=
  String.ofList (m.path.toList.reverse.takeWhile (· ≠ '/')).reverse

/-- The frames `[first, stop)` the blob touches; none if it is empty or runs past the last address. -/
def frames? (m : BootModule) : Option (Nat × Nat) :=
  if m.size = 0 then none
  else do
    let stop ← m.addr.add? m.size
    let stop ← Align.pageCeil? stop.raw
    return (Align.frameOf (Align.pageFloor m.addr.raw), Align.frameOf stop)

end BootModule

end Keel
