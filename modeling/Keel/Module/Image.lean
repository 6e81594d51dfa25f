import Keel.Memory
import Keel.Mapper
import Keel.MemoryMap

/-!
# Module images

The bytes of a candidate module and the name it will be known by. A blob of the boot stage is known by the last
component of its path and stays where the mapper shows it: `Blob.image` reads what memory holds there at the time, so
that an image taken later shows what was written to the blob in between.
-/

namespace Keel

/-- A candidate module. -/
structure Image where
  name : String
  bytes : Array UInt8
  deriving DecidableEq

namespace Image

/-- Whether the image has no bytes. -/
def isEmpty (i : Image) : Bool := i.bytes.isEmpty

end Image

/-- A candidate module whose bytes are still in memory. -/
structure Blob where
  name : String
  start : VirtAddr
  size : UInt64
  deriving DecidableEq

namespace Blob

/-- The blob of a boot module: it has bytes, none of them at the null address, and ends at an address. -/
def ofBootModule (m : BootModule) (mapper : Mapper) : Checked Fault Blob := do
  demand (!m.addr.isNull && m.size != 0) .badArgs
  let start := mapper.toVirt m.addr
  let _ ← orFault .overflow (start.add? m.size)
  return ⟨m.fileName, start, m.size⟩

/-- The blob with the bytes that memory holds. -/
def image (b : Blob) (memory : Memory) : Image := ⟨b.name, memory.bytesAt b.start.raw b.size.toNat⟩

theorem size_image (b : Blob) (memory : Memory) : (b.image memory).bytes.size = b.size.toNat :=
  Memory.size_bytesAt memory b.start.raw b.size.toNat

end Blob

end Keel
