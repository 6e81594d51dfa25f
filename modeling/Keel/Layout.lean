/-!
# Fixed numbers

The page size, the shape of the kernel's address space, the capacity of the fixed tables and the layout of a slab page.
The examples at the end check how the numbers depend on each other.
-/

namespace Keel.Layout

/-! ## Address space -/

/-- Bytes of a frame and of the smallest mapping. -/
def pageSize : Nat := 4096

/-- The logarithm of the page size. -/
def pageShift : Nat := 12

/-- End of the addresses that belong to user space. -/
def lastUserAddress : UInt64 := 0xffff000000000000

/-- Where physical address zero is visible. -/
def directMapBase : UInt64 := 0xffff888000000000

/-- Where the kernel image runs. -/
def kernelBase : UInt64 := 0xffffffff80000000

/-- Start of the window for module code. -/
def moduleTextBase : UInt64 := 0xffffffff90000000

/-- Bytes of the window for module code. -/
def moduleTextSize : UInt64 := 0x08000000

/-- Start of the window for module data. -/
def moduleDataBase : UInt64 := 0xffffffff98000000

/-- Bytes of the window for module data. -/
def moduleDataSize : UInt64 := 0x08000000

/-- Granularity of window allocations. -/
def moduleAlign : Nat := pageSize

/-! ## Capacities -/

/-- Most non-empty entries of a memory map. -/
def maxRegions : Nat := 64

/-- Most loaders registered at a time. -/
def maxLoaders : Nat := 8

/-- Most bytes of a module or loader name. -/
def maxNameBytes : Nat := 48

/-! ## Slab pages -/

/-- Marks a live slab header. -/
def slabMagic : UInt64 := 0x5AB51AB5CAFEF00D

/-- Marks a cell that is on a free list. -/
def freeMagic : UInt64 := 0xF4EE0B1EC7F4EE00

/-- Bytes of the header at the start of a slab page. -/
def slabHeaderSize : Nat := 48

/-- Alignment of every cell. -/
def cellAlign : Nat := 16

/-- Smallest cell: the link and the mark of a free one. -/
def minCellSize : Nat := 16

/-- Largest cell: all of a page but the header. -/
def maxCellSize : Nat := pageSize - slabHeaderSize

/-- Cell sizes of the heap's caches, ascending. -/
def sizeClasses : List Nat := [16, 32, 64, 128, 256, 512, 1024, 2048]

/-- Largest request the heap serves. -/
def maxHeapObject : Nat := 2048

/-! ## Module objects -/

/-- The symbol that names a module's entry point. -/
def initSymbol : String := "module_init"

/-- The name of the built-in loader. -/
def elfLoaderName : String := "elf"

example : 2 ^ pageShift = pageSize ∧ lastUserAddress ≤ directMapBase ∧ directMapBase < kernelBase ∧
    kernelBase < moduleTextBase ∧ moduleTextBase + moduleTextSize ≤ moduleDataBase := by decide

example : slabHeaderSize % cellAlign = 0 ∧ sizeClasses.getLast? = some maxHeapObject ∧
    sizeClasses.all (fun c => c % cellAlign = 0 && minCellSize ≤ c && c ≤ maxCellSize) := by decide

end Keel.Layout
