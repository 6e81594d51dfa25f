import Keel.Arena

/-!
# Slab pages

A slab is one page cut into cells of equal size behind a header of six words: the next slab, the first free cell, the
size of a cell, the number of cells, the number of free ones, and a mark. A free cell holds a link to the next free one
and a mark of its own; a mark that does not fit means that something wrote over them, and that is corruption.
- `pop` takes the first free cell off the list, `push` puts a cell back in front;
- `push` answers `badArgs` for what is no cell, `dangling` for a cell that is free already. A mark only hints at a free
  cell; the list decides.
-/

namespace Keel.Slab

open Keel.Action (note fail lift)

/-! ## The header -/

/-- Offset of the link to the next slab. -/
def nextField : Ptr := 0

/-- Offset of the link to the first free cell. -/
def freeListField : Ptr := 8

/-- Offset of the size of a cell. -/
def cellSizeField : Ptr := 0x10

/-- Offset of the number of cells. -/
def capacityField : Ptr := 0x18

/-- Offset of the number of free cells. -/
def freeCountField : Ptr := 0x20

/-- Offset of the mark. -/
def magicField : Ptr := 0x28

/-- Offset of the mark of a free cell; its link is at offset zero. -/
def cellMagicField : Ptr := 8

/-- A slab header. -/
structure Header where
  next : Ptr
  freeList : Ptr
  cellSize : Nat
  capacity : Nat
  freeCount : Nat
  magic : UInt64
  deriving DecidableEq

namespace Header

/-- Whether no cell is in use. -/
def isEmpty (h : Header) : Bool := h.freeCount == h.capacity

/-- Whether every cell is in use. -/
def isFull (h : Header) : Bool := h.freeCount == 0

/-- The header at `slab`. -/
def read (m : Memory) (slab : Ptr) : Header :=
  ⟨m.word (slab + nextField), m.word (slab + freeListField), (m.word (slab + cellSizeField)).toNat,
    (m.word (slab + capacityField)).toNat, (m.word (slab + freeCountField)).toNat, m.word (slab + magicField)⟩

/-- Writes a whole header at `slab`. -/
def write (h : Header) (slab : Ptr) (m : Memory) : Memory :=
  m.setWords slab [h.next, h.freeList, UInt64.ofNat h.cellSize, UInt64.ofNat h.capacity, UInt64.ofNat h.freeCount, h.magic]

end Header

/-- The header at `slab` as it is now. -/
def header (slab : Ptr) : Action Arena Header := do return Header.read (← get).memory slab

/-- The slab whose page holds `p`. -/
def containing (p : Ptr) : Ptr := Align.pageFloor p

/-- The number of cells of a given size that a page holds behind its header. -/
def capacityFor {ε : Type} (cellSize : Nat) : Checked ε Nat := Count.div Layout.maxCellSize cellSize

/-- The start of cell `i`. -/
def cellAt (slab : Ptr) (cellSize i : Nat) : Ptr := slab + UInt64.ofNat (Layout.slabHeaderSize + i * cellSize)

/-! ## Lines -/

/-- A pointer as it is written in a line. -/
def pointer (p : Ptr) : String := Text.Hex.plain p.toNat

/-- A header whose mark does not fit. -/
def badHeaderLine (slab : Ptr) (magic : UInt64) : Line :=
  ⟨.error, s!"slab: header at {pointer slab} has bad magic {Text.Hex.wide magic.toNat}"⟩

/-- A free cell whose mark does not fit. -/
def badCellLine (cell : Ptr) (magic : UInt64) : Line :=
  ⟨.error, s!"slab: free cell {pointer cell} has bad magic {Text.Hex.wide magic.toNat}"⟩

/-- A pointer that is no cell. -/
def notCellLine (p slab : Ptr) : Line := ⟨.warn, s!"slab: {pointer p} is not a cell of the slab at {pointer slab}"⟩

/-- A cell that is free already. -/
def doubleFreeLine (p : Ptr) : Line := ⟨.warn, s!"slab: double free of {pointer p}"⟩

/-! ## Cells -/

/-- Refuses a header whose mark does not fit. -/
def verify (slab : Ptr) : Action Arena Unit := do
  let magic ← Arena.word (slab + magicField)
  if magic ≠ Layout.slabMagic then
    note (badHeaderLine slab magic)
    fail .corrupted

/-- The byte that fills a cell handed out, where cells are overwritten. -/
def poisonTaken : UInt8 := 0xa5

/-- The byte that fills a cell given back, where cells are overwritten. -/
def poisonFree : UInt8 := 0x6b

/-- More steps than a list without a cycle can take: there are no more addresses. -/
def linkLimit : Nat := 2 ^ 64

/-- Takes the first free cell off the list; nothing if all are in use. -/
def pop (slab : Ptr) : Action Arena (Option Ptr) := do
  verify slab
  let cell ← Arena.word (slab + freeListField)
  if cell = 0 then return none
  let magic ← Arena.word (cell + cellMagicField)
  if magic ≠ Layout.freeMagic then
    note (badCellLine cell magic)
    fail .corrupted
  Arena.setWord (slab + freeListField) (← Arena.word cell)
  let count ← lift (Count.sub (← Arena.word (slab + freeCountField)).toNat 1)
  Arena.setWord (slab + freeCountField) (UInt64.ofNat count)
  Arena.setWord (cell + cellMagicField) 0
  Arena.setWord cell 0
  if (← get).poison then
    let size ← Arena.word (slab + cellSizeField)
    Arena.write fun m => m.fill cell poisonTaken size.toNat
  return some cell

/-- Whether the list of free cells from `cell` on holds `needle`. -/
def listed (m : Memory) (needle : Ptr) : Nat → Ptr → Checked Fault Bool
  | 0, _ => .error (.halt .endless)
  | n + 1, cell =>
    if cell = 0 then .ok false
    else if cell = needle then .ok true
    else listed m needle n (m.word cell)

/-- Whether an offset in the page is the start of a cell. -/
def isCellStart (h : Header) (offset : Nat) : Checked Fault Bool := do
  let bytes ← Count.mul h.capacity h.cellSize
  let stop ← Count.add Layout.slabHeaderSize bytes
  return Layout.slabHeaderSize ≤ offset && offset < stop && (offset - Layout.slabHeaderSize) % h.cellSize == 0

/-- Puts a cell back in front of the list. -/
def push (slab p : Ptr) : Action Arena Unit := do
  verify slab
  let h ← header slab
  if !(← lift (isCellStart h (p - slab).toNat)) then
    note (notCellLine p slab)
    fail .badArgs
  let marked := (← Arena.word (p + cellMagicField)) == Layout.freeMagic
  let isListed ← if marked then lift (listed (← get).memory p linkLimit h.freeList) else pure false
  if isListed || h.freeCount == h.capacity then
    note (doubleFreeLine p)
    fail .dangling
  if (← get).poison then
    let rest ← lift (Count.sub h.cellSize Layout.minCellSize)
    Arena.write fun m => m.fill (p + UInt64.ofNat Layout.minCellSize) poisonFree rest
  Arena.setWord p h.freeList
  Arena.setWord (p + cellMagicField) Layout.freeMagic
  Arena.setWord (slab + freeListField) p
  let count ← lift (Count.add h.freeCount 1)
  Arena.setWord (slab + freeCountField) (UInt64.ofNat count)

end Keel.Slab
