import Keel.Slab.Page
import Keel.Mapper

/-!
# Carving and releasing slabs

`carve` takes a frame from the pool and cuts it into free cells, linked from the last to the first, so that cells are
handed out from the top of the page down. A frame that is visible nowhere usable goes back to the pool. `release` gives
the page of a slab back; its mark is cleared first, so that a pointer into it is no longer taken for a cell.
-/

namespace Keel.Slab

open Keel.Action (note fail lift)

/-- A frame that is visible nowhere usable. -/
def unusableLine (pa : PhysAddr) (va : VirtAddr) : Line :=
  ⟨.warn, s!"slab: frame {pa.text} maps to unusable address {va.text}"⟩

/-- A fresh slab. -/
def carvedLine (capacity cellSize : Nat) (va : VirtAddr) (pa : PhysAddr) : Line :=
  ⟨.debug, s!"slab: carved {capacity} x {cellSize} B at {va.text} (frame {pa.text})"⟩

/-- A slab that goes back. -/
def releasingLine (cellSize : Nat) (slab : Ptr) : Line :=
  ⟨.debug, s!"slab: releasing {cellSize} B slab at {pointer slab}"⟩

/-- Whether cells can have this size: a multiple of the cell alignment that fits a page behind the header. -/
def isCellSize (n : Nat) : Bool :=
  Layout.minCellSize ≤ n && n ≤ Layout.maxCellSize && n % Layout.cellAlign == 0

/-- Writes `n` free cells from cell `i` on, each linked to the one before it; answers the memory and the last cell. -/
def linkCells (slab : Ptr) (cellSize : Nat) (i : Nat) : Nat → Ptr → Memory → Memory × Ptr
  | 0, before, m => (m, before)
  | n + 1, before, m =>
    let cell := cellAt slab cellSize i
    linkCells slab cellSize (i + 1) n cell ((m.setWord cell before).setWord (cell + cellMagicField) Layout.freeMagic)

/-- Makes the page at `slab` a slab of `capacity` free cells. -/
def format (slab : Ptr) (cellSize capacity : Nat) (m : Memory) : Memory :=
  let (m, last) := linkCells slab cellSize 0 capacity 0 m
  Header.write ⟨0, last, cellSize, capacity, capacity, Layout.slabMagic⟩ slab m

/-- Cuts a frame of the pool into cells of `cellSize` bytes. -/
def carve (mapper : Mapper) (cellSize : Nat) : Action Arena Ptr := do
  if !isCellSize cellSize then fail .badArgs
  let pa ← Arena.allocFrame
  let va := mapper.toVirt pa
  if va.isNull || !Align.isMultiple va.raw Align.page then
    note (unusableLine pa va)
    Arena.freeFrame pa
    fail .badAlloc
  let capacity ← lift (capacityFor cellSize)
  Arena.write (format va.raw cellSize capacity)
  note (carvedLine capacity cellSize va pa)
  return va.raw

/-- Gives the page of a slab back to the pool. -/
def release (mapper : Mapper) (slab : Ptr) : Action Arena Unit := do
  verify slab
  Arena.setWord (slab + magicField) 0
  let h ← header slab
  note (releasingLine h.cellSize slab)
  Arena.freeFrame (mapper.toPhys ⟨slab⟩)

end Keel.Slab
