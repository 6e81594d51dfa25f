import Keel.Ground

/-!
# Blocks of any layout

The general allocator serves a layout from the heap if that aligns cells well enough, from a whole frame if the layout
fits one, and not at all otherwise. It never reports why: a request that cannot be met has no block, and a block that
cannot be taken back is only logged, corruption apart, which halts.
-/

namespace Keel

open Keel.Action (note fail)

/-- The size and the alignment of a block. -/
structure Layout.Block where
  size : Nat
  align : Nat
  deriving DecidableEq

namespace Layout.Block

/-- Whether the heap serves the layout. -/
def fitsHeap (l : Block) : Bool := l.size ≤ maxHeapObject && l.align ≤ cellAlign

/-- Whether a frame holds the layout. -/
def fitsFrame (l : Block) : Bool := l.size ≤ pageSize && l.align ≤ pageSize

/-- The layout with its fields named. -/
def describe (l : Block) : String :=
  s!"Layout \x7b size: {l.size}, align: {l.align} (1 << {l.align.log2}) \x7d"

end Layout.Block

namespace Allocator

open Keel.Layout (Block)

/-- Giving a block back met corruption. -/
def corruptLine (p : Ptr) : Line := ⟨.error, s!"heap: corruption detected while freeing {Slab.pointer p}"⟩

/-- A block could not be taken back. -/
def failedLine (p : Ptr) (l : Block) (f : Fault) : Line :=
  ⟨.error, s!"heap: failed to free {Slab.pointer p} ({l.describe}): {f.message}"⟩

/-- A whole frame, at the address where the heap would see it. -/
def takeFrame : Action Ground Ptr := do
  let pa ← Ground.inArena Arena.allocFrame
  let mapper ← Ground.heapMapper
  let va := mapper.toVirt pa
  if va.isNull then fail .badAlloc
  return va.raw

/-- Gives a whole frame back. -/
def giveFrame (p : Ptr) : Action Ground Unit := do
  let mapper ← Ground.heapMapper
  Ground.inArena (Arena.freeFrame (mapper.toPhys ⟨p⟩))

/-- Serves a layout, or says why not. -/
def serve (l : Block) : Action Ground Ptr :=
  if l.fitsHeap then Ground.allocate (max l.size 1)
  else if l.fitsFrame then takeFrame
  else fail .noSuch

/-- A block for the layout, if there is one. -/
def alloc (l : Block) : Action Ground (Option Ptr) := do
  return (← Action.attempt (serve l)).toOption

/-- Takes back a block of the layout. -/
def dealloc (p : Ptr) (l : Block) : Action Ground Unit := do
  if p = 0 then return
  match ← Action.attempt (if l.fitsHeap then Ground.free p else giveFrame p) with
  | .ok () => pure ()
  | .error .corrupted => do
    note (corruptLine p)
    Action.halt .corruptHeap
  | .error f => note (failedLine p l f)

end Allocator

end Keel
