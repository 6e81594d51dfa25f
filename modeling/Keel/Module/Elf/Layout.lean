import Keel.Module.Elf.Object

/-!
# Section layout

The sections that take up memory go to two blocks, those with code to one and all others to the other. They are packed
in the order of their indices: each starts at the first multiple of its alignment past the end of the one before it in
its block. `layout` answers the sizes of both blocks and, where asked for, the offset of one section in its block.
-/

namespace Keel.Elf

/-- The sizes of the blocks so far, and the offset of the section asked for once it has been placed. -/
structure BlockLayout where
  text : UInt64
  data : UInt64
  offset : Option UInt64
  deriving DecidableEq

namespace BlockLayout

/-- Two empty blocks. -/
def empty : BlockLayout := ⟨0, 0, none⟩

/-- Where a section that takes up memory starts and ends, given the end of its block. -/
def span (o : Object) (s : Section) (cursor : UInt64) : Read (UInt64 × UInt64) := do
  if !Align.isPower s.alignment then malformed .badAlignment
  if s.type ≠ noBitsType then
    let _ ← o.content s
  let start ← orFault .outOfBounds (← Align.up cursor s.alignment)
  let stop ← orFault .outOfBounds (Word.add? start s.size)
  return (start, stop)

/-- Packs the sections of the given indices behind what has been placed. -/
def pack (o : Object) (wanted : Option Nat) : List Nat → BlockLayout → Read BlockLayout
  | [], l => .ok l
  | i :: is, l => do
    let s ← o.section? i
    if !s.flags.isAllocated then pack o wanted is l
    else
      let (start, stop) ← span o s (if s.isText then l.text else l.data)
      let offset := if wanted = some i then some start else l.offset
      pack o wanted is (if s.isText then { l with text := stop, offset } else { l with data := stop, offset })

end BlockLayout

/-- The layout of all sections of an object, with the offset of section `wanted`. -/
def Object.layout (o : Object) (wanted : Option Nat) : Read BlockLayout :=
  BlockLayout.pack o wanted (List.range o.sectionCount) .empty

end Keel.Elf
