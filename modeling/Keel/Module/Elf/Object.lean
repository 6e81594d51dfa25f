import Keel.Module.Elf.Bytes
import Keel.Align

/-!
# Relocatable objects

An object starts with a header that names its format and the table of its sections. `Object.read` accepts 64-bit
little-endian relocatable objects for x86-64 whose section table lies inside the image, so that every later look at a
section header is inside the image as well.
-/

namespace Keel.Elf

/-- Bytes of the file header. -/
def fileHeaderSize : Nat := 64

/-- Bytes of a section header. -/
def sectionHeaderSize : Nat := 64

/-- The four bytes every object starts with. -/
def magic : Bytes := #[0x7f, 0x45, 0x4c, 0x46]

/-- An object whose section table lies inside the image. -/
structure Object where
  bytes : Bytes
  tableOffset : Nat
  sectionCount : Nat

/-- Reads the file header. -/
def Object.read (b : Bytes) : Read Object := do
  if b.size < fileHeaderSize then malformed .tooShort
  if b.extract 0 4 ≠ magic then malformed .badMagic
  if (← byteAt b 4) ≠ 2 || (← byteAt b 5) ≠ 1 then malformed .badClass
  if (← le b 16 2) ≠ 1 then malformed .badType
  if (← le b 18 2) ≠ 62 then malformed .badMachine
  if (← le b 20 4) ≠ 1 then malformed .badType
  let tableOffset ← le b 40 8
  let entrySize ← le b 58 2
  let sectionCount ← le b 60 2
  if entrySize ≠ sectionHeaderSize || sectionCount = 0 then malformed .badSectionTable
  let _ ← slice b tableOffset (sectionCount * sectionHeaderSize)
  return ⟨b, tableOffset, sectionCount⟩

/-! ## Sections -/

/-- The flag bits of a section. -/
structure SectionFlags where
  bits : UInt64
  deriving DecidableEq

namespace SectionFlags

/-- The bit of a writable section. -/
def writeBit : UInt64 := 1

/-- The bit of a section that takes up memory. -/
def allocBit : UInt64 := 2

/-- The bit of a section that holds code. -/
def execBit : UInt64 := 4

/-- Whether a bit is set. -/
def has (f : SectionFlags) (bit : UInt64) : Bool := f.bits &&& bit != 0

/-- The flags with one bit set or cleared. -/
def withBit (f : SectionFlags) (bit : UInt64) (on : Bool) : SectionFlags :=
  ⟨if on then f.bits ||| bit else f.bits &&& ~~~bit⟩

/-- Whether the section is writable. -/
def isWritable (f : SectionFlags) : Bool := f.has writeBit

/-- Whether the section takes up memory. -/
def isAllocated (f : SectionFlags) : Bool := f.has allocBit

/-- Whether the section holds code. -/
def isExecutable (f : SectionFlags) : Bool := f.has execBit

/-- The flags with the three known bits inverted and all others kept. -/
def flip (f : SectionFlags) : SectionFlags :=
  let g := f.withBit writeBit (!f.isWritable)
  let g := g.withBit allocBit (!f.isAllocated)
  g.withBit execBit (!f.isExecutable)

/-- The flags by name. -/
def describe (f : SectionFlags) : String :=
  s!"ShFlags \x7b write: {f.isWritable}, alloc: {f.isAllocated}, execinstr: {f.isExecutable} \x7d"

end SectionFlags

/-- The number of a symbol table's section type. -/
def symbolTableType : Nat := 2

/-- The number of the type of a section that has no bytes in the image. -/
def noBitsType : Nat := 8

/-- A section header. -/
structure Section where
  type : Nat
  flags : SectionFlags
  offset : UInt64
  size : UInt64
  /-- The section that belongs to this one, such as the names of a symbol table. -/
  link : Nat
  align : UInt64
  entrySize : UInt64
  deriving DecidableEq

namespace Section

/-- Whether the section goes to the block of code. -/
def isText (s : Section) : Bool := s.flags.isAllocated && s.flags.isExecutable

/-- The alignment the section asks for; none means one. -/
def alignment (s : Section) : UInt64 := if s.align = 0 then 1 else s.align

/-- Reads the header at index `i` of the image. -/
def read (b : Bytes) (i : Nat) : Read Section := do
  return ⟨← le b (i + 4) 4, ⟨← le64 b (i + 8)⟩, ← le64 b (i + 24), ← le64 b (i + 32), ← le b (i + 40) 4,
    ← le64 b (i + 48), ← le64 b (i + 56)⟩

end Section

namespace Object

/-- The section of an index. -/
def section? (o : Object) (index : Nat) : Read Section := do
  if o.sectionCount ≤ index then malformed .badSectionTable
  let start ← Count.mul index sectionHeaderSize
  let start ← Count.add o.tableOffset start
  Section.read o.bytes start

/-- The bytes of a section in the image. -/
def content (o : Object) (s : Section) : Read Bytes := slice o.bytes s.offset.toNat s.size.toNat

end Object

end Keel.Elf
