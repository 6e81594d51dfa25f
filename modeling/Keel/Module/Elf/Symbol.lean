import Keel.Module.Elf.Object

/-!
# Symbols

The first symbol table of an object, with the string table it links to. The first entry is reserved and never looked
at. A name is the bytes of the string table from the symbol's offset up to the next NUL.
-/

namespace Keel.Elf

/-- Bytes of a symbol. -/
def symbolSize : Nat := 24

/-- The kind and the binding of a symbol in one byte. -/
structure SymbolInfo where
  bits : UInt8
  deriving DecidableEq

namespace SymbolInfo

/-- The bits of the kind. -/
def lowNibble : UInt8 := 0x0f

/-- The kind, in the low four bits. -/
def kind (i : SymbolInfo) : UInt8 := i.bits &&& lowNibble

/-- The binding, in the high four bits. -/
def binding (i : SymbolInfo) : UInt8 := i.bits >>> 4

/-- The byte with this kind and binding. -/
def make (kind binding : UInt8) : SymbolInfo := ⟨(kind &&& lowNibble) ||| (binding <<< 4)⟩

/-- The parts by name. -/
def describe (i : SymbolInfo) : String := s!"StInfo \x7b typ: {i.kind}, bind: {i.binding} \x7d"

theorem make_kind_binding (i : SymbolInfo) : make i.kind i.binding = i := by
  obtain ⟨⟨⟨b⟩⟩⟩ := i
  revert b
  decide +kernel

end SymbolInfo

/-- The binding of a symbol that has to be found elsewhere. -/
def globalBinding : UInt8 := 1

/-- The section index of an undefined symbol. -/
def undefinedSection : Nat := 0

/-- The first section index that names no section. -/
def reservedSections : Nat := 0xff00

/-- A symbol. -/
structure Symbol where
  nameOffset : Nat
  info : SymbolInfo
  sectionIndex : Nat
  value : UInt64
  deriving DecidableEq

/-- Reads the symbol at index `i` of a symbol table. -/
def Symbol.read (b : Bytes) (i : Nat) : Read Symbol := do
  return ⟨← le b i 4, ⟨UInt8.ofNat (← byteAt b (i + 4))⟩, ← le b (i + 6) 2, ← le64 b (i + 8)⟩

/-- Whether a symbol is defined elsewhere. -/
def Symbol.isUndefined (s : Symbol) : Bool := s.sectionIndex == undefinedSection

/-- Whether a symbol belongs to a section of its object. -/
def Symbol.isPlaced (s : Symbol) : Bool := !s.isUndefined && s.sectionIndex < reservedSections

/-- A symbol table and the strings its names are taken from. -/
structure SymbolTable where
  table : Bytes
  strings : Bytes

namespace SymbolTable

/-- All symbols but the reserved first one. -/
def symbols (t : SymbolTable) : Read (List Symbol) :=
  ((List.range (t.table.size / symbolSize)).drop 1).mapM fun i => Symbol.read t.table (i * symbolSize)

/-- The name of a symbol. -/
def name (t : SymbolTable) (s : Symbol) : Read Bytes := do
  if t.strings.size < s.nameOffset then malformed .outOfBounds
  let tail := t.strings.extract s.nameOffset t.strings.size
  let size ← orFault .badSymbolTable (tail.findIdx? fun b => b == 0)
  return tail.extract 0 size

end SymbolTable

namespace Object

/-- The first section of a type among the given indices. -/
def firstOfType (o : Object) (type : Nat) : List Nat → Read (Option Section)
  | [] => .ok none
  | i :: is => do
    let s ← o.section? i
    if s.type = type then return some s
    firstOfType o type is

/-- The section of the names of a symbol table; every way to miss it is a malformed symbol table. -/
def namesOf (o : Object) (table : Section) : Read Section :=
  if table.link = 0 then malformed .badSymbolTable
  else match o.section? table.link with
    | .error (.fault _) => malformed .badSymbolTable
    | r => r

/-- The symbol table of an object, if it has one. -/
def symbolTable (o : Object) : Read (Option SymbolTable) := do
  match ← o.firstOfType symbolTableType (List.range o.sectionCount) with
  | none => return none
  | some s => do
    if s.entrySize.toNat ≠ symbolSize || s.size.toNat % symbolSize ≠ 0 then malformed .badSymbolTable
    let names ← o.namesOf s
    return some ⟨← o.content s, ← o.content names⟩

end Object

end Keel.Elf
