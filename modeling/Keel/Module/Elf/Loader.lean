import Keel.Module.Elf.Layout
import Keel.Module.Elf.Symbol
import Keel.Module.Loader

/-!
# The loader for relocatable objects

Loading an object lays its sections out, finds every symbol it imports among the exports, and takes addresses for both
blocks from the windows. Imports are resolved and the space is checked before any address is taken. Copying bytes and
applying relocations is left to whoever uses the ranges.
- `resolve` counts the imports, or ends at the first symbol that cannot be had;
- `entryPoint` is the address of the symbol `module_init`, where that is defined in a section of code.
-/

namespace Keel.Elf

open Keel.Action (note fail lift)

variable {σ : Type}

/-! ## Lines -/

/-- A symbol that was found. -/
def resolvedLine (image name : String) (addr : VirtAddr) : Line := ⟨.debug, s!"elf: {image}: {name} -> {addr.text}"⟩

/-- A symbol that has to be there and is not. -/
def unresolvedLine (image name : String) : Line := ⟨.warn, s!"elf: {image}: unresolved import {name}"⟩

/-- A module the windows have no room for. -/
def noRoomLine (image : String) (text data textLeft dataLeft : UInt64) : Line :=
  ⟨.warn, s!"elf: {image}: needs {Text.Hex.plain text.toNat} text / {Text.Hex.plain data.toNat} data bytes, " ++
    s!"{Text.Hex.plain textLeft.toNat} / {Text.Hex.plain dataLeft.toNat} left"⟩

/-- A module that was placed. -/
def placedLine (image : String) (text data : AddressRange) (imports : Nat) : Line :=
  ⟨.info, s!"elf: {image} placed: text {text.start.text} +{Text.Hex.plain text.length.toNat}, " ++
    s!"data {data.start.text} +{Text.Hex.plain data.length.toNat}, {imports} imports"⟩

/-! ## Imports -/

/-- The text of a name in a line. -/
def nameText (name : Bytes) : String := (String.fromUTF8? ⟨name⟩).getD "?"

/-- Finds the undefined symbols of a list among the exports and counts them. A global one has to be there; any other may
be missing, and one without a name stands for nothing. -/
def resolve (image : String) (exports : ExportTable) (t : SymbolTable) : List Symbol → Nat → Action σ Nat
  | [], found => pure found
  | s :: ss, found =>
    if !s.isUndefined then resolve image exports t ss found
    else do
      let name ← lift (t.name s).toChecked
      if name.isEmpty then resolve image exports t ss found
      else
        match ← Action.attempt (exports.lookupBytes name) with
        | .ok addr => do
          note (resolvedLine image (nameText name) addr)
          resolve image exports t ss (← lift (Count.add found 1))
        | .error .noSuch =>
          if s.info.binding = globalBinding then do
            note (unresolvedLine image (nameText name))
            fail .noSuch
          else resolve image exports t ss found
        | .error f => fail f

/-! ## The entry point -/

/-- The bytes of the name of the entry point. -/
def initName : Bytes := Layout.initSymbol.toUTF8.data

/-- The section and the value of the first symbol that names an entry point in a section of code. -/
def findInit (o : Object) (t : SymbolTable) : List Symbol → Read (Option (Nat × UInt64))
  | [] => .ok none
  | s :: ss => do
    if !s.isPlaced then findInit o t ss
    else if (← t.name s) ≠ initName then findInit o t ss
    else if (← o.section? s.sectionIndex).isText then return some (s.sectionIndex, s.value)
    else findInit o t ss

/-- The address of the entry point, if there is one and it lies in the code. -/
def entryPoint (o : Object) (text : AddressRange) : Option (Nat × UInt64) → Checked Fault (Option VirtAddr)
  | none => .ok none
  | some (index, value) => do
    let layout ← (o.layout (some index)).toChecked
    let offset ← orFault .badArgs layout.offset
    let offset ← orFault .badArgs (Word.add? offset value)
    let entry ← orFault .badArgs (text.start.add? offset)
    return if text.contains entry then some entry else none

/-! ## Loading -/

/-- Whether an image is an object this loader can read. -/
def probe (image : Image) : Bool := (Object.read image.bytes).isOk

/-- A range of `size` bytes that `allocate` hands out; nothing is asked for where there are no bytes. -/
def takeRange (allocate : UInt64 → Action Windows VirtAddr) (size : UInt64) : Action Windows AddressRange :=
  if size = 0 then pure .empty else do return ⟨← allocate size, size⟩

/-- Places an object. -/
def load (image : Image) (exports : ExportTable) : Action Windows LoadedModule := do
  let o ← lift (Object.read image.bytes).toChecked
  let layout ← lift (o.layout none).toChecked
  let table ← lift o.symbolTable.toChecked
  let (imports, init) ← match table with
    | none => pure (0, none)
    | some t => do
      let symbols ← lift t.symbols.toChecked
      let imports ← resolve image.name exports t symbols 0
      let init ← lift (findInit o t symbols).toChecked
      pure (imports, init)
  let textPages ← Action.ofOption .overflow (Align.pageCeil? layout.text)
  let dataPages ← Action.ofOption .overflow (Align.pageCeil? layout.data)
  let w ← get
  let textLeft ← lift w.text.remaining
  let dataLeft ← lift w.data.remaining
  if textLeft < textPages || dataLeft < dataPages then
    note (noRoomLine image.name textPages dataPages textLeft dataLeft)
    fail .tooMany
  let text ← takeRange Windows.allocateText layout.text
  let data ← takeRange Windows.allocateData layout.data
  let entry ← lift (entryPoint o text init)
  note (placedLine image.name text data imports)
  return ⟨text, data, entry, imports⟩

/-- The built-in loader. -/
def loader : Loader := ⟨Layout.elfLoaderName, probe, load⟩

end Keel.Elf
