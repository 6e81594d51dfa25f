import Keel.Memory
import Keel.Module.Registry

/-!
# Records in memory

A record fills eighteen words: its name with zeros behind it and the length of the name, the name of the loader, the two
ranges, the entry point and the number of imports, and last the link and the mark of a record that is part of a list. The
names of loaders are texts of the program and lie outside memory; a text is known by its place in a table. So what is at
an address need not be a record, and the record that is there changes with the bytes.
- `Cell.read`: the record at an address, if there is one;
- `Cell.write`: makes a record that is part of no list; `Cell.relink` writes a link and a mark and leaves the rest.
-/

namespace Keel

namespace Cell

open Keel.Memory (ofBytes wordBytes)

/-- Words that tell of the module. -/
def infoWords : Nat := 16

/-- Words of a record: those that tell of the module, the link and the mark. -/
def words : Nat := infoWords + 2

/-- Words of a name, its length apart. -/
def nameWords : Nat := Layout.maxNameBytes / 8

/-- Offset of the link. -/
def linkField : Ptr := 128

/-- Offset of the mark. -/
def markField : Ptr := 136

/-! ## Names -/

/-- The first `n` words that a string of bytes fills with zeros behind it. -/
def pack : Nat → List UInt8 → List UInt64
  | 0, _ => []
  | n + 1, bs => ofBytes ((bs.take 8).rightpad 8 0) :: pack n (bs.drop 8)

/-- The name in the first `n` bytes of some words. -/
def nameOf? (ws : List UInt64) (n : Nat) : Option ModuleName := do
  let text ← String.fromUTF8? ⟨((ws.flatMap wordBytes).take n).toArray⟩
  if h : text.isEmpty = false ∧ text.utf8ByteSize ≤ Layout.maxNameBytes then some ⟨text, h.1, h.2⟩ else none

/-! ## Texts -/

/-- The table with a text, which it may have already. -/
def intern (texts : List String) (text : String) : List String := if text ∈ texts then texts else texts ++ [text]

/-! ## Modules -/

/-- The words that tell of a module. -/
def encode (texts : List String) (i : ModuleInfo) : List UInt64 :=
  pack nameWords i.name.text.toUTF8.data.toList ++
    [UInt64.ofNat i.name.text.utf8ByteSize, UInt64.ofNat (texts.idxOf i.loader), UInt64.ofNat i.loader.utf8ByteSize,
      i.module.text.start.raw, i.module.text.length, i.module.data.start.raw, i.module.data.length,
      if i.module.entry.isSome then 1 else 0, (i.module.entry.getD .zero).raw, UInt64.ofNat i.module.imports]

/-- What some words tell of a module. -/
def decode? (texts : List String) (ws : List UInt64) : Option ModuleInfo :=
  match ws.drop nameWords with
  | [length, loader, _, textStart, textLength, dataStart, dataLength, hasEntry, entry, imports] => do
    let name ← nameOf? (ws.take nameWords) length.toNat
    let loader ← texts[loader.toNat]?
    let entry := if hasEntry = 0 then none else some ⟨entry⟩
    return ⟨name, loader, ⟨⟨⟨textStart⟩, textLength⟩, ⟨⟨dataStart⟩, dataLength⟩, entry, imports.toNat⟩⟩
  | _ => none

/-! ## Links -/

/-- A link as a word: zero, the address of a cell, or the odd address of a record that its owner keeps outside memory. -/
def linkWord : Option RecordId → UInt64
  | none => 0
  | some (.stored p) => p
  | some (.owned n) => UInt64.ofNat (2 * n + 1)

/-- The link that a word stands for. -/
def linkOf (w : UInt64) : Option RecordId :=
  if w = 0 then none else some (if w.toNat % 2 = 1 then .owned (w.toNat / 2) else .stored w)

/-! ## Cells -/

/-- The record at `p`. -/
def read (texts : List String) (m : Memory) (p : Ptr) : Option Record := do
  let info ← decode? texts (m.wordsAt p infoWords).toList
  return ⟨info, linkOf (m.word (p + linkField)), m.word (p + markField) != 0⟩

/-- Writes a link and a mark into the cell at `p`. -/
def relink (m : Memory) (p : Ptr) (next : Option RecordId) (linked : Bool) : Memory :=
  m.setWords (p + linkField) [linkWord next, if linked then 1 else 0]

/-- Makes the cell at `p` a record that is part of no list. -/
def write (texts : List String) (m : Memory) (p : Ptr) (i : ModuleInfo) : Memory :=
  relink (m.setWords p (encode texts i)) p none false

end Cell

end Keel
