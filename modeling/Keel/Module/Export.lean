import Keel.Action
import Keel.Address

/-!
# Exported symbols

The symbols that modules may import: a list of names with their addresses, never written after it is made. A look-up
answers the first entry of exactly that name. Names that come from an image are bytes and have to be UTF-8.
-/

namespace Keel

open Keel.Action (note fail)

/-- A name and the address it stands for. -/
structure Export where
  name : String
  addr : VirtAddr
  deriving DecidableEq

/-- The exported symbols, in order. -/
structure ExportTable where
  entries : List Export
  deriving DecidableEq

namespace ExportTable

variable {σ : Type}

/-- Bytes of an entry in memory. -/
def entrySize : Nat := 24

/-- Alignment of an entry in memory. -/
def entryAlign : Nat := 8

/-- A symbol that was found. -/
def foundLine (name : String) (addr : VirtAddr) : Line := ⟨.debug, s!"exports: {name} -> {addr.text}"⟩

/-- A span that ends inside an entry. -/
def raggedLine (bytes : Nat) : Line :=
  ⟨.warn, s!"exports: table span of {bytes} bytes is not a whole number of entries"⟩

/-- The number of entries. -/
def countLine (n : Nat) : Line := ⟨.info, s!"exports: {n} symbols"⟩

/-- One entry of a report. -/
def entryLine (i : Nat) (e : Export) : Line :=
  let index := String.ofList (Text.padLeft ' ' 4 (toString i).toList)
  ⟨.info, s!"exports: [{index}] {e.addr.text} {e.name}"⟩

/-- The first entry of a name, which must not be empty. -/
def find? (t : ExportTable) (name : String) : Option Export :=
  if name.isEmpty then none else t.entries.find? fun e => e.name == name

/-- The address a name stands for. -/
def lookup (t : ExportTable) (name : String) : Action σ VirtAddr := do
  let e ← Action.ofOption .noSuch (t.find? name)
  note (foundLine name e.addr)
  return e.addr

/-- The address a name stands for, the name given by its bytes. -/
def lookupBytes (t : ExportTable) (name : Array UInt8) : Action σ VirtAddr := do
  t.lookup (← Action.ofOption .badArgs (String.fromUTF8? ⟨name⟩))

/-- The address a name stands for, the name given by bytes up to a NUL; there may be no name at all. -/
def lookupTerminated (t : ExportTable) (name : Option (Array UInt8)) : Action σ VirtAddr := do
  let bytes ← Action.ofOption .badArgs name
  t.lookupBytes (bytes.takeWhile fun b => b != 0)

/-- The entries between two byte offsets into the table, which stand for the bounds of an array in memory. -/
def between (t : ExportTable) (start stop : Option Nat) : Action σ ExportTable := do
  match start, stop with
  | some start, some stop => do
    if start % entryAlign ≠ 0 || stop < start then fail .badArgs
    if (stop - start) % entrySize ≠ 0 then
      note (raggedLine (stop - start))
      fail .badArgs
    return ⟨(t.entries.drop (start / entrySize)).take ((stop - start) / entrySize)⟩
  | _, _ => fail .badArgs

/-- Logs every entry. -/
def report (t : ExportTable) : Action σ Unit := do
  note (countLine t.entries.length)
  t.entries.zipIdx.forM fun (e, i) => note (entryLine i e)

theorem find?_name {t : ExportTable} {name : String} {e : Export} (h : t.find? name = some e) : e.name = name := by
  unfold find? at h
  split at h
  · cases h
  · simpa using List.find?_some h

end ExportTable

end Keel
