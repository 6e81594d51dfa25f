import Keel.Action

/-!
# Malformed objects

What can be wrong with a relocatable object. To the rest of the kernel all of it is an invalid argument (`toFault`).
-/

namespace Keel.Elf

/-- Why an object is refused. -/
inductive Malformed
  | tooShort
  | badMagic
  | badClass
  | badType
  | badMachine
  | badSectionTable
  | outOfBounds
  | badAlignment
  | badSymbolTable
  deriving DecidableEq

namespace Malformed

/-- All causes. -/
def all : List Malformed :=
  [.tooShort, .badMagic, .badClass, .badType, .badMachine, .badSectionTable, .outOfBounds, .badAlignment,
    .badSymbolTable]

/-- The name of a cause. -/
def name : Malformed → String
  | tooShort => "TooShort"
  | badMagic => "BadMagic"
  | badClass => "BadClass"
  | badType => "BadType"
  | badMachine => "BadMachine"
  | badSectionTable => "BadSectionTable"
  | outOfBounds => "OutOfBounds"
  | badAlignment => "BadAlignment"
  | badSymbolTable => "BadSymbolTable"

/-- The sentence that describes a cause. -/
def message : Malformed → String
  | tooShort => "image shorter than an ELF header"
  | badMagic => "bad ELF magic"
  | badClass => "not a 64-bit little-endian object"
  | badType => "not a relocatable object"
  | badMachine => "not an x86-64 object"
  | badSectionTable => "malformed section header table"
  | outOfBounds => "section or symbol outside the image"
  | badAlignment => "section alignment is not a power of two"
  | badSymbolTable => "malformed symbol table"

/-- The fault a cause is reported as. -/
def toFault (_ : Malformed) : Fault := .badArgs

end Malformed

/-- A reading of an object that may find it malformed. -/
abbrev Read (α : Type) := Checked Malformed α

/-- Finds the object malformed. -/
def malformed {α : Type} (e : Malformed) : Read α := .error (.fault e)

/-- A reading as the rest of the kernel sees it. -/
def Read.toChecked {α : Type} : Read α → Checked Fault α
  | .ok a => .ok a
  | .error (.fault e) => .error (.fault e.toFault)
  | .error (.halt h) => .error (.halt h)

end Keel.Elf
