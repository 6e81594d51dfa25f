import Keel.Module.Loader

/-!
# Loaders from rules

A loader can be given by a rule: which images it recognizes, which windows it uses, and whether it fails in the end. It
places the bytes of the image as they are, the entry point at the start of the code.
-/

namespace Keel

/-- Which windows a rule uses; `imported` looks the image's own name up before it uses the window for code. -/
inductive Rule.Target
  | text
  | data
  | both
  | imported
  deriving DecidableEq

/-- What a loader does, as a rule. -/
structure Rule where
  name : String
  /-- Images of at least this size are recognized. -/
  minSize : Option Nat
  /-- Images that start with these bytes are recognized. -/
  magic : Option (Array UInt8)
  target : Rule.Target
  /-- The fault the loader ends with after it has placed the image. -/
  verdict : Option Fault

namespace Rule

/-- Whether the rule recognizes an image. -/
def recognizes (r : Rule) (i : Image) : Bool :=
  r.minSize.any (fun n => n ≤ i.bytes.size) || r.magic.any (fun m => m.isPrefixOf i.bytes)

/-- Places an image by the rule. -/
def place (r : Rule) (i : Image) (exports : ExportTable) : Action Windows LoadedModule := do
  let size := UInt64.ofNat i.bytes.size
  let imports ← if r.target = .imported then do
      let _ ← exports.lookup i.name
      pure 1
    else pure 0
  let mut m := { LoadedModule.empty with imports }
  if r.target ≠ .data then
    let start ← Windows.allocateText size
    m := { m with text := ⟨start, size⟩, entry := some start }
  if r.target = .data || r.target = .both then
    let start ← Windows.allocateData size
    m := { m with data := ⟨start, size⟩ }
  match r.verdict with
  | some f => Action.fail f
  | none => return m

/-- The loader a rule describes. -/
def toLoader (r : Rule) : Loader := ⟨r.name, r.recognizes, r.place⟩

end Rule

end Keel
