import Keel.Module.Window
import Keel.Text.Quoted

/-!
# What is known of a module

Names of modules have at least one and at most `Layout.maxNameBytes` bytes, which `ModuleName` carries with it. A loaded
module is described by the ranges its code and data were given, its entry point and the number of its imports.
-/

namespace Keel

open Keel.Action (note fail)

/-- The name of a module. -/
structure ModuleName where
  text : String
  nonempty : text.isEmpty = false
  fits : text.utf8ByteSize ≤ Layout.maxNameBytes
  deriving DecidableEq

namespace ModuleName

variable {σ : Type}

/-- A name with too many bytes. -/
def tooLongLine (bytes : Nat) : Line :=
  ⟨.warn, s!"registry: module name of {bytes} bytes exceeds {Layout.maxNameBytes}"⟩

/-- A string as a name. -/
def ofString (s : String) : Action σ ModuleName := do
  if he : s.isEmpty = false then
    if hf : s.utf8ByteSize ≤ Layout.maxNameBytes then return ⟨s, he, hf⟩
    else
      note (tooLongLine s.utf8ByteSize)
      fail .limits
  else fail .badArgs

/-- The name in quotes. -/
def describe (n : ModuleName) : String := Text.quote n.text

theorem ofString_text (n : ModuleName) (s : σ) : ofString n.text s = ⟨.ok n, s, []⟩ := by
  simp only [ofString, n.nonempty, n.fits, dif_pos]
  rfl

end ModuleName

/-- Where a module was placed. -/
structure LoadedModule where
  text : AddressRange
  data : AddressRange
  entry : Option VirtAddr
  imports : Nat
  deriving DecidableEq

namespace LoadedModule

/-- A module without bytes. -/
def empty : LoadedModule := ⟨.empty, .empty, none, 0⟩

/-- The placement with its fields named. -/
def describe (m : LoadedModule) : String :=
  let entry := match m.entry with
    | some a => "Some(" ++ a.describe ++ ")"
    | none => "None"
  "LoadedModule \x7b text: " ++ m.text.describe ++ ", data: " ++ m.data.describe ++ ", entry: " ++ entry ++
    ", imports: " ++ toString m.imports ++ " \x7d"

end LoadedModule

/-- A module by its name, the loader that took it, and its placement. -/
structure ModuleInfo where
  name : ModuleName
  loader : String
  module : LoadedModule
  deriving DecidableEq

/-- The description of a module with its fields named. -/
def ModuleInfo.describe (i : ModuleInfo) : String :=
  "ModuleInfo \x7b name: " ++ i.name.describe ++ ", loader: " ++ Text.quote i.loader ++ ", module: " ++
    i.module.describe ++ " \x7d"

end Keel
