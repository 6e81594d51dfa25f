import Keel.Module.Export
import Keel.Module.Image
import Keel.Module.Info

/-!
# Loaders

A loader recognizes images of one format and places them in the windows. A table keeps at most `Layout.maxLoaders` of
them, densely packed in the order of registration, and offers an image to each in that order: of two loaders that both
recognize an image, the older one gets it.
-/

namespace Keel

open Keel.Action (note fail lift)

/-- A handler for one format of images. -/
structure Loader where
  name : String
  /-- Whether the loader understands an image. -/
  probe : Image → Bool
  /-- Places an image that may import the given symbols. -/
  load : Image → ExportTable → Action Windows LoadedModule

namespace Loader

/-- A loader that could not place an image. -/
def failedLine (loader image : String) (f : Fault) : Line :=
  ⟨.warn, s!"dynload: {loader} failed to load {image}: {f.message}"⟩

/-- Lets a loader place an image and describes the result. -/
def dispatch (l : Loader) (image : Image) (exports : ExportTable) : Action Windows ModuleInfo := do
  match ← Action.attempt (l.load image exports) with
  | .error f => do
    note (failedLine l.name image.name f)
    fail f
  | .ok module => do
    let name ← ModuleName.ofString image.name
    return ⟨name, l.name, module⟩

end Loader

/-- Loaders in the order of registration: the first `count` slots hold one each. -/
structure LoaderTable where
  slots : Vector (Option Loader) Layout.maxLoaders
  count : Nat

namespace LoaderTable

variable {σ : Type}

/-- A name is registered already. -/
def duplicateLine (name : String) : Line := ⟨.warn, s!"dynload: loader {name} is already registered"⟩

/-- There is no slot left. -/
def fullLine (name : String) : Line :=
  ⟨.warn, s!"dynload: loader table full ({Layout.maxLoaders}), cannot register {name}"⟩

/-- A loader took an image. -/
def selectedLine (loader image : String) : Line := ⟨.debug, s!"dynload: {loader} selected for {image}"⟩

/-- The table without loaders. -/
def empty : LoaderTable := ⟨Vector.replicate _ none, 0⟩

/-- The loaders, the oldest first. -/
def list (t : LoaderTable) : List Loader := (t.slots.toList.take t.count).filterMap id

/-- Appends a loader. -/
def register (l : Loader) : Action LoaderTable Unit := do
  let t ← get
  if l.name.isEmpty then fail .badArgs
  if t.list.any fun k => k.name == l.name then
    note (duplicateLine l.name)
    fail .badArgs
  if t.count = Layout.maxLoaders then
    note (fullLine l.name)
    fail .badArgs
  set (⟨t.slots.setIfInBounds t.count (some l), t.count + 1⟩ : LoaderTable)

/-- The slots after slot `i` has been emptied and those after it have moved up one place. -/
def closeGap (t : LoaderTable) (i : Nat) : Vector (Option Loader) Layout.maxLoaders :=
  Vector.ofFn fun k =>
    if k.val < i || t.count ≤ k.val then t.slots[k]
    else if k.val + 1 < t.count then (t.slots[k.val + 1]?).join
    else none

/-- Removes the loader of a name. -/
def unregister (name : String) : Action LoaderTable Loader := do
  let t ← get
  let i ← Action.ofOption .noSuch (t.list.findIdx? fun l => l.name == name)
  let removed ← Action.ofOption .noSuch (t.slots[i]?).join
  let count ← lift (Count.sub t.count 1)
  set (⟨t.closeGap i, count⟩ : LoaderTable)
  return removed

/-- The oldest loader that recognizes an image. -/
def select (t : LoaderTable) (image : Image) : Action σ Loader := do
  let l ← Action.ofOption .noSuch (t.list.find? fun l => l.probe image)
  note (selectedLine l.name image.name)
  return l

/-- Selects a loader for an image, lets it place the image, and describes the result. -/
def load (t : LoaderTable) (image : Image) (exports : ExportTable) : Action Windows ModuleInfo := do
  let _ ← ModuleName.ofString image.name
  let l ← t.select image
  l.dispatch image exports

end LoaderTable

end Keel
