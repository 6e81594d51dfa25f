import Keel.Kernel.Bringup

/-!
# Boot modules

Loading a boot module reserves the frames of its blob, lets a loader place the image, and registers a record that is
kept in a heap object; unloading takes the record out of the registry, reads it, and gives the object back. Addresses are
never given back. The image is read after the frames are reserved, since a blob may share bytes with the pool's own bitmap.
Corruption met on the way stops the machine; any other fault is the caller's, and `loadAll` goes on after it.
-/

namespace Keel.Kernel

open Keel.Action (note fail lift)

/-- How many boot modules were loaded and how many were not. -/
structure BootReport where
  loaded : Nat
  failed : Nat
  deriving DecidableEq

/-- Bytes of a record in the heap. -/
def recordSize : Nat := 8 * Cell.words

/-! ## Lines -/

/-- The name is loaded already. -/
def loadedTwiceLine (name : String) : Line := ⟨.warn, s!"core: module {name} is already loaded"⟩

/-- A boot module was loaded. -/
def loadedLine (i : ModuleInfo) : Line := ⟨.info, s!"core: loaded {i.name.text} via {i.loader}"⟩

/-- A boot module was not loaded. -/
def skippedLine (path : String) (f : Fault) : Line := ⟨.warn, s!"core: skipping boot module {path}: {f.message}"⟩

/-- All boot modules were tried. -/
def reportLine (r : BootReport) : Line := ⟨.info, s!"core: boot modules: {r.loaded} loaded, {r.failed} failed"⟩

/-- A module was unloaded. -/
def unloadedLine (name : String) : Line := ⟨.info, s!"core: unloaded {name}"⟩

/-! ## Records in the heap -/

/-- Gives the heap object of a record back; a record outside the heap is not the kernel's to give. -/
def releaseRecord : RecordId → Action Kernel Unit
  | .owned _ => fail .badArgs
  | .stored p => escalate (onGround (Ground.free p))

/-- Makes a record in a fresh heap object, registers its module, and answers which record it is. -/
def storeRecord (i : ModuleInfo) : Action Kernel RecordId := do
  let p ← escalate (onGround (Ground.allocate recordSize))
  let id := RecordId.stored p
  keepRecord id i
  match ← Action.attempt (addModule id) with
  | .ok () => return id
  | .error f => do
    releaseRecord id
    fail f

/-! ## Loading and unloading -/

/-- Loads one boot module and registers it under its file name; the answer is what the record tells of it. -/
def loadBootModule (m : BootModule) (mapper : Mapper) : Action Kernel ModuleInfo := do
  require .modules
  let blob ← lift (Blob.ofBootModule m mapper)
  let k ← get
  if k.shelf.registry.contains k.shelf.store blob.name then
    note (loadedTwiceLine blob.name)
    fail .badArgs
  let _ ← onPool (Frame.Pool.reserve m.addr m.size)
  let info ← escalate (loadImage (blob.image (← get).ground.arena.memory))
  let id ← storeRecord info
  return (← record id).info

/-- Loads the boot modules one after the other, on top of the report so far. -/
def loadEach (mapper : Mapper) : List BootModule → BootReport → Action Kernel BootReport
  | [], r => pure r
  | m :: ms, r => do
    match ← Action.attempt (loadBootModule m mapper) with
    | .ok info => do
      note (loadedLine info)
      loadEach mapper ms { r with loaded := r.loaded + 1 }
    | .error f => do
      note (skippedLine m.path f)
      loadEach mapper ms { r with failed := r.failed + 1 }

/-- Loads every boot module; those that cannot be loaded are logged and skipped. -/
def loadAll (ms : List BootModule) (mapper : Mapper) : Action Kernel BootReport := do
  let r ← loadEach mapper ms ⟨0, 0⟩
  note (reportLine r)
  return r

/-- Unloads the module of a name. -/
def unloadModule (name : String) : Action Kernel ModuleInfo := do
  require .modules
  let id ← removeModule name
  let r ← record id
  releaseRecord id
  note (unloadedLine r.info.name.text)
  return r.info

end Keel.Kernel
