import Keel.Heap.Allocator
import Keel.Module.Cell
import Keel.Module.Loader

/-!
# The kernel's state

All services of one kernel: memory, the windows, the exported symbols, the loaders, the registry of modules, and the
stage that bring-up has reached. Windows and exports are set up once; what is asked of them before is a fault.

The registry links records that lie in memory or are kept by their owners. What it does, it does to the records that are
there at the time: `shelfWith` reads them, and `setShelf` writes the links and marks that are new, and nothing else.
-/

namespace Keel

open Keel.Action (note fail lift)

/-- How far bring-up has come. -/
inductive Stage
  | early
  /-- The pool and the heap are up. -/
  | memory
  /-- Modules can be loaded. -/
  | modules
  deriving DecidableEq

namespace Stage

/-- The place of a stage in the order. -/
def rank : Stage → Nat
  | early => 0
  | memory => 1
  | modules => 2

/-- The name of a stage. -/
def name : Stage → String
  | early => "Early"
  | memory => "Memory"
  | modules => "Modules"

/-- The later of two stages. -/
def later (a b : Stage) : Stage := if a.rank ≤ b.rank then b else a

theorem rank_le_later (a b : Stage) : a.rank ≤ (later a b).rank := by cases a <;> cases b <;> decide

end Stage

/-- The services of one kernel. -/
structure Kernel where
  ground : Ground
  windows : Option Windows
  exports : Option ExportTable
  loaders : LoaderTable
  registry : Registry
  /-- The records that their owners keep outside memory. -/
  owned : RecordStore
  /-- The texts of the program that records in memory refer to. -/
  texts : List String
  stage : Stage

namespace Kernel

variable {α : Type}

/-- A kernel over memory in which nothing has been started; `poison` tells whether its heap overwrites cells. -/
def boot (memory : Memory) (poison : Bool) : Kernel :=
  ⟨⟨⟨memory, none, poison⟩, none⟩, none, none, .empty, .empty, .empty, [], .early⟩

/-! ## Memory services -/

/-- The memory services. -/
def groundPart : Part Kernel Ground := ⟨Kernel.ground, fun k g => { k with ground := g }⟩

/-- Runs an action on the memory services. -/
def onGround (x : Action Ground α) : Action Kernel α := Action.zoom groundPart x

/-- Runs an action on the frame pool. -/
def onPool (x : Action Frame.Pool α) : Action Kernel α := onGround (Ground.onPool x)

/-! ## Windows -/

/-- The windows were set up before. -/
def windowsTwiceLine : Line := ⟨.warn, "modmem: already initialized"⟩

/-- The windows are set up. -/
def windowsOnlineLine (w : Windows) : Line :=
  ⟨.info, s!"modmem: text window {w.text.base.text} (+{Text.Hex.plain w.text.size.toNat}), " ++
    s!"data window {w.data.base.text} (+{Text.Hex.plain w.data.size.toNat})"⟩

/-- Sets up the windows of the kernel's address space, once. -/
def startWindows : Action Kernel Unit := do
  let k ← get
  if k.windows.isSome then
    note windowsTwiceLine
    fail .badArgs
  set { k with windows := some .kernel }
  note (windowsOnlineLine .kernel)

/-- Runs an action on the windows. -/
def onWindows (x : Action Windows α) : Action Kernel α := fun k =>
  match k.windows with
  | none => ⟨.error (.fault .notInit), k, []⟩
  | some w =>
    let t := x w
    ⟨t.result, { k with windows := some t.state }, t.log⟩

/-! ## Exports -/

/-- The exports were published before. -/
def exportsTwiceLine : Line := ⟨.warn, "exports: already initialized"⟩

/-- The exports are published. -/
def exportsOnlineLine (n : Nat) : Line := ⟨.info, s!"exports: {n} kernel symbols available to modules"⟩

/-- Publishes the exported symbols, once. -/
def startExports (t : ExportTable) : Action Kernel Unit := do
  let k ← get
  if k.exports.isSome then
    note exportsTwiceLine
    fail .badArgs
  set { k with exports := some t }
  note (exportsOnlineLine t.entries.length)

/-- The exported symbols. -/
def exportTable : Action Kernel ExportTable := do Action.ofOption .notInit (← get).exports

/-! ## Loaders -/

/-- The loaders. -/
def loadersPart : Part Kernel LoaderTable := ⟨Kernel.loaders, fun k t => { k with loaders := t }⟩

/-- A loader was registered. -/
def registeredLine (name : String) : Line := ⟨.info, s!"dynload: registered loader {name}"⟩

/-- A loader was removed. -/
def unregisteredLine (name : String) : Line := ⟨.info, s!"dynload: unregistered loader {name}"⟩

/-- Appends a loader. -/
def registerLoader (l : Loader) : Action Kernel Unit := do
  Action.zoom loadersPart (LoaderTable.register l)
  note (registeredLine l.name)

/-- Removes the loader of a name. -/
def unregisterLoader (name : String) : Action Kernel Unit := do
  let _ ← Action.zoom loadersPart (LoaderTable.unregister name)
  note (unregisteredLine name)

/-- Loads an image with the kernel's loaders, windows and exports. -/
def loadImage (image : Image) : Action Kernel ModuleInfo := do
  let _ ← ModuleName.ofString image.name
  let exports ← exportTable
  let l ← (← get).loaders.select image
  onWindows (l.dispatch image exports)

/-! ## Registered modules -/

/-- The record of an id: one in memory is what its cell holds. -/
def record? (k : Kernel) : RecordId → Option Record
  | .owned n => k.owned.get? (.owned n)
  | .stored p => Cell.read k.texts k.ground.arena.memory p

/-- More records than a list without a cycle can have: no more start in memory than there are addresses. -/
def recordLimit (k : Kernel) : Nat := 2 ^ 64 + k.owned.entries.length

/-- The registry with the records that it links, and with those of `ids`. -/
def shelfWith (k : Kernel) (ids : List RecordId) : Shelf :=
  ⟨⟨ids.filterMap (fun id => (k.record? id).map fun r => (id, r)) ++
    Registry.recordsFrom k.record? k.recordLimit k.registry.head⟩, k.registry⟩

/-- The registry with the records that it links. -/
def shelf (k : Kernel) : Shelf := k.shelfWith []

/-- Gives a record its link and its mark. -/
def relink (k : Kernel) (e : RecordId × Record) : Kernel :=
  match e.1 with
  | .owned n => { k with owned := k.owned.update (.owned n) fun _ => e.2 }
  | .stored p => { k with ground.arena.memory := Cell.relink k.ground.arena.memory p e.2.next e.2.linked }

/-- The records of a shelf that are not as they were. -/
def changed (k : Kernel) (s : Shelf) : List (RecordId × Record) :=
  s.store.entries.filter fun e => k.record? e.1 ≠ some e.2

/-- The kernel after the registry and the records that it links have become those of a shelf. -/
def setShelf (k : Kernel) (s : Shelf) : Kernel := { (k.changed s).foldl relink k with registry := s.registry }

/-- Runs an action on the registry with the records that it links, and with those of `ids`. -/
def onShelfWith (ids : List RecordId) (x : Action Shelf α) : Action Kernel α :=
  Action.zoom ⟨fun k => k.shelfWith ids, setShelf⟩ x

/-- Runs an action on the registry. -/
def onShelf (x : Action Shelf α) : Action Kernel α := onShelfWith [] x

/-- A module joined the registry. -/
def moduleAddedLine (i : ModuleInfo) : Line :=
  let range (r : AddressRange) := r.start.text ++ " +" ++ Text.Hex.plain r.length.toNat
  ⟨.info, s!"registry: {i.name.text} loaded by {i.loader} (text {range i.module.text}, data {range i.module.data})"⟩

/-- A module left the registry. -/
def moduleRemovedLine (name : String) : Line := ⟨.info, s!"registry: {name} unregistered"⟩

/-- Makes a record that is part of no list, in memory or with its owner. -/
def keepRecord (id : RecordId) (i : ModuleInfo) : Action Kernel Unit := modify fun k =>
  match id with
  | .owned n => { k with owned := k.owned.insert (.owned n) (.fresh i) }
  | .stored p =>
    let texts := Cell.intern k.texts i.loader
    { k with texts, ground.arena.memory := Cell.write texts k.ground.arena.memory p i }

/-- The record of an id. -/
def record (id : RecordId) : Action Kernel Record := do Action.ofOption .noSuch ((← get).record? id)

/-- Registers the module of a record. -/
def addModule (id : RecordId) : Action Kernel Unit := do
  onShelfWith [id] (Registry.add id)
  note (moduleAddedLine (← record id).info)

/-- What is known of the module of a name. -/
def findModule (name : String) : Action Kernel ModuleInfo := do
  let (_, r) ← onShelf (Registry.find name)
  return r.info

/-- Takes the module of a name out of the registry and answers its record. -/
def removeModule (name : String) : Action Kernel RecordId := do
  let id ← onShelf (Registry.removeByName name)
  note (moduleRemovedLine name)
  return id

/-- The registered modules, the youngest first. -/
def modules (k : Kernel) : List ModuleInfo := (k.shelf.registry.records k.shelf.store).map fun e => e.2.info

end Kernel

end Keel
