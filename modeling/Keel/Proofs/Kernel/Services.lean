import Keel.Kernel.BootModules
import Keel.Proofs.Kernel.Bringup
import Keel.Proofs.Kernel.Shelf

/-!
# What the kernel does to its memory services

Whatever the kernel does on top of its memory services is made of what the services do themselves: what concerns windows,
exports, loaders and the registry alone leaves them as they are, and the rest allocates, takes back and reserves. So a
relation that their own answers are steps of, and writes into memory (`Serves`), is one that the kernel takes steps of
(`Over`). Bringing loading up asks nothing of the services, and leaves the registry and its records too
(`rests_startModules`, `steps_startModules`), unloading gives objects back only (`steps_unloadModule`), and loading may do
anything (`steps_loadBootModule`, `steps_loadAll`): the image is offered, it is placed, and the record is stored and read
(`loadBootModule_eq`). Of records this holds for any relation of kernels (`Releases`, `Stores`), since they need objects of
the heap and the registry only, and of loading for any that lets frames be reserved and the windows move (`Admits`).
-/

namespace Keel.Kernel

open Keel.Action (Steps)
open Keel.Frame (Pool Request)
open Keel.Slab (Estate)

variable {α : Type} {R : Kernel → Kernel → Prop} {S : Ground → Ground → Prop} {k k' : Kernel}

/-- What it takes to give a record back is a step of a relation. -/
structure Releases (R : Kernel → Kernel → Prop) : Prop where
  free : ∀ p, Steps R (onGround (Ground.free p))
  shelf : ∀ {α : Type} (ids : List RecordId) (x : Action Shelf α), Steps R (onShelfWith ids x)

/-- What it takes to keep a record is a step of a relation. -/
structure Stores (R : Kernel → Kernel → Prop) : Prop extends Releases R where
  allocate : ∀ size, Steps R (onGround (Ground.allocate size))
  keep : ∀ id i, Steps R (keepRecord id i)

/-- What it takes to load is a step of a relation. -/
structure Admits (R : Kernel → Kernel → Prop) : Prop extends Stores R where
  reserve : ∀ base length, Steps R (onPool (Pool.reserve base length))
  windows : ∀ x : Action Windows ModuleInfo, Steps R (onWindows x)

/-- The memory services of two kernels are related. -/
def Over (S : Ground → Ground → Prop) : Kernel → Kernel → Prop := Order.Preimage Kernel.ground S

instance {S : Ground → Ground → Prop} [IsPreorder Ground S] : IsPreorder Kernel (Over S) :=
  Order.Preimage.instIsPreorder

/-- The answers of the memory services are steps of a relation, and so is whatever is written into memory. -/
structure Serves (S : Ground → Ground → Prop) : Prop where
  write : ∀ (g : Ground) (m : Memory), S g { g with arena.memory := m }
  allocate : ∀ size, Steps S (Ground.allocate size)
  free : ∀ p, Steps S (Ground.free p)
  reserve : ∀ base length, Steps S (Ground.onPool (Pool.reserve base length))

/-- The memory services of a kernel are led from one state to another. -/
abbrev Leads (E : Estate) (R : Set Request) : Kernel → Kernel → Prop := Over (Ground.Leads E R)

theorem Leads.trans {E : Estate} {Q : Set Request} {k₁ k₂ : Kernel} (h : Leads E Q k k₁) (h' : Leads E Q k₁ k₂) :
    Leads E Q k k₂ := IsTrans.trans (r := Leads E Q) k k₁ k₂ h h'

theorem Leads.mono {E : Estate} {Q Q' : Set Request} (h : Leads E Q k k') (hQ : Q ⊆ Q') : Leads E Q' k k' :=
  Ground.Leads.mono h hQ

/-! ## Parts -/

theorem steps_onGround {x : Action Ground α} (h : Steps S x) : Steps (Over S) (onGround x) := fun k => h k.ground

theorem steps_escalate {x : Action Kernel α} (h : Steps R x) : Steps R (escalate x) := fun k => ends_escalate.2 (h k)

theorem steps_require [IsPreorder Kernel R] (s : Stage) : Steps R (require s) :=
  Action.steps_get.bind fun _ => (Action.steps_fail _).ite (Action.steps_pure _)

/-- The windows are no part of the memory services. -/
theorem steps_onWindows [IsPreorder Ground S] (x : Action Windows α) : Steps (Over S) (onWindows x) := fun k => by
  unfold Action.Ends onWindows
  split
  · exact refl k.ground
  · exact refl k.ground

/-! ## Bringing memory up -/

section Memory

variable [IsPreorder Kernel R]

theorem steps_place (rs : List Region) (words : Nat) (ms : List BootModule) :
    Steps R (Frame.place rs words ms : Action Kernel PhysAddr) := by
  refine (Action.steps_lift _).bind fun bytes => (Action.steps_lift _).bind fun first => ?_
  cases first with
  | some first => exact (Action.steps_lift _).bind fun _ => Action.steps_pure _
  | none => exact (Action.steps_note _).bind fun _ => Action.steps_fail _

/-- What is left to do when the frames of the bitmap and of the boot modules are reserved. -/
def finishMemory (mapper : Mapper) (bitmap : PhysAddr) (words : Nat) : Action Kernel Frame.PoolStats := do
  escalate (onGround (Ground.startHeap mapper))
  let stats ← onPool do return (← get).stats
  advance .memory
  Action.note (← Action.lift (memoryOnlineLine bitmap words stats))
  return stats

/-- Bringing memory up starts the pool, reserves frames, and finishes. -/
theorem steps_startMemory {rs : List Region} {mapper : Mapper}
    (hpool : ∀ home, Steps R (onGround (Ground.startPool rs home)))
    (hreserve : ∀ base length, Steps R (onPool (Pool.reserve base length)))
    (hfinish : ∀ bitmap words, Steps R (finishMemory mapper bitmap words)) (ms : List BootModule) :
    Steps R (startMemory rs ms mapper) := by
  refine Action.steps_get.bind fun k => ?_
  dsimp only
  refine ((Action.steps_note _).bind fun _ => Action.steps_fail _).ite ?_
  exact (Action.steps_lift _).bind fun words => (steps_place rs words ms).bind fun bitmap => (hpool _).bind fun _ =>
    (Action.steps_lift _).bind fun _ => (hreserve _ _).bind fun _ => (steps_reserveModules hreserve ms).bind fun _ =>
    hfinish bitmap words

end Memory

/-! ## Bringing loading up -/

/-- What bringing loading up leaves alone. -/
structure Rests (k k' : Kernel) : Prop where
  ground : k'.ground = k.ground
  registry : k'.registry = k.registry
  owned : k'.owned = k.owned
  texts : k'.texts = k.texts

instance : IsPreorder Kernel Rests where
  refl _ := ⟨rfl, rfl, rfl, rfl⟩
  trans _ _ _ h h' := ⟨h'.ground.trans h.ground, h'.registry.trans h.registry, h'.owned.trans h.owned,
    h'.texts.trans h.texts⟩

theorem rests_startWindows : Steps Rests startWindows := by
  intro k
  unfold startWindows
  rw [Action.ends_bind, Action.ends_get, Action.goes_ok]
  dsimp only
  rw [Action.ends_ite]
  split
  · exact refl k
  · exact ⟨rfl, rfl, rfl, rfl⟩

theorem rests_startExports (t : ExportTable) : Steps Rests (startExports t) := by
  intro k
  unfold startExports
  rw [Action.ends_bind, Action.ends_get, Action.goes_ok]
  dsimp only
  rw [Action.ends_ite]
  split
  · exact refl k
  · exact ⟨rfl, rfl, rfl, rfl⟩

theorem rests_registerLoader (l : Loader) : Steps Rests (registerLoader l) := by
  have hzoom : Steps Rests (Action.zoom loadersPart (LoaderTable.register l)) := fun _ => ⟨rfl, rfl, rfl, rfl⟩
  exact hzoom.bind fun _ => Action.steps_note _

/-- **Bringing loading up** leaves memory and the records alone. -/
theorem rests_startModules (t : ExportTable) : Steps Rests (startModules t) := by
  have hadvance : Steps Rests (advance .modules) := fun _ => ⟨rfl, rfl, rfl, rfl⟩
  have hrest : Steps Rests (do
      startWindows
      startExports t
      registerLoader Elf.loader
      advance .modules
      Action.note modulesOnlineLine) :=
    rests_startWindows.bind fun _ => (rests_startExports t).bind fun _ => (rests_registerLoader _).bind fun _ =>
      hadvance.bind fun _ => Action.steps_note _
  refine Action.steps_get.bind fun k => ?_
  dsimp only
  exact ((Action.steps_note _).bind fun _ => Action.steps_fail _).ite hrest

theorem steps_startModules [IsPreorder Ground S] (t : ExportTable) : Steps (Over S) (startModules t) := fun k =>
  (rests_startModules t k).mono fun r k' h => by
    show S k.ground k'.ground
    rw [h.ground]
    exact refl k.ground

/-! ## Asking the services -/

/-- The registry writes into memory only. -/
theorem Serves.releases (hS : Serves S) : Releases (Over S) where
  free := fun p => steps_onGround (hS.free p)
  shelf := steps_onShelfWith fun k m _ _ => hS.write k.ground m

theorem Serves.stores (hS : Serves S) : Stores (Over S) where
  toReleases := hS.releases
  allocate := fun size => steps_onGround (hS.allocate size)
  keep := steps_keepRecord fun k m _ _ => hS.write k.ground m

theorem Serves.admits [IsPreorder Ground S] (hS : Serves S) : Admits (Over S) where
  toStores := hS.stores
  reserve := fun base length => steps_onGround (hS.reserve base length)
  windows := steps_onWindows

/-! ## Records -/

section Records

variable [IsPreorder Kernel R]

theorem steps_record (id : RecordId) : Steps R (record id) := Action.steps_get.bind fun _ => Action.steps_ofOption _ _

theorem steps_addModule (hR : Releases R) (id : RecordId) : Steps R (addModule id) :=
  (hR.shelf _ _).bind fun _ => (steps_record id).bind fun _ => Action.steps_note _

/-- An object of a record is given back. -/
theorem steps_releaseRecord (hR : Releases R) (id : RecordId) : Steps R (releaseRecord id) := by
  cases id with
  | owned i => exact Action.steps_fail _
  | stored p => exact steps_escalate (hR.free p)

theorem steps_storeRecord (hR : Stores R) (i : ModuleInfo) : Steps R (storeRecord i) := by
  refine (steps_escalate (hR.allocate recordSize)).bind fun p => (hR.keep _ i).bind fun _ => ?_
  refine ((steps_addModule hR.toReleases _).attempt).bind fun r => ?_
  cases r with
  | ok _ => exact Action.steps_pure _
  | error f => exact (steps_releaseRecord hR.toReleases _).bind fun _ => Action.steps_fail f

/-- Unloading gives an object back, and no more is asked of the services. -/
theorem steps_unloadModule (hR : Releases R) (name : String) : Steps R (unloadModule name) := by
  have hremove : Steps R (removeModule name) :=
    (hR.shelf _ _).bind fun _ => (Action.steps_note _).bind fun _ => Action.steps_pure _
  refine (steps_require _).bind fun _ => hremove.bind fun id => (steps_record id).bind fun r => ?_
  exact (steps_releaseRecord hR id).bind fun _ => (Action.steps_note _).bind fun _ => Action.steps_pure _

end Records

/-! ## Loading -/

/-- What is done before an image is offered to a loader: its frames are reserved, and it is read. -/
def offerBootModule (m : BootModule) (mapper : Mapper) : Action Kernel Image := do
  require .modules
  let blob ← Action.lift (Blob.ofBootModule m mapper)
  let k ← get
  if k.shelf.registry.contains k.shelf.store blob.name then
    Action.note (loadedTwiceLine blob.name)
    Action.fail .badArgs
  let _ ← onPool (Frame.Pool.reserve m.addr m.size)
  return blob.image (← get).ground.arena.memory

/-- What is done before a record is stored. -/
def placeBootModule (m : BootModule) (mapper : Mapper) : Action Kernel ModuleInfo := do
  let image ← offerBootModule m mapper
  escalate (loadImage image)

theorem loadBootModule_eq (m : BootModule) (mapper : Mapper) : loadBootModule m mapper = do
    let info ← placeBootModule m mapper
    let id ← storeRecord info
    return (← record id).info := by
  unfold loadBootModule placeBootModule offerBootModule
  simp only [bind_assoc]
  refine bind_congr fun _ => bind_congr fun blob => bind_congr fun k => ?_
  split
  · simp only [bind_assoc, pure_bind]
  · simp only [bind_assoc, pure_bind]

theorem steps_offerBootModule [IsPreorder Kernel R] (m : BootModule) (mapper : Mapper)
    (hreserve : Steps R (onPool (Pool.reserve m.addr m.size))) : Steps R (offerBootModule m mapper) := by
  refine (steps_require _).bind fun _ => (Action.steps_lift _).bind fun blob => Action.steps_get.bind fun k => ?_
  refine ((Action.steps_note _).bind fun _ => Action.steps_fail _).ite (hreserve.bind fun _ => ?_)
  exact Action.steps_get.bind fun _ => Action.steps_pure _

section Loading

variable [IsPreorder Kernel R]

/-- An image moves the windows only. -/
theorem steps_loadImage (hwindows : ∀ x : Action Windows ModuleInfo, Steps R (onWindows x)) (image : Image) :
    Steps R (loadImage image) := by
  have hname : Steps R (ModuleName.ofString image.name : Action Kernel ModuleName) := by
    unfold ModuleName.ofString
    split
    · split
      · exact Action.steps_pure _
      · exact (Action.steps_note _).bind fun _ => Action.steps_fail _
    · exact Action.steps_fail _
  refine hname.bind fun _ => Steps.bind ?_ fun exports => Action.steps_get.bind fun k => Steps.bind ?_ fun l => ?_
  · exact Action.steps_get.bind fun _ => Action.steps_ofOption _ _
  · exact (Action.steps_ofOption _ _).bind fun _ => (Action.steps_note _).bind fun _ => Action.steps_pure _
  · exact hwindows _

theorem steps_placeBootModule (hR : Admits R) (m : BootModule) (mapper : Mapper) : Steps R (placeBootModule m mapper) :=
  (steps_offerBootModule m mapper (hR.reserve m.addr m.size)).bind fun image =>
    steps_escalate (steps_loadImage hR.windows image)

theorem steps_loadBootModule (hR : Admits R) (m : BootModule) (mapper : Mapper) : Steps R (loadBootModule m mapper) := by
  rw [loadBootModule_eq]
  exact (steps_placeBootModule hR m mapper).bind fun info => (steps_storeRecord hR.toStores info).bind fun id =>
    (steps_record id).bind fun _ => Action.steps_pure _

theorem steps_loadEach (hR : Admits R) (mapper : Mapper) (ms : List BootModule) (r : BootReport) :
    Steps R (loadEach mapper ms r) := by
  induction ms generalizing r with
  | nil => exact Action.steps_pure _
  | cons m ms ih =>
    refine (steps_loadBootModule hR m mapper).attempt.bind fun a => ?_
    cases a with
    | ok info => exact (Action.steps_note _).bind fun _ => ih _
    | error f => exact (Action.steps_note _).bind fun _ => ih _

theorem steps_loadAll (hR : Admits R) (ms : List BootModule) (mapper : Mapper) : Steps R (loadAll ms mapper) :=
  (steps_loadEach hR mapper ms _).bind fun _ => (Action.steps_note _).bind fun _ => Action.steps_pure _

end Loading

end Keel.Kernel
