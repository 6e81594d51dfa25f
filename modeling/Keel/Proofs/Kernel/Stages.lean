import Keel.Proofs.Kernel.Faults
import Keel.Proofs.Kernel.Footprint
import Keel.Proofs.Provided

/-!
# The stage tells the truth

Every service can be started by itself, in any order and more than once, and the stage is raised only where memory or
loading has come up as a whole. Still it can be relied on: `Truthful` says that at stage memory the pool and the heap are
up, and that at stage modules there are windows and exports too.
- Most commands leave the stage, and what is up stays up (`Stays`, `admits_stays`); the two that raise it do so when all
  that it promises is there (`vouches_startMemory`, `vouches_startModules`). So a truthful kernel stays truthful, and its
  stage is never lowered (`vouches_on`, `vouches_through`).
- At stage modules nothing that loading or unloading needs is lacking (`Open`, `grants_open`). The one part that the kernel
  does not answer for is the loader: its fault is passed on as it is (`loadImage_lacks`). The built-in loader lacks nothing
  (`Elf.supplied_load`).

Together: **`tells_through`**. That the exception is needed shows a loader that itself fails as if it were not initialized
(`lacks_absent`).
-/

namespace Keel

open Keel.Action (Provided Steps Supplied Within within_pure within_lift within_fail within_note within_get
  within_ofOption within_fail_bind within_refuse faults_set)
open Keel.Checked (faults_ok faults_fault faults_halt faults_orFault faults_add faults_addWord faults_subWord)

variable {σ α : Type}

/-! ## The built-in loader -/

namespace Elf

/-- What is wrong with an object is an invalid argument. -/
theorem faults_toChecked (r : Read α) : Checked.Faults (· ≠ .notInit) r.toChecked := by
  rcases r with (e | h) | a
  · exact faults_fault nofun
  · exact faults_halt h
  · exact faults_ok a

theorem supplied_read (r : Read α) : Supplied (Action.lift r.toChecked : Action σ α) := within_lift (faults_toChecked r)

theorem supplied_lookupBytes (exports : ExportTable) (name : Bytes) :
    Supplied (exports.lookupBytes name : Action σ VirtAddr) :=
  (within_ofOption (by decide) _).bind fun _ => (within_ofOption (by decide) _).bind fun _ =>
    (within_note _).bind fun _ => within_pure _

theorem supplied_resolve (image : String) (exports : ExportTable) (t : SymbolTable) (xs : List Symbol) (found : Nat) :
    Supplied (resolve image exports t xs found : Action σ Nat) := by
  induction xs generalizing found with
  | nil => exact within_pure _
  | cons x xs ih =>
    rw [resolve]
    refine (ih _).ite ((supplied_read _).bind fun name => (ih _).ite ?_)
    refine (supplied_lookupBytes exports name).attempt_bind (fun addr => ?_) fun g hg => ?_
    · exact (within_note _).bind fun _ => (within_lift (faults_add _ _)).bind fun _ => ih _
    · cases g
      case noSuch => exact ((within_note _).bind fun _ => within_fail (by decide)).ite (ih _)
      all_goals exact within_fail hg

theorem supplied_allocate (size : UInt64) : Supplied (Window.allocate size) := by
  unfold Window.allocate
  refine (within_fail_bind (by decide) _).ite ((within_ofOption (by decide) _).bind fun rounded => ?_)
  refine within_get.bind fun w => (within_lift (faults_subWord _ _)).bind fun left => ?_
  refine (within_refuse (by decide) _ _).ite ((within_lift ((faults_addWord _ _).map _)).bind fun start => ?_)
  exact (within_lift (faults_addWord _ _)).bind fun used => (faults_set _).bind fun _ => within_pure _

theorem supplied_takeRange {allocate : UInt64 → Action Windows VirtAddr} (ha : ∀ size, Supplied (allocate size))
    (size : UInt64) : Supplied (takeRange allocate size) :=
  (within_pure _).ite ((ha size).bind fun _ => within_pure _)

theorem supplied_allocateText (size : UInt64) : Supplied (Windows.allocateText size) :=
  ((supplied_allocate size).zoom (fun _ => id) fun _ _ _ => id).bind fun _ => (within_note _).bind fun _ =>
    within_pure _

theorem supplied_allocateData (size : UInt64) : Supplied (Windows.allocateData size) :=
  ((supplied_allocate size).zoom (fun _ => id) fun _ _ _ => id).bind fun _ => (within_note _).bind fun _ =>
    within_pure _

theorem faults_entryPoint (o : Object) (text : AddressRange) (init : Option (Nat × UInt64)) :
    Checked.Faults (· ≠ .notInit) (entryPoint o text init) := by
  rcases init with _ | ⟨index, value⟩
  · exact faults_ok _
  · refine (faults_toChecked _).bind fun layout => (faults_orFault (by decide) _).bind fun offset => ?_
    exact (faults_orFault (by decide) _).bind fun offset => (faults_orFault (by decide) _).bind fun entry => faults_ok _

theorem supplied_survey (image : Image) (exports : ExportTable) : Supplied (survey image exports : Action σ Survey) := by
  refine (supplied_read _).bind fun o => (supplied_read _).bind fun layout => (supplied_read _).bind fun table => ?_
  cases table with
  | none => exact within_pure _
  | some t =>
    refine (supplied_read _).bind fun symbols => (supplied_resolve _ _ _ _ _).bind fun imports => ?_
    exact (supplied_read _).bind fun init => within_pure _

theorem supplied_place (image : String) (v : Survey) : Supplied (place image v) := by
  refine (within_ofOption (by decide) _).bind fun textPages => (within_ofOption (by decide) _).bind fun dataPages => ?_
  refine within_get.bind fun w => (within_lift (faults_subWord _ _)).bind fun textLeft => ?_
  refine (within_lift (faults_subWord _ _)).bind fun dataLeft => (within_refuse (by decide) _ _).ite ?_
  refine (supplied_takeRange supplied_allocateText _).bind fun text => ?_
  refine (supplied_takeRange supplied_allocateData _).bind fun data => ?_
  exact (within_lift (faults_entryPoint _ _ _)).bind fun entry => (within_note _).bind fun _ => within_pure _

/-- **The built-in loader** lacks nothing, whatever the image and the windows are. -/
theorem supplied_load (image : Image) (exports : ExportTable) : Supplied (load image exports) := by
  rw [load_eq]
  exact (supplied_survey image exports).bind fun v => supplied_place image.name v

end Elf

namespace Kernel

open Keel.Frame (Pool)
open Keel.Ground (Up provided_inArena provided_onHeap)

variable {k k' : Kernel}

/-! ## Commands -/

/-- What is asked of the pool or of the heap. -/
inductive Service
  | allocFrame
  | freeFrame (pa : PhysAddr)
  | reserve (base : PhysAddr) (length : UInt64)
  | poolStats
  /-- Whatever else is done with the pool. -/
  | withPool (x : Action Pool Unit)
  | allocate (size : Nat)
  | free (p : Ptr)
  | shrink
  | heapStats
  | alloc (l : Layout.Block)
  | dealloc (p : Ptr) (l : Layout.Block)

/-- The service as it is done; the value it answers is of no interest. -/
def Service.act : Service → Action Ground Unit
  | allocFrame => discard (Ground.onPool Pool.alloc)
  | freeFrame pa => Ground.onPool (Pool.release pa)
  | reserve base length => discard (Ground.onPool (Pool.reserve base length))
  | poolStats => discard (Ground.onPool do return (← get).stats)
  | withPool x => discard (Ground.onPool (Action.attempt x))
  | allocate size => discard (Ground.allocate size)
  | free p => Ground.free p
  | shrink => discard (Ground.onHeap Heap.shrink)
  | heapStats => discard (Ground.onHeap Heap.stats)
  | alloc l => discard (Allocator.alloc l)
  | dealloc p l => Allocator.dealloc p l

/-- What a kernel may be told, in any order. -/
inductive Command
  | startMemory (rs : List Region) (ms : List BootModule) (mapper : Mapper)
  | startModules (t : ExportTable)
  | startPool (rs : List Region) (home : Home)
  | startHeap (mapper : Mapper)
  | startWindows
  | startExports (t : ExportTable)
  | register (l : Loader)
  | unregister (name : String)
  | load (m : BootModule) (mapper : Mapper)
  | loadAll (ms : List BootModule) (mapper : Mapper)
  | unload (name : String)
  | service (q : Service)
  /-- Whatever is done to the windows by themselves. -/
  | windows (x : Action Windows Unit)
  /-- A record is made. -/
  | keep (id : RecordId) (i : ModuleInfo)
  /-- Whatever is done to the registry by itself, and to the records of `ids`. -/
  | registry (ids : List RecordId) (x : Action Shelf Unit)
  /-- Memory is overwritten. -/
  | write (f : Memory → Memory)

/-- The command as it is carried out; the value it answers is of no interest. -/
def Command.act : Command → Action Kernel Unit
  | Command.startMemory rs ms mapper => discard (Kernel.startMemory rs ms mapper)
  | Command.startModules t => Kernel.startModules t
  | startPool rs home => discard (onGround (Ground.startPool rs home))
  | startHeap mapper => onGround (Ground.startHeap mapper)
  | Command.startWindows => Kernel.startWindows
  | Command.startExports t => Kernel.startExports t
  | register l => registerLoader l
  | unregister name => unregisterLoader name
  | load m mapper => discard (loadBootModule m mapper)
  | Command.loadAll ms mapper => discard (Kernel.loadAll ms mapper)
  | unload name => discard (unloadModule name)
  | service q => onGround q.act
  | windows x => onWindows x
  | keep id i => keepRecord id i
  | registry ids x => onShelfWith ids x
  | write f => onGround (Ground.inArena (Arena.write f))

/-- The kernel after a list of commands, whatever they answer. -/
def through (k : Kernel) (cs : List Command) : Kernel := cs.foldl (fun k c => (c.act k).state) k

/-! ## Services are there to stay -/

theorem provided_act (q : Service) : Provided Up q.act := by
  cases q with
  | allocFrame => exact (provided_inArena Arena.provided_allocFrame).discard
  | freeFrame pa => exact provided_inArena (Arena.provided_freeFrame pa)
  | reserve base length =>
    exact (provided_inArena (Arena.provided_onPool ((Pool.ordinary_reserve base length).supplied))).discard
  | poolStats => exact (provided_inArena (Arena.provided_onPool (within_get.bind fun _ => within_pure _))).discard
  | withPool x => exact (provided_inArena (Arena.provided_onPool (Action.faults_attempt x))).discard
  | allocate size => exact (provided_onHeap (Heap.provided_allocate size)).discard
  | free p => exact provided_onHeap (Heap.provided_free p)
  | shrink => exact (provided_onHeap Heap.provided_shrink).discard
  | heapStats => exact (provided_onHeap Heap.provided_stats).discard
  | alloc l => exact (Allocator.provided_alloc l).discard
  | dealloc p l => exact Allocator.provided_dealloc p l

/-- A pool that is up is not started again. -/
theorem provided_startPool (rs : List Region) (home : Home) : Provided Up (Ground.startPool rs home) := by
  intro g h
  have hstarted : g.poolStarted = true := Option.isSome_iff_ne_none.2 h.pool
  unfold Ground.startPool
  rw [Action.ends_bind, Action.ends_get, Action.goes_ok, if_pos hstarted]
  exact ⟨nofun, h⟩

/-- A heap that is up is not started again. -/
theorem provided_startHeap (mapper : Mapper) : Provided Up (Ground.startHeap mapper) := by
  intro g h
  have hpool : g.poolStarted = true := Option.isSome_iff_ne_none.2 h.pool
  have hheap : g.heapStarted = true := Option.isSome_iff_ne_none.2 h.heap
  unfold Ground.startHeap
  rw [Action.ends_bind, Action.ends_get, Action.goes_ok]
  simp only [hpool, hheap]
  exact ⟨nofun, h⟩

/-- The stage is the same, and what is there stays there. -/
structure Stays (k k' : Kernel) : Prop where
  stage : k'.stage = k.stage
  ground : k.ground.Up → k'.ground.Up
  windows : k.windows ≠ none → k'.windows ≠ none
  exports : k.exports ≠ none → k'.exports ≠ none

instance : IsPreorder Kernel Stays where
  refl := fun _ => ⟨rfl, id, id, id⟩
  trans := fun _ _ _ h h' => ⟨h'.stage.trans h.stage, h'.ground ∘ h.ground, h'.windows ∘ h.windows,
    h'.exports ∘ h.exports⟩

theorem stays_onGround {x : Action Ground α} (hx : Provided Up x) : Steps Stays (onGround x) := fun k =>
  ⟨rfl, fun h => (hx k.ground h).2, id, id⟩

theorem stays_onWindows (x : Action Windows α) : Steps Stays (onWindows x) := by
  intro k
  unfold Action.Ends onWindows
  split
  · exact refl k
  · exact ⟨rfl, id, fun _ => nofun, id⟩

theorem stays_keepRecord (id : RecordId) (i : ModuleInfo) : Steps Stays (keepRecord id i) :=
  steps_keepRecord (fun _ _ _ _ => ⟨rfl, fun h => ⟨h.pool, h.heap⟩, fun h => h, fun h => h⟩) id i

theorem stays_onShelf (ids : List RecordId) (x : Action Shelf α) : Steps Stays (onShelfWith ids x) :=
  steps_onShelfWith (fun _ _ _ _ => ⟨rfl, fun h => ⟨h.pool, h.heap⟩, fun h => h, fun h => h⟩) ids x

theorem stays_onLoaders (x : Action LoaderTable α) : Steps Stays (Action.zoom loadersPart x) := fun _ =>
  ⟨rfl, id, id, id⟩

theorem stays_reserve (base : PhysAddr) (length : UInt64) : Steps Stays (onPool (Pool.reserve base length)) :=
  stays_onGround (provided_inArena (Arena.provided_onPool ((Pool.ordinary_reserve base length).supplied)))

theorem admits_stays : Admits Stays where
  free := fun p => stays_onGround (provided_onHeap (Heap.provided_free p))
  shelf := stays_onShelf
  allocate := fun size => stays_onGround (provided_onHeap (Heap.provided_allocate size))
  keep := stays_keepRecord
  reserve := stays_reserve
  windows := stays_onWindows

/-- Windows that are set up are there. -/
theorem startWindows_sets (k : Kernel) :
    startWindows.Ends k fun r k' => Stays k k' ∧ (r = .ok () → k'.windows ≠ none) := by
  unfold startWindows
  rw [Action.ends_bind, Action.ends_get, Action.goes_ok]
  dsimp only
  rw [Action.ends_ite]
  split
  · exact ⟨refl k, nofun⟩
  · exact ⟨⟨rfl, id, fun _ => nofun, id⟩, fun _ => nofun⟩

/-- Exports that are published are there. -/
theorem startExports_sets (t : ExportTable) (k : Kernel) :
    (startExports t).Ends k fun r k' => Stays k k' ∧ (r = .ok () → k'.exports ≠ none) := by
  unfold startExports
  rw [Action.ends_bind, Action.ends_get, Action.goes_ok]
  dsimp only
  rw [Action.ends_ite]
  split
  · exact ⟨refl k, nofun⟩
  · exact ⟨⟨rfl, id, id, fun _ => nofun⟩, fun _ => nofun⟩

theorem stays_registerLoader (l : Loader) : Steps Stays (registerLoader l) :=
  (stays_onLoaders _).bind fun _ => Action.steps_note _

theorem stays_unregisterLoader (name : String) : Steps Stays (unregisterLoader name) :=
  (stays_onLoaders _).bind fun _ => Action.steps_note _

/-! ## Raising the stage -/

/-- What the stage promises is there. -/
structure Truthful (k : Kernel) : Prop where
  memory : Stage.memory.rank ≤ k.stage.rank → k.ground.Up
  modules : k.stage = .modules → k.windows ≠ none ∧ k.exports ≠ none

theorem truthful_boot (memory : Memory) (poison : Bool) : (boot memory poison).Truthful :=
  ⟨fun h => absurd (show 1 ≤ 0 from h) (by decide), nofun⟩

/-- The stage is not lowered, and what it promised and promises now is there. -/
structure Vouches (k k' : Kernel) : Prop where
  rises : k.stage.rank ≤ k'.stage.rank
  truthful : k.Truthful → k'.Truthful

instance : IsPreorder Kernel Vouches where
  refl := fun _ => ⟨le_rfl, id⟩
  trans := fun _ _ _ h h' => ⟨h.rises.trans h'.rises, h'.truthful ∘ h.truthful⟩

theorem Stays.vouches (h : Stays k k') : Vouches k k' where
  rises := (congrArg Stage.rank h.stage).ge
  truthful := fun ht => {
    memory := fun hs => h.ground (ht.memory (h.stage ▸ hs))
    modules := fun hs => (ht.modules (h.stage.symm.trans hs)).imp h.windows h.exports }

theorem vouches_of_stays {x : Action Kernel α} (hx : Steps Stays x) : Steps Vouches x := fun k => (hx k).vouches

/-- Where the pool and the heap are up, the stage may be raised to memory. -/
theorem vouches_memory (h : k.ground.Up) : (advance .memory).Ends k fun _ k' => Vouches k k' := by
  refine ⟨Stage.rank_le_later _ _, fun ht => ⟨fun _ => h, fun hs => ht.modules ?_⟩⟩
  change k.stage.later .memory = .modules at hs
  cases hk : k.stage with
  | modules => rfl
  | early => rw [hk] at hs; exact absurd hs (by decide)
  | memory => rw [hk] at hs; exact absurd hs (by decide)

/-- Where all is there, the stage may be raised to modules. -/
theorem vouches_modules (hs : Stage.memory.rank ≤ k.stage.rank) (hw : k.windows ≠ none) (he : k.exports ≠ none) :
    (advance .modules).Ends k fun _ k' => Vouches k k' :=
  ⟨Stage.rank_le_later _ _, fun ht => ⟨fun _ => ht.memory hs, fun _ => ⟨hw, he⟩⟩⟩

/-- A heap that is started stands on a pool. -/
theorem startHeap_sets (mapper : Mapper) (k : Kernel) : (escalate (onGround (Ground.startHeap mapper))).Ends k
    fun r k' => Stays k k' ∧ ∀ a, r = .ok a → k'.ground.Up := by
  refine (steps_escalate (stays_onGround (provided_startHeap mapper)) k).and ?_
  rw [ends_escalate, ends_onGround]
  refine (Ground.startHeap_ends mapper).mono fun r g hends a ha => ?_
  rcases hends with ⟨-, hpool, -, rfl⟩ | ⟨-, -, f, -, rfl⟩
  · exact ⟨hpool, nofun⟩
  · cases escalated_eq_ok.1 ha

/-- The last steps of bringing memory up raise the stage if the heap has come up. -/
theorem vouches_finishMemory (mapper : Mapper) (bitmap : PhysAddr) (words : Nat) :
    Steps Vouches (finishMemory mapper bitmap words) := by
  have hstats : Provided Up (Ground.onPool do return (← get).stats) :=
    provided_inArena (Arena.provided_onPool (within_get.bind fun _ => within_pure _))
  intro k
  obtain ⟨hstays, hup⟩ := startHeap_sets mapper k
  refine Action.Ends.steps_bind (P := fun k' => k'.ground.Up) ⟨hstays.vouches, hup⟩ fun _ k₁ hup => ?_
  refine Action.Ends.steps_bind (P := fun k' => k'.ground.Up)
    ⟨(stays_onGround hstats k₁).vouches, fun _ _ => (hstats k₁.ground hup).2⟩ fun stats k₂ hup => ?_
  refine Action.Ends.steps_bind (P := fun _ => True) ⟨vouches_memory hup, fun _ _ => trivial⟩ fun _ k₃ _ => ?_
  exact (Action.steps_lift _).bind (fun _ => (Action.steps_note _).bind fun _ => Action.steps_pure _) k₃

/-- **Bringing memory up** raises the stage only where the pool and the heap have come up. -/
theorem vouches_startMemory (rs : List Region) (ms : List BootModule) (mapper : Mapper) :
    Steps Vouches (startMemory rs ms mapper) :=
  steps_startMemory (fun home => vouches_of_stays (stays_onGround (provided_startPool rs home)))
    (fun base length => vouches_of_stays (stays_reserve base length)) (vouches_finishMemory mapper) ms

/-- **Bringing loading up** raises the stage only where windows and exports have been set up. -/
theorem vouches_startModules (t : ExportTable) : Steps Vouches (startModules t) := by
  intro k
  unfold startModules
  rw [Action.ends_bind, Action.ends_get, Action.goes_ok]
  dsimp only
  rw [Action.ends_ite]
  split
  · exact refl k
  rename_i hearly
  have hstage : Stage.memory.rank ≤ k.stage.rank := Nat.not_lt.1 hearly
  obtain ⟨hstays, hw⟩ := startWindows_sets k
  refine Action.Ends.steps_bind (P := fun k' => Stage.memory.rank ≤ k'.stage.rank ∧ k'.windows ≠ none)
    ⟨hstays.vouches, fun a ha => ⟨hstays.stage ▸ hstage, hw ha⟩⟩ fun _ k₁ h₁ => ?_
  obtain ⟨hstage, hw⟩ := h₁
  obtain ⟨hstays, he⟩ := startExports_sets t k₁
  refine Action.Ends.steps_bind
    (P := fun k' => Stage.memory.rank ≤ k'.stage.rank ∧ k'.windows ≠ none ∧ k'.exports ≠ none)
    ⟨hstays.vouches, fun a ha => ⟨hstays.stage ▸ hstage, hstays.windows hw, he ha⟩⟩ fun _ k₂ h₂ => ?_
  obtain ⟨hstage, hw, he⟩ := h₂
  have hstays := stays_registerLoader Elf.loader k₂
  refine Action.Ends.steps_bind
    (P := fun k' => Stage.memory.rank ≤ k'.stage.rank ∧ k'.windows ≠ none ∧ k'.exports ≠ none)
    ⟨hstays.vouches, fun a _ => ⟨hstays.stage ▸ hstage, hstays.windows hw, hstays.exports he⟩⟩ fun _ k₃ h₃ => ?_
  obtain ⟨hstage, hw, he⟩ := h₃
  refine Action.Ends.steps_bind (P := fun _ => True) ⟨vouches_modules hstage hw he, fun _ _ => trivial⟩ fun _ k₄ _ => ?_
  exact Action.steps_note _ k₄

/-- What holds of all that stays, and of the two commands that raise the stage, holds of every command. -/
theorem steps_act {R : Kernel → Kernel → Prop} [IsPreorder Kernel R] (hstays : ∀ {k k'}, Stays k k' → R k k')
    (hmemory : ∀ rs ms mapper, Steps R (startMemory rs ms mapper)) (hmodules : ∀ t, Steps R (startModules t))
    (c : Command) : Steps R c.act := by
  have hdiscard : ∀ {α : Type} {x : Action Kernel α}, Steps R x → Steps R (discard x) := fun hx =>
    hx.bind fun _ => Action.steps_pure _
  have hsteps : ∀ {α : Type} {x : Action Kernel α}, Steps Stays x → Steps R x := fun hx k => hstays (hx k)
  cases c with
  | startMemory rs ms mapper => exact hdiscard (hmemory rs ms mapper)
  | startModules t => exact hmodules t
  | startPool rs home => exact hdiscard (hsteps (stays_onGround (provided_startPool rs home)))
  | startHeap mapper => exact hsteps (stays_onGround (provided_startHeap mapper))
  | startWindows => exact fun k => hstays (startWindows_sets k).1
  | startExports t => exact fun k => hstays (startExports_sets t k).1
  | register l => exact hsteps (stays_registerLoader l)
  | unregister name => exact hsteps (stays_unregisterLoader name)
  | load m mapper => exact hdiscard (hsteps (steps_loadBootModule admits_stays m mapper))
  | loadAll ms mapper => exact hdiscard (hsteps (steps_loadAll admits_stays ms mapper))
  | unload name => exact hdiscard (hsteps (steps_unloadModule admits_stays.toReleases name))
  | service q => exact hsteps (stays_onGround (provided_act q))
  | windows x => exact hsteps (stays_onWindows x)
  | keep id i => exact hsteps (stays_keepRecord id i)
  | registry ids x => exact hsteps (stays_onShelf ids x)
  | write f => exact hsteps (stays_onGround (provided_inArena (Arena.provided_write f)))

/-- What holds of every command holds of a list of them. -/
theorem steps_through {R : Kernel → Kernel → Prop} [IsPreorder Kernel R] (hact : ∀ c : Command, Steps R c.act) (k : Kernel)
    (cs : List Command) : R k (k.through cs) := by
  unfold through
  induction cs generalizing k with
  | nil => exact refl k
  | cons c cs ih => exact IsTrans.trans _ _ _ (hact c k) (ih _)

/-- **One command.** -/
theorem vouches_on (c : Command) : Steps Vouches c.act := steps_act Stays.vouches vouches_startMemory vouches_startModules c

/-- A list of commands. -/
theorem vouches_through (k : Kernel) (cs : List Command) : Vouches k (k.through cs) := steps_through vouches_on k cs

/-! ## Loading and unloading -/

/-- Loading is up, and all that it needs. -/
structure Open (k : Kernel) : Prop where
  stage : k.stage = .modules
  ground : k.ground.Up
  windows : k.windows ≠ none
  exports : k.exports ≠ none

theorem Truthful.opens (h : k.Truthful) (hs : k.stage = .modules) : k.Open :=
  ⟨hs, h.memory (by rw [hs]; decide), (h.modules hs).1, (h.modules hs).2⟩

theorem Open.stays (h : k.Open) (hs : Stays k k') : k'.Open :=
  ⟨hs.stage.trans h.stage, hs.ground h.ground, hs.windows h.windows, hs.exports h.exports⟩

theorem provided_onGround {x : Action Ground α} (hx : Provided Up x) : Provided Open (onGround x) := fun k h =>
  ⟨(hx k.ground h.ground).1, h.stays (stays_onGround hx k)⟩

theorem provided_onShelf (ids : List RecordId) {x : Action Shelf α} (hx : Supplied x) :
    Provided Open (onShelfWith ids x) := fun k h =>
  ⟨(hx (k.shelfWith ids) trivial).1, h.stays (stays_onShelf ids x k)⟩

theorem provided_escalate {x : Action Kernel α} (hx : Provided Open x) : Provided Open (escalate x) := by
  refine hx.attempt_bind (fun a => within_pure a) fun f hf => ?_
  cases f
  case corrupted => exact (within_note _).bind fun _ => Action.within_halt _
  all_goals exact within_fail hf

/-- Where loading is up, nothing is lacking that loading and unloading are made of. -/
theorem grants_open : Grants Open (· ≠ .notInit) where
  ordinary := fun _ hf => hf.2
  require := fun k h => by
    rw [ends_require, h.stage]
    exact ⟨faults_ok (), h⟩
  allocate := fun size => provided_escalate (provided_onGround (provided_onHeap (Heap.provided_allocate size)))
  free := fun p => provided_escalate (provided_onGround (provided_onHeap (Heap.provided_free p)))
  reserve := fun base length => provided_onGround (provided_inArena
    (Arena.provided_onPool (Pool.ordinary_reserve base length).supplied))
  keep := fun id i k h => ⟨faults_ok (), h.stays (stays_keepRecord id i k)⟩
  shelf := provided_onShelf

/-- The loader that recognizes an image is not the built-in one, and it fails as if it were not initialized itself. -/
def LoaderLacks (k : Kernel) (image : Image) : Prop := ∃ l t w, k.loaders.list.find? (fun l => l.probe image) = some l ∧
  k.exports = some t ∧ k.windows = some w ∧ (l.load image t w).result = .error (.fault .notInit) ∧ l ≠ Elf.loader

theorem LoaderLacks.equips {image : Image} (h : k'.LoaderLacks image) (he : Equips k k') : k.LoaderLacks image := by
  obtain ⟨l, t, w, hl, ht, hw, hlacks⟩ := h
  exact ⟨l, t, w, he.loaders ▸ hl, he.exports.symm.trans ht, he.windows.symm.trans hw, hlacks⟩

theorem supplied_ofString (s : String) : Supplied (ModuleName.ofString s : Action σ ModuleName) := by
  unfold ModuleName.ofString
  split
  · split
    · exact within_pure _
    · exact (within_note _).bind fun _ => within_fail (by decide)
  · exact within_fail (by decide)

/-- The fault of a loader is passed on. -/
theorem dispatch_lacks (l : Loader) (image : Image) (t : ExportTable) (w : Windows) :
    (l.dispatch image t).Ends w fun r _ =>
      r = .error (.fault .notInit) → (l.load image t w).result = .error (.fault .notInit) := by
  have hplaced : ∀ m, Supplied (do
      let name ← ModuleName.ofString image.name
      return ⟨name, l.name, m⟩ : Action Windows ModuleInfo) := fun m =>
    (supplied_ofString image.name).bind fun _ => within_pure _
  have hload : (l.load image t).Ends w fun r _ => r = (l.load image t w).result := rfl
  unfold Loader.dispatch
  rw [Action.ends_bind, Action.ends_attempt]
  refine hload.mono fun r w' hr => ?_
  rw [← hr]
  rcases r with (f | e) | m
  · intro hf
    cases hf
    rfl
  · exact nofun
  · exact fun hf => absurd hf ((hplaced m).ne trivial (by decide))

/-- Placing an image lacks only what the loader lacks. -/
theorem loadImage_lacks (h : k.Open) (image : Image) : (loadImage image).Ends k fun r k' =>
    k'.Open ∧ (r = .error (.fault .notInit) → k.LoaderLacks image) := by
  obtain ⟨t, ht⟩ := Option.ne_none_iff_exists'.1 h.exports
  obtain ⟨w, hw⟩ := Option.ne_none_iff_exists'.1 h.windows
  have hopen : ∀ w', Open { k with windows := some w' } := fun w' => { h with windows := nofun }
  unfold loadImage
  refine (((supplied_ofString image.name) k trivial).and (ofString_ends image.name)).bind fun r k₁ hends => ?_
  obtain ⟨⟨hne, -⟩, -, -, rfl⟩ := hends
  cases r with
  | error e => exact ⟨h, fun he => absurd he (hne.error.ne (by decide))⟩
  | ok n =>
    rw [Action.goes_ok, Action.ends_bind, ends_exportTable ht, Action.goes_ok, Action.ends_bind, Action.ends_get,
      Action.goes_ok, Action.ends_bind, LoaderTable.select, Action.ends_bind]
    cases hfind : k₁.loaders.list.find? fun l => l.probe image with
    | none => exact ⟨h, nofun⟩
    | some l =>
      rw [Action.ends_some, Action.goes_ok, Action.ends_bind, Action.ends_note, Action.goes_ok, Action.ends_pure,
        Action.goes_ok, ends_onWindows hw]
      refine (dispatch_lacks l image t w).mono fun r w' hr => ⟨hopen w', fun hf => ?_⟩
      refine ⟨l, t, w, hfind, ht, hw, hr hf, ?_⟩
      rintro rfl
      exact (Elf.supplied_load image t).ne trivial (by decide) (hr hf)

/-- **Loading** lacks only what the loader lacks that is offered the image. -/
theorem loadBootModule_lacks (h : k.Open) (m : BootModule) (mapper : Mapper)
    (hlacks : (loadBootModule m mapper k).result = .error (.fault .notInit)) :
    ∃ image, (offerBootModule m mapper k).result = .ok image ∧ k.LoaderLacks image := by
  have hoffer := ((within_offerBootModule grants_open m mapper k h).and (equips_offerBootModule m mapper k)).result
  have hload : (loadBootModule m mapper).Ends k fun r _ => r = .error (.fault .notInit) →
      ∃ image, (offerBootModule m mapper k).result = .ok image ∧ k.LoaderLacks image := by
    rw [loadBootModule_eq]
    unfold placeBootModule
    rw [Action.ends_bind, Action.ends_bind]
    refine hoffer.mono fun r k₁ hends => ?_
    obtain ⟨hr, ⟨hne, hopen⟩, hequips⟩ := hends
    rw [← hr]
    cases r with
    | error e => exact fun he => absurd he (hne.error.ne (by decide))
    | ok image =>
      rw [Action.goes_ok, ends_escalate]
      refine (loadImage_lacks hopen image).mono fun r k₂ hends => ?_
      obtain ⟨hopen, hlacks⟩ := hends
      rcases r with (f | e) | i
      · cases f
        case notInit => exact fun _ => ⟨image, rfl, (hlacks rfl).equips hequips⟩
        all_goals exact nofun
      · exact nofun
      · have hstore : Provided Open (do
            let id ← storeRecord i
            return (← record id).info) := (within_storeRecord grants_open i).bind fun id =>
          (within_record grants_open id).bind fun _ => within_pure _
        exact fun he => absurd he (hstore.ne hopen (by decide))
  exact hload hlacks

/-- What is refused before loading is up changes nothing. -/
theorem require_of_lt {β : Type} (h : k.stage.rank < Stage.modules.rank) (x : Action Kernel β) :
    (do require .modules; x : Action Kernel β) k = ⟨.error (.fault .notInit), k, []⟩ := by
  refine Action.bind_error ?_
  unfold require
  rw [Action.bind_ok (show (get : Action Kernel Kernel) k = ⟨.ok k, k, []⟩ from rfl), if_pos h]
  rfl

/-! ## The stage tells the truth -/

/-- What the stage of a kernel tells. -/
structure Tells (k : Kernel) : Prop where
  /-- No command lowers the stage. -/
  rises : ∀ cs, k.stage.rank ≤ (k.through cs).stage.rank
  memory : Stage.memory.rank ≤ k.stage.rank → k.ground.poolStarted = true ∧ k.ground.heapStarted = true
  modules : k.stage = .modules → k.windows.isSome = true ∧ k.exports.isSome = true
  /-- From stage memory on, what is asked of the pool and of the heap lacks nothing. -/
  serves : Stage.memory.rank ≤ k.stage.rank → ∀ cs q,
    (onGround (Service.act q) (k.through cs)).result ≠ .error (.fault .notInit)
  /-- From stage modules on, unloading lacks nothing. -/
  unloads : k.stage = .modules → ∀ cs name, (unloadModule name (k.through cs)).result ≠ .error (.fault .notInit)
  /-- From stage modules on, loading lacks only what the loader lacks that is offered the image. -/
  loads : k.stage = .modules → ∀ cs m mapper,
    (loadBootModule m mapper (k.through cs)).result = .error (.fault .notInit) →
    ∃ image, (offerBootModule m mapper (k.through cs)).result = .ok image ∧ (k.through cs).LoaderLacks image
  /-- Below stage modules, nothing is loaded or unloaded. -/
  refuses : k.stage.rank < Stage.modules.rank →
    (∀ m mapper, loadBootModule m mapper k = ⟨.error (.fault .notInit), k, []⟩) ∧
      ∀ name, unloadModule name k = ⟨.error (.fault .notInit), k, []⟩

/-- **The stage of a truthful kernel** can be relied on. -/
theorem Truthful.tells (h : k.Truthful) : k.Tells := by
  have hup : Stage.memory.rank ≤ k.stage.rank → ∀ cs, (k.through cs).ground.Up := fun hs cs =>
    ((vouches_through k cs).truthful h).memory (hs.trans (vouches_through k cs).rises)
  have hopen : k.stage = .modules → ∀ cs, (k.through cs).Open := fun hs cs =>
    ((vouches_through k cs).truthful h).opens (stage_eq_modules (Nat.not_lt.2 (hs ▸ (vouches_through k cs).rises)))
  exact {
    rises := fun cs => (vouches_through k cs).rises
    memory := fun hs => ⟨Option.isSome_iff_ne_none.2 (h.memory hs).pool, Option.isSome_iff_ne_none.2 (h.memory hs).heap⟩
    modules := fun hs => (h.modules hs).imp Option.isSome_iff_ne_none.2 Option.isSome_iff_ne_none.2
    serves := fun hs cs q => (provided_act q).ne (hup hs cs) (by decide)
    unloads := fun hs cs name => (within_unloadModule grants_open name).ne (hopen hs cs) (by decide)
    loads := fun hs cs m mapper => loadBootModule_lacks (hopen hs cs) m mapper
    refuses := fun hs => ⟨fun m mapper => require_of_lt hs _, fun name => require_of_lt hs _⟩ }

/-- **The stage tells the truth** in every kernel, whatever it has been told. -/
theorem tells_through (memory : Memory) (poison : Bool) (cs : List Command) : ((boot memory poison).through cs).Tells :=
  ((vouches_through _ cs).truthful (truthful_boot memory poison)).tells

/-- A loader that takes every image and fails as if it were not initialized. -/
def absent : Loader := ⟨"absent", fun _ => true, fun _ _ => Action.fail .notInit⟩

/-- Memory and loading are brought up, and the loader is registered. -/
def withAbsent : List Command :=
  [.startMemory twoFrames [tight] (.direct 0x400000000000), .startModules ⟨[]⟩, .register absent]

theorem stage_absent : ((boot .blank false).through withAbsent).stage = .modules := by decide +kernel

theorem lacks_absent : (loadBootModule tight (.direct 0x400000000000) ((boot .blank false).through withAbsent)).result =
    .error (.fault .notInit) := by decide +kernel

/-- Loading does lack something at stage modules, where a loader does. -/
theorem not_loads_whatever : ¬∀ (memory : Memory) (poison : Bool) (cs : List Command) (m : BootModule) (mapper : Mapper),
    ((boot memory poison).through cs).stage = .modules →
      (loadBootModule m mapper ((boot memory poison).through cs)).result ≠ .error (.fault .notInit) :=
  fun h => h .blank false withAbsent tight (.direct 0x400000000000) stage_absent lacks_absent

end Kernel

end Keel
