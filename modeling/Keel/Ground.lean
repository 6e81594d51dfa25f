import Keel.Heap.Basic

/-!
# Memory services

The services every other part of the kernel stands on: the frame pool and the heap, each started once, the pool first.
What is asked of a service that has not been started is a fault (`onHeap_of_none`).
-/

namespace Keel

open Keel.Action (note fail lift)

/-- The arena, with the heap over it once that has been started. -/
structure Ground where
  arena : Arena
  heap : Option Heap

namespace Ground

variable {α : Type}

/-! ## Lines -/

/-- The pool has been started before. -/
def poolTwiceLine : Line := ⟨.warn, "PMM: already initialized"⟩

/-- The pool is up. -/
def poolOnlineLine (s : Frame.PoolStats) : Line := ⟨.info, s!"PMM: online, {s.free} of {s.total} pages free"⟩

/-- The heap was started before the pool. -/
def heapEarlyLine : Line := ⟨.warn, "heap: PMM must be initialized first"⟩

/-- The heap has been started before. -/
def heapTwiceLine : Line := ⟨.warn, "heap: already initialized"⟩

/-- The heap is up. -/
def heapOnlineLine : Line :=
  ⟨.info, "heap: online with size classes [" ++ String.intercalate ", " (Layout.sizeClasses.map toString) ++ "]"⟩

/-! ## The pool -/

/-- The arena of the services. -/
def arenaPart : Part Ground Arena := ⟨Ground.arena, fun g a => { g with arena := a }⟩

/-- Runs an action on the arena. -/
def inArena (x : Action Arena α) : Action Ground α := Action.zoom arenaPart x

/-- Runs an action on the pool. -/
def onPool (x : Action Frame.Pool α) : Action Ground α := inArena (Arena.onPool x)

/-- Whether the pool has been started. -/
def poolStarted (g : Ground) : Bool := g.arena.pool.isSome

/-- Opens a pool whose bitmap is kept at `home`. -/
def createPool (rs : List Region) (home : Home) : Action Arena Frame.PoolStats := fun s =>
  let t := Frame.Pool.create rs (home.load s.memory)
  let (home, memory) := home.store s.memory t.state
  match t.result with
  | .ok l => ⟨.ok l.stats, { s with memory, pool := some ⟨l, home⟩ }, t.log⟩
  | .error e => ⟨.error e, { s with memory }, t.log⟩

/-- Starts the pool, once. -/
def startPool (rs : List Region) (home : Home) : Action Ground Frame.PoolStats := do
  if (← get).poolStarted then
    note poolTwiceLine
    fail .badArgs
  let stats ← inArena (createPool rs home)
  note (poolOnlineLine stats)
  return stats

/-! ## The heap -/

/-- Whether the heap has been started. -/
def heapStarted (g : Ground) : Bool := g.heap.isSome

/-- Starts the heap, once and after the pool. -/
def startHeap (mapper : Mapper) : Action Ground Unit := do
  let g ← get
  if !g.poolStarted then
    note heapEarlyLine
    fail .notInit
  if g.heapStarted then
    note heapTwiceLine
    fail .badArgs
  set { g with heap := some (Heap.empty mapper) }
  note heapOnlineLine

/-- Runs an action on the heap. -/
def onHeap (x : Action HeapSite α) : Action Ground α := fun g =>
  match g.heap with
  | none => ⟨.error (.fault .notInit), g, []⟩
  | some h =>
    let t := x ⟨g.arena, h⟩
    ⟨t.result, ⟨t.state.arena, some t.state.heap⟩, t.log⟩

/-- An object of at least `size` bytes. -/
def allocate (size : Nat) : Action Ground Ptr := onHeap (Heap.allocate size)

/-- Takes an object back. -/
def free (p : Ptr) : Action Ground Unit := onHeap (Heap.free p)

/-- The map through which the heap sees its frames. -/
def heapMapper : Action Ground Mapper := onHeap do return (← get).heap.mapper

theorem onHeap_of_none {x : Action HeapSite α} {g : Ground} (h : g.heap = none) :
    onHeap x g = ⟨.error (.fault .notInit), g, []⟩ := by
  simp [onHeap, h]

end Ground

end Keel
