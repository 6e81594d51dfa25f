import Keel.Slab.Cache

/-!
# The heap

Eight caches of ascending cell sizes. A request goes to the smallest class that holds it (`le_classSize`); giving back
looks for the slab in the page of the pointer and takes its word for the class. Empty slabs stay until `shrink`.
-/

namespace Keel

open Keel.Action (note fail lift)

-- sums of numbers start from the numeral, whatever other instances there are
attribute [local instance (high)] Zero.ofOfNat0

/-- The number of size classes. -/
def classCount : Nat := 8

/-- One of the size classes. -/
abbrev SizeClass := Fin classCount

/-- The cell size of a class. -/
def classSize (i : SizeClass) : Nat := Layout.sizeClasses.get i

/-- The caches of a heap and the map through which it sees its frames. -/
structure Heap where
  mapper : Mapper
  caches : Vector Slab.Cache classCount

/-- A heap and the arena it takes frames from. -/
structure HeapSite where
  arena : Arena
  heap : Heap

/-- The numbers a heap reports, class by class. -/
structure HeapStats where
  caches : List Slab.CacheStats

namespace HeapStats

/-- Objects in use. -/
def inUse (s : HeapStats) : Nat := (s.caches.map Slab.CacheStats.inUse).sum

/-- Slabs of all classes. -/
def slabs (s : HeapStats) : Nat := (s.caches.map Slab.CacheStats.slabs).sum

/-- Bytes in use, an object counting for its whole cell. -/
def bytesInUse (s : HeapStats) : Nat := (s.caches.map fun c => c.inUse * c.cellSize).sum

end HeapStats

namespace Heap

/-- A heap without slabs. -/
def empty (mapper : Mapper) : Heap := ⟨mapper, Vector.ofFn fun i => Slab.Cache.empty (classSize i)⟩

/-- The smallest class whose cells hold `size` bytes. -/
def classFor (size : Nat) : Checked Fault SizeClass :=
  if size = 0 then .error (.fault .badArgs)
  else orFault .noSuch ((List.finRange classCount).find? fun i => size ≤ classSize i)

/-- The class whose cells have exactly `size` bytes. -/
def classOf? (size : Nat) : Option SizeClass := (List.finRange classCount).find? fun i => classSize i == size

theorem le_classSize {size : Nat} {i : SizeClass} (h : classFor size = .ok i) : size ≤ classSize i := by
  unfold classFor at h
  split at h
  · cases h
  · cases hf : (List.finRange classCount).find? fun i => size ≤ classSize i with
    | none => simp [hf, orFault] at h
    | some j =>
      have := List.find?_some hf
      simp only [hf, orFault, Except.ok.injEq] at h
      subst h
      simpa using this

/-- A pointer into no slab of a heap. -/
def foreignLine (p : Ptr) : Line := ⟨.warn, s!"heap: {Slab.pointer p} is not a heap object"⟩

/-- Slabs given back. -/
def shrunkLine (n : Nat) : Line := ⟨.info, s!"heap: released {n} empty slabs"⟩

/-- The cache of a class with the arena. -/
def cachePart (i : SizeClass) : Part HeapSite Slab.CacheSite :=
  ⟨fun s => ⟨s.arena, s.heap.caches[i]⟩,
    fun s c => ⟨c.arena, { s.heap with caches := s.heap.caches.set i c.cache }⟩⟩

/-- The arena of a site. -/
def arenaPart : Part HeapSite Arena := ⟨HeapSite.arena, fun s a => { s with arena := a }⟩

variable {α : Type}

/-- Runs an action on the cache of a class. -/
def onCache (i : SizeClass) (x : Action Slab.CacheSite α) : Action HeapSite α := Action.zoom (cachePart i) x

/-- Hands out an object of at least `size` bytes. -/
def allocate (size : Nat) : Action HeapSite Ptr := do
  let i ← lift (classFor size)
  onCache i (Slab.Cache.allocate (← get).heap.mapper)

/-- Takes an object back. -/
def free (p : Ptr) : Action HeapSite Unit := do
  let slab := Slab.containing p
  Action.zoom arenaPart (Slab.verify slab)
  let h ← Action.zoom arenaPart (Slab.header slab)
  match classOf? h.cellSize with
  | some i => onCache i (Slab.Cache.free p)
  | none => do
    note (foreignLine p)
    fail .badArgs

/-- Shrinks the caches of the classes and adds up what they release. -/
def shrinkClasses : List SizeClass → Nat → Action HeapSite Nat
  | [], released => pure released
  | i :: is, released => do
    let n ← onCache i (Slab.Cache.shrink (← get).heap.mapper)
    shrinkClasses is (← lift (Count.add released n))

/-- Releases every slab without an object in use and answers how many there were. -/
def shrink : Action HeapSite Nat := do
  let released ← shrinkClasses (List.finRange classCount) 0
  if 0 < released then note (shrunkLine released)
  return released

/-- The numbers to report. -/
def stats : Action HeapSite HeapStats := do
  return ⟨← (List.finRange classCount).mapM fun i => onCache i Slab.Cache.stats⟩

end Heap

end Keel
