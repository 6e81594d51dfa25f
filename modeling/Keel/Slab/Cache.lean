import Keel.Slab.Carve

/-!
# Caches

A cache is a list of slabs with cells of one size, the youngest first, linked through their headers. Every walk along
the list checks a header before it follows its link, and stops with a fault at the first that does not hold.
- `allocate` takes a cell of the first slab that has a free one, and carves a new slab if none has;
- `free` gives a cell back to the slab of its page, if that is one of the list;
- `shrink` unlinks and releases the slabs without a cell in use.
-/

namespace Keel.Slab

open Keel.Action (note fail lift)

/-- The slabs of one cell size. -/
structure Cache where
  cellSize : Nat
  /-- The youngest slab. -/
  first : Ptr
  slabCount : Nat
  /-- Cells in use. -/
  inUse : Nat
  deriving DecidableEq

/-- The numbers a cache reports. -/
structure CacheStats where
  cellSize : Nat
  slabs : Nat
  inUse : Nat
  free : Nat
  deriving DecidableEq

/-- A cache and the arena its slabs lie in. -/
structure CacheSite where
  arena : Arena
  cache : Cache

namespace Cache

variable {α : Type}

/-- A cache without slabs. -/
def empty (cellSize : Nat) : Cache := ⟨cellSize, 0, 0, 0⟩

/-- A pointer to no cell of the cache. -/
def foreignLine (p : Ptr) (cellSize : Nat) : Line :=
  ⟨.warn, s!"slab: {pointer p} does not belong to the {cellSize} B cache"⟩

/-- The arena of a site. -/
def arenaPart : Part CacheSite Arena := ⟨CacheSite.arena, fun s a => { s with arena := a }⟩

/-- Runs an action on the arena. -/
def inArena (x : Action Arena α) : Action CacheSite α := Action.zoom arenaPart x

/-- Changes the cache. -/
def update (f : Cache → Cache) : Action CacheSite Unit := modify fun s => { s with cache := f s.cache }

/-- The slab after `slab`. -/
def next (slab : Ptr) : Action Arena Ptr := Arena.word (slab + nextField)

/-! ## Walks -/

/-- The slabs from `slab` on, up to and with the first whose header does not hold. -/
def slabsFrom : Nat → Ptr → Action Arena (List (Except Fault Ptr))
  | 0, _ => Action.halt .endless
  | n + 1, slab =>
    if slab = 0 then pure []
    else do
      match ← Action.attempt (verify slab) with
      | .error f => return [.error f]
      | .ok () => return .ok slab :: (← slabsFrom n (← next slab))

/-- Whether `target` is one of the slabs from `slab` on. -/
def ownsFrom (target : Ptr) : Nat → Ptr → Action Arena Bool
  | 0, _ => Action.halt .endless
  | n + 1, slab =>
    if slab = 0 then pure false
    else do
      verify slab
      if slab = target then return true
      ownsFrom target n (← next slab)

/-- The number of free cells in the slabs from `slab` on, added to `acc`. -/
def freeCellsFrom : Nat → Ptr → Nat → Action Arena Nat
  | 0, _, _ => Action.halt .endless
  | n + 1, slab, acc =>
    if slab = 0 then pure acc
    else do
      verify slab
      let h ← header slab
      let acc ← lift (Count.add acc h.freeCount)
      freeCellsFrom n h.next acc

/-- A cell of the first slab from `slab` on that has a free one. -/
def popFrom : Nat → Ptr → Action Arena (Option Ptr)
  | 0, _ => Action.halt .endless
  | n + 1, slab =>
    if slab = 0 then pure none
    else do
      match ← pop slab with
      | some cell => return some cell
      | none => popFrom n (← next slab)

/-- The slabs of the cache, the youngest first. -/
def slabs : Action CacheSite (List (Except Fault Ptr)) := do inArena (slabsFrom linkLimit (← get).cache.first)

/-- Whether a slab is one of the cache. -/
def owns (slab : Ptr) : Action CacheSite Bool := do inArena (ownsFrom slab linkLimit (← get).cache.first)

/-- The numbers to report. -/
def stats : Action CacheSite CacheStats := do
  let c := (← get).cache
  let free ← inArena (freeCellsFrom linkLimit c.first 0)
  return ⟨c.cellSize, c.slabCount, c.inUse, free⟩

/-! ## Cells -/

/-- Counts one more cell in use. -/
def countTaken : Action CacheSite Unit := do
  let inUse ← lift (Count.add (← get).cache.inUse 1)
  update fun c => { c with inUse }

/-- Hands out a cell. -/
def allocate (mapper : Mapper) : Action CacheSite Ptr := do
  let c := (← get).cache
  match ← inArena (popFrom linkLimit c.first) with
  | some cell => do
    countTaken
    return cell
  | none => do
    let slab ← inArena (carve mapper c.cellSize)
    inArena (Arena.setWord (slab + nextField) c.first)
    update fun c => { c with first := slab }
    let slabCount ← lift (Count.add c.slabCount 1)
    update fun c => { c with slabCount }
    let cell ← Action.ofOption .badAlloc (← inArena (pop slab))
    countTaken
    return cell

/-- Takes a cell back. -/
def free (p : Ptr) : Action CacheSite Unit := do
  let slab := containing p
  if !(← owns slab) then
    note (foreignLine p (← get).cache.cellSize)
    fail .badArgs
  inArena (push slab p)
  let inUse ← lift (Count.sub (← get).cache.inUse 1)
  update fun c => { c with inUse }

/-- Makes `after` the successor of `before`, or the first slab if there is nothing before it. -/
def relink (before after : Ptr) : Action CacheSite Unit :=
  if before = 0 then update fun c => { c with first := after }
  else inArena (Arena.setWord (before + nextField) after)

/-- Releases the slabs from `slab` on that have no cell in use; `before` is the last one kept. -/
def shrinkFrom (mapper : Mapper) : Nat → Ptr → Ptr → Nat → Action CacheSite Nat
  | 0, _, _, _ => Action.halt .endless
  | n + 1, before, slab, released =>
    if slab = 0 then pure released
    else do
      inArena (verify slab)
      let h ← inArena (header slab)
      if h.isEmpty then
        relink before h.next
        let slabCount ← lift (Count.sub (← get).cache.slabCount 1)
        update fun c => { c with slabCount }
        inArena (release mapper slab)
        shrinkFrom mapper n before h.next (← lift (Count.add released 1))
      else shrinkFrom mapper n slab h.next released

/-- Releases every slab without a cell in use and answers how many there were. -/
def shrink (mapper : Mapper) : Action CacheSite Nat := do
  shrinkFrom mapper linkLimit 0 (← get).cache.first 0

end Cache

end Keel.Slab
