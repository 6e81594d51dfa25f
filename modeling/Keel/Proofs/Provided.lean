import Keel.Heap.Allocator
import Keel.Proofs.Recoverable

/-!
# Services that are there

Only what is asked of the pool or of the heap can want for a service (`provided_onPool`, `provided_onHeap`), so once the
pool is up, the slabs and the heap lack nothing whatever memory and the lists of cells look like (`Pooled`), and once the
heap is up too, neither do the memory services (`Up`); both stay up. There is one short lemma for each function.
-/

namespace Keel

open Keel.Action (Provided Supplied Within within_pure within_lift within_fail within_halt within_note within_get
  within_modify within_ofOption within_fail_bind within_refuse within_mapM faults_set faults_modify)
open Keel.Checked (faults_ok faults_fault faults_halt faults_orFault faults_add faults_sub faults_mul faults_div)

variable {α : Type}

/-! ## Arenas -/

namespace Arena

/-- The pool is up. -/
def Pooled (s : Arena) : Prop := s.pool ≠ none

/-- Where the pool is up, what is asked of it is answered by the pool. -/
theorem provided_onPool {x : Action Frame.Pool α} (hx : Supplied x) : Provided Pooled (onPool x) := fun s h => by
  cases hs : s.pool with
  | none => exact absurd hs h
  | some p =>
    unfold Action.Ends onPool
    rw [hs]
    exact ⟨(hx _ trivial).1, nofun⟩

theorem provided_write (f : Memory → Memory) : Provided Pooled (write f) := within_modify fun _ => id

theorem provided_setWord (a : Ptr) (w : UInt64) : Provided Pooled (setWord a w) := provided_write _

theorem provided_word (a : Ptr) : Provided Pooled (word a) := within_get.bind fun _ => within_pure _

theorem provided_allocFrame : Provided Pooled allocFrame := provided_onPool Frame.Pool.ordinary_alloc.supplied

theorem provided_freeFrame (pa : PhysAddr) : Provided Pooled (freeFrame pa) :=
  provided_onPool (Frame.Pool.ordinary_release pa).supplied

end Arena

open Keel.Arena (Pooled provided_onPool provided_write provided_setWord provided_word provided_allocFrame
  provided_freeFrame)

/-! ## Slabs -/

namespace Slab

theorem provided_verify (slab : Ptr) : Provided Pooled (verify slab) :=
  (provided_word _).bind fun _ => ((within_note _).bind fun _ => within_fail (by decide)).ite (within_pure _)

theorem provided_header (slab : Ptr) : Provided Pooled (header slab) := within_get.bind fun _ => within_pure _

theorem provided_pop (slab : Ptr) : Provided Pooled (pop slab) := by
  have hpoison : ∀ cell : Ptr, ∀ b : Bool, Provided Pooled (do
      if b then
        let size ← Arena.word (slab + cellSizeField)
        Arena.write fun m => m.fill cell poisonTaken size.toNat
      return some cell) := by
    intro cell b
    cases b with
    | false => exact within_pure _
    | true => exact (provided_word _).bind fun _ => (provided_write _).bind fun _ => within_pure _
  refine (provided_verify slab).bind fun _ => (provided_word _).bind fun cell => (within_pure _).ite ?_
  refine (provided_word _).bind fun magic => Within.ite (within_refuse (by decide) _ _) ?_
  refine (provided_word _).bind fun link => (provided_setWord _ _).bind fun _ => (provided_word _).bind fun count => ?_
  refine (within_lift (faults_sub _ _)).bind fun _ => (provided_setWord _ _).bind fun _ => ?_
  refine (provided_setWord _ _).bind fun _ => (provided_setWord _ _).bind fun _ => within_get.bind fun s => ?_
  exact hpoison cell s.poison

theorem faults_listed {F : Fault → Prop} (m : Memory) (needle : Ptr) (n : Nat) (cell : Ptr) :
    Checked.Faults F (listed m needle n cell) := by
  induction n generalizing cell with
  | zero => exact faults_halt _
  | succ n ih => exact (faults_ok _).ite ((faults_ok _).ite (ih _))

theorem faults_isCellStart {F : Fault → Prop} (h : Header) (offset : Nat) : Checked.Faults F (isCellStart h offset) :=
  (faults_mul _ _).bind fun _ => (faults_add _ _).bind fun _ => faults_ok _

theorem provided_push (slab p : Ptr) : Provided Pooled (push slab p) := by
  have hlink : ∀ h : Header, Provided Pooled (do
      Arena.setWord p h.freeList
      Arena.setWord (p + cellMagicField) Layout.freeMagic
      Arena.setWord (slab + freeListField) p
      let count ← Action.lift (Count.add h.freeCount 1)
      Arena.setWord (slab + freeCountField) (UInt64.ofNat count)) := fun h =>
    (provided_setWord _ _).bind fun _ => (provided_setWord _ _).bind fun _ => (provided_setWord _ _).bind fun _ =>
      (within_lift (faults_add _ _)).bind fun _ => provided_setWord _ _
  refine (provided_verify slab).bind fun _ => (provided_header slab).bind fun h => ?_
  refine (within_lift (faults_isCellStart _ _)).bind fun start => ?_
  refine Within.ite (within_refuse (by decide) _ _) ((provided_word _).bind fun magic => ?_)
  refine Within.ite (within_get.bind fun s => (within_lift (faults_listed _ _ _ _)).bind fun isListed => ?_)
    ((within_pure _).bind fun isListed => ?_)
  -- what follows is the same whether the list was walked or not
  all_goals
    refine Within.ite (within_refuse (by decide) _ _) (within_get.bind fun s => Within.ite ?_ (hlink h))
    exact (within_lift (faults_sub _ _)).bind fun _ => (provided_write _).bind fun _ => hlink h

theorem provided_carve (mapper : Mapper) (cellSize : Nat) : Provided Pooled (carve mapper cellSize) := by
  unfold carve
  refine Within.ite (within_fail_bind (by decide) _) (provided_allocFrame.bind fun pa => Within.ite ?_ ?_)
  · exact (within_note _).bind fun _ => (provided_freeFrame _).bind fun _ => within_fail_bind (by decide) _
  · refine (within_lift (faults_div _ _)).bind fun _ => (provided_write _).bind fun _ => ?_
    exact (within_note _).bind fun _ => within_pure _

theorem provided_release (mapper : Mapper) (slab : Ptr) : Provided Pooled (release mapper slab) :=
  (provided_verify slab).bind fun _ => (provided_setWord _ _).bind fun _ => (provided_header slab).bind fun _ =>
    (within_note _).bind fun _ => provided_freeFrame _

/-! ## Caches -/

namespace Cache

/-- The pool is up. -/
def Pooled (s : CacheSite) : Prop := s.arena.Pooled

theorem provided_inArena {x : Action Arena α} (hx : Provided Arena.Pooled x) : Provided Pooled (inArena x) :=
  hx.zoom (fun _ => id) fun _ _ _ => id

theorem provided_update (f : Cache → Cache) : Provided Pooled (update f) := within_modify fun _ => id

theorem provided_ownsFrom (target : Ptr) (n : Nat) (slab : Ptr) : Provided Arena.Pooled (ownsFrom target n slab) := by
  induction n generalizing slab with
  | zero => exact within_halt _
  | succ n ih =>
    refine (within_pure _).ite ((provided_verify slab).bind fun _ => (within_pure _).ite ?_)
    exact (provided_word _).bind fun _ => ih _

theorem provided_freeCellsFrom (n : Nat) (slab : Ptr) (acc : Nat) :
    Provided Arena.Pooled (freeCellsFrom n slab acc) := by
  induction n generalizing slab acc with
  | zero => exact within_halt _
  | succ n ih =>
    refine (within_pure _).ite ((provided_verify slab).bind fun _ => (provided_header slab).bind fun h => ?_)
    exact (within_lift (faults_add _ _)).bind fun _ => ih _ _

theorem provided_popFrom (n : Nat) (slab : Ptr) : Provided Arena.Pooled (popFrom n slab) := by
  induction n generalizing slab with
  | zero => exact within_halt _
  | succ n ih =>
    refine (within_pure _).ite ((provided_pop slab).bind fun cell => ?_)
    cases cell with
    | some cell => exact within_pure _
    | none => exact (provided_word _).bind fun _ => ih _

theorem provided_stats : Provided Pooled stats :=
  within_get.bind fun _ => (provided_inArena (provided_freeCellsFrom _ _ _)).bind fun _ => within_pure _

theorem provided_countTaken : Provided Pooled countTaken :=
  within_get.bind fun _ => (within_lift (faults_add _ _)).bind fun _ => provided_update _

theorem provided_allocate (mapper : Mapper) : Provided Pooled (allocate mapper) := by
  refine within_get.bind fun s => (provided_inArena (provided_popFrom _ _)).bind fun cell => ?_
  cases cell with
  | some cell => exact provided_countTaken.bind fun _ => within_pure _
  | none =>
    refine (provided_inArena (provided_carve _ _)).bind fun slab => ?_
    refine (provided_inArena (provided_setWord _ _)).bind fun _ => (provided_update _).bind fun _ => ?_
    refine (within_lift (faults_add _ _)).bind fun _ => (provided_update _).bind fun _ => ?_
    refine (provided_inArena (provided_pop slab)).bind fun cell => (within_ofOption (by decide) _).bind fun _ => ?_
    exact provided_countTaken.bind fun _ => within_pure _

theorem provided_free (p : Ptr) : Provided Pooled (free p) := by
  refine (within_get.bind fun s => provided_inArena (provided_ownsFrom _ _ _)).bind fun owned => Within.ite ?_ ?_
  · exact within_get.bind fun _ => within_refuse (by decide) _ _
  · refine (provided_inArena (provided_push _ p)).bind fun _ => within_get.bind fun _ => ?_
    exact (within_lift (faults_sub _ _)).bind fun _ => provided_update _

theorem provided_relink (before after : Ptr) : Provided Pooled (relink before after) :=
  (provided_update _).ite (provided_inArena (provided_setWord _ _))

theorem provided_shrinkFrom (mapper : Mapper) (n : Nat) (before slab : Ptr) (released : Nat) :
    Provided Pooled (shrinkFrom mapper n before slab released) := by
  induction n generalizing before slab released with
  | zero => exact within_halt _
  | succ n ih =>
    refine (within_pure _).ite ((provided_inArena (provided_verify slab)).bind fun _ => ?_)
    refine (provided_inArena (provided_header slab)).bind fun h => Within.ite ?_ (ih _ _ _)
    refine (provided_relink before h.next).bind fun _ => within_get.bind fun _ => ?_
    refine (within_lift (faults_sub _ _)).bind fun _ => (provided_update _).bind fun _ => ?_
    refine (provided_inArena (provided_release mapper slab)).bind fun _ => ?_
    exact (within_lift (faults_add _ _)).bind fun _ => ih _ _ _

theorem provided_shrink (mapper : Mapper) : Provided Pooled (shrink mapper) :=
  within_get.bind fun _ => provided_shrinkFrom mapper _ _ _ _

end Cache

end Slab

/-! ## Heaps -/

namespace Heap

/-- The pool is up. -/
def Pooled (s : HeapSite) : Prop := s.arena.Pooled

theorem provided_onCache {i : SizeClass} {x : Action Slab.CacheSite α} (hx : Provided Slab.Cache.Pooled x) :
    Provided Pooled (onCache i x) := hx.zoom (fun _ => id) fun _ _ _ => id

theorem provided_inArena {x : Action Arena α} (hx : Provided Arena.Pooled x) :
    Provided Pooled (Action.zoom arenaPart x) := hx.zoom (fun _ => id) fun _ _ _ => id

/-- A size that no class has is no want of a service. -/
theorem faults_classFor (size : Nat) : Checked.Faults (· ≠ .notInit) (classFor size) :=
  (faults_fault (by decide)).ite (faults_orFault (by decide) _)

theorem provided_allocate (size : Nat) : Provided Pooled (allocate size) :=
  (within_lift (faults_classFor size)).bind fun _ => within_get.bind fun _ =>
    provided_onCache (Slab.Cache.provided_allocate _)

theorem provided_free (p : Ptr) : Provided Pooled (free p) := by
  refine (provided_inArena (Slab.provided_verify _)).bind fun _ => (provided_inArena (Slab.provided_header _)).bind ?_
  intro h
  cases classOf? h.cellSize with
  | some i => exact provided_onCache (Slab.Cache.provided_free p)
  | none => exact (within_note _).bind fun _ => within_fail (by decide)

theorem provided_shrinkClasses (is : List SizeClass) (released : Nat) : Provided Pooled (shrinkClasses is released) := by
  induction is generalizing released with
  | nil => exact within_pure _
  | cons i is ih =>
    refine within_get.bind fun s => (provided_onCache (Slab.Cache.provided_shrink _)).bind fun n => ?_
    exact (within_lift (faults_add _ _)).bind fun _ => ih _

theorem provided_shrink : Provided Pooled shrink :=
  (provided_shrinkClasses _ _).bind fun _ => ((within_note _).bind fun _ => within_pure _).ite (within_pure _)

theorem provided_stats : Provided Pooled stats :=
  (within_mapM _ fun _ => provided_onCache Slab.Cache.provided_stats).bind fun _ => within_pure _

end Heap

/-! ## Memory services -/

namespace Ground

/-- The pool and the heap are up. -/
structure Up (g : Ground) : Prop where
  pool : g.arena.Pooled
  heap : g.heap ≠ none

theorem provided_inArena {x : Action Arena α} (hx : Provided Pooled x) : Provided Up (inArena x) :=
  hx.zoom (fun _ h => h.pool) fun _ _ h hpool => ⟨hpool, h.heap⟩

theorem provided_onHeap {x : Action HeapSite α} (hx : Provided Heap.Pooled x) : Provided Up (onHeap x) := by
  rintro ⟨a, heap⟩ hup
  cases heap with
  | none => exact absurd rfl hup.heap
  | some h =>
    obtain ⟨hne, hpool⟩ := hx ⟨a, h⟩ hup.pool
    exact ⟨hne, hpool, nofun⟩

theorem provided_heapMapper : Provided Up heapMapper :=
  provided_onHeap (within_get.bind fun _ => within_pure _)

end Ground

namespace Allocator

open Keel.Ground (Up provided_inArena provided_onHeap provided_heapMapper)

theorem provided_takeFrame : Provided Up takeFrame :=
  (provided_inArena provided_allocFrame).bind fun _ => provided_heapMapper.bind fun _ =>
    Within.ite (within_fail_bind (by decide) _) (within_pure _)

theorem provided_giveFrame (p : Ptr) : Provided Up (giveFrame p) :=
  provided_heapMapper.bind fun _ => provided_inArena (provided_freeFrame _)

theorem provided_serve (l : Layout.Block) : Provided Up (serve l) :=
  (provided_onHeap (Heap.provided_allocate _)).ite (provided_takeFrame.ite (within_fail (by decide)))

theorem provided_alloc (l : Layout.Block) : Provided Up (alloc l) :=
  (provided_serve l).attempt.bind fun _ => within_pure _

theorem provided_dealloc (p : Ptr) (l : Layout.Block) : Provided Up (dealloc p l) := by
  refine (within_pure _).ite (Within.bind ?_ fun r => ?_)
  · exact ((provided_onHeap (Heap.provided_free p)).ite (provided_giveFrame p)).attempt
  · rcases r with f | _
    · cases f
      all_goals first | exact (within_note _).bind fun _ => within_halt _ | exact within_note _
    · exact within_pure _

end Allocator

end Keel
