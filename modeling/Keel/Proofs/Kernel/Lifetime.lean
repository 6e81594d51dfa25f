import Keel.Proofs.Kernel.Sessions
import Keel.Proofs.Provided

/-!
# A heap stands on a pool

Once a pool is up, no action takes it down (`Arena.Lasts`): what the slabs and the heap do lacks no service and leaves the
pool up, whatever memory and lists of cells look like (`lasting_of_provided`). Since the heap is started only where a pool is
up, a kernel with a heap has a pool. That holds after every list of calls (`Kernel.rooted_run`), be they made in order or
not, and with memory overwritten in between.
-/

namespace Keel

open Keel.Action (Provided Steps)

variable {α : Type}

/-! ## Arenas -/

namespace Arena

/-- A pool that is up stays up. -/
def Lasts (s t : Arena) : Prop := t.pool = none → s.pool = none

instance : IsPreorder Arena Lasts where
  refl := fun _ => id
  trans := fun _ _ _ h h' => h ∘ h'

theorem lasts_onPool (x : Action Frame.Pool α) : Steps Lasts (onPool x) := by
  intro s h
  cases hs : s.pool with
  | none => rfl
  | some p =>
    unfold onPool at h
    rw [hs] at h
    cases h

end Arena

open Keel.Arena (Lasts lasts_onPool)

/-! ## Heaps -/

namespace Heap

/-- A pool that is up stays up. -/
def Lasting : HeapSite → HeapSite → Prop := Order.Preimage HeapSite.arena Lasts

/-- What lacks nothing where the pool is up does not take it down. -/
theorem lasting_of_provided {x : Action HeapSite α} (hx : Provided Pooled x) : Steps Lasting x := fun s h =>
  not_not.1 fun hs => (hx s hs).2 h

end Heap

/-! ## Memory services -/

namespace Ground

open Keel.Action (steps_pure steps_fail steps_note steps_get steps_halt)

/-- Without a pool there is no heap. -/
def Rooted (g : Ground) : Prop := g.arena.pool = none → g.heap = none

/-- Where there was no heap without a pool, there is none afterwards. -/
def Roots (g g' : Ground) : Prop := g.Rooted → g'.Rooted

instance : IsPreorder Ground Roots where
  refl := fun _ => id
  trans := fun _ _ _ h h' => h' ∘ h

theorem roots_inArena {x : Action Arena α} (hx : Steps Lasts x) : Steps Roots (inArena x) :=
  hx.zoom fun _ _ h hg hnone => hg (h hnone)

theorem roots_onHeap {x : Action HeapSite α} (hx : Steps Heap.Lasting x) : Steps Roots (onHeap x) := by
  rintro ⟨a, heap⟩ hg
  cases heap with
  | none => exact fun _ => rfl
  | some h => exact fun hnone => nomatch hg (hx ⟨a, h⟩ hnone)

theorem lasts_createPool (rs : List Region) (home : Home) : Steps Lasts (createPool rs home) := by
  intro s h
  unfold createPool at h
  dsimp only at h
  split at h
  · cases h
  · exact h

theorem roots_startPool (rs : List Region) (home : Home) : Steps Roots (startPool rs home) := by
  refine steps_get.bind fun g => ((steps_note _).bind fun _ => steps_fail _).ite ?_
  exact (roots_inArena (lasts_createPool rs home)).bind fun _ => (steps_note _).bind fun _ => steps_pure _

/-- The heap is started where a pool is up. -/
theorem roots_startHeap (mapper : Mapper) : Steps Roots (startHeap mapper) := fun g =>
  (startHeap_ends mapper).mono fun r g' h hg => by
    rcases h with ⟨-, hpool, -, rfl⟩ | ⟨-, rfl, -⟩
    · exact fun hnone => absurd hnone hpool
    · exact hg

/-- Objects and ranges are handed out and taken back over the pool that is up. -/
theorem serves_roots : Kernel.Serves Roots where
  write := fun _ _ => id
  allocate := fun size => roots_onHeap (Heap.lasting_of_provided (Heap.provided_allocate size))
  free := fun p => roots_onHeap (Heap.lasting_of_provided (Heap.provided_free p))
  reserve := fun _ _ => roots_inArena (lasts_onPool _)

end Ground

namespace Allocator

open Keel.Action (steps_pure steps_fail steps_note steps_halt)
open Keel.Ground (Roots roots_inArena roots_onHeap)

theorem roots_heapMapper : Steps Roots Ground.heapMapper := roots_onHeap fun _ => id

theorem roots_alloc (l : Layout.Block) : Steps Roots (alloc l) := by
  have hserve : Steps Roots (serve l) := by
    refine Steps.ite (roots_onHeap (Heap.lasting_of_provided (Heap.provided_allocate _))) (Steps.ite ?_ (steps_fail _))
    exact (roots_inArena (lasts_onPool _)).bind fun _ => roots_heapMapper.bind fun _ => (steps_fail _).ite (steps_pure _)
  exact hserve.attempt.bind fun _ => steps_pure _

theorem roots_dealloc (p : Ptr) (l : Layout.Block) : Steps Roots (dealloc p l) := by
  have hgive : Steps Roots (giveFrame p) := roots_heapMapper.bind fun _ => roots_inArena (lasts_onPool _)
  have hfree : Steps Roots (Ground.free p) := roots_onHeap (Heap.lasting_of_provided (Heap.provided_free p))
  refine (steps_pure _).ite ((hfree.ite hgive).attempt.bind fun r => ?_)
  rcases r with f | _
  · cases f
    all_goals first | exact (steps_note _).bind fun _ => steps_halt _ | exact steps_note _
  · exact steps_pure _

end Allocator

/-! ## Kernels -/

namespace Kernel

open Keel.Ground (Roots Rooted roots_startPool roots_startHeap roots_inArena roots_onHeap serves_roots)

/-- What can be asked of a kernel, before its memory is up as well as after, and in any order. -/
inductive Call
  | startPool (rs : List Region) (home : Home)
  | startHeap (mapper : Mapper)
  | startMemory (rs : List Region) (ms : List BootModule) (mapper : Mapper)
  | alloc (l : Layout.Block)
  | dealloc (p : Ptr) (l : Layout.Block)
  | request (q : Request)
  /-- Whatever is no part of the memory services becomes that of some kernel. -/
  | others (k : Kernel)

/-- The kernel that a call leaves behind, whatever it answers. -/
def Call.on (k : Kernel) : Call → Kernel
  | startPool rs home => (onGround (Ground.startPool rs home) k).state
  | startHeap mapper => (onGround (Ground.startHeap mapper) k).state
  | Call.startMemory rs ms mapper => (Kernel.startMemory rs ms mapper k).state
  | alloc l => (onGround (Allocator.alloc l) k).state
  | dealloc p l => (onGround (Allocator.dealloc p l) k).state
  | request q => q.on k
  | others k' => { k' with ground := k.ground }

/-- The kernel after a list of calls. -/
def run (k : Kernel) (cs : List Call) : Kernel := cs.foldl Call.on k

theorem rooted_boot (memory : Memory) (poison : Bool) : (boot memory poison).ground.Rooted := fun _ => rfl

theorem roots_request (q : Request) (k : Kernel) : Over Roots k (q.on k) := by
  cases q with
  | startModules t => exact steps_startModules t k
  | load m mapper => exact steps_loadBootModule serves_roots.admits m mapper k
  | loadAll ms mapper => exact steps_loadAll serves_roots.admits ms mapper k
  | unload name => exact steps_unloadModule serves_roots.releases name k
  | allocate size => exact steps_onGround (serves_roots.allocate size) k
  | free x => exact steps_onGround (serves_roots.free x) k
  | shrink => exact steps_onGround (roots_onHeap (Heap.lasting_of_provided Heap.provided_shrink)) k
  | allocFrame => exact steps_onGround (roots_inArena (lasts_onPool _)) k
  | freeFrame pa => exact steps_onGround (roots_inArena (lasts_onPool _)) k
  | reserve base length => exact steps_onGround (serves_roots.reserve base length) k
  | write a bytes => exact id

/-- Bringing memory up starts a heap over a pool, or changes nothing that counts. -/
theorem roots_startMemory (rs : List Region) (ms : List BootModule) (mapper : Mapper) (k : Kernel) :
    Over Roots k (startMemory rs ms mapper k).state := by
  intro hg
  have hcases := startMemory_cases rs ms mapper k
  rcases hcases with ⟨words, first, p, -, ho, -⟩ | ⟨-, ⟨-, halike⟩ | ⟨hpool, hheap⟩⟩
  · obtain ⟨h, hsome, -⟩ := ho.becomes.keeps
    exact fun hnone => nomatch hsome.symm.trans hnone
  · intro hnone
    rw [halike.ground.heap]
    exact hg (halike.ground.arena.pool.symm.trans hnone)
  · exact absurd (hg hpool) hheap

/-- One call. -/
theorem rooted_on {k : Kernel} (h : k.ground.Rooted) (c : Call) : (c.on k).ground.Rooted := by
  cases c with
  | startPool rs home => exact roots_startPool rs home k.ground h
  | startHeap mapper => exact roots_startHeap mapper k.ground h
  | startMemory rs ms mapper => exact roots_startMemory rs ms mapper k h
  | alloc l => exact Allocator.roots_alloc l k.ground h
  | dealloc p l => exact Allocator.roots_dealloc p l k.ground h
  | request q => exact roots_request q k h
  | others k' => exact h

/-- **A kernel with a heap has a pool**, whatever was asked of it. -/
theorem rooted_run {k : Kernel} (h : k.ground.Rooted) (cs : List Call) : (k.run cs).ground.Rooted := by
  unfold run
  induction cs generalizing k with
  | nil => exact h
  | cons c cs ih => exact ih (rooted_on h c)

end Kernel

end Keel
