import Keel.Proofs.Frame.Sessions
import Keel.Proofs.Kernel.Services

/-!
# Sessions with a kernel

A session is a kernel whose memory is up, and a list of requests to it and of writes by its clients, together with the
frames that clients hold. Clients give back no frame but those they hold, and write any bytes, but only into objects that
are in use and into frames they hold. `Session.Kept` is the invariant: the memory services are in order, and the frames
that clients hold are neither free nor slabs. What concerns the services only keeps it (`changes_of_leads`), and so do
frames that clients get, give back or write (`changes_allocFrame`, `changes_freeFrame`, `changes_write`). So nothing is
written but frames that were free when memory came up and the bitmap, and the bitmap is written as requests to the pool
write it (`Changes`).
-/

namespace Keel.Kernel

open Keel.Memory (Alters block pageAt)
open Keel.Frame (Pool)
open Keel.Slab (Estate View)

attribute [local irreducible] Memory.word

/-! ## Sessions -/

/-- A request to a kernel, or a write of a client. -/
inductive Request
  | startModules (exports : ExportTable)
  | load (m : BootModule) (mapper : Mapper)
  | loadAll (ms : List BootModule) (mapper : Mapper)
  | unload (name : String)
  | allocate (size : Nat)
  | free (x : Ptr)
  | shrink
  | allocFrame
  | freeFrame (pa : PhysAddr)
  | reserve (base : PhysAddr) (length : UInt64)
  | write (a : Ptr) (bytes : List UInt8)

namespace Request

/-- The kernel that a request leaves behind, whatever it answers. -/
def on (k : Kernel) : Request → Kernel
  | startModules t => (Kernel.startModules t k).state
  | load m mapper => (loadBootModule m mapper k).state
  | Request.loadAll ms mapper => (Kernel.loadAll ms mapper k).state
  | unload name => (unloadModule name k).state
  | allocate size => (onGround (Ground.allocate size) k).state
  | free x => (onGround (Ground.free x) k).state
  | shrink => (onGround (Ground.onHeap Heap.shrink) k).state
  | allocFrame => (onPool Pool.alloc k).state
  | freeFrame pa => (onPool (Pool.release pa) k).state
  | reserve base length => (onPool (Pool.reserve base length) k).state
  | write a bytes =>
    { k with ground.arena.memory := k.ground.arena.memory.setBytes a bytes }

/-- What a request may ask of the frame pool. -/
def asks : Request → Set Frame.Request
  | startModules _ | unload _ | free _ | write _ _ => ∅
  | allocFrame => {.alloc}
  | freeFrame pa => {.release pa}
  | reserve base length => {.reserve base length}
  | load _ _ | Request.loadAll _ _ | allocate _ | shrink => Set.univ

end Request

/-- A kernel, the map through which clients see their frames, and the frames they hold. -/
structure Session where
  kernel : Kernel
  mapper : Mapper
  held : Set Nat

namespace Session

/-- The session with a kernel in which memory has come up. -/
def start (rs : List Region) (ms : List BootModule) (mapper : Mapper) (k : Kernel) : Session :=
  ⟨(startMemory rs ms mapper k).state, mapper, ∅⟩

/-- The memory of a session. -/
def memory (s : Session) : Memory := s.kernel.ground.arena.memory

/-- The frame pool of a session, as its bitmap reads. -/
def pool? (s : Session) : Option Pool := s.kernel.ground.arena.pool?

/-- The frames that clients hold after a request. -/
def heldAfter (s : Session) : Request → Set Nat
  | .allocFrame =>
    match (onPool Pool.alloc s.kernel).result with
    | .ok pa => insert (Align.frameOf pa.raw) s.held
    | .error _ => s.held
  | .freeFrame pa =>
    match (onPool (Pool.release pa) s.kernel).result with
    | .ok () => s.held \ {Align.frameOf pa.raw}
    | .error _ => s.held
  | _ => s.held

/-- One request or write. -/
def step (s : Session) (q : Request) : Session := ⟨q.on s.kernel, s.mapper, s.heldAfter q⟩

/-- Whether an object of `n` bytes at `x` is in use: the heap would take it back. -/
def InUse (s : Session) (x : Ptr) (n : Nat) : Prop :=
  (onGround (Ground.free x) s.kernel).result = .ok () ∧ (Slab.Header.read s.memory (Slab.containing x)).cellSize = n

/-- What clients may do: they give back no frame but those they hold, and write into objects in use and into frames they
hold. -/
def Permits (s : Session) : Request → Prop
  | .freeFrame pa => (onPool (Pool.release pa) s.kernel).result = .ok () → Align.frameOf pa.raw ∈ s.held
  | .write a bytes => (∃ x n, s.InUse x n ∧ block a bytes.length ⊆ block x n) ∨
      ∃ f ∈ s.held, block a bytes.length ⊆ pageAt (s.mapper.page f)
  | _ => True

/-! ## One request -/

variable {E : Estate} {s : Session} {q : Request} {p : Pool} {qs : List Frame.Request} {V W : SizeClass → List View}
  {f : Nat}

/-- The frames of an estate are visible as pages of their own, apart from the bitmap. -/
structure Visible (E : Estate) : Prop where
  covers : E.mapper.Covers E.frames
  apart : Disjoint E.reach E.bitmap

/-- Frames of the estate that are neither free nor slabs. -/
def Lent (E : Estate) (p : Pool) (V : SizeClass → List View) (F : Set Nat) : Prop :=
  ∀ f ∈ F, f ∈ E.frames ∧ ¬E.Owns p V f

/-- The memory services of a session are in order, and clients hold frames that are neither free nor slabs. -/
def Kept (E : Estate) (s : Session) : Prop :=
  s.mapper = E.mapper ∧ ∃ p V, Ground.Stands E p s.kernel.ground V ∧ Lent E p V s.held

/-- What one request does to a session: of the pool it asks what it may, and it writes only pages of the estate and, if it
asks anything of the pool, the bitmap. -/
structure Changes (E : Estate) (s : Session) (q : Request) (p : Pool) (qs : List Frame.Request) : Prop where
  before : s.pool? = some p
  asks : ∀ r ∈ qs, r ∈ q.asks
  after : (s.step q).pool? = some (p.after qs)
  alters : Alters (E.reach ∪ E.asked qs) s.memory (s.step q).memory
  kept : (s.step q).Kept E

theorem pool?_of_stands {k : Kernel} (h : Ground.Stands E p k.ground V) : k.ground.arena.pool? = some p := by
  obtain ⟨_, -, hh⟩ := h
  exact hh.supplies.keeps.pool?

theorem Lent.mono {F F' : Set Nat} (h : Lent E p V F) (hF : F' ⊆ F) : Lent E p V F' := fun f hf => h f (hF hf)

/-- A move of the memory services that leaves the frames with the clients who hold them. -/
theorem changes_of_moves (hm : s.mapper = E.mapper) (h : Ground.Stands E p s.kernel.ground V) (hl : Lent E p V s.held)
    (hmoves : Ground.Moves E s.kernel.ground (q.on s.kernel).ground p qs V W) (hasks : ∀ r ∈ qs, r ∈ q.asks)
    (hheld : s.heldAfter q = s.held) : s.Changes E q p qs where
  before := pool?_of_stands h
  asks := hasks
  after := pool?_of_stands hmoves.stands
  alters := hmoves.alters
  kept := ⟨hm, _, W, hmoves.stands, fun f hf => by
    rw [show (s.step q).held = s.heldAfter q from rfl, hheld] at hf
    obtain ⟨hmem, hno⟩ := hl f hf
    exact ⟨hmem, fun ho => hno (hmoves.owns f hmem ho)⟩⟩

/-- A step of the memory services. -/
theorem changes_of_leads (h : s.Kept E) (hl : Leads E q.asks s.kernel (q.on s.kernel)) (hheld : s.heldAfter q = s.held) :
    ∃ p qs, s.Changes E q p qs := by
  obtain ⟨hm, p, V, hV, hlent⟩ := h
  obtain ⟨qs, W, hqs, hmoves⟩ := hl p V hV
  exact ⟨p, qs, changes_of_moves hm hV hlent hmoves hqs hheld⟩

/-- A request to the pool of a kernel. -/
theorem onPool_request {α : Type} {x : Action Pool α} {k : Kernel} {r : Frame.Request} (h : Ground.Stands E p k.ground V)
    (hx : (x p).state = r.on p) : ∃ a log, k.ground.arena.Becomes a (p.after [r]) E.bitmap ∅ ∧
      onPool x k = ⟨(x p).result, { k with ground := { k.ground with arena := a } }, log⟩ := by
  obtain ⟨_, -, hh⟩ := h
  obtain ⟨_, a, log, ht, rfl, ha⟩ := (Arena.onPool_request hh.supplies.keeps hh.supplies.sound r ∅ hx).trace
  have ht : Arena.onPool x k.ground.arena = ⟨(x p).result, a, log⟩ := ht
  refine ⟨a, log, ha, ?_⟩
  simp only [onPool, onGround, Ground.onPool, Ground.inArena, Action.zoom, groundPart, Ground.arenaPart, ht]

/-- Handing out a frame leaves the slabs as they are. -/
theorem moves_allocFrame {k : Kernel} (h : Ground.Stands E p k.ground V) :
    Ground.Moves E k.ground (Request.on k .allocFrame).ground p [.alloc] V V := by
  obtain ⟨_, -, hh⟩ := id h
  obtain ⟨a, log, hu, hon⟩ := onPool_request (x := Pool.alloc) (r := .alloc) h rfl
  rw [Request.on, hon]
  exact Ground.moves_of_becomes h (E.asked_cons _ _).ge hu fun f => hh.supplies.sound.free_of_alloc

/-- A frame that is handed out is lent to the client who asked for it. -/
theorem changes_allocFrame (h : s.Kept E) : ∃ p qs, s.Changes E .allocFrame p qs := by
  obtain ⟨hm, p, V, hV, hlent⟩ := h
  obtain ⟨k, -, hh⟩ := id hV
  have hsound := hh.supplies.sound
  obtain ⟨a, log, hu, hon⟩ := onPool_request (x := Pool.alloc) (r := .alloc) hV rfl
  have hmoves := moves_allocFrame hV
  refine ⟨p, [.alloc], pool?_of_stands hV, fun r => List.mem_singleton.1, pool?_of_stands hmoves.stands, hmoves.alters,
    hm, _, V, hmoves.stands, ?_⟩
  have hold : Lent E (p.after [.alloc]) V s.held := fun f hf =>
    ⟨(hlent f hf).1, fun ho => (hlent f hf).2 (hmoves.owns f (hlent f hf).1 ho)⟩
  show Lent E (p.after [.alloc]) V (s.heldAfter .allocFrame)
  rw [heldAfter, hon]
  cases hr : (Pool.alloc p).result with
  | error e => exact hold
  | ok pa =>
    obtain ⟨hfree, hafter⟩ := hsound.free_of_alloc_eq_ok hr
    intro f hf
    rcases Set.mem_insert_iff.1 hf with rfl | hf
    · refine ⟨hh.supplies.free _ hfree, ?_⟩
      rintro (hff | ⟨j, v, hv, hpage⟩)
      · exact ((hafter _).1 hff).2 rfl
      · exact hh.page_ne hfree hv hpage
    · exact hold f hf

/-- Taking back a frame that a client holds leaves the slabs as they are. -/
theorem stands_freeFrame {pa : PhysAddr} (h : Ground.Stands E p s.kernel.ground V) (hl : Lent E p V s.held)
    (hq : s.Permits (.freeFrame pa)) :
    Ground.Stands E (p.after [.release pa]) (Request.on s.kernel (.freeFrame pa)).ground V := by
  obtain ⟨k, hk, hh⟩ := id h
  have hsound := hh.supplies.sound
  obtain ⟨a, log, hu, hon⟩ := onPool_request (x := Pool.release pa) (r := .release pa) h rfl
  rw [Request.on, hon]
  refine ⟨k, hk, hh.onPool hu fun f hff => ?_⟩
  rcases Pool.release_ends hsound pa with ⟨hr, hrel, -, hclears, -⟩ | ⟨hsame, -, -⟩
  · have hf : Align.frameOf pa.raw ∈ s.held := hq (by rw [hon]; exact hr)
    obtain ⟨hmem, hno⟩ := hl _ hf
    obtain ⟨h1, h2⟩ := hrel.usable.inside hsound.charts
    rcases (hclears.free_iff (by omega)).1 hff with hff | hfe
    · exact ⟨hh.supplies.free f hff, fun i v hv => hh.page_ne hff hv⟩
    · obtain rfl : f = Align.frameOf pa.raw := hfe.trans (Nat.add_sub_cancel' h1)
      exact ⟨hmem, fun i v hv he => hno (.inr ⟨i, v, hv, he⟩)⟩
  · rw [Pool.after, List.foldl_cons, Frame.Request.on, hsame] at hff
    exact ⟨hh.supplies.free f hff, fun i v hv => hh.page_ne hff hv⟩

/-- A frame that a client gives back is no longer lent. -/
theorem changes_freeFrame {pa : PhysAddr} (h : s.Kept E) (hq : s.Permits (.freeFrame pa)) :
    ∃ p qs, s.Changes E (.freeFrame pa) p qs := by
  obtain ⟨hm, p, V, hV, hlent⟩ := h
  have hstands := stands_freeFrame hV hlent hq
  obtain ⟨k, hk, hh⟩ := id hV
  have hsound := hh.supplies.sound
  obtain ⟨a, log, hu, hon⟩ := onPool_request (x := Pool.release pa) (r := .release pa) hV rfl
  have hground : (Request.on s.kernel (.freeFrame pa)).ground = { s.kernel.ground with arena := a } := by
    rw [Request.on, hon]
  rcases Pool.release_ends hsound pa with ⟨hr, hrel, -, hclears, -⟩ | ⟨hq, -, hr⟩
  · have hf : Align.frameOf pa.raw ∈ s.held := hq (by rw [hon]; exact hr)
    obtain ⟨hmem, hno⟩ := hlent _ hf
    obtain ⟨h1, h2⟩ := hrel.usable.inside hsound.charts
    have hafter : ∀ f, (p.after [.release pa]).Free f ↔ p.Free f ∨ f = Align.frameOf pa.raw := fun f =>
      (hclears.free_iff (by omega)).trans (by rw [Nat.add_sub_cancel' h1])
    refine ⟨p, [.release pa], pool?_of_stands hV, fun r => List.mem_singleton.1, pool?_of_stands hstands, ?_, hm, _, V,
      hstands, ?_⟩
    · show Alters _ s.memory (Request.on s.kernel (.freeFrame pa)).ground.arena.memory
      rw [hground]
      exact hu.alters.mono (Set.union_subset_union (Set.empty_subset _) (E.asked_cons _ _).ge)
    · show Lent E (p.after [.release pa]) V (s.heldAfter (.freeFrame pa))
      rw [heldAfter, hon, hr]
      rintro f ⟨hf, hne⟩
      refine ⟨(hlent f hf).1, ?_⟩
      rintro (hff | hpage)
      · exact ((hafter f).1 hff).elim (fun hff => (hlent f hf).2 (.inl hff)) hne
      · exact (hlent f hf).2 (.inr hpage)
  · have hmoves := Ground.moves_of_becomes hV (E.asked_cons _ _).ge hu fun f hf => by
      rwa [Pool.after, List.foldl_cons, Frame.Request.on, hq] at hf
    rw [← hground] at hmoves
    refine ⟨p, [.release pa], changes_of_moves hm hV hlent hmoves (fun r => List.mem_singleton.1) ?_⟩
    rw [heldAfter, hon]
    rcases hr with hr | hr
    · rw [hr]
    · rw [hr]

/-- What the heap would take back is an object, and its slab tells the size. -/
theorem object_of_inUse {x : Ptr} {k : Kernel} (h : Ground.Stands E p k.ground V)
    (hx : (onGround (Ground.free x) k).result = .ok ()) : ∃ i, x ∈ Heap.objectsOf V i ∧
      (Slab.Header.read k.ground.arena.memory (Slab.containing x)).cellSize = classSize i := by
  obtain ⟨heap, hheap, hh⟩ := h
  have hfree : (Heap.free x ⟨k.ground.arena, heap⟩).result = .ok () := by
    rw [← hx]
    simp only [onGround, Action.zoom, groundPart, Ground.free, Ground.onHeap, hheap]
  obtain ⟨r, t, log, ht, ⟨i, hi, -⟩ | ⟨-, -, hr⟩⟩ := (Heap.free_ends hh x).trace
  · refine ⟨i, hi, ?_⟩
    obtain ⟨v, hv, -, -, -, -, hpage, -⟩ := (hh.chain i).of_objects (Heap.cellSize_classSize i) hi
    obtain ⟨next, hholds⟩ := (hh.chain i).holds hv
    rw [hpage, hholds.header (Heap.cellSize_classSize i)]
  · rw [ht] at hfree
    rcases hr with rfl | rfl | rfl <;> cases hfree

/-- A write into an object in use or into a frame that is lent goes past everything that the services rely on. -/
theorem apart_write {a : Ptr} {bytes : List UInt8} (hE : Visible E) (hm : s.mapper = E.mapper)
    (hV : Ground.Stands E p s.kernel.ground V) (hlent : Lent E p V s.held) (hq : s.Permits (.write a bytes)) :
    Disjoint (Heap.guarded V ∪ E.bitmap) (block a bytes.length) ∧ block a bytes.length ⊆ E.reach := by
  obtain ⟨k, hk, hh⟩ := id hV
  -- a held frame meets no slab, since its page is no slab's, and the bitmap lies apart from all frames of the estate
  rcases hq with ⟨x, n, ⟨hfree, hsize⟩, hsub⟩ | ⟨f, hf, hsub⟩
  · obtain ⟨i, hi, hn⟩ := object_of_inUse hV hfree
    obtain rfl : classSize i = n := hn.symm.trans hsize
    obtain ⟨v, hv, -, -, -, -, -, hpage⟩ := (hh.chain i).of_objects (Heap.cellSize_classSize i) hi
    exact ⟨(hh.disjoint_guarded hi).mono_right hsub, hsub.trans (hpage.trans (hh.page_subset hv))⟩
  · rw [hm] at hsub
    obtain ⟨hmem, hno⟩ := hlent f hf
    have hreach := E.page_subset hmem
    refine ⟨(Set.disjoint_union_left.2 ⟨?_, (hE.apart.mono_left hreach).symm⟩).mono_right hsub, hsub.trans hreach⟩
    rw [Set.disjoint_left]
    rintro b ⟨i, hb⟩ hbf
    obtain ⟨v, hv, hbv⟩ := Slab.guarded_subset (hh.chain i) hb
    obtain ⟨g, hg, -, -, hpage⟩ := (hh.caches i).backed v hv
    rw [← hpage] at hbv
    have hne : f ≠ g := fun he => hno (.inr ⟨i, v, hv, by rw [he, hpage]⟩)
    have hsmall := hh.supplies.circulates.small
    exact Set.disjoint_left.1 (hE.covers.disjoint hmem hg (hsmall f hmem) (hsmall g hg) hne) hbf hbv

/-- A write of a client leaves the slabs as they are. -/
theorem moves_write {a : Ptr} {bytes : List UInt8} (hE : Visible E) (hm : s.mapper = E.mapper)
    (hV : Ground.Stands E p s.kernel.ground V) (hlent : Lent E p V s.held) (hq : s.Permits (.write a bytes)) :
    Ground.Moves E s.kernel.ground (Request.on s.kernel (.write a bytes)).ground p [] V V := by
  obtain ⟨k, hk, hh⟩ := id hV
  obtain ⟨hd, hreach⟩ := apart_write hE hm hV hlent hq
  have halters := Memory.alters_setBytes s.kernel.ground.arena.memory a bytes
  exact ⟨⟨k, hk, hh.write halters hd⟩, fun _ _ => id, halters.mono (hreach.trans Set.subset_union_left)⟩

theorem changes_write {a : Ptr} {bytes : List UInt8} (hE : Visible E) (h : s.Kept E) (hq : s.Permits (.write a bytes)) :
    ∃ p qs, s.Changes E (.write a bytes) p qs := by
  obtain ⟨hm, p, V, hV, hlent⟩ := h
  exact ⟨p, [], changes_of_moves hm hV hlent (moves_write hE hm hV hlent hq) (fun r hr => absurd hr List.not_mem_nil) rfl⟩

end Session

end Keel.Kernel
