import Keel.Proofs.Heap.Neighbours
import Keel.Proofs.Heap.Supply

/-!
# Blocks that clients hold

A client of the allocator holds a block by its start and its layout, and the layout tells which store the block comes
from (`class?`) and how many bytes it has (`room`). A session is the memory services with the blocks that clients hold,
and `Balances` are its books: the objects of the heap are those of others and of blocks, and its frames together with
those of blocks are the ones it had at the start. The books balance after each thing that a store can do: give an
object (`grant_object`) or a frame (`grant_frame`) to who holds nothing there, get one back (`return_object`,
`return_frame`), or move frames around (`shift`); and after what clients write into their blocks (`write`). Where they
balance, blocks meet neither each other (`disjoint`) nor what others hold (`disjoint_object`, `disjoint_lent`).
-/

namespace Keel

open Keel.Frame (Pool)
open Keel.Heap (classFor objectsOf)
open Keel.Memory (block pageAt)
open Keel.Slab (Estate View objects)

attribute [local irreducible] Memory.word

/-! ## Layouts -/

namespace Layout.Block

variable {l : Block} {i : SizeClass}

/-- The class of the heap that serves a layout; none for one that gets a frame. -/
def class? (l : Block) : Option SizeClass := if l.fitsHeap then (classFor (max l.size 1)).toOption else none

/-- The number of bytes that a block of a layout has: those of a cell, or of a frame. -/
def room (l : Block) : Nat := l.class?.elim pageSize classSize

/-- What a layout may look like: its alignment is a power of two. -/
def Valid (l : Block) : Prop := ∃ k, l.align = 2 ^ k

/-- Whether there may be a block of a layout: it fits the heap or a frame. -/
def Fits (l : Block) : Prop := l.Valid ∧ (l.fitsHeap = true ∨ l.fitsFrame = true)

theorem fitsHeap_iff : l.fitsHeap = true ↔ l.size ≤ 2048 ∧ l.align ≤ 16 := by
  simp only [fitsHeap, Bool.and_eq_true, decide_eq_true_eq]
  rfl

theorem fitsFrame_iff : l.fitsFrame = true ↔ l.size ≤ 4096 ∧ l.align ≤ 4096 := by
  simp only [fitsFrame, Bool.and_eq_true, decide_eq_true_eq]
  rfl

theorem class?_eq_some : l.class? = some i ↔ l.fitsHeap = true ∧ classFor (max l.size 1) = .ok i := by
  unfold class?
  split
  · rename_i h
    cases hc : classFor (max l.size 1) with
    | error e => simp [Except.toOption, h]
    | ok j => simp [Except.toOption, h]
  · rename_i h
    simp [h]

/-- The heap has a class for what it serves. -/
theorem exists_classFor (h : l.fitsHeap = true) : ∃ i, classFor (max l.size 1) = .ok i := by
  cases hc : classFor (max l.size 1) with
  | ok i => exact ⟨i, rfl⟩
  | error e =>
    have hsize := (fitsHeap_iff.1 h).1
    have hmax : maxHeapObject = 2048 := rfl
    rcases Heap.classFor_eq_error hc with ⟨h0, -⟩ | ⟨hlt, -⟩ <;> omega

theorem class?_eq_none : l.class? = none ↔ ¬l.fitsHeap = true := by
  constructor
  · intro hnone hfits
    obtain ⟨i, hi⟩ := exists_classFor hfits
    rw [class?_eq_some.2 ⟨hfits, hi⟩] at hnone
    cases hnone
  · intro h
    rw [class?, if_neg h]

theorem room_some (h : l.class? = some i) : l.room = classSize i := by rw [room, h, Option.elim_some]

theorem room_none (h : l.class? = none) : l.room = 4096 := by rw [room, h, Option.elim_none, pageSize]

theorem size_le_room (h : l.Fits) : l.size ≤ l.room := by
  cases hc : l.class? with
  | none =>
    have hframe := h.2.resolve_left (class?_eq_none.1 hc)
    rw [room_none hc]
    exact (fitsFrame_iff.1 hframe).1
  | some i =>
    have hle := Heap.le_classSize (class?_eq_some.1 hc).2
    rw [room_some hc]
    omega

end Layout.Block

namespace Allocator

open Keel.Layout (Block)

/-! ## Blocks in the hands of clients -/

/-- A block as a client holds it. -/
structure Lease where
  start : Ptr
  layout : Block

namespace Lease

/-- The bytes of a block. -/
def bytes (b : Lease) : Set Ptr := block b.start b.layout.room

end Lease

/-! ## Sessions -/

/-- The memory services and the blocks that clients hold. -/
structure Session where
  ground : Ground
  live : Set Lease

/-- A request to the allocator or to its heap, or a write of a client. -/
inductive Request
  | alloc (l : Block)
  | dealloc (b : Lease)
  | shrink
  | write (a : Ptr) (bytes : List UInt8)

namespace Session

/-- The session over a heap and a pool of which others may hold objects and frames. -/
def ofHeap (h : Heap.Session) : Session := ⟨⟨h.site.arena, some h.site.heap⟩, ∅⟩

/-- One request or write. -/
def step (s : Session) : Request → Session
  | .alloc l =>
    let t := alloc l s.ground
    match t.result with
    | .ok (some x) => ⟨t.state, insert ⟨x, l⟩ s.live⟩
    | _ => ⟨t.state, s.live⟩
  | .dealloc b => ⟨(dealloc b.start b.layout s.ground).state, s.live \ {b}⟩
  | .shrink => ⟨(Ground.onHeap Heap.shrink s.ground).state, s.live⟩
  | .write a bytes =>
    ⟨{ s.ground with arena := { s.ground.arena with memory := s.ground.arena.memory.setBytes a bytes } }, s.live⟩

/-- The session after a list of requests. -/
def run (s : Session) (qs : List Request) : Session := qs.foldl step s

/-- What clients may do: they ask for layouts, give back blocks that they hold, and write into them. -/
def Permits (s : Session) : Request → Prop
  | .alloc l => l.Valid
  | .dealloc b => b ∈ s.live
  | .shrink => True
  | .write a bytes => ∃ b ∈ s.live, block a bytes.length ⊆ b.bytes

/-- Every one of some requests is permitted when it is made. -/
def Permitted (s : Session) : List Request → Prop
  | [] => True
  | q :: qs => s.Permits q ∧ (s.step q).Permitted qs

/-! ## Books -/

/-- Where the blocks start that the heap serves by a class, or the pool by frames. -/
def starts (s : Session) (c : Option SizeClass) : Set Ptr := {x | ∃ b ∈ s.live, b.layout.class? = c ∧ b.start = x}

variable {E : Estate} {p₀ p q : Pool} {V₀ V W : SizeClass → List View} {s : Session} {g : Ground} {b c : Lease}
  {l : Block} {i j : SizeClass} {x : Ptr} {f : Nat} {ws : List View}

/-- The books of a session balance that has begun with the pool `p₀` and the slabs `V₀`: the frames of the heap and of
the blocks are those that the heap had, and the objects are those of others and the blocks that the heap serves. -/
structure Balances (E : Estate) (p₀ : Pool) (V₀ : SizeClass → List View) (s : Session) (p : Pool)
    (V : SizeClass → List View) : Prop where
  stands : Ground.Stands E p s.ground V
  map : Pool.SameMap p₀ p
  fits : ∀ b ∈ s.live, b.layout.Fits
  unique : s.live.InjOn Lease.start
  held : ∀ i, objectsOf V i = objectsOf V₀ i ∪ s.starts (some i)
  apart : ∀ i, Disjoint (objectsOf V₀ i) (s.starts (some i))
  lent : ∀ x ∈ s.starts none, ∃ f ∈ E.frames, E.mapper.page f = x ∧ ¬E.Owns p V f
  frames : ∀ f ∈ E.frames, E.Owns p V f ∨ E.mapper.page f ∈ s.starts none ↔ E.Owns p₀ V₀ f

theorem mem_starts_insert {o : Option SizeClass} : x ∈ starts ⟨g, insert b s.live⟩ o ↔
    b.layout.class? = o ∧ b.start = x ∨ x ∈ s.starts o := by
  simp only [starts, Set.mem_ofPred_eq, Set.mem_insert_iff, exists_eq_or_imp]

theorem mem_starts_remove {o : Option SizeClass} (hu : s.live.InjOn Lease.start) (hb : b ∈ s.live) :
    x ∈ starts ⟨g, s.live \ {b}⟩ o ↔ x ∈ s.starts o ∧ x ≠ b.start := by
  constructor
  · rintro ⟨c, ⟨hc, hne⟩, ho, rfl⟩
    exact ⟨⟨c, hc, ho, rfl⟩, fun he => hne (hu hc hb he)⟩
  · rintro ⟨⟨c, hc, ho, rfl⟩, hne⟩
    exact ⟨c, ⟨hc, fun he => hne (congrArg Lease.start he)⟩, ho, rfl⟩

theorem starts_insert_of_ne {o : Option SizeClass} (h : b.layout.class? ≠ o) :
    starts ⟨g, insert b s.live⟩ o = s.starts o := by
  ext x
  rw [mem_starts_insert]
  exact or_iff_right fun hn => h hn.1

theorem starts_remove_of_ne {o : Option SizeClass} (hu : s.live.InjOn Lease.start) (hb : b ∈ s.live)
    (h : b.layout.class? ≠ o) : starts ⟨g, s.live \ {b}⟩ o = s.starts o := by
  ext x
  rw [mem_starts_remove hu hb]
  refine and_iff_left_of_imp ?_
  rintro ⟨c, hc, ho, rfl⟩ he
  obtain rfl := hu hc hb he
  exact h ho

theorem starts_of_live (h : s.live = ∅) (o : Option SizeClass) : s.starts o = ∅ := by
  refine Set.eq_empty_of_forall_notMem fun x hx => ?_
  obtain ⟨b, hb, -⟩ := hx
  rw [h] at hb
  exact hb

namespace Balances

/-- A block that the heap serves is an object. -/
theorem mem_objects (h : Balances E p₀ V₀ s p V) (hb : b ∈ s.live) (hc : b.layout.class? = some i) :
    b.start ∈ objectsOf V i := by
  rw [h.held i]
  exact .inr ⟨b, hb, hc, rfl⟩

/-- **Two blocks** do not meet. -/
theorem disjoint (hE : Heap.Session.Whole E) (h : Balances E p₀ V₀ s p V) (hb : b ∈ s.live) (hc : c ∈ s.live)
    (hne : b ≠ c) : Disjoint b.bytes c.bytes := by
  obtain ⟨heap, -, hh⟩ := h.stands
  have hstart : b.start ≠ c.start := fun he => hne (h.unique hb hc he)
  unfold Lease.bytes
  cases hbc : b.layout.class? with
  | some i =>
    have hx := h.mem_objects hb hbc
    rw [Block.room_some hbc]
    cases hcc : c.layout.class? with
    | some j =>
      rw [Block.room_some hcc]
      exact hh.disjoint_objects hx (h.mem_objects hc hcc) hstart
    | none =>
      obtain ⟨f, hf, hpage, hnot⟩ := h.lent _ ⟨c, hc, hcc, rfl⟩
      rw [Block.room_none hcc, ← hpage]
      exact hh.disjoint_frame hx (hE.shows f hf) hnot
  | none =>
    obtain ⟨f, hf, hpage, hnot⟩ := h.lent _ ⟨b, hb, hbc, rfl⟩
    rw [Block.room_none hbc, ← hpage]
    cases hcc : c.layout.class? with
    | some j =>
      rw [Block.room_some hcc]
      exact (hh.disjoint_frame (h.mem_objects hc hcc) (hE.shows f hf) hnot).symm
    | none =>
      obtain ⟨e, he, hpage', -⟩ := h.lent _ ⟨c, hc, hcc, rfl⟩
      rw [Block.room_none hcc, ← hpage']
      exact Memory.disjoint_pageAt (hE.shows f hf).1 (hE.shows e he).1 (by rwa [hpage, hpage'])

/-- A block does not meet the objects of others. -/
theorem disjoint_object (hE : Heap.Session.Whole E) (h : Balances E p₀ V₀ s p V) (hb : b ∈ s.live)
    (hx : x ∈ objectsOf V₀ i) : Disjoint b.bytes (block x (classSize i)) := by
  obtain ⟨heap, -, hh⟩ := h.stands
  have hx' : x ∈ objectsOf V i := by
    rw [h.held i]
    exact .inl hx
  unfold Lease.bytes
  cases hbc : b.layout.class? with
  | some j =>
    have hstart := h.mem_objects hb hbc
    rw [Block.room_some hbc]
    refine hh.disjoint_objects hstart hx' fun he => ?_
    obtain rfl := hh.class_eq_of_objects hx' (he ▸ hstart)
    exact Set.disjoint_left.1 (h.apart i) hx ⟨b, hb, hbc, he⟩
  | none =>
    obtain ⟨f, hf, hpage, hnot⟩ := h.lent _ ⟨b, hb, hbc, rfl⟩
    rw [Block.room_none hbc, ← hpage]
    exact (hh.disjoint_frame hx' (hE.shows f hf) hnot).symm

/-- A block does not meet the frames of others. -/
theorem disjoint_lent (hE : Heap.Session.Whole E) (h : Balances E p₀ V₀ s p V) (hb : b ∈ s.live) (hf : f ∈ E.frames)
    (hnot : ¬E.Owns p₀ V₀ f) : Disjoint b.bytes (pageAt (E.mapper.page f)) := by
  obtain ⟨heap, -, hh⟩ := h.stands
  rw [← h.frames f hf, not_or] at hnot
  unfold Lease.bytes
  cases hbc : b.layout.class? with
  | some i =>
    rw [Block.room_some hbc]
    exact hh.disjoint_frame (h.mem_objects hb hbc) (hE.shows f hf) hnot.1
  | none =>
    obtain ⟨e, he, hpage, -⟩ := h.lent _ ⟨b, hb, hbc, rfl⟩
    have hne : E.mapper.page e ≠ E.mapper.page f := fun hpe => hnot.2 ⟨b, hb, hbc, hpage.symm.trans hpe⟩
    rw [Block.room_none hbc, ← hpage]
    exact Memory.disjoint_pageAt (hE.shows e he).1 (hE.shows f hf).1 hne

/-! ## What becomes of the books -/

/-- A frame that is a block stays one when the heap moves its frames around. -/
theorem lent_shift (h : Balances E p₀ V₀ s p V) (hs : Ground.Shifts E s.ground g p q V W) (hx : x ∈ s.starts none) :
    ∃ f ∈ E.frames, E.mapper.page f = x ∧ ¬E.Owns q W f := by
  obtain ⟨f, hf, hpage, hnot⟩ := h.lent x hx
  exact ⟨f, hf, hpage, fun ho => hnot ((hs.owns f hf).1 ho)⟩

/-- No frame is lost when the heap moves its frames around. -/
theorem frames_shift (h : Balances E p₀ V₀ s p V) (hs : Ground.Shifts E s.ground g p q V W) (hf : f ∈ E.frames) :
    E.Owns q W f ∨ E.mapper.page f ∈ s.starts none ↔ E.Owns p₀ V₀ f := by
  rw [hs.owns f hf]
  exact h.frames f hf

/-- No block starts where the heap gives a new object away. -/
theorem fresh_object (hE : Heap.Session.Whole E) (h : Balances E p₀ V₀ s p V)
    (hs : Ground.Shifts E s.ground g p q V (Function.update V i ws)) (hnew : x ∉ objectsOf V i)
    (hx : x ∈ objectsOf (Function.update V i ws) i) (hb : b ∈ s.live) : b.start ≠ x := by
  obtain ⟨heap, -, hW⟩ := hs.stands
  rintro rfl
  cases hbc : b.layout.class? with
  | some j =>
    have hj := h.mem_objects hb hbc
    by_cases hij : j = i
    · subst hij
      exact hnew hj
    · rw [← Heap.Session.objectsOf_update_of_ne V ws hij] at hj
      exact hij (hW.class_eq_of_objects hj hx)
  | none =>
    obtain ⟨f, hf, hpage, hnot⟩ := h.lent_shift hs ⟨b, hb, hbc, rfl⟩
    exact hW.object_ne_page hx (hE.shows f hf) hnot hpage.symm

/-- No block starts at the page of a free frame that the pool gives away. -/
theorem fresh_page (hE : Heap.Session.Whole E) (h : Balances E p₀ V₀ s p V) (hf : p.Free f)
    (hs : Ground.Stands E q g V) (hnot : ¬E.Owns q V f) (hb : b ∈ s.live) : b.start ≠ E.mapper.page f := by
  obtain ⟨heap, -, hh⟩ := h.stands
  obtain ⟨heap', -, hh'⟩ := hs
  have hmem := hh.supplies.free f hf
  intro he
  cases hbc : b.layout.class? with
  | some i => exact hh'.object_ne_page (h.mem_objects hb hbc) (hE.shows f hmem) hnot he
  | none =>
    obtain ⟨e, hmem', hpage, hno⟩ := h.lent _ ⟨b, hb, hbc, rfl⟩
    obtain rfl := hh.supplies.circulates.page_inj hmem' hmem (hE.shows e hmem') (hpage.trans he)
    exact hno (.inl hf)

/-- Blocks have starts of their own if a new one has. -/
theorem unique_insert (h : Balances E p₀ V₀ s p V) (hfresh : ∀ b ∈ s.live, b.start ≠ x) :
    (insert ⟨x, l⟩ s.live : Set Lease).InjOn Lease.start := by
  refine (Set.injOn_insert fun hm => hfresh _ hm rfl).2 ⟨h.unique, ?_⟩
  rintro ⟨b, hb, he⟩
  exact hfresh b hb he

theorem fits_insert (h : Balances E p₀ V₀ s p V) (hfit : l.Fits) (hb : b ∈ (insert ⟨x, l⟩ s.live : Set Lease)) :
    b.layout.Fits := by
  rcases Set.mem_insert_iff.1 hb with rfl | hb
  · exact hfit
  · exact h.fits b hb

/-- The heap gives an object away. -/
theorem grant_object (hE : Heap.Session.Whole E) (h : Balances E p₀ V₀ s p V) (hfit : l.Fits) (hc : l.class? = some i)
    (hs : Ground.Shifts E s.ground g p q V (Function.update V i ws)) (hnew : x ∉ objectsOf V i)
    (hws : objects (classSize i) ws = insert x (objectsOf V i)) :
    Balances E p₀ V₀ ⟨g, insert ⟨x, l⟩ s.live⟩ q (Function.update V i ws) ∧ ∀ b ∈ s.live, b.start ≠ x := by
  have hself := (Heap.Session.objectsOf_update_self V i ws).trans hws
  have hx : x ∈ objectsOf (Function.update V i ws) i := by
    rw [hself]
    exact Set.mem_insert _ _
  have hfresh : ∀ b ∈ s.live, b.start ≠ x := fun b hb => h.fresh_object hE hs hnew hx hb
  have hframes : starts ⟨g, insert ⟨x, l⟩ s.live⟩ none = s.starts none :=
    starts_insert_of_ne (by rw [hc]; exact Option.some_ne_none i)
  refine ⟨{
    stands := hs.stands
    map := h.map.trans hs.map
    fits := fun b hb => h.fits_insert hfit hb
    unique := h.unique_insert hfresh
    held := fun j => ?_
    apart := fun j => ?_
    lent := fun y hy => by rw [hframes] at hy; exact h.lent_shift hs hy
    frames := fun f hf => by rw [hframes]; exact h.frames_shift hs hf }, hfresh⟩
  · by_cases hij : i = j
    · subst hij
      ext y
      rw [hself, h.held, Set.mem_insert_iff, Set.mem_union, Set.mem_union, mem_starts_insert, and_iff_right hc,
        or_left_comm, eq_comm]
    · have hne : Option.some i ≠ some j := fun he => hij (Option.some.inj he)
      rw [Heap.Session.objectsOf_update_of_ne V ws (Ne.symm hij), h.held, starts_insert_of_ne (by rwa [hc])]
  · rw [Set.disjoint_left]
    intro y hy hy'
    rcases mem_starts_insert.1 hy' with ⟨hj, rfl⟩ | hy'
    · obtain rfl := Option.some.inj (hc.symm.trans hj)
      rw [h.held] at hnew
      exact hnew (.inl hy)
    · exact Set.disjoint_left.1 (h.apart j) hy hy'

/-- The pool gives a frame away. -/
theorem grant_frame (hE : Heap.Session.Whole E) (h : Balances E p₀ V₀ s p V) (hfit : l.Fits) (hc : l.class? = none)
    (hf : p.Free f) (hs : Ground.Stands E q g V) (hmap : Pool.SameMap p q)
    (hfree : ∀ e, q.Free e ↔ p.Free e ∧ e ≠ f) :
    Balances E p₀ V₀ ⟨g, insert ⟨E.mapper.page f, l⟩ s.live⟩ q V ∧ ∀ b ∈ s.live, b.start ≠ E.mapper.page f := by
  obtain ⟨heap, -, hh⟩ := id h.stands
  have hmem := hh.supplies.free f hf
  have hinj : ∀ e ∈ E.frames, E.mapper.page e = E.mapper.page f → e = f := fun e he =>
    hh.supplies.circulates.page_inj he hmem (hE.shows e he)
  have howns : ∀ e ∈ E.frames, E.Owns q V e ↔ E.Owns p V e ∧ e ≠ f := fun e he => by
    constructor
    · rintro (hq | ⟨i, v, hv, hpage⟩)
      · exact ⟨.inl ((hfree e).1 hq).1, ((hfree e).1 hq).2⟩
      · exact ⟨.inr ⟨i, v, hv, hpage⟩, fun hef => hh.page_ne hf hv (hef ▸ hpage)⟩
    · rintro ⟨hp | hslab, hne⟩
      · exact .inl ((hfree e).2 ⟨hp, hne⟩)
      · exact .inr hslab
  have hnot : ¬E.Owns q V f := fun ho => ((howns f hmem).1 ho).2 rfl
  have hfresh : ∀ b ∈ s.live, b.start ≠ E.mapper.page f := fun b hb => h.fresh_page hE hf hs hnot hb
  have hobjects : ∀ i, starts ⟨g, insert ⟨E.mapper.page f, l⟩ s.live⟩ (some i) = s.starts (some i) := fun i =>
    starts_insert_of_ne (by rw [hc]; exact (Option.some_ne_none i).symm)
  refine ⟨{
    stands := hs
    map := h.map.trans hmap
    fits := fun b hb => h.fits_insert hfit hb
    unique := h.unique_insert hfresh
    held := fun i => by rw [hobjects, h.held]
    apart := fun i => by rw [hobjects]; exact h.apart i
    lent := fun y hy => ?_
    frames := fun e he => ?_ }, hfresh⟩
  · rcases mem_starts_insert.1 hy with ⟨-, rfl⟩ | hy
    · exact ⟨f, hmem, rfl, hnot⟩
    · obtain ⟨e, he, hpage, hno⟩ := h.lent y hy
      exact ⟨e, he, hpage, fun ho => hno ((howns e he).1 ho).1⟩
  · rw [mem_starts_insert, howns e he, ← h.frames e he, hc]
    by_cases hef : e = f
    · subst hef
      exact iff_of_true (.inr (.inl ⟨rfl, rfl⟩)) (.inl (.inl hf))
    · have hpage : E.mapper.page f ≠ E.mapper.page e := fun hpage => hef (hinj e he hpage.symm)
      simp only [hef, hpage, ne_eq, not_false_eq_true, and_true, and_false, false_or]

/-- The heap gets an object back. -/
theorem return_object (h : Balances E p₀ V₀ s p V) (hb : b ∈ s.live) (hc : b.layout.class? = some i)
    (hs : Ground.Shifts E s.ground g p q V (Function.update V i ws))
    (hws : objects (classSize i) ws = objectsOf V i \ {b.start}) :
    Balances E p₀ V₀ ⟨g, s.live \ {b}⟩ q (Function.update V i ws) := by
  have hframes : starts ⟨g, s.live \ {b}⟩ none = s.starts none :=
    starts_remove_of_ne h.unique hb (by rw [hc]; exact Option.some_ne_none i)
  refine {
    stands := hs.stands
    map := h.map.trans hs.map
    fits := fun c hcm => h.fits c hcm.1
    unique := h.unique.mono Set.sdiff_subset
    held := fun j => ?_
    apart := fun j => (h.apart j).mono_right fun y hy => ((mem_starts_remove h.unique hb).1 hy).1
    lent := fun y hy => by rw [hframes] at hy; exact h.lent_shift hs hy
    frames := fun f hf => by rw [hframes]; exact h.frames_shift hs hf }
  · by_cases hij : j = i
    · subst hij
      have hold : b.start ∉ objectsOf V₀ j := fun hm => Set.disjoint_left.1 (h.apart j) hm ⟨b, hb, hc, rfl⟩
      ext y
      rw [Heap.Session.objectsOf_update_self, hws, h.held, Set.mem_union, mem_starts_remove h.unique hb, Set.mem_sdiff,
        Set.mem_union, Set.mem_singleton_iff]
      constructor
      · rintro ⟨hy | hy, hyb⟩
        · exact .inl hy
        · exact .inr ⟨hy, hyb⟩
      · rintro (hy | ⟨hy, hyb⟩)
        · exact ⟨.inl hy, fun he => hold (he ▸ hy)⟩
        · exact ⟨.inr hy, hyb⟩
    · have hji : b.layout.class? ≠ some j := fun he => hij (Option.some.inj (he.symm.trans hc))
      rw [Heap.Session.objectsOf_update_of_ne V ws hij, h.held, starts_remove_of_ne h.unique hb hji]

/-- The pool gets a frame back. -/
theorem return_frame (h : Balances E p₀ V₀ s p V) (hb : b ∈ s.live) (hc : b.layout.class? = none) (hf : f ∈ E.frames)
    (hshow : E.mapper.Shows f) (hpage : E.mapper.page f = b.start) (hs : Ground.Stands E q g V)
    (hmap : Pool.SameMap p q) (hfree : ∀ e, q.Free e ↔ p.Free e ∨ e = f) : Balances E p₀ V₀ ⟨g, s.live \ {b}⟩ q V := by
  obtain ⟨heap, -, hh⟩ := id h.stands
  have hinj : ∀ e ∈ E.frames, E.mapper.page e = b.start → e = f := fun e he hpe =>
    (hh.supplies.circulates.page_inj hf he hshow (hpage.trans hpe.symm)).symm
  have howns : ∀ e, E.Owns q V e ↔ E.Owns p V e ∨ e = f := fun e => by
    rw [Estate.Owns, hfree, Estate.Owns, or_assoc, or_comm (a := e = f), ← or_assoc]
  have hobjects : ∀ i, starts ⟨g, s.live \ {b}⟩ (some i) = s.starts (some i) := fun i =>
    starts_remove_of_ne h.unique hb (by rw [hc]; exact (Option.some_ne_none i).symm)
  refine {
    stands := hs
    map := h.map.trans hmap
    fits := fun c hcm => h.fits c hcm.1
    unique := h.unique.mono Set.sdiff_subset
    held := fun i => by rw [hobjects, h.held]
    apart := fun i => by rw [hobjects]; exact h.apart i
    lent := fun y hy => ?_
    frames := fun e he => ?_ }
  · obtain ⟨hy, hne⟩ := (mem_starts_remove h.unique hb).1 hy
    obtain ⟨e, he, hpe, hnot⟩ := h.lent y hy
    refine ⟨e, he, hpe, fun ho => ((howns e).1 ho).elim hnot ?_⟩
    rintro rfl
    exact hne (hpe.symm.trans hpage)
  · rw [mem_starts_remove h.unique hb, howns, ← h.frames e he]
    by_cases hef : e = f
    · subst hef
      exact iff_of_true (.inl (.inr rfl)) (.inr ⟨b, hb, hc, hpage.symm⟩)
    · have hne : E.mapper.page e ≠ b.start := fun hpe => hef (hinj e he hpe)
      simp only [hef, hne, or_false, ne_eq, not_false_eq_true, and_true]

/-- Neither heap nor pool gives anything away or gets it back. -/
theorem shift (h : Balances E p₀ V₀ s p V) (hs : Ground.Shifts E s.ground g p q V W)
    (hobj : ∀ i, objectsOf W i = objectsOf V i) : Balances E p₀ V₀ ⟨g, s.live⟩ q W where
  stands := hs.stands
  map := h.map.trans hs.map
  fits := h.fits
  unique := h.unique
  held := fun i => (hobj i).trans (h.held i)
  apart := h.apart
  lent := fun _ hy => h.lent_shift hs hy
  frames := fun _ hf => h.frames_shift hs hf

/-- A client writes into its block. -/
theorem write {a : Ptr} {bytes : List UInt8} (hE : Heap.Session.Whole E) (h : Balances E p₀ V₀ s p V) (hb : b ∈ s.live)
    (hsub : block a bytes.length ⊆ b.bytes) : Balances E p₀ V₀ (s.step (.write a bytes)) p V := by
  obtain ⟨heap, hheap, hh⟩ := id h.stands
  have hd : Disjoint (Heap.guarded V ∪ E.bitmap) b.bytes := by
    unfold Lease.bytes
    cases hbc : b.layout.class? with
    | some i =>
      rw [Block.room_some hbc]
      exact hh.disjoint_guarded (h.mem_objects hb hbc)
    | none =>
      obtain ⟨f, hf, hpage, hnot⟩ := h.lent _ ⟨b, hb, hbc, rfl⟩
      rw [Block.room_none hbc, ← hpage]
      refine Set.disjoint_union_left.2 ⟨Set.disjoint_left.2 ?_, ?_⟩
      · rintro a ⟨i, ha⟩ hpa
        obtain ⟨v, hv, hav⟩ := Slab.guarded_subset (hh.chain i) ha
        have hne : v.page ≠ E.mapper.page f := fun he => hnot (.inr ⟨i, v, hv, he⟩)
        exact Set.disjoint_left.1 (Memory.disjoint_pageAt ((hh.chain i).aligned hv) (hE.shows f hf).1 hne) hav hpa
      · exact (hh.supplies.circulates.apart f hf (hE.shows f hf)).symm
  exact { h with
    stands := ⟨heap, hheap, hh.write (Memory.alters_setBytes _ a bytes) (hd.mono_right hsub)⟩ }

end Balances

end Session

end Allocator

end Keel
