import Keel.Ground
import Keel.Proofs.Frame.Creation
import Keel.Proofs.Heap.Operations
import Keel.Proofs.Steps

/-!
# Memory services in order

`Ground.Stands E p g V` says that the memory services `g` are in order: a pool `p`, and over it a heap with the slabs `V`.
`Moves` says what may become of them: they stay in order, no frame comes to the pool or the heap that was neither's, and
nothing is written but pages of the estate and, if the pool is asked for something, its bitmap. `Leads R` is the same for
all services in order, with the requests to the pool taken from `R`; it is a preorder, so what is made of such steps is
one (`steps_allocate`, `steps_free`, `steps_shrink`, `steps_reserve`).
-/

namespace Keel

open Keel.Memory (Alters block pageAt)
open Keel.Frame (Opens Pool Request)
open Keel.Slab (Estate View)
open Keel.Action (Steps)

attribute [local irreducible] Memory.word

variable {rs : List Region} {E : Estate} {p : Pool} {qs qs' : List Request} {V W U : SizeClass → List View}
  {R R' : Set Request} {f : Nat}

/-- The bytes of the frames that may become slabs. -/
def Slab.Estate.reach (E : Estate) : Set Ptr := {a | ∃ f ∈ E.frames, a ∈ pageAt (E.mapper.page f)}

theorem Slab.Estate.page_subset (hf : f ∈ E.frames) : pageAt (E.mapper.page f) ⊆ E.reach := fun _ ha => ⟨f, hf, ha⟩

/-- Whether a frame is free, or the page of a slab. -/
def Slab.Estate.Owns (E : Estate) (p : Pool) (V : SizeClass → List View) (f : Nat) : Prop :=
  p.Free f ∨ ∃ i, ∃ v ∈ V i, v.page = E.mapper.page f

namespace Heap

variable {s t : HeapSite}

/-- A page of a slab is one of the estate. -/
theorem Stands.page_subset (h : Stands E p s V) {i : SizeClass} {v : View} (hv : v ∈ V i) : pageAt v.page ⊆ E.reach := by
  obtain ⟨f, hf, -, -, hpage⟩ := (h.caches i).backed v hv
  rw [← hpage]
  exact E.page_subset hf

theorem Turns.touched_subset (h : Stands E p s V) (ht : Turns E s t p qs V W) : touched V W ⊆ E.reach := by
  rintro a ⟨⟨i, v, hv, ha⟩, -⟩
  rcases List.mem_append.1 hv with hv | hv
  · exact h.page_subset hv ha
  · exact ht.stands.page_subset hv ha

/-- Requests to the pool that free no page of a slab leave a heap in order. -/
theorem Stands.onPool {u : Arena} (h : Stands E p s V) (hu : s.arena.Becomes u (p.after qs) E.bitmap ∅)
    (hfree : ∀ f, (p.after qs).Free f → f ∈ E.frames ∧ ∀ i, ∀ v ∈ V i, v.page ≠ E.mapper.page f) :
    Stands E (p.after qs) ⟨u, s.heap⟩ V where
  mapper := h.mapper
  caches := fun i => (h.caches i).onPool hu fun f hf => ⟨(hfree f hf).1, (hfree f hf).2 i⟩
  apart := h.apart

/-- A free frame is the page of no slab. -/
theorem Stands.page_ne (h : Stands E p s V) (hf : p.Free f) {i : SizeClass} {v : View} (hv : v ∈ V i) :
    v.page ≠ E.mapper.page f := (h.caches i).page_ne hf hv

end Heap

namespace Ground

variable {α : Type} {g g' g'' : Ground}

/-! ## Starting -/

@[simp] theorem ends_inArena {x : Action Arena α} {Q : Checked Fault α → Ground → Prop} :
    (inArena x).Ends g Q ↔ x.Ends g.arena fun r a => Q r { g with arena := a } := Iff.rfl

theorem ends_onHeap {x : Action HeapSite α} {heap : Heap} {Q : Checked Fault α → Ground → Prop}
    (h : g.heap = some heap) :
    (onHeap x).Ends g Q ↔ x.Ends ⟨g.arena, heap⟩ fun r t => Q r ⟨t.arena, some t.heap⟩ := by
  unfold Action.Ends onHeap
  rw [h]

/-- A pool that is opened over the map is kept at its home, and only the bitmap is written; where none can be opened,
every byte is as it was. -/
theorem createPool_ends {a : Arena} {start : Ptr} {words : Nat} (hw : 8 * words ≤ 2 ^ 64) :
    (createPool rs (.resident start words)).Ends a fun r t => (∃ st p, r = .ok st ∧ p.Sound rs ∧
      (∀ f, p.Free f ↔ p.Usable f ∧ f ≠ 0) ∧ a.Becomes t p (block start (8 * words)) ∅ ∧
      t.place = some (some (start, words))) ∨
      ¬Opens rs words ∧ ∃ f, r = .error (.fault f) ∧ a.Alike t := by
  obtain ⟨r, b, log, ht, hc⟩ := (Pool.create_ends rs ((Home.resident start words).load a.memory)).trace
  have hsize : ((Home.resident start words).load a.memory).words.size = words := by simp [Home.load, Memory.wordsAt]
  unfold Action.Ends createPool
  rw [ht]
  rcases hc with ⟨-, l, rfl, hfresh, -⟩ | ⟨hopens, rfl, f, rfl⟩
  · refine .inl ⟨_, l.withBitmap b, rfl, hfresh.sound, hfresh.free, ⟨?_, ?_, rfl⟩, rfl⟩
    · exact ⟨_, rfl, Home.fits_store.2 hw, Home.bytes_store, congrArg _ (Home.load_store hw hfresh.size)⟩
    · exact (Home.alters_store hfresh.size).mono Set.subset_union_right
  · rw [hsize] at hopens
    exact .inr ⟨hopens, f, rfl, Home.alters_store_self (h := .resident start words), rfl, rfl⟩

/-- Memory services that differ in nothing that is read of them. -/
structure Alike (g g' : Ground) : Prop where
  arena : g.arena.Alike g'.arena
  heap : g'.heap = g.heap

theorem Alike.refl (g : Ground) : g.Alike g := ⟨.refl _, rfl⟩

/-- The pool is started once. -/
theorem startPool_ends {start : Ptr} {words : Nat} (hw : 8 * words ≤ 2 ^ 64) :
    (startPool rs (.resident start words)).Ends g fun r g' => (∃ st p, r = .ok st ∧ p.Sound rs ∧
      (∀ f, p.Free f ↔ p.Usable f ∧ f ≠ 0) ∧ g.arena.Becomes g'.arena p (block start (8 * words)) ∅ ∧
      g'.arena.place = some (some (start, words)) ∧ g' = { g with arena := g'.arena }) ∨
      (g.arena.pool ≠ none ∨ ¬Opens rs words) ∧ ∃ f, r = .error (.fault f) ∧ g.Alike g' := by
  unfold startPool
  rw [Action.ends_bind, Action.ends_get, Action.goes_ok]
  dsimp only
  rw [Action.ends_ite]
  split
  · rename_i hpool
    refine .inr ⟨.inl fun hnone => ?_, _, rfl, .refl g⟩
    rw [poolStarted, hnone] at hpool
    cases hpool
  · rw [Action.ends_bind, ends_inArena]
    refine (createPool_ends hw).mono fun r t ht => ?_
    rcases ht with ⟨st, p, rfl, hs, hf, hb, hplace⟩ | ⟨hopens, f, rfl, ha⟩
    · exact .inl ⟨st, p, rfl, hs, hf, hb, hplace, rfl⟩
    · exact .inr ⟨.inr hopens, f, rfl, ha, rfl⟩

/-- The heap is started empty, once, and after the pool. -/
theorem startHeap_ends (mapper : Mapper) : (startHeap mapper).Ends g fun r g' =>
    (r = .ok () ∧ g.arena.pool ≠ none ∧ g.heap = none ∧ g' = { g with heap := some (Heap.empty mapper) }) ∨
      ((g.arena.pool = none ∨ g.heap ≠ none) ∧ g' = g ∧ ∃ f, f ≠ .corrupted ∧ r = .error (.fault f)) := by
  unfold startHeap
  rw [Action.ends_bind, Action.ends_get, Action.goes_ok]
  dsimp only
  rw [Action.ends_ite]
  split
  · rename_i hpool
    exact .inr ⟨.inl (by simpa [poolStarted] using hpool), rfl, _, by decide, rfl⟩
  · rename_i hpool
    rw [Action.ends_ite]
    split
    · rename_i hheap
      refine .inr ⟨.inr fun hnone => ?_, rfl, _, by decide, rfl⟩
      rw [heapStarted, hnone] at hheap
      cases hheap
    · rename_i hheap
      refine .inl ⟨rfl, fun hnone => hpool ?_, by simpa [heapStarted] using hheap, rfl⟩
      rw [poolStarted, hnone]
      rfl

/-! ## Services in order -/

/-- The pool `p` and a heap over it are in order. -/
def Stands (E : Estate) (p : Pool) (g : Ground) (V : SizeClass → List View) : Prop :=
  ∃ h, g.heap = some h ∧ Heap.Stands E p ⟨g.arena, h⟩ V

/-- What may become of services in order that ask `qs` of the pool. -/
structure Moves (E : Estate) (g g' : Ground) (p : Pool) (qs : List Request) (V W : SizeClass → List View) : Prop where
  stands : Stands E (p.after qs) g' W
  owns : ∀ f ∈ E.frames, E.Owns (p.after qs) W f → E.Owns p V f
  alters : Alters (E.reach ∪ E.asked qs) g.arena.memory g'.arena.memory

theorem Stands.moves (h : Stands E p g V) : Moves E g g p [] V V := ⟨h, fun _ _ hf => hf, Alters.refl _ _⟩

theorem Moves.trans (h : Moves E g g' p qs V W) (h' : Moves E g' g'' (p.after qs) qs' W U) :
    Moves E g g'' p (qs ++ qs') V U := by
  refine ⟨?_, fun f hf => ?_, ?_⟩
  · rw [Pool.after_append]
    exact h'.stands
  · rw [Pool.after_append]
    exact fun ho => h.owns f hf (h'.owns f hf ho)
  · rw [Estate.asked_append]
    exact (h.alters.mono (Set.union_subset_union_right _ Set.subset_union_left)).trans
      (h'.alters.mono (Set.union_subset_union_right _ Set.subset_union_right))

/-- What a heap does, the services do. -/
theorem moves_of_turns {h h' : Heap} {a a' : Arena} (hs : Heap.Stands E p ⟨a, h⟩ V)
    (ht : Heap.Turns E ⟨a, h⟩ ⟨a', h'⟩ p qs V W) : Moves E ⟨a, some h⟩ ⟨a', some h'⟩ p qs V W where
  stands := ⟨h', rfl, ht.stands⟩
  owns := fun f hf => (ht.frames f hf).1
  alters := ht.alters.mono (Set.union_subset_union_left _ (ht.touched_subset hs))

/-- Requests that free no frame are made of the pool. -/
theorem moves_of_becomes {u : Arena} (h : Stands E p g V) (hB : E.bitmap ⊆ E.asked qs)
    (hu : g.arena.Becomes u (p.after qs) E.bitmap ∅) (hfree : ∀ f, (p.after qs).Free f → p.Free f) :
    Moves E g { g with arena := u } p qs V V := by
  obtain ⟨k, hk, h⟩ := h
  refine ⟨⟨k, hk, h.onPool hu fun f hf => ?_⟩, fun f _ => Or.imp_left (hfree f), ?_⟩
  · exact ⟨h.supplies.free f (hfree f hf), fun i v hv => h.page_ne (hfree f hf) hv⟩
  · exact hu.alters.mono (Set.union_subset (Set.empty_subset _) (hB.trans Set.subset_union_right))

/-! ## Steps -/

/-- Services in order become services in order, and of the pool only requests of `R` are made. -/
def Leads (E : Estate) (R : Set Request) (g g' : Ground) : Prop :=
  ∀ p V, Stands E p g V → ∃ qs W, (∀ q ∈ qs, q ∈ R) ∧ Moves E g g' p qs V W

instance : IsPreorder Ground (Leads E R) where
  refl := fun _ _ V h => ⟨[], V, fun _ => nofun, h.moves⟩
  trans := fun _ _ _ h h' p V hV => by
    obtain ⟨qs, W, hqs, hm⟩ := h p V hV
    obtain ⟨qs', U, hqs', hm'⟩ := h' _ W hm.stands
    exact ⟨qs ++ qs', U, fun q hq => (List.mem_append.1 hq).elim (hqs q) (hqs' q), hm.trans hm'⟩

theorem Leads.mono (h : Leads E R g g') (hR : R ⊆ R') : Leads E R' g g' := fun p V hV => by
  obtain ⟨qs, W, hqs, hm⟩ := h p V hV
  exact ⟨qs, W, fun q hq => hR (hqs q hq), hm⟩

/-- A step of the heap. -/
theorem steps_onHeap {x : Action HeapSite α} (hx : ∀ s p V, Heap.Stands E p s V → x.Ends s fun _ t =>
    ∃ qs W, (∀ q ∈ qs, q ∈ R) ∧ Heap.Turns E s t p qs V W) : Steps (Leads E R) (onHeap x) := by
  intro g p V hV
  obtain ⟨a, _⟩ := g
  obtain ⟨h, rfl, hh⟩ := hV
  obtain ⟨qs, W, hqs, ht⟩ := hx _ p V hh
  exact ⟨qs, W, hqs, moves_of_turns hh ht⟩

theorem steps_allocate (size : Nat) : Steps (Leads E Set.univ) (allocate size) := by
  refine steps_onHeap fun s p V h => (Heap.allocate_ends h size).mono ?_
  rintro r t (⟨e, -, -, rfl⟩ | ⟨i, -, qs, ws, ht, -⟩)
  · exact ⟨[], V, fun _ => nofun, h.turns⟩
  · exact ⟨qs, _, fun _ _ => trivial, ht⟩

/-- Nothing is asked of the pool when an object comes back. -/
theorem steps_free (x : Ptr) : Steps (Leads E ∅) (free x) := by
  refine steps_onHeap fun s p V h => (Heap.free_ends h x).mono ?_
  rintro r t (⟨i, -, -, ws, ht, -⟩ | ⟨-, rfl, -⟩)
  · exact ⟨[], _, fun _ => nofun, ht⟩
  · exact ⟨[], V, fun _ => nofun, h.turns⟩

theorem steps_shrink : Steps (Leads E Set.univ) (onHeap Heap.shrink) := by
  refine steps_onHeap fun s p V h => (Heap.shrink_ends h).mono ?_
  intro r t hends
  obtain ⟨-, qs, ht, -⟩ := hends
  exact ⟨qs, _, fun _ _ => trivial, ht⟩

/-- Taking a range out of use leaves the slabs as they are. -/
theorem reserve_ends (h : Stands E p g V) (base : PhysAddr) (length : UInt64) :
    (onPool (Pool.reserve base length)).Ends g fun r g' =>
      r = (Pool.reserve base length p).result ∧ Moves E g g' p [.reserve base length] V V := by
  obtain ⟨_, -, hh⟩ := id h
  have hs := hh.supplies.sound
  obtain ⟨hr, hu⟩ := Arena.reserve_ends hh.supplies.keeps hs base length ∅
  exact ⟨hr, moves_of_becomes h (E.asked_cons _ _).ge hu fun _ hf => ((hs.free_reserve base length).1 hf).1⟩

/-- No frame becomes free where a range is taken out of use. -/
theorem steps_reserve (base : PhysAddr) (length : UInt64) :
    Steps (Leads E {.reserve base length}) (onPool (Pool.reserve base length)) := by
  intro g p V hV
  exact ⟨[.reserve base length], V, fun _ => id ∘ List.mem_singleton.1, (reserve_ends hV base length).2⟩

end Ground

end Keel
