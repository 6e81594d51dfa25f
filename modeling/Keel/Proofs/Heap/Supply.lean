import Keel.Heap.Allocator
import Keel.Proofs.Ground

/-!
# What a heap and its pool supply

Blocks come out of two stores over one pool. An object is left as long as a slab of its class has a free cell or a
frame is free, and a frame as long as one is free; then it is handed out, and else the answer is `tooMany`, or a halt
where the pool can count no further failed request (`allocate_exact`, `takeFrame_ends`). A frame that was taken can be
given back (`giveFrame_ends`). `Ground.Shifts` says what the heap does to the frames of the estate: it moves them
between the free ones and its slabs, and each stays one or the other.
-/

namespace Keel

open Keel.Frame (Pool Request)
open Keel.Memory (block pageAt)
open Keel.Slab (Estate View objects)

attribute [local irreducible] Memory.word

variable {E : Estate} {p q : Pool} {V W : SizeClass → List View} {i : SizeClass} {size f : Nat} {ws : List View}

/-- A block begins with its start. -/
theorem Memory.start_mem_block {a : Ptr} {n : Nat} (h : 0 < n) : a ∈ block a n := ⟨0, h, (UInt64.add_zero a).symm⟩

/-- A scan finds nothing exactly if no frame is free. -/
theorem Frame.Pool.Sound.scan_none {rs : List Region} (h : p.Sound rs) : p.scan = none ↔ ∀ f, ¬p.Free f := by
  rw [h.scan_free, ← not_exists, ← h.freeFrames_pos, Nat.not_lt, Nat.le_zero]

/-- Pools of one map with the same free frames have counted as many. -/
theorem Frame.Pool.SameMap.freeFrames_eq {rs : List Region} (h : Pool.SameMap p q) (hp : p.Sound rs) (hq : q.Sound rs)
    (hfree : ∀ f, q.Free f ↔ p.Free f) : q.freeFrames = p.freeFrames := by
  rw [hp.free, hq.free, h.frames]
  congr 1
  ext i
  have hi := hfree (p.base + i)
  rw [Pool.free_iff_mem, Pool.free_iff_mem, h.base, h.frames] at hi
  simpa using hi

/-! ## Objects -/

/-- Without a free cell and a free frame there is no cell, and the pool counts that or halts. -/
theorem Slab.allocate_refused {c : Nat} {s : Slab.CacheSite} {vs : List View} (h : Slab.Stands E p c s vs)
    (hfull : ∀ v ∈ vs, v.free = []) (hscan : p.scan = none) : (Slab.Cache.allocate E.mapper).Ends s fun r _ =>
      r = .error (.fault .tooMany) ∨ r = .error (.halt .addOverflow) ∧ p.Saturated := by
  refine (Slab.allocate_none h hfull hscan).mono ?_
  intro r t hends
  rcases hends.1 with ⟨-, hr⟩ | ⟨hge, hr⟩
  · exact .inl hr
  · exact .inr ⟨hr, hge⟩

namespace Heap

variable {s : HeapSite}

/-- Whether an object of a class is left. -/
def Supplied (p : Pool) (V : SizeClass → List View) (i : SizeClass) : Prop := (∃ v ∈ V i, v.free ≠ []) ∨ ∃ f, p.Free f

/-- A request is left to the cache of its class. -/
theorem allocate_route {Q : Checked Fault Ptr → HeapSite → Prop} (h : Stands E p s V) (hi : classFor size = .ok i)
    (hQ : (Slab.Cache.allocate E.mapper).Ends ((cachePart i).get s) fun r c => Q r ((cachePart i).set s c)) :
    (Heap.allocate size).Ends s Q := by
  unfold Heap.allocate
  rw [Action.ends_bind, Action.ends_lift, hi, Action.goes_ok, Action.ends_bind, Action.ends_get, Action.goes_ok,
    h.mapper]
  exact ends_onCache.2 hQ

/-- An object that is left is handed out. -/
theorem allocate_supplied (hshow : ∀ f ∈ E.frames, E.mapper.Shows f) (h : Stands E p s V)
    (hi : classFor size = .ok i) (hs : Supplied p V i) : (Heap.allocate size).Ends s fun r _ => ∃ x, r = .ok x := by
  have hc := h.caches i
  refine allocate_route h hi ?_
  rcases Slab.full_or_first (V i) with hfull | ⟨xs, page, k, ks, ys, hV, hxs⟩
  · obtain ⟨f, hf⟩ := hs.resolve_left fun hv => by
      obtain ⟨v, hv, hne⟩ := hv
      exact hne (hfull v hv)
    obtain ⟨k, hk⟩ : ∃ k, p.scan = some k :=
      Option.ne_none_iff_exists'.1 fun hnone => h.supplies.sound.scan_none.1 hnone f hf
    have hfree := h.supplies.free _ (Pool.free_of_scan hk).1
    exact (Slab.allocate_fresh hc hfull hk (hshow _ hfree)).mono fun r c hr => ⟨_, hr.1⟩
  · rw [hV] at hc
    exact (Slab.allocate_first hc hxs).mono fun r c hr => ⟨_, hr.1⟩

/-- One that is not left is refused. -/
theorem allocate_refused (h : Stands E p s V) (hi : classFor size = .ok i) (hs : ¬Supplied p V i) :
    (Heap.allocate size).Ends s fun r _ =>
      r = .error (.fault .tooMany) ∨ r = .error (.halt .addOverflow) ∧ p.Saturated := by
  have hfull : ∀ v ∈ V i, v.free = [] := fun v hv => by
    by_contra hne
    exact hs (.inl ⟨v, hv, hne⟩)
  have hnone : p.scan = none := h.supplies.sound.scan_none.2 fun f hf => hs (.inr ⟨f, hf⟩)
  exact allocate_route h hi (Slab.allocate_refused (h.caches i) hfull hnone)

/-- **A request of a class** adds one object if one is left, and none otherwise. -/
theorem allocate_exact (hshow : ∀ f ∈ E.frames, E.mapper.Shows f) (h : Stands E p s V)
    (hi : classFor size = .ok i) : (Heap.allocate size).Ends s fun r t => ∃ qs ws,
      Turns E s t p qs V (Function.update V i ws) ∧
      ((Supplied p V i ∧ ∃ x, r = .ok x ∧ x ∉ objectsOf V i ∧ objects (classSize i) ws = insert x (objectsOf V i)) ∨
        (¬Supplied p V i ∧ ws = V i ∧
          (r = .error (.fault .tooMany) ∨ r = .error (.halt .addOverflow) ∧ p.Saturated))) := by
  by_cases hs : Supplied p V i
  · refine ((allocate_ends h size).and (allocate_supplied hshow h hi hs)).mono ?_
    rintro r t ⟨⟨e, he, -⟩ | ⟨j, hj, qs, ws, hturn, hr⟩, x, rfl⟩
    · cases hi.symm.trans he
    · obtain rfl := Except.ok.inj (hi.symm.trans hj)
      rcases hr with ⟨y, hy, hnew, hws⟩ | ⟨-, hr | hr | ⟨hr, -⟩⟩
      · exact ⟨qs, ws, hturn, .inl ⟨hs, y, hy, hnew, hws⟩⟩
      · cases hr
      · cases hr
      · cases hr
  · refine ((allocate_ends h size).and (allocate_refused h hi hs)).mono ?_
    rintro r t ⟨⟨e, he, -⟩ | ⟨j, hj, qs, ws, hturn, hr⟩, hno⟩
    · cases hi.symm.trans he
    · obtain rfl := Except.ok.inj (hi.symm.trans hj)
      rcases hr with ⟨y, rfl, -⟩ | ⟨hws, -⟩
      · rcases hno with hno | ⟨hno, -⟩ <;> cases hno
      · exact ⟨qs, ws, hturn, .inr ⟨hs, hws, hno⟩⟩

/-- A slab with an object stays one as long as the object does. -/
theorem slab_of_objects {t : HeapSite} {v : View} (h : Stands E p s V) (h' : Stands E q t W)
    (hobj : objectsOf V i ⊆ objectsOf W i) (hv : v ∈ V i) (hbusy : v.idle (classSize i) = false) :
    ∃ w ∈ W i, w.page = v.page := by
  have hc := cellSize_classSize i
  obtain ⟨k, hk, hx⟩ := h.exists_object hv hbusy
  obtain ⟨w, hw, -, -, -, -, hpage, -⟩ := (h'.chain i).of_objects hc (hobj hx)
  rw [Slab.containing_cellAt ((h.chain i).aligned hv) hk hc] at hpage
  exact ⟨w, hw, hpage.symm⟩

/-- A slab that gets a cell back stays a slab. -/
theorem slab_stays {t : HeapSite} {v : View} (h : Stands E p s V) (ht : Turns E s t p [] V (Function.update V i ws))
    (hv : v ∈ V i) : ∃ w ∈ ws, w.page = v.page := by
  obtain ⟨f, hf, -, hnot, hpage⟩ := (h.caches i).backed v hv
  rcases (ht.frames f hf).2 (.inr ⟨i, v, hv, hpage.symm⟩) with hfree | ⟨j, w, hw, hwp⟩
  · exact absurd hfree hnot
  · have hwv : w.page = v.page := hwp.trans hpage
    by_cases hij : j = i
    · subst hij
      rw [Function.update_self] at hw
      exact ⟨w, hw, hwv⟩
    · rw [Function.update_of_ne hij] at hw
      exact absurd (h.class_eq hw hv hwv) hij

/-- An object is apart from a frame that is neither free nor a slab. -/
theorem Stands.disjoint_frame {x : Ptr} (h : Stands E p s V) (hx : x ∈ objectsOf V i) (hshow : E.mapper.Shows f)
    (hnot : ¬E.Owns p V f) : Disjoint (block x (classSize i)) (pageAt (E.mapper.page f)) := by
  obtain ⟨v, hv, -, -, -, -, -, hsub⟩ := (h.chain i).of_objects (cellSize_classSize i) hx
  have hne : v.page ≠ E.mapper.page f := fun he => hnot (.inr ⟨i, v, hv, he⟩)
  exact (Memory.disjoint_pageAt ((h.chain i).aligned hv) hshow.1 hne).mono_left hsub

/-- An object is no such frame. -/
theorem Stands.object_ne_page {x : Ptr} (h : Stands E p s V) (hx : x ∈ objectsOf V i) (hshow : E.mapper.Shows f)
    (hnot : ¬E.Owns p V f) : x ≠ E.mapper.page f := by
  intro he
  have hd := h.disjoint_frame hx hshow hnot
  have hpos := (cellSize_classSize i).min
  rw [← he] at hd
  exact Set.disjoint_left.1 hd (Memory.start_mem_block (by omega)) (Memory.start_mem_block (by decide))

end Heap

/-! ## The frames of the estate -/

namespace Ground

variable {g g' : Ground}

/-- What the heap has done to services in order: a frame is still free or a slab, if it was one or the other. -/
structure Shifts (E : Estate) (g g' : Ground) (p q : Pool) (V W : SizeClass → List View) : Prop where
  stands : Stands E q g' W
  map : Pool.SameMap p q
  owns : ∀ f ∈ E.frames, E.Owns q W f ↔ E.Owns p V f

/-- What a heap does, seen from the frames. -/
theorem shifts_of_turns {a a' : Arena} {h h' : Heap} {qs : List Request} (hs : Heap.Stands E p ⟨a, h⟩ V)
    (ht : Heap.Turns E ⟨a, h⟩ ⟨a', h'⟩ p qs V W) : Shifts E ⟨a, some h⟩ ⟨a', some h'⟩ p (p.after qs) V W where
  stands := ⟨h', rfl, ht.stands⟩
  map := hs.supplies.sound.sameMap_after qs
  owns := ht.frames

/-- The heap of services in order knows their mapper. -/
theorem heapMapper_ends (h : Stands E p g V) : heapMapper.Ends g fun r t => r = .ok E.mapper ∧ t = g := by
  obtain ⟨heap, hheap, hh⟩ := h
  obtain ⟨a, _⟩ := g
  obtain rfl := hheap
  exact ⟨congrArg Except.ok hh.mapper, rfl⟩

/-- A request to the pool that leaves the pages of slabs taken leaves services in order. -/
theorem Stands.request {u : Arena} {qs : List Request} (h : Stands E p g V)
    (hu : g.arena.Becomes u (p.after qs) E.bitmap ∅)
    (hfree : ∀ f, (p.after qs).Free f → f ∈ E.frames ∧ ∀ i, ∀ v ∈ V i, v.page ≠ E.mapper.page f) :
    Stands E (p.after qs) { g with arena := u } V := by
  obtain ⟨heap, hheap, hh⟩ := h
  exact ⟨heap, hheap, hh.onPool hu hfree⟩

end Ground

namespace Allocator

open Keel.Ground (Stands)

variable {g : Ground}

/-- **A frame** is taken if one is free: it is no longer free, and the heap stays as it is. -/
theorem takeFrame_ends (hshow : ∀ f ∈ E.frames, E.mapper.Shows f) (h : Stands E p g V) :
    takeFrame.Ends g fun r g' => g'.heap = g.heap ∧ Stands E (p.after [.alloc]) g' V ∧
      ((∃ f, p.Free f ∧ r = .ok (E.mapper.page f) ∧ ∀ e, (p.after [.alloc]).Free e ↔ p.Free e ∧ e ≠ f) ∨
        ((∀ f, ¬p.Free f) ∧ (∀ e, (p.after [.alloc]).Free e ↔ p.Free e) ∧
          (r = .error (.fault .tooMany) ∨ r = .error (.halt .addOverflow) ∧ p.Saturated))) := by
  obtain ⟨heap, -, hh⟩ := id h
  have hsup := hh.supplies
  have hstays : ∀ e, (p.after [.alloc]).Free e → e ∈ E.frames ∧ ∀ i, ∀ v ∈ V i, v.page ≠ E.mapper.page e := by
    intro e he
    have he := hsup.sound.free_of_alloc he
    exact ⟨hsup.free e he, fun i v hv => hh.page_ne he hv⟩
  unfold takeFrame
  rw [Action.ends_bind, Ground.ends_inArena]
  refine (Arena.allocFrame_ends hsup.keeps hsup.sound ∅).mono ?_
  intro r a hends
  obtain ⟨rfl, ha⟩ := hends
  have hstands := h.request ha hstays
  cases hscan : p.scan with
  | none =>
    have hnone := hsup.sound.scan_none.1 hscan
    have hsame := (hsup.sound.free_alloc_none hscan).2
    rcases Pool.alloc_of_scan_none hsup.sound hscan with ⟨-, hr, -⟩ | ⟨hge, hr, -⟩
    · rw [hr]
      exact ⟨rfl, hstands, .inr ⟨hnone, hsame, .inl rfl⟩⟩
    · rw [hr]
      exact ⟨rfl, hstands, .inr ⟨hnone, hsame, .inr ⟨rfl, hge⟩⟩⟩
  | some k =>
    obtain ⟨hok, hafter⟩ := hsup.sound.free_alloc hscan
    have hf := (Pool.free_of_scan hscan).1
    obtain ⟨-, hne⟩ := hshow _ (hsup.free _ hf)
    have hnull : (E.mapper.toVirt ⟨Align.frameStart (p.base + k)⟩).isNull = false := by
      rw [Address.isNull, beq_eq_false_iff_ne]
      exact hne
    rw [hok, Action.goes_ok]
    refine (Ground.heapMapper_ends hstands).bind ?_
    intro r t hends
    obtain ⟨rfl, rfl⟩ := hends
    rw [Action.goes_ok, Action.ends_ite, hnull, if_neg Bool.false_ne_true]
    exact ⟨rfl, hstands, .inl ⟨_, hf, rfl, hafter⟩⟩

/-- **A frame that was taken** is given back: it is free again, and the heap stays as it is. -/
theorem giveFrame_ends (h : Stands E p g V) (hf : f ∈ E.frames) (hshow : E.mapper.Shows f) (hnot : ¬E.Owns p V f) :
    (giveFrame (E.mapper.page f)).Ends g fun r g' => r = .ok () ∧ g'.heap = g.heap ∧
      Stands E (p.after [.release ⟨Align.frameStart f⟩]) g' V ∧
      ∀ e, (p.after [.release ⟨Align.frameStart f⟩]).Free e ↔ p.Free e ∨ e = f := by
  obtain ⟨heap, -, hh⟩ := id h
  have hsup := hh.supplies
  obtain ⟨h0, hu⟩ := hsup.usable f hf
  obtain ⟨hr, hafter⟩ := hsup.sound.free_release hu h0 fun hfree => hnot (.inl hfree)
  have hstays : ∀ e, (p.after [.release ⟨Align.frameStart f⟩]).Free e →
      e ∈ E.frames ∧ ∀ i, ∀ v ∈ V i, v.page ≠ E.mapper.page e := fun e he => by
    rcases (hafter e).1 he with he | rfl
    · exact ⟨hsup.free e he, fun i v hv => hh.page_ne he hv⟩
    · exact ⟨hf, fun i v hv hpage => hnot (.inr ⟨i, v, hv, hpage⟩)⟩
  have hback : E.mapper.toPhys ⟨E.mapper.page f⟩ = ⟨Align.frameStart f⟩ := hsup.circulates.back f hf hshow
  unfold giveFrame
  refine (Ground.heapMapper_ends h).bind ?_
  intro r t hends
  obtain ⟨rfl, rfl⟩ := hends
  rw [Action.goes_ok, Ground.ends_inArena, hback]
  refine (Arena.freeFrame_ends hsup.keeps hsup.sound _ ∅).mono ?_
  intro r a hends
  obtain ⟨rfl, ha⟩ := hends
  exact ⟨hr, rfl, h.request ha hstays, hafter⟩

end Allocator

end Keel
