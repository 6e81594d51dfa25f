import Keel.Heap.Basic
import Keel.Proofs.Slab.Shedding

/-!
# Heaps in order

A heap is in order (`Stands`) if each of its caches is, and no page is a slab of two of them. `Turns` says what an
operation may do to a heap in order and to what is around it, as it does for one cache; what a cache does, the heap does
(`Stands.onCache`), and operations follow one another (`Turns.trans`). If they give slabs up (`Sheds`), then the frames of
those slabs become free and no others (`Sheds.free_iff`). Writes of clients that stay away from headers and free cells
leave a heap in order (`Stands.write`).
-/

namespace Keel.Heap

open Keel.Memory (Alters block pageAt)
open Keel.Frame (Pool Request)
open Keel.Slab (Estate Supplies View CellSize Chain objects)

attribute [local irreducible] Memory.word

variable {E : Estate} {s t u : HeapSite} {p : Pool} {qs qs' : List Request} {V W U : SizeClass → List View}
  {i j : SizeClass} {x y : Ptr} {v w : View} {ws : List View} {m : Memory} {S : Set Ptr}

/-! ## Classes -/

theorem cellSize_classSize (i : SizeClass) : CellSize (classSize i) := by
  rw [← Slab.isCellSize_iff]
  revert i
  decide

theorem classOf?_classSize (i : SizeClass) : classOf? (classSize i) = some i := by
  revert i
  decide

/-- The objects of a class. -/
abbrev objectsOf (V : SizeClass → List View) (i : SizeClass) : Set Ptr := objects (classSize i) (V i)

/-! ## A heap in order -/

/-- A heap is in order, and the slabs of its caches are `V`. -/
structure Stands (E : Estate) (p : Pool) (s : HeapSite) (V : SizeClass → List View) : Prop where
  mapper : s.heap.mapper = E.mapper
  caches : ∀ i, Slab.Stands E p (classSize i) ((cachePart i).get s) (V i)
  apart : ∀ i j, i ≠ j → ∀ v ∈ V i, ∀ w ∈ V j, v.page ≠ w.page

/-- Where an operation may write that turns the slabs `V` into `W`: in their pages, but in no object that is one before
and after. -/
def touched (V W : SizeClass → List View) : Set Ptr :=
  {a | (∃ i, ∃ v ∈ V i ++ W i, a ∈ pageAt v.page) ∧
    ∀ i, ∀ x ∈ objectsOf V i, x ∈ objectsOf W i → a ∉ block x (classSize i)}

/-- What an operation has done that turned the slabs `V` into `W` and asked `qs` of the pool `p`. -/
structure Turns (E : Estate) (s t : HeapSite) (p : Pool) (qs : List Request) (V W : SizeClass → List View) : Prop where
  stands : Stands E (p.after qs) t W
  frames : ∀ f ∈ E.frames, ((p.after qs).Free f ∨ ∃ i, ∃ w ∈ W i, w.page = E.mapper.page f) ↔
    (p.Free f ∨ ∃ i, ∃ v ∈ V i, v.page = E.mapper.page f)
  alters : Alters (touched V W ∪ E.asked qs) s.arena.memory t.arena.memory
  poison : t.arena.poison = s.arena.poison

namespace Stands

theorem supplies (h : Stands E p s V) : Supplies E s.arena p := (h.caches ⟨0, by decide⟩).supplies

theorem chain (h : Stands E p s V) (i : SizeClass) : Chain s.arena.memory (classSize i) (V i) := (h.caches i).chain

theorem turns (h : Stands E p s V) : Turns E s s p [] V V := ⟨h, fun _ _ => Iff.rfl, Alters.refl _ _, rfl⟩

/-- Slabs at one page are of one class. -/
theorem class_eq (h : Stands E p s V) (hv : v ∈ V i) (hw : w ∈ V j) (hp : v.page = w.page) : i = j := by
  by_contra hne
  exact h.apart i j hne v hv w hw hp

/-- An object is one of one class. -/
theorem class_eq_of_objects (h : Stands E p s V) (hi : x ∈ objectsOf V i) (hj : x ∈ objectsOf V j) : i = j := by
  obtain ⟨v, hv, -, -, -, -, hvp, -⟩ := (h.chain i).of_objects (cellSize_classSize i) hi
  obtain ⟨w, hw, -, -, -, -, hwp, -⟩ := (h.chain j).of_objects (cellSize_classSize j) hj
  exact h.class_eq hv hw (hvp.symm.trans hwp)

/-- Two objects of a heap do not meet. -/
theorem disjoint_objects (h : Stands E p s V) (hx : x ∈ objectsOf V i) (hy : y ∈ objectsOf V j) (hne : x ≠ y) :
    Disjoint (block x (classSize i)) (block y (classSize j)) := by
  by_cases hij : i = j
  · subst hij
    exact (h.chain i).disjoint_objects (cellSize_classSize i) hx hy hne
  · obtain ⟨v, hv, -, -, -, -, -, hvsub⟩ := (h.chain i).of_objects (cellSize_classSize i) hx
    obtain ⟨w, hw, -, -, -, -, -, hwsub⟩ := (h.chain j).of_objects (cellSize_classSize j) hy
    refine Set.disjoint_of_subset hvsub hwsub ?_
    exact Memory.disjoint_pageAt ((h.chain i).aligned hv) ((h.chain j).aligned hw) (h.apart i j hij v hv w hw)

/-- A slab that is not idle has an object. -/
theorem exists_object (h : Stands E p s V) (hv : v ∈ V i) (hbusy : v.idle (classSize i) = false) :
    ∃ k < Slab.cellCount (classSize i), Slab.cellAt v.page (classSize i) k ∈ objectsOf V i := by
  obtain ⟨next, hh⟩ := (h.chain i).holds hv
  rw [View.idle, beq_eq_false_iff_ne] at hbusy
  obtain ⟨k, hk, hnot⟩ := hh.exists_used hbusy
  exact ⟨k, hk, v, hv, k, hk, hnot, rfl⟩

end Stands

/-! ## One cache -/

section

variable {r : Slab.CacheSite}

theorem get_set_self (s : HeapSite) (i : SizeClass) (r : Slab.CacheSite) :
    (cachePart i).get ((cachePart i).set s r) = r := by
  simp [cachePart]

theorem get_set_of_ne (s : HeapSite) (r : Slab.CacheSite) (h : i ≠ j) :
    (cachePart j).get ((cachePart i).set s r) = ⟨r.arena, ((cachePart j).get s).cache⟩ := by
  have hne : i.val ≠ j.val := fun he => h (Fin.ext he)
  simp [cachePart, hne]

theorem apart_touched (h : Stands E p s V) (ht : Slab.Turns E (classSize i) ((cachePart i).get s) r p qs (V i) ws)
    (hij : i ≠ j) (hw : w ∈ ws) (hv : v ∈ V j) : w.page ≠ v.page := by
  intro he
  obtain ⟨f, hf, -, hnot, hpage⟩ := (h.caches j).backed v hv
  rcases (ht.frames f hf).1 (.inr ⟨w, hw, he.trans hpage.symm⟩) with hfree | ⟨u, hu, hup⟩
  · exact hnot hfree
  · exact h.apart i j hij u hu v hv (hup.trans hpage)

/-- The other caches do not notice what one cache does. -/
theorem elsewhere (h : Stands E p s V) (ht : Slab.Turns E (classSize i) ((cachePart i).get s) r p qs (V i) ws)
    (hij : i ≠ j) : Slab.Stands E (p.after qs) (classSize j) ⟨r.arena, ((cachePart j).get s).cache⟩ (V j) := by
  have hj := h.caches j
  have hdisj : ∀ v ∈ V j, Disjoint (pageAt v.page) (Slab.touched (classSize i) (V i) ws ∪ E.bitmap) := by
    intro v hv
    refine Set.disjoint_union_right.2 ⟨?_, hj.supplies.disjoint_bitmap (hj.backed v hv)⟩
    rw [Set.disjoint_right]
    rintro a ⟨⟨w, hw, ha⟩, -⟩
    rcases List.mem_append.1 hw with hw | hw
    · exact Set.disjoint_left.1 (Memory.disjoint_pageAt ((h.chain i).aligned hw) (hj.chain.aligned hv)
        (h.apart i j hij w hw v hv)) ha
    · exact Set.disjoint_left.1 (Memory.disjoint_pageAt (ht.stands.chain.aligned hw) (hj.chain.aligned hv)
        (apart_touched h ht hij hw hv)) ha
  exact {
    supplies := ht.stands.supplies
    cell := hj.cell
    size := hj.size
    first := hj.first
    count := hj.count
    used := hj.used
    chain := hj.chain.congr hj.cell ht.alters fun v hv =>
      (hdisj v hv).mono_right (Set.union_subset_union_right _ (E.asked_subset qs))
    distinct := hj.distinct
    backed := fun v hv => by
      obtain ⟨f, hf, hshow, hnot, hpage⟩ := hj.backed v hv
      refine ⟨f, hf, hshow, fun hfree => ?_, hpage⟩
      rcases (ht.frames f hf).1 (.inl hfree) with hfree | ⟨u, hu, hup⟩
      · exact hnot hfree
      · exact h.apart i j hij u hu v hv (hup.trans hpage) }

theorem exists_update {Q : View → Prop} : (∃ j, ∃ w ∈ Function.update V i ws j, Q w) ↔
    (∃ w ∈ ws, Q w) ∨ ∃ j, j ≠ i ∧ ∃ v ∈ V j, Q v := by
  constructor
  · rintro ⟨j, w, hw, hq⟩
    by_cases hij : j = i
    · subst hij
      rw [Function.update_self] at hw
      exact .inl ⟨w, hw, hq⟩
    · rw [Function.update_of_ne hij] at hw
      exact .inr ⟨j, hij, w, hw, hq⟩
  · rintro (⟨w, hw, hq⟩ | ⟨j, hij, w, hw, hq⟩)
    · exact ⟨i, w, by rwa [Function.update_self], hq⟩
    · exact ⟨j, w, by rwa [Function.update_of_ne hij], hq⟩

/-- No page is a slab of two caches after one of them has turned. -/
theorem apart_update (h : Stands E p s V) (ht : Slab.Turns E (classSize i) ((cachePart i).get s) r p qs (V i) ws)
    {k : SizeClass} (hjk : j ≠ k) (hv : v ∈ Function.update V i ws j) (hw : w ∈ Function.update V i ws k) :
    v.page ≠ w.page := by
  by_cases hij : j = i
  · subst hij
    rw [Function.update_self] at hv
    rw [Function.update_of_ne (Ne.symm hjk)] at hw
    exact apart_touched h ht hjk hv hw
  · rw [Function.update_of_ne hij] at hv
    by_cases hik : k = i
    · subst hik
      rw [Function.update_self] at hw
      exact (apart_touched h ht (Ne.symm hij) hw hv).symm
    · rw [Function.update_of_ne hik] at hw
      exact h.apart j k hjk v hv w hw

/-- What a cache touches, its heap touches: the objects of the other caches are in other pages. -/
theorem touched_onCache (h : Stands E p s V)
    (ht : Slab.Turns E (classSize i) ((cachePart i).get s) r p qs (V i) ws) :
    Slab.touched (classSize i) (V i) ws ⊆ touched V (Function.update V i ws) := by
  rintro a ⟨⟨v, hv, ha⟩, hout⟩
  refine ⟨⟨i, v, by rwa [Function.update_self], ha⟩, fun j x hx hx' hax => ?_⟩
  by_cases hij : i = j
  · subst hij
    rw [objectsOf, Function.update_self] at hx'
    exact hout x hx hx' hax
  · obtain ⟨w, hw, -, -, -, -, -, hsub⟩ := (h.chain j).of_objects (cellSize_classSize j) hx
    have hapart : v.page.toNat % 4096 = 0 ∧ v.page ≠ w.page := by
      rcases List.mem_append.1 hv with hv | hv
      · exact ⟨(h.chain i).aligned hv, h.apart i j hij v hv w hw⟩
      · exact ⟨ht.stands.chain.aligned hv, apart_touched h ht hij hv hw⟩
    exact Set.disjoint_left.1 (Memory.disjoint_pageAt hapart.1 ((h.chain j).aligned hw) hapart.2) ha (hsub hax)

/-- What a cache does, its heap does. -/
theorem Stands.onCache (h : Stands E p s V)
    (ht : Slab.Turns E (classSize i) ((cachePart i).get s) r p qs (V i) ws) :
    Turns E s ((cachePart i).set s r) p qs V (Function.update V i ws) where
  stands := {
    mapper := h.mapper
    caches := fun j => by
      by_cases hij : i = j
      · subst hij
        rw [get_set_self, Function.update_self]
        exact ht.stands
      · rw [get_set_of_ne s r hij, Function.update_of_ne (Ne.symm hij)]
        exact elsewhere h ht hij
    apart := fun j k hjk v hv w hw => apart_update h ht hjk hv hw }
  frames := fun f hf => by
    -- the slabs of the other caches are on both sides, and those of this one are what the cache says
    have hold : (∃ j, ∃ w ∈ V j, w.page = E.mapper.page f) ↔
        (∃ w ∈ V i, w.page = E.mapper.page f) ∨ ∃ j, j ≠ i ∧ ∃ v ∈ V j, v.page = E.mapper.page f := by
      rw [← exists_update, Function.update_eq_self]
    rw [exists_update, hold, ← or_assoc, ← or_assoc, ht.frames f hf]
  alters := ht.alters.mono (Set.union_subset_union_left _ (touched_onCache h ht))
  poison := ht.poison

end

/-! ## Several operations -/

theorem touched_trans (hpage : ∀ i, ∀ w ∈ W i, ∃ v ∈ V i ++ U i, v.page = w.page)
    (hobj : ∀ i, ∀ x ∈ objectsOf V i, x ∈ objectsOf U i → x ∈ objectsOf W i) :
    touched V W ⊆ touched V U ∧ touched W U ⊆ touched V U := by
  constructor
  · rintro a ⟨⟨i, v, hv, ha⟩, hout⟩
    refine ⟨?_, fun j x hx hx' => hout j x hx (hobj j x hx hx')⟩
    rcases List.mem_append.1 hv with hv | hv
    · exact ⟨i, v, List.mem_append_left _ hv, ha⟩
    · obtain ⟨w, hw, he⟩ := hpage i v hv
      exact ⟨i, w, hw, by rwa [he]⟩
  · rintro a ⟨⟨i, v, hv, ha⟩, hout⟩
    refine ⟨?_, fun j x hx hx' => hout j x (hobj j x hx hx') hx'⟩
    rcases List.mem_append.1 hv with hv | hv
    · obtain ⟨w, hw, he⟩ := hpage i v hv
      exact ⟨i, w, hw, by rwa [he]⟩
    · exact ⟨i, v, List.mem_append_right _ hv, ha⟩

/-- One operation after another, where the slabs between them are old or new, and the objects too. -/
theorem Turns.trans (h : Turns E s t p qs V W) (h' : Turns E t u (p.after qs) qs' W U)
    (hpage : ∀ i, ∀ w ∈ W i, ∃ v ∈ V i ++ U i, v.page = w.page)
    (hobj : ∀ i, ∀ x ∈ objectsOf V i, x ∈ objectsOf U i → x ∈ objectsOf W i) : Turns E s u p (qs ++ qs') V U := by
  obtain ⟨h1, h2⟩ := touched_trans hpage hobj
  refine {
    stands := by rw [Pool.after_append]; exact h'.stands
    frames := fun f hf => by rw [Pool.after_append]; exact (h'.frames f hf).trans (h.frames f hf)
    alters := ?_
    poison := h'.poison.trans h.poison }
  rw [Estate.asked_append]
  exact (h.alters.mono (Set.union_subset_union h1 Set.subset_union_left)).trans
    (h'.alters.mono (Set.union_subset_union h2 Set.subset_union_right))

/-! ## Slabs that are given up -/

/-- The slabs of all classes. -/
def slabsOf (V : SizeClass → List View) : Set View := {v | ∃ i, v ∈ V i}

/-- A heap has turned and given up `n` slabs. -/
structure Sheds (E : Estate) (s t : HeapSite) (p : Pool) (qs : List Request) (V W : SizeClass → List View) (n : Nat) :
    Prop extends Turns E s t p qs V W where
  subset : ∀ i, W i ⊆ V i
  culls : Slab.Culls E s.arena t.arena p (p.after qs) (slabsOf V) (slabsOf W) n

theorem slabsOf_update (V : SizeClass → List View) (i : SizeClass) (ws : List View) :
    slabsOf (Function.update V i ws) = {w | w ∈ ws} ∪ {v | ∃ j, j ≠ i ∧ v ∈ V j} := by
  ext v
  have hmem : (∃ j, ∃ w ∈ Function.update V i ws j, w = v) ↔ (∃ w ∈ ws, w = v) ∨ ∃ j, j ≠ i ∧ ∃ w ∈ V j, w = v :=
    exists_update
  simpa [slabsOf] using hmem

theorem Stands.scattered (h : Stands E p s V) : Slab.Scattered E (slabsOf V) where
  aligned := by
    rintro v ⟨i, hv⟩
    exact (h.chain i).aligned hv
  distinct := by
    rintro v ⟨i, hv⟩ w ⟨j, hw⟩ he
    obtain rfl := h.class_eq hv hw he
    exact Slab.unique (h.caches i).distinct hv hw he
  apart := by
    rintro v ⟨i, hv⟩
    exact h.supplies.disjoint_bitmap ((h.caches i).backed v hv)

/-- What a cache sheds, its heap does. -/
theorem Stands.sheds_onCache {r : Slab.CacheSite} {n : Nat} (h : Stands E p s V)
    (ht : Slab.Sheds E (classSize i) ((cachePart i).get s) r p qs (V i) ws n) :
    Sheds E s ((cachePart i).set s r) p qs V (Function.update V i ws) n where
  toTurns := h.onCache ht.toTurns
  subset := fun j w hw => by
    by_cases hij : j = i
    · subst hij
      rw [Function.update_self] at hw
      exact ht.culls.subset hw
    · rwa [Function.update_of_ne hij] at hw
  culls := by
    have hrest : Disjoint {v | v ∈ V i} {v | ∃ j, j ≠ i ∧ v ∈ V j} := by
      rw [Set.disjoint_left]
      rintro v hv ⟨j, hij, hw⟩
      exact hij (h.class_eq hw hv rfl)
    have hbeside := ht.culls.beside hrest
    rw [← slabsOf_update, ← slabsOf_update, Function.update_eq_self] at hbeside
    exact hbeside

theorem Sheds.trans {n k : Nat} (hs : Stands E p s V) (h : Sheds E s t p qs V W n)
    (h' : Sheds E t u (p.after qs) qs' W U k) : Sheds E s u p (qs ++ qs') V U (n + k) where
  toTurns := h.toTurns.trans h'.toTurns (fun i w hw => ⟨w, List.mem_append_left _ (h.subset i hw), rfl⟩)
    fun i x _ hx => Slab.objects_mono (h'.subset i) hx
  subset := fun i => List.Subset.trans (h'.subset i) (h.subset i)
  culls := by
    rw [Pool.after_append]
    exact h.culls.trans hs.scattered h'.culls

/-- The frame that a slab is made of is the one to which the mapper leads back from its page. -/
theorem Stands.frame_of_page (h : Stands E p s V) (hv : v ∈ V i) :
    Align.frameOf (E.mapper.toPhys ⟨v.page⟩).raw ∈ E.frames ∧
      ∀ f ∈ E.frames, v.page = E.mapper.page f ↔ f = Align.frameOf (E.mapper.toPhys ⟨v.page⟩).raw :=
  h.supplies.frame_of_page ((h.caches i).backed v hv)

/-- The frames that become free are those of the slabs that are gone. -/
theorem Sheds.free_iff {n f : Nat} (h : Stands E p s V) (ht : Sheds E s t p qs V W n) :
    (p.after qs).Free f ↔ p.Free f ∨ f ∈ E.frames ∧ ∃ i, ∃ v ∈ V i, v ∉ W i ∧ v.page = E.mapper.page f := by
  have hW := ht.stands
  constructor
  · intro hf
    have hmem := hW.supplies.free f hf
    refine ((ht.frames f hmem).1 (.inl hf)).imp_right ?_
    rintro ⟨i, v, hv, hpage⟩
    exact ⟨hmem, i, v, hv, fun hw => (hW.caches i).page_ne hf hw hpage, hpage⟩
  · rintro (hf | ⟨hmem, i, v, hv, hout, hpage⟩)
    · rcases (ht.frames f (h.supplies.free f hf)).2 (.inl hf) with hfree | ⟨i, w, hw, hpage⟩
      · exact hfree
      · exact absurd hpage ((h.caches i).page_ne hf (ht.subset i hw))
    · rcases (ht.frames f hmem).2 (.inr ⟨i, v, hv, hpage⟩) with hfree | ⟨j, w, hw, hwp⟩
      · exact hfree
      · have hvw : v.page = w.page := hpage.trans hwp.symm
        obtain rfl := h.class_eq hv (ht.subset j hw) hvw
        exact absurd (Slab.unique (h.caches i).distinct hv (ht.subset i hw) hvw ▸ hw) hout

/-! ## Writes of clients -/

/-- The bytes that a heap relies on. -/
def guarded (V : SizeClass → List View) : Set Ptr := {a | ∃ i, a ∈ Slab.guarded (classSize i) (V i)}

/-- A write to bytes that neither the heap nor the pool relies on. -/
theorem Stands.write (h : Stands E p s V) (ha : Alters S s.arena.memory m) (hd : Disjoint (guarded V ∪ E.bitmap) S) :
    Stands E p { s with arena := { s.arena with memory := m } } V := by
  obtain ⟨hguard, hbitmap⟩ := Set.disjoint_union_left.1 hd
  refine ⟨h.mapper, fun i => (h.caches i).write ha (Set.disjoint_union_left.2 ⟨?_, hbitmap⟩), h.apart⟩
  exact Set.disjoint_left.2 fun a hi => Set.disjoint_left.1 hguard ⟨i, hi⟩

/-- Neither the heap nor the pool relies on the bytes of an object. -/
theorem Stands.disjoint_guarded (h : Stands E p s V) (hx : x ∈ objectsOf V i) :
    Disjoint (guarded V ∪ E.bitmap) (block x (classSize i)) := by
  have hi := h.caches i
  obtain ⟨v, hv, -, -, -, -, -, hsub⟩ := hi.chain.of_objects hi.cell hx
  refine Set.disjoint_union_left.2 ⟨?_, (hi.supplies.disjoint_bitmap (hi.backed v hv)).symm.mono_right hsub⟩
  rw [Set.disjoint_left]
  rintro a ⟨j, ha⟩ hax
  by_cases hij : i = j
  · subst hij
    exact Set.disjoint_left.1 (hi.chain.disjoint_guarded hi.cell hi.distinct hx) ha hax
  · obtain ⟨w, hw, ha⟩ := Slab.guarded_subset (h.chain j) ha
    exact Set.disjoint_left.1 (Memory.disjoint_pageAt (hi.chain.aligned hv) ((h.chain j).aligned hw)
      (h.apart i j hij v hv w hw)) (hsub hax) ha

/-- A byte of an object that stays is none that an operation writes. -/
theorem Stands.notMem_touched {a : Ptr} (h : Stands E p s V) (hx : x ∈ objectsOf V i) (hx' : x ∈ objectsOf W i)
    (ha : a ∈ block x (classSize i)) : a ∉ touched V W ∪ E.asked qs := by
  rintro (ht | hb)
  · exact ht.2 i x hx hx' ha
  · exact Set.disjoint_left.1 (h.disjoint_guarded hx) (.inr (E.asked_subset qs hb)) ha

/-! ## An empty heap -/

/-- A heap without slabs is in order. -/
theorem stands_empty {a : Arena} (h : Supplies E a p) : Stands E p ⟨a, Heap.empty E.mapper⟩ fun _ => [] := by
  refine ⟨rfl, fun i => ?_, fun i j _ v hv => nomatch hv⟩
  have hcache : (cachePart i).get ⟨a, Heap.empty E.mapper⟩ = ⟨a, Slab.Cache.empty (classSize i)⟩ := by
    simp [cachePart, Heap.empty]
  rw [hcache]
  exact Slab.stands_empty h (cellSize_classSize i)

end Keel.Heap
