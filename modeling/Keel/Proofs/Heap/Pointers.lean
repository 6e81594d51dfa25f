import Keel.Proofs.Heap.Neighbours

/-!
# What a heap says to a pointer

Any address may be given back to a heap, and the answer says what it is: the start of an object, the start of a free cell,
another place in one of its slabs, or a place in a page that is no slab of it. The last is decided by the lists of slabs
and not by the bytes of the page, so a page that was made to look like a slab is refused as well. In every session made of
events each pointer gets the answer that is due to it, and only an object that comes back changes anything
(`classifies_run`).
-/

namespace Keel.Heap.Session

open Keel.Frame (Pool)
open Keel.Slab (Estate View containing cellAt cellCount)

attribute [local irreducible] Memory.word

variable {E : Estate} {s : Session} {p : Pool} {V : SizeClass → List View} {i : SizeClass} {page x : Ptr} {k : Nat}
  {v : View}

/-! ## Places -/

/-- Whether a page is a slab of class `i`: the cache of the class says so. -/
def SlabOf (s : Session) (i : SizeClass) (page : Ptr) : Prop :=
  (Slab.Cache.owns page ((cachePart i).get s.site)).result = .ok true

/-- Whether an object in the hands of a client starts at `x`. -/
def IsObject (s : Session) (x : Ptr) : Prop := ∃ o ∈ s.live, o.start = x

/-- Whether a cell of a slab starts at `x`. -/
def IsCell (s : Session) (x : Ptr) : Prop :=
  ∃ i page, s.SlabOf i page ∧ ∃ k < cellCount (classSize i), x = cellAt page (classSize i) k

/-- Whether a cell starts at `x` that is no object. -/
def IsFreeCell (s : Session) (x : Ptr) : Prop := s.IsCell x ∧ ¬s.IsObject x

/-- Whether `x` is on the list of free cells of the page that it lies in. -/
def IsListed (s : Session) (x : Ptr) : Prop :=
  Slab.listed s.memory x Slab.linkLimit (Slab.Header.read s.memory (containing x)).freeList = .ok true

/-- What a heap answers to a pointer that comes back. -/
structure Classifies (s : Session) (x : Ptr) : Prop where
  object : (Heap.free x s.site).result = .ok () ↔ s.IsObject x
  freeCell : (Heap.free x s.site).result = .error (.fault .dangling) ↔ s.IsFreeCell x
  /-- What is no object and lies in a slab is a free cell exactly if it is on the list of that slab. -/
  listed : s.HasSlab (containing x) → (s.IsListed x ↔ s.IsFreeCell x)
  elsewhere : s.HasSlab (containing x) → ¬s.IsCell x → (Heap.free x s.site).result = .error (.fault .badArgs)
  stray : ¬s.HasSlab (containing x) → (Heap.free x s.site).result = .error (.fault .corrupted) ∨
    (Heap.free x s.site).result = .error (.fault .badArgs)
  /-- A refusal leaves the caches, the pool and all of memory as they were. -/
  refused : ∀ e, (Heap.free x s.site).result = .error e → (Heap.free x s.site).state = s.site

/-! ## Heaps in order -/

theorem slabOf_iff (hV : Stands E p s.site V) : s.SlabOf i page ↔ ∃ v ∈ V i, v.page = page := by
  obtain ⟨r, c, log, hr, ⟨b, rfl, hb⟩, -⟩ := (Slab.owns_ends (hV.caches i) page).trace
  rw [SlabOf, hr, ← hb, Except.ok.injEq]

theorem isObject_iff (hlive : ∀ o, o ∈ s.live ↔ o.start ∈ objectsOf V o.sizeClass) :
    s.IsObject x ↔ ∃ i, x ∈ objectsOf V i := by
  constructor
  · rintro ⟨o, ho, rfl⟩
    exact ⟨_, (hlive o).1 ho⟩
  · rintro ⟨i, hi⟩
    exact ⟨⟨x, i⟩, (hlive ⟨x, i⟩).2 hi, rfl⟩

theorem isCell_iff (hV : Stands E p s.site V) : s.IsCell x ↔
    ∃ i, ∃ v ∈ V i, ∃ k < cellCount (classSize i), x = cellAt v.page (classSize i) k := by
  constructor
  · rintro ⟨i, page, hpage, hk⟩
    obtain ⟨v, hv, rfl⟩ := (slabOf_iff hV).1 hpage
    exact ⟨i, v, hv, hk⟩
  · rintro ⟨i, v, hv, hk⟩
    exact ⟨i, v.page, (slabOf_iff hV).2 ⟨v, hv, rfl⟩, hk⟩

/-- A cell is an object exactly if it is not on the list of its slab. -/
theorem mem_objectsOf_iff (hV : Stands E p s.site V) (hv : v ∈ V i) (hk : k < cellCount (classSize i)) :
    (∃ j, cellAt v.page (classSize i) k ∈ objectsOf V j) ↔ k ∉ v.free := by
  have hc := cellSize_classSize i
  constructor
  · rintro ⟨j, hj⟩ hfree
    obtain ⟨w, hw, -, -, -, -, hpage, -⟩ := (hV.chain j).of_objects (cellSize_classSize j) hj
    rw [Slab.containing_cellAt ((hV.chain i).aligned hv) hk hc] at hpage
    obtain rfl := hV.class_eq hv hw hpage
    exact Slab.notMem_objects (fun v hv => (hV.chain i).aligned hv) hc (hV.caches i).distinct hv hk hfree hj
  · intro hfree
    exact ⟨i, v, hv, k, hk, hfree, rfl⟩

theorem isFreeCell_iff (hV : Stands E p s.site V) (hlive : ∀ o, o ∈ s.live ↔ o.start ∈ objectsOf V o.sizeClass)
    (hv : v ∈ V i) (hx : containing x = v.page) :
    s.IsFreeCell x ↔ ∃ k ∈ v.free, x = cellAt v.page (classSize i) k := by
  rw [IsFreeCell, isCell_iff hV, isObject_iff hlive]
  constructor
  · rintro ⟨⟨j, w, hw, k, hk, rfl⟩, hno⟩
    rw [Slab.containing_cellAt ((hV.chain j).aligned hw) hk (cellSize_classSize j)] at hx
    obtain rfl := hV.class_eq hw hv hx
    obtain rfl := Slab.unique (hV.caches j).distinct hw hv hx
    exact ⟨k, not_not.1 (mt (mem_objectsOf_iff hV hw hk).2 hno), rfl⟩
  · rintro ⟨k, hfree, rfl⟩
    obtain ⟨next, hh⟩ := (hV.chain i).holds hv
    have hk := hh.bound k hfree
    exact ⟨⟨i, v, hv, k, hk, rfl⟩, fun ho => (mem_objectsOf_iff hV hv hk).1 ho hfree⟩

/-- The list of a slab holds its free cells. -/
theorem isListed_iff (hV : Stands E p s.site V) (hv : v ∈ V i) (hx : containing x = v.page) :
    s.IsListed x ↔ ∃ k ∈ v.free, x = cellAt v.page (classSize i) k := by
  have hc := cellSize_classSize i
  obtain ⟨next, hh⟩ := (hV.chain i).holds hv
  have hoffset : ∀ k ∈ v.free, Slab.cellOffset (classSize i) k < 4096 := fun k hk => by
    have := Slab.cellOffset_add_le (hh.bound k hk)
    have := hc.min
    omega
  have hlength : v.free.length < Slab.linkLimit := by
    have := hh.length_le
    have := hc.cellCount_le
    unfold Slab.linkLimit
    omega
  obtain ⟨b, hb, hiff⟩ := Slab.listed_ok (p := x) hh.linked hh.aligned hoffset hlength
  rw [IsListed, hx, memory, hh.header hc, hb, Except.ok.injEq, hiff]
  exact exists_congr fun k => and_congr_right fun _ => eq_comm

/-- What lies in a slab is told by the slab. -/
theorem classifies_inside (hV : Stands E p s.site V) (hlive : ∀ o, o ∈ s.live ↔ o.start ∈ objectsOf V o.sizeClass)
    (hv : v ∈ V i) (hx : containing x = v.page) : s.Classifies x := by
  have hslab : s.HasSlab (containing x) := (hasSlab_iff hV).2 ⟨i, v, hv, hx.symm⟩
  have hfreeCell := isFreeCell_iff hV hlive hv hx
  have hobject := isObject_iff (x := x) hlive
  have hlisted := (isListed_iff hV hv hx).trans hfreeCell.symm
  by_cases hcell : ∃ k < cellCount (classSize i), x = cellAt v.page (classSize i) k
  · obtain ⟨k, hk, rfl⟩ := hcell
    have hmem := mem_objectsOf_iff hV hv hk
    have hcell : s.IsCell (cellAt v.page (classSize i) k) := (isCell_iff hV).2 ⟨i, v, hv, k, hk, rfl⟩
    by_cases hfree : k ∈ v.free
    · obtain ⟨hr, ht⟩ := free_free hV hv hfree
      refine ⟨?_, ?_, fun _ => hlisted, fun _ h => absurd hcell h, fun h => absurd hslab h, fun _ _ => ht⟩
      · rw [hr, hobject, hmem]
        exact iff_of_false nofun (not_not_intro hfree)
      · rw [hr, hfreeCell]
        exact iff_of_true rfl ⟨k, hfree, rfl⟩
    · obtain ⟨j, hj⟩ := hmem.2 hfree
      have hok : (Heap.free (cellAt v.page (classSize i) k) s.site).result = .ok () := by
        rcases free_ends hV (cellAt v.page (classSize i) k) with ⟨-, -, hr, -⟩ | ⟨hno, -⟩
        · exact hr
        · exact absurd hj (hno j)
      refine ⟨?_, ?_, fun _ => hlisted, fun _ h => absurd hcell h, fun h => absurd hslab h, fun e he => ?_⟩
      · rw [hok, hobject]
        exact iff_of_true rfl ⟨j, hj⟩
      · rw [hok]
        exact iff_of_false nofun fun h => h.2 (hobject.2 ⟨j, hj⟩)
      · rw [hok] at he
        cases he
  · have hnone : ∀ k < cellCount (classSize i), x ≠ cellAt v.page (classSize i) k := fun k hk he => hcell ⟨k, hk, he⟩
    obtain ⟨hr, ht⟩ := free_outside hV hv hx hnone
    refine ⟨?_, ?_, fun _ => hlisted, fun _ _ => hr, fun h => absurd hslab h, fun _ _ => ht⟩
    · rw [hr, hobject]
      refine iff_of_false nofun ?_
      rintro ⟨j, hj⟩
      obtain ⟨w, hw, k, hk, -, he, hpage, -⟩ := (hV.chain j).of_objects (cellSize_classSize j) hj
      have hpages := hx.symm.trans hpage
      obtain rfl := hV.class_eq hv hw hpages
      exact hnone k hk (by rw [he, hpages])
    · rw [hr, hfreeCell]
      refine iff_of_false nofun ?_
      rintro ⟨k, hk, he⟩
      obtain ⟨next, hh⟩ := (hV.chain i).holds hv
      exact hnone k (hh.bound k hk) he

/-- What lies in no slab is no object and no cell. -/
theorem classifies_stray (hV : Stands E p s.site V) (hlive : ∀ o, o ∈ s.live ↔ o.start ∈ objectsOf V o.sizeClass)
    (hx : ∀ i, ∀ v ∈ V i, v.page ≠ containing x) : s.Classifies x := by
  obtain ⟨hr, ht⟩ := free_stray hV hx
  have hslab : ¬s.HasSlab (containing x) := by
    rw [hasSlab_iff hV]
    rintro ⟨i, v, hv, he⟩
    exact hx i v hv he
  have hcell : ¬s.IsCell x := by
    rw [isCell_iff hV]
    rintro ⟨i, v, hv, k, hk, rfl⟩
    exact hx i v hv (Slab.containing_cellAt ((hV.chain i).aligned hv) hk (cellSize_classSize i)).symm
  have hobject : ¬s.IsObject x := by
    rw [isObject_iff hlive]
    rintro ⟨i, v, hv, k, hk, -, rfl⟩
    exact hcell ((isCell_iff hV).2 ⟨i, v, hv, k, hk, rfl⟩)
  refine ⟨iff_of_false ?_ hobject, iff_of_false ?_ fun h => hcell h.1, fun h => absurd h hslab,
    fun h => absurd h hslab, fun _ => hr, fun _ _ => ht⟩
  · rcases hr with hr | hr <;> rw [hr] <;> exact nofun
  · rcases hr with hr | hr <;> rw [hr] <;> exact nofun

theorem classifies_of_kept (h : s.Kept E) (x : Ptr) : s.Classifies x := by
  obtain ⟨p, V, hV, hlive⟩ := h
  by_cases hslab : ∃ i, ∃ v ∈ V i, v.page = containing x
  · obtain ⟨i, v, hv, he⟩ := hslab
    exact classifies_inside hV hlive hv he.symm
  · exact classifies_stray hV hlive fun i v hv he => hslab ⟨i, v, hv, he⟩

/-! ## Runs -/

/-- **Every pointer** gets the answer that is due to it, whatever has happened to the heap before: the start of an object
is taken back, the start of a free cell is dangling, another place in a slab is a bad argument, and a place in any other
page is corrupt or a bad argument. -/
theorem classifies_run {rs : List Region} {mapper : Mapper} {a : Arena} (h : Opens rs mapper a) (es : List Event)
    (x : Ptr) (hes : (start a mapper).Allowed es) : Classifies (es.foldl happen (start a mapper)) x := by
  obtain ⟨E, hE, hkept⟩ := whole_start h
  exact classifies_of_kept (kept_foldl_happen hE hkept hes) x

/-- The header of a slab with one cell of 2048 bytes, which is in use. -/
def forgedHeader : List UInt8 :=
  [0, 0, 2048, 1, 0, Layout.slabMagic].flatMap Memory.wordBytes

theorem not_hasSlab_fourFrames (page : Ptr) : ¬(start fourFrames .identity).HasSlab page := by
  rintro ⟨i, h⟩
  have hfirst : ((cachePart i).get (start fourFrames .identity).site).cache.first = 0 := by
    simp [cachePart, start, Heap.empty, Slab.Cache.empty]
  obtain ⟨E, -, p, V, hV, -⟩ := whole_start opens_fourFrames
  obtain ⟨v, hv, -⟩ := (slabOf_iff hV).1 h
  have hnil : V i = [] := by
    cases hVi : V i with
    | nil => rfl
    | cons w ws =>
      have hhead := (hV.caches i).first
      rw [hfirst, hVi] at hhead
      exact absurd hhead.symm ((hV.chain i).page_ne_zero (by simp [hVi]))
  simp [hnil] at hv

/-- A page is made to look like a slab with one object, and then an object is handed out from another page: the pointer
to the forged object is refused. -/
theorem classifies_forged : Classifies (List.foldl happen (start fourFrames .identity)
    [.heap (.write 0x2000 forgedHeader), .heap (.allocate 2000)]) 0x2030 := by
  refine classifies_run opens_fourFrames _ _ ⟨.inr ⟨fun page hpage => ?_, ?_⟩, trivial, trivial⟩
  · exact absurd hpage (not_hasSlab_fourFrames page)
  · rw [Set.disjoint_left]
    rintro b ⟨home, ⟨rfl⟩, hb⟩
    exact absurd hb (Set.notMem_empty b)

end Keel.Heap.Session
