import Keel.Proofs.Heap.Dispensing

/-!
# What a heap gives back

A slab is vacant if no byte of its page is one of a live object. For the heap that is a slab with all its cells on its
free list (`vacant_iff`), and a shrink releases exactly those: every list keeps the others in their order
(`held_eq`, `vacancies_eq`), and the frames that become free are those of the slabs that are gone (`isFree_shrink`).

`shrinks_run` says so for every session, with what stays: the objects, the counts of them, and every byte of a slab that
is left but its link. After that a shrink finds nothing more, and if it has found a slab, then every size is served.
-/

namespace Keel.Heap.Session

open Keel.Memory (block pageAt)
open Keel.Frame (Pool)
open Keel.Slab (Estate View)

attribute [local irreducible] Memory.word

variable {E : Estate} {s : Session} {p : Pool} {V : SizeClass → List View} {i : SizeClass} {v : View}

/-! ## Vacant slabs -/

/-- Whether no live object has a byte in a page. -/
def Vacant (s : Session) (page : Ptr) : Prop := ∀ o ∈ s.live, Disjoint o.bytes (pageAt page)

open scoped Classical in
/-- Those of some slabs that are vacant, in their order. -/
noncomputable def vacant (s : Session) (pages : List Ptr) : List Ptr := pages.filter fun page => s.Vacant page

open scoped Classical in
/-- Those of some slabs that hold live objects, in their order. -/
noncomputable def held (s : Session) (pages : List Ptr) : List Ptr := pages.filter fun page => ¬s.Vacant page

/-- The number of vacant slabs of all classes. -/
noncomputable def vacancies (s : Session) (pages : SizeClass → List Ptr) : Nat :=
  ((List.finRange classCount).map fun i => (s.vacant (pages i)).length).sum

/-- What a shrink does, where `pages` are the slabs of each class as a walk along their links finds them. -/
structure Shrinks (s : Session) (pages : SizeClass → List Ptr) : Prop where
  slabs : ∀ i, s.slabs i = .ok ((pages i).map .ok)
  released : (Heap.shrink s.site).result = .ok (s.vacancies pages)
  list : ∀ i, (s.step .shrink).slabs i = .ok ((s.held (pages i)).map .ok)
  count : ∀ i, ((s.step .shrink).cache i).slabCount = (s.held (pages i)).length
  inUse : ∀ i, ((s.step .shrink).cache i).inUse = (s.cache i).inUse
  /-- The frames of the vacant slabs are free, and no other ones become so. -/
  frames : ∀ f, (s.step .shrink).IsFree f ↔ s.IsFree f ∨
    ∃ i, ∃ page ∈ s.vacant (pages i), f = Align.frameOf (s.site.heap.mapper.toPhys ⟨page⟩).raw
  pool : ∃ p ∈ s.site.arena.pool?, ∃ q ∈ (s.step .shrink).site.arena.pool?,
    q.freeFrames = p.freeFrames + s.vacancies pages ∧ q.usedFrames + s.vacancies pages = p.usedFrames ∧
      q.failures = p.failures
  cleared : ∀ i, ∀ page ∈ s.vacant (pages i), (Slab.Header.read (s.step .shrink).memory page).magic = 0
  /-- Of a slab that is left only the link may change, so its cells and their list stay. -/
  stays : ∀ i, ∀ page ∈ s.held (pages i), ∀ a ∈ pageAt page, a ∉ block (page + Slab.nextField) 8 →
    (s.step .shrink).memory.read a = s.memory.read a
  /-- Live objects keep their bytes, and can still be given back. -/
  objects : ∀ o ∈ s.live, (∀ a ∈ o.bytes, (s.step .shrink).memory.read a = s.memory.read a) ∧
    (Heap.free o.start (s.step .shrink).site).result = .ok ()
  again : (Heap.shrink (s.step .shrink).site).result = .ok 0
  /-- Through a mapper that shows the free frames, every size is served if a slab was released. -/
  serves : 0 < s.vacancies pages → ∀ m : Mapper, (∀ f, (s.step .shrink).IsFree f → m.Shows f) →
    ∀ size, size ≠ 0 → size ≤ Layout.maxHeapObject →
      ∃ x, (Heap.allocate size (through (s.step .shrink).site m)).result = .ok x

/-! ## Slabs and objects -/

/-- A slab is vacant exactly if all its cells are free. -/
theorem vacant_iff (hV : Stands E p s.site V) (hlive : ∀ o, o ∈ s.live ↔ o.start ∈ objectsOf V o.sizeClass)
    (hv : v ∈ V i) : s.Vacant v.page ↔ v.idle (classSize i) = true := by
  obtain ⟨next, hh⟩ := (hV.chain i).holds hv
  have hc := cellSize_classSize i
  constructor
  · intro hvacant
    by_contra hbusy
    obtain ⟨k, hk, hx⟩ := hV.exists_object hv (by simpa using hbusy)
    have hmem : (⟨Slab.cellAt v.page (classSize i) k, i⟩ : Object) ∈ s.live := (hlive _).2 hx
    have hpos : 0 < classSize i := Nat.lt_of_lt_of_le (by decide) hc.min
    apply Set.disjoint_left.1 (hvacant _ hmem) (Memory.start_mem_block hpos)
    exact Slab.mem_pageAt_cellAt hk hc
  · intro hidle o ho
    rw [View.idle, beq_iff_eq] at hidle
    obtain ⟨w, hw, k, hk, hnot, -, -, hsub⟩ := (hV.chain o.sizeClass).of_objects (cellSize_classSize _) ((hlive o).1 ho)
    refine Disjoint.mono_left hsub (Memory.disjoint_pageAt ((hV.chain _).aligned hw) hh.aligned ?_)
    intro hpage
    obtain rfl := hV.class_eq hw hv hpage
    obtain rfl := Slab.unique (hV.caches _).distinct hw hv hpage
    exact hnot (hh.mem_of_length hidle k hk)

theorem vacant_eq (hV : Stands E p s.site V) (hlive : ∀ o, o ∈ s.live ↔ o.start ∈ objectsOf V o.sizeClass)
    (i : SizeClass) : s.vacant ((V i).map View.page) = ((V i).filter (View.idle (classSize i))).map View.page := by
  rw [vacant, List.filter_map]
  congr 1
  refine List.filter_congr fun v hv => ?_
  simp [vacant_iff hV hlive hv]

/-- The slabs that hold live objects are those that a shrink keeps. -/
theorem held_eq (hV : Stands E p s.site V) (hlive : ∀ o, o ∈ s.live ↔ o.start ∈ objectsOf V o.sizeClass)
    (i : SizeClass) : s.held ((V i).map View.page) = (shrunk (List.finRange classCount) V i).map View.page := by
  rw [held, List.filter_map, shrunk, if_pos (List.mem_finRange i)]
  congr 1
  refine List.filter_congr fun v hv => ?_
  simp [vacant_iff hV hlive hv]

theorem vacancies_eq (hV : Stands E p s.site V) (hlive : ∀ o, o ∈ s.live ↔ o.start ∈ objectsOf V o.sizeClass) :
    s.vacancies (fun i => (V i).map View.page) = idleIn (List.finRange classCount) V := by
  rw [vacancies, idleIn]
  congr 1
  refine List.map_congr_left fun i _ => ?_
  rw [vacant_eq hV hlive, List.length_map, List.countP_eq_length_filter]

/-- The pages of vacant slabs are those of the slabs that are gone. -/
theorem mem_vacant (hV : Stands E p s.site V) (hlive : ∀ o, o ∈ s.live ↔ o.start ∈ objectsOf V o.sizeClass)
    {page : Ptr} : page ∈ s.vacant ((V i).map View.page) ↔
      ∃ v ∈ V i, v ∉ shrunk (List.finRange classCount) V i ∧ v.page = page := by
  rw [vacant_eq hV hlive, List.mem_map, shrunk, if_pos (List.mem_finRange i)]
  refine exists_congr fun v => ?_
  rw [List.mem_filter, List.mem_filter, ← and_assoc]
  refine and_congr_left fun _ => and_congr_right fun hv => ?_
  simp [hv]

/-! ## Frames -/

/-- The frames that a shrink frees are those of the vacant slabs. -/
theorem isFree_shrink (hV : Stands E p s.site V) (hlive : ∀ o, o ∈ s.live ↔ o.start ∈ objectsOf V o.sizeClass)
    {qs : List Frame.Request} {n f : Nat} (hshed : Sheds E s.site (s.step .shrink).site p qs V
      (shrunk (List.finRange classCount) V) n) : (s.step .shrink).IsFree f ↔ s.IsFree f ∨
        ∃ i, ∃ page ∈ s.vacant ((V i).map View.page), f = Align.frameOf (s.site.heap.mapper.toPhys ⟨page⟩).raw := by
  rw [isFree_iff hshed.stands, isFree_iff hV, hshed.free_iff hV, hV.mapper]
  refine or_congr_right ?_
  constructor
  · rintro ⟨hmem, i, v, hv, hout, hpage⟩
    exact ⟨i, v.page, (mem_vacant hV hlive).2 ⟨v, hv, hout, rfl⟩, ((hV.frame_of_page hv).2 f hmem).1 hpage⟩
  · rintro ⟨i, page, hpage, hf⟩
    obtain ⟨v, hv, hout, rfl⟩ := (mem_vacant hV hlive).1 hpage
    obtain ⟨hmem, hiff⟩ := hV.frame_of_page hv
    rw [← hf] at hmem
    exact ⟨hmem, i, v, hv, hout, (hiff f hmem).2 hf⟩

/-! ## Shrinking -/

/-- **A heap in order** gives back its vacant slabs and keeps the rest. -/
theorem shrinks_of_kept (h : s.Kept E) : ∃ pages, s.Shrinks pages := by
  obtain ⟨p, V, hV, hlive⟩ := h
  obtain ⟨hr, qs, hshed⟩ := shrink_ends hV
  have hshed : Sheds E s.site (s.step .shrink).site p qs V _ _ := hshed
  have hW := hshed.stands
  have hlive' : ∀ o, o ∈ (s.step .shrink).live ↔
      o.start ∈ objectsOf (shrunk (List.finRange classCount) V) o.sizeClass := by
    intro o
    rw [objectsOf_shrunk hV]
    exact hlive o
  have hkept : (s.step .shrink).Kept E := ⟨_, _, hW, hlive'⟩
  have hscattered := hV.scattered
  refine ⟨fun i => (V i).map View.page, ?_⟩
  exact {
    slabs := (books_of_stands hV hlive).slabs
    released := by rw [hr, vacancies_eq hV hlive]
    list := fun i => by
      rw [held_eq hV hlive]
      exact (books_of_stands hW hlive').slabs i
    count := fun i => by
      rw [held_eq hV hlive]
      exact (books_of_stands hW hlive').count i
    inUse := fun i => by
      have hold := (books_of_stands hV hlive).inUse i
      have hnew := (books_of_stands hW hlive').inUse i
      exact ENat.natCast_inj.1 (hnew.trans hold.symm)
    frames := fun f => isFree_shrink hV hlive hshed
    pool := by
      rw [vacancies_eq hV hlive]
      exact ⟨p, hV.supplies.keeps.pool?, _, hW.supplies.keeps.pool?, hshed.culls.free, hshed.culls.used,
        hshed.culls.failures⟩
    cleared := fun i page hpage => by
      obtain ⟨v, hv, hout, rfl⟩ := (mem_vacant hV hlive).1 hpage
      refine hshed.culls.cleared v ⟨⟨i, hv⟩, ?_⟩
      rintro ⟨j, hw⟩
      obtain rfl := hV.class_eq hv (hshed.subset j hw) rfl
      exact hout hw
    stays := fun i page hpage a ha hlink => by
      rw [held_eq hV hlive] at hpage
      obtain ⟨v, hv, rfl⟩ := List.mem_map.1 hpage
      exact hshed.culls.keeps hscattered ⟨i, hv⟩ ha hlink
    objects := fun o ho => by
      refine ⟨fun a ha => ?_, answers_of_kept hkept (.free o.start) ⟨o, ho, rfl⟩⟩
      exact hshed.alters a (hV.notMem_touched ((hlive o).1 ho) ((hlive' o).1 ho) ha)
    again := by
      obtain ⟨hr', -⟩ := shrink_ends hW
      rw [hr', idleIn_shrunk]
    serves := fun hpos m hshow size h0 hle => by
      refine (dispenses_of_kept hkept m size).ok.2 ⟨h0, hle, fun _ => ?_⟩
      rw [vacancies_eq hV hlive] at hpos
      have hsound := hW.supplies.sound
      obtain ⟨f, hf⟩ := hsound.freeFrames_pos.1 (by rw [hshed.culls.free]; omega)
      obtain ⟨k, hscan⟩ := Option.ne_none_iff_exists'.1 fun hnone => hsound.scan_none.1 hnone f hf
      have hnext := (nextFree_iff hW hscan).2 rfl
      exact ⟨_, hnext, hshow _ hnext.1⟩ }

/-- **Every shrink**, whatever has happened to the heap before: the slabs that hold no live object are released, and
nothing else is. -/
theorem shrinks_run {rs : List Region} {mapper : Mapper} {a : Arena} (h : Founded rs mapper a) (es : List Event)
    (hes : (start a mapper).LetAll es) : ∃ pages, Shrinks (es.foldl happen (start a mapper)) pages := by
  obtain ⟨E, hkept⟩ := kept_through h es hes
  exact shrinks_of_kept hkept

/-- Two objects get a slab each, others take the frame behind them, and one of the objects comes back. -/
theorem shrinks_fourFrames : ∃ pages, Shrinks (List.foldl happen (start fourFrames .identity)
    [.heap (.allocate 2000), .heap (.allocate 100), .pool .alloc, .heap (.free 0x1030)]) pages :=
  shrinks_run opens_fourFrames.founded _ ⟨trivial, trivial, trivial, trivial, trivial⟩

end Keel.Heap.Session
