import Keel.Proofs.Slab.Objects

/-!
# Caches in order

`Stands E p c s vs` says that a cache of cells of `c` bytes is in order: memory holds its slabs `vs`, its counts agree
with them, and each page is a frame of the estate `E` that was taken from the pool `p`. `Turns` says what an operation
may do to a cache in order and to what is around it: the cache stays in order, every frame that was free or a slab is
free or a slab, and nothing is written outside the pages of slabs, nor where an object was and still is. Operations
follow one another (`Turns.trans`), and the smallest one is a cell that changes hands (`Stands.turn_cell`).
-/

namespace Keel.Slab

open Keel.Memory (Alters block pageAt)
open Keel.Frame (Pool Request)

attribute [local irreducible] Memory.word

/-! ## Estates -/

/-- What slabs are made from: the memory map, the mapper, the frames that may become slabs, and the addresses at which
the bitmap is kept. -/
structure Estate where
  regions : List Region
  mapper : Mapper
  frames : Set Nat
  bitmap : Set Ptr

variable {E : Estate} {s t u : Arena} {p q : Pool} {page : Ptr} {f : Nat} {qs : List Request}

/-- The arena keeps a pool that gives out frames of the estate only. -/
structure Supplies (E : Estate) (s : Arena) (p : Pool) : Prop where
  keeps : s.Keeps p E.bitmap
  sound : p.Sound E.regions
  circulates : Circulates E.mapper E.frames E.bitmap
  usable : ∀ f ∈ E.frames, f ≠ 0 ∧ p.Usable f
  free : ∀ f, p.Free f → f ∈ E.frames

/-- The bytes of the bitmap, if anything is asked of the pool. -/
def Estate.asked (E : Estate) (qs : List Request) : Set Ptr := {a | qs ≠ [] ∧ a ∈ E.bitmap}

theorem Estate.asked_nil : E.asked [] = ∅ := Set.eq_empty_of_forall_notMem fun _ ha => ha.1 rfl

theorem Estate.asked_cons (q : Request) (qs : List Request) : E.asked (q :: qs) = E.bitmap :=
  Set.ext fun _ => and_iff_right (List.cons_ne_nil q qs)

theorem Estate.asked_subset (qs : List Request) : E.asked qs ⊆ E.bitmap := fun _ ha => ha.2

theorem Estate.asked_append (qs qs' : List Request) : E.asked (qs ++ qs') = E.asked qs ∪ E.asked qs' := by
  ext a
  simp only [asked, Set.mem_ofPred_eq, Set.mem_union, ne_eq, List.append_eq_nil_iff, not_and_or]
  exact or_and_right

/-- A page of a frame that the pool has given out. -/
def Backed (E : Estate) (p : Pool) (page : Ptr) : Prop :=
  ∃ f ∈ E.frames, E.mapper.Shows f ∧ ¬p.Free f ∧ E.mapper.page f = page

theorem Supplies.after (h : Supplies E s p) (hk : t.Keeps (p.after qs) E.bitmap)
    (hf : ∀ f, (p.after qs).Free f → f ∈ E.frames) : Supplies E t (p.after qs) :=
  ⟨hk, h.sound.after qs, h.circulates, fun f hm =>
    ⟨(h.usable f hm).1, (h.sound.sameMap_after qs).usable_iff.2 (h.usable f hm).2⟩, hf⟩

theorem Supplies.disjoint_bitmap (h : Supplies E s p) (hb : Backed E q page) : Disjoint (pageAt page) E.bitmap := by
  obtain ⟨f, hf, hshow, -, rfl⟩ := hb
  exact h.circulates.apart f hf hshow

/-- The frame that a slab is made of is the one to which the mapper leads back from its page. -/
theorem Supplies.frame_of_page (h : Supplies E s p) (hb : Backed E q page) :
    Align.frameOf (E.mapper.toPhys ⟨page⟩).raw ∈ E.frames ∧
      ∀ f ∈ E.frames, page = E.mapper.page f ↔ f = Align.frameOf (E.mapper.toPhys ⟨page⟩).raw := by
  obtain ⟨g, hg, hshow, -, rfl⟩ := hb
  have hback : E.mapper.toPhys ⟨E.mapper.page g⟩ = ⟨Align.frameStart g⟩ := h.circulates.back g hg hshow
  rw [hback, Align.frameOf_frameStart (h.circulates.small g hg)]
  exact ⟨hg, fun f hf => h.circulates.page_eq_iff hg hf hshow⟩

theorem Supplies.write {m : Memory} {S : Set Ptr} (h : Supplies E s p) (ha : Alters S s.memory m)
    (hd : Disjoint S E.bitmap) : Supplies E { s with memory := m } p :=
  ⟨h.keeps.write ha hd, h.sound, h.circulates, h.usable, h.free⟩

/-! ## A cache in order -/

variable {c i : Nat} {x : Ptr} {v w : View} {vs ws us xs ys : List View}

/-- A cache of cells of `c` bytes is in order, and its slabs are `vs`. -/
structure Stands (E : Estate) (p : Pool) (c : Nat) (s : CacheSite) (vs : List View) : Prop where
  supplies : Supplies E s.arena p
  cell : CellSize c
  size : s.cache.cellSize = c
  first : s.cache.first = head vs
  count : s.cache.slabCount = vs.length
  used : s.cache.inUse = usedIn c vs
  chain : Chain s.arena.memory c vs
  distinct : (vs.map View.page).Nodup
  backed : ∀ v ∈ vs, Backed E p v.page

/-- A cache without slabs is in order. -/
theorem stands_empty (h : Supplies E s p) (hc : CellSize c) : Stands E p c ⟨s, Cache.empty c⟩ [] :=
  ⟨h, hc, rfl, rfl, rfl, rfl, trivial, List.nodup_nil, List.forall_mem_nil _⟩

/-- Where an operation may write that turns the slabs `vs` into `ws`: in their pages, but in no object that is one
before and after. -/
def touched (c : Nat) (vs ws : List View) : Set Ptr :=
  {a | (∃ v ∈ vs ++ ws, a ∈ pageAt v.page) ∧ ∀ x ∈ objects c vs, x ∈ objects c ws → a ∉ block x c}

/-- What an operation has done that turned the slabs `vs` into `ws` and asked `qs` of the pool `p`. -/
structure Turns (E : Estate) (c : Nat) (s t : CacheSite) (p : Pool) (qs : List Request) (vs ws : List View) : Prop where
  stands : Stands E (p.after qs) c t ws
  frames : ∀ f ∈ E.frames, ((p.after qs).Free f ∨ ∃ w ∈ ws, w.page = E.mapper.page f) ↔
    (p.Free f ∨ ∃ v ∈ vs, v.page = E.mapper.page f)
  alters : Alters (touched c vs ws ∪ E.asked qs) s.arena.memory t.arena.memory
  poison : t.arena.poison = s.arena.poison

section

variable {s t u : CacheSite} {qs qs' : List Request}

theorem Stands.turns (h : Stands E p c s vs) : Turns E c s s p [] vs vs :=
  ⟨h, fun _ _ => Iff.rfl, Alters.refl _ _, rfl⟩

theorem touched_trans (hpage : ∀ w ∈ ws, ∃ v ∈ vs ++ us, v.page = w.page)
    (hobj : ∀ x ∈ objects c vs, x ∈ objects c us → x ∈ objects c ws) :
    touched c vs ws ⊆ touched c vs us ∧ touched c ws us ⊆ touched c vs us := by
  constructor
  · rintro a ⟨⟨v, hv, ha⟩, hout⟩
    refine ⟨?_, fun x hx hx' => hout x hx (hobj x hx hx')⟩
    rcases List.mem_append.1 hv with hv | hv
    · exact ⟨v, List.mem_append_left _ hv, ha⟩
    · obtain ⟨w, hw, he⟩ := hpage v hv
      exact ⟨w, hw, by rwa [he]⟩
  · rintro a ⟨⟨v, hv, ha⟩, hout⟩
    refine ⟨?_, fun x hx hx' => hout x (hobj x hx hx') hx'⟩
    rcases List.mem_append.1 hv with hv | hv
    · obtain ⟨w, hw, he⟩ := hpage v hv
      exact ⟨w, hw, by rwa [he]⟩
    · exact ⟨v, List.mem_append_right _ hv, ha⟩

/-- One operation after another, where the slabs between them are old or new, and the objects too. -/
theorem Turns.trans (h : Turns E c s t p qs vs ws) (h' : Turns E c t u (p.after qs) qs' ws us)
    (hpage : ∀ w ∈ ws, ∃ v ∈ vs ++ us, v.page = w.page)
    (hobj : ∀ x ∈ objects c vs, x ∈ objects c us → x ∈ objects c ws) : Turns E c s u p (qs ++ qs') vs us := by
  obtain ⟨h1, h2⟩ := touched_trans hpage hobj
  refine {
    stands := by rw [Pool.after_append]; exact h'.stands
    frames := fun f hf => by rw [Pool.after_append]; exact (h'.frames f hf).trans (h.frames f hf)
    alters := ?_
    poison := h'.poison.trans h.poison }
  rw [Estate.asked_append]
  exact (h.alters.mono (Set.union_subset_union h1 Set.subset_union_left)).trans
    (h'.alters.mono (Set.union_subset_union h2 Set.subset_union_right))

/-- A write to bytes that neither the cache nor the pool relies on. -/
theorem Stands.write {m : Memory} {S : Set Ptr} (h : Stands E p c s vs) (ha : Alters S s.arena.memory m)
    (hd : Disjoint (guarded c vs ∪ E.bitmap) S) : Stands E p c ⟨{ s.arena with memory := m }, s.cache⟩ vs := by
  obtain ⟨hguard, hbitmap⟩ := Set.disjoint_union_left.1 hd
  exact { h with supplies := h.supplies.write ha hbitmap.symm, chain := h.chain.write h.cell ha hguard }

/-- Requests to the pool that free no page of a slab leave a cache in order. -/
theorem Stands.onPool {u : Arena} (h : Stands E p c s vs) (hu : s.arena.Becomes u (p.after qs) E.bitmap ∅)
    (hfree : ∀ f, (p.after qs).Free f → f ∈ E.frames ∧ ∀ v ∈ vs, v.page ≠ E.mapper.page f) :
    Stands E (p.after qs) c ⟨u, s.cache⟩ vs where
  supplies := h.supplies.after hu.keeps fun f hf => (hfree f hf).1
  cell := h.cell
  size := h.size
  first := h.first
  count := h.count
  used := h.used
  chain := h.chain.congr h.cell (hu.alters.mono (Set.empty_union _).subset) fun v hv =>
    h.supplies.disjoint_bitmap (h.backed v hv)
  distinct := h.distinct
  backed := fun v hv => by
    obtain ⟨f, hf, hshow, -, hpage⟩ := h.backed v hv
    exact ⟨f, hf, hshow, fun hff => (hfree f hff).2 v hv hpage.symm, hpage⟩

/-! ## Where operations write -/

variable {m : Memory}

/-- A cell that is not an object all along may be written, and the header of its slab. -/
theorem cell_subset_touched (h : Chain m c vs) (hc : CellSize c) (hn : (vs.map View.page).Nodup) (hv : v ∈ vs)
    (hi : i < cellCount c) (hout : cellAt v.page c i ∈ objects c vs → cellAt v.page c i ∉ objects c ws) :
    headerBlock v.page ∪ cellBlock v.page c i ⊆ touched c vs ws := by
  intro a ha
  have hpage : a ∈ pageAt v.page := ha.elim (fun ha => Holds.headerBlock_subset _ ha) fun ha => Holds.cellBlock_subset hi ha
  refine ⟨⟨v, List.mem_append_left _ hv, hpage⟩, fun x hx hx' hax => ?_⟩
  obtain ⟨w, hw, j, hj, hnot, rfl, -, hsub⟩ := h.of_objects hc hx
  by_cases he : v.page = w.page
  · obtain rfl := unique hn hv hw he
    rcases ha with ha | ha
    · exact Set.disjoint_left.1 (disjoint_headerBlock hj) ha hax
    · refine Set.disjoint_left.1 (disjoint_cellBlock hi hj ?_) ha hax
      rintro rfl
      exact hout hx hx'
  · exact Set.disjoint_left.1 (h.disjoint hv hw he) hpage (hsub hax)

/-- The headers of slabs may be written. -/
theorem header_subset_touched (h : Chain m c vs) (hc : CellSize c) (hn : (vs.map View.page).Nodup) (hv : v ∈ vs) :
    headerBlock v.page ⊆ touched c vs ws := by
  intro a ha
  have hpage := Holds.headerBlock_subset _ ha
  refine ⟨⟨v, List.mem_append_left _ hv, hpage⟩, fun x hx _ hax => ?_⟩
  obtain ⟨w, hw, j, hj, -, rfl, -, hsub⟩ := h.of_objects hc hx
  by_cases he : v.page = w.page
  · obtain rfl := unique hn hv hw he
    exact Set.disjoint_left.1 (disjoint_headerBlock hj) ha hax
  · exact Set.disjoint_left.1 (h.disjoint hv hw he) hpage (hsub hax)

/-- A page that becomes a slab may be written. -/
theorem page_subset_touched (h : Chain m c vs) (hc : CellSize c) (hal : w.page.toNat % 4096 = 0)
    (hnew : ∀ v ∈ vs, v.page ≠ w.page) : pageAt w.page ⊆ touched c vs (w :: vs) := by
  intro a ha
  refine ⟨⟨w, by simp, ha⟩, fun x hx _ hax => ?_⟩
  obtain ⟨v, hv, -, -, -, -, -, hsub⟩ := h.of_objects hc hx
  exact Set.disjoint_left.1 (Memory.disjoint_pageAt hal (h.aligned hv) (hnew v hv).symm) ha (hsub hax)

/-! ## One cell -/

/-- A cell changes hands: its slab gets another list of free cells, and the cache another count of objects. -/
theorem Stands.turn_cell {n : Nat} (h : Stands E p c s (xs ++ v :: ys)) (hp : w.page = v.page) (hi : i < cellCount c)
    (hw : Holds m w.page c (head ys) w.free)
    (ha : Alters (headerBlock v.page ∪ cellBlock v.page c i) s.arena.memory m)
    (hout : cellAt v.page c i ∈ objects c (xs ++ v :: ys) → cellAt v.page c i ∉ objects c (xs ++ w :: ys))
    (hused : n = usedIn c (xs ++ w :: ys)) :
    Turns E c s ⟨{ s.arena with memory := m }, { s.cache with inUse := n }⟩ p [] (xs ++ v :: ys) (xs ++ w :: ys) := by
  have hv : v ∈ xs ++ v :: ys := by simp
  have hpages : (xs ++ w :: ys).map View.page = (xs ++ v :: ys).map View.page := by
    rw [List.map_append, List.map_cons, hp, List.map_append, List.map_cons]
  have hmem : ∀ a, (∃ u ∈ xs ++ w :: ys, u.page = a) ↔ ∃ u ∈ xs ++ v :: ys, u.page = a := fun a => by
    rw [← List.mem_map, hpages, List.mem_map]
  have hsub : headerBlock v.page ∪ cellBlock v.page c i ⊆ pageAt v.page :=
    Set.union_subset (Holds.headerBlock_subset _) (Holds.cellBlock_subset hi)
  have hdisj := (h.supplies.disjoint_bitmap (h.backed v hv)).mono_left hsub
  refine {
    stands := {
      supplies := h.supplies.write ha hdisj
      cell := h.cell
      size := h.size
      first := h.first.trans (Chain.head_append xs hp.symm)
      count := by rw [h.count, List.length_append, List.length_append, List.length_cons, List.length_cons]
      used := hused
      chain := h.chain.set [] h.cell h.distinct hp hw (ha.mono hsub)
      distinct := by rw [hpages]; exact h.distinct
      backed := fun u hu => ?_ }
    frames := fun f _ => or_congr_right (hmem _)
    alters := (ha.mono (cell_subset_touched h.chain h.cell h.distinct hv hi hout)).mono Set.subset_union_left
    poison := rfl }
  obtain ⟨u', hu', he⟩ := (hmem u.page).1 ⟨u, hu, rfl⟩
  rw [← he]
  exact h.backed u' hu'

end

end Keel.Slab
