import Keel.Proofs.Mapper
import Keel.Proofs.Slab.Page

/-!
# Fresh slabs and released ones

`format` makes a page hold a slab of which every cell is free (`holds_format`). `carve` does that to the page at which
the next free frame is visible (`carve_good`), gives the frame back if it is visible nowhere usable (`carve_bad`), and
changes nothing but the count of failed requests if no frame is free (`carve_none`). `release` gives the frame of a slab
back (`release_ends`).
-/

namespace Keel.Slab

open Keel.Memory (Alters block pageAt)
open Keel.Frame (Pool Request)

attribute [local irreducible] Memory.word

variable {m m' : Memory} {page next : Ptr} {c i j k n : Nat} {free : List Nat}

/-! ## Formatting -/

/-- Linking more cells in front of those linked already. -/
theorem linkCells_ok (page : Ptr) (hc : CellSize c) (h : Linked m page c (List.range i).reverse)
    (hn : i + n ≤ cellCount c) :
    Linked (linkCells page c i n (link page c (List.range i).reverse) m).1 page c (List.range (i + n)).reverse ∧
      (linkCells page c i n (link page c (List.range i).reverse) m).2 = link page c (List.range (i + n)).reverse ∧
      Alters (pageAt page) m (linkCells page c i n (link page c (List.range i).reverse) m).1 := by
  induction n generalizing i m with
  | zero => exact ⟨h, rfl, Alters.refl _ _⟩
  | succ n ih =>
    have hmin := hc.min
    have hi : i < cellCount c := by omega
    have hend := cellOffset_add_le hi
    have hnext : (List.range (i + 1)).reverse = i :: (List.range i).reverse := by
      rw [List.range_succ, List.reverse_append, List.reverse_singleton, List.singleton_append]
    have hlink : link page c (List.range (i + 1)).reverse = cellAt page c i := by
      rw [hnext]
      rfl
    rw [linkCells, cellAt_add_cellMagicField, ← hlink]
    generalize hm' : (m.setWord (link page c (List.range (i + 1)).reverse) (link page c (List.range i).reverse)).setWord
      (page + UInt64.ofNat (cellOffset c i + 8)) Layout.freeMagic = m'
    rw [hlink, cellAt_eq] at hm'
    have hsub : ∀ k, k + 8 ≤ c → block (page + UInt64.ofNat (cellOffset c i + k)) 8 ⊆ pageAt page := fun k hk =>
      (block_subset_cellBlock hk).trans (Holds.cellBlock_subset hi)
    have halters : Alters (pageAt page) m m' := by
      rw [← hm']
      exact ((Memory.alters_setWord _ _ _).mono (hsub 0 (by omega))).trans
        ((Memory.alters_setWord _ _ _).mono (hsub 8 (by omega)))
    have hold : ∀ j < i, ∀ d, d + 8 ≤ c →
        wordIn m' page (cellOffset c j + d) = wordIn m page (cellOffset c j + d) := by
      intro j hj d hd
      have hjend := cellOffset_add_le (Nat.lt_trans hj hi)
      have hne : j ≠ i := by omega
      have := cellOffset_apart c hne
      rw [← hm', wordIn_setWord (by omega) (by omega) (by omega), wordIn_setWord (by omega) (by omega) (by omega)]
    have hlinked : Linked m' page c (List.range (i + 1)).reverse := by
      rw [hnext]
      refine ⟨?_, ?_, h.congr (fun j hj => hold j (by simpa using hj) 0 (by omega)) fun j hj =>
        hold j (by simpa using hj) 8 (by omega)⟩
      · rw [← hm', wordIn_setWord (by omega) (by omega) (by omega), wordIn_setWord_self]
      · rw [← hm', wordIn_setWord_self]
    obtain ⟨h1, h2, h3⟩ := ih hlinked (by omega)
    rw [Nat.add_assoc, Nat.add_comm 1 n] at h1 h2
    exact ⟨h1, h2, halters.trans h3⟩

/-- The cells of a fresh slab, the last one in front. -/
def allCells (c : Nat) : List Nat := (List.range (cellCount c)).reverse

theorem mem_allCells : i ∈ allCells c ↔ i < cellCount c := by simp [allCells]

theorem length_allCells (c : Nat) : (allCells c).length = cellCount c := by simp [allCells]

theorem alters_format (hc : CellSize c) : Alters (pageAt page) m (format page c (cellCount c) m) := by
  obtain ⟨-, -, h⟩ := linkCells_ok page (m := m) (i := 0) (n := cellCount c) hc trivial (by omega)
  have hhead := Memory.alters_setWords (linkCells page c 0 (cellCount c) 0 m).1 page
    [0, (linkCells page c 0 (cellCount c) 0 m).2, UInt64.ofNat c, UInt64.ofNat (cellCount c),
      UInt64.ofNat (cellCount c), Layout.slabMagic]
  exact h.trans (hhead.mono (Holds.headerBlock_subset page))

/-- A formatted page is a slab of which every cell is free. -/
theorem holds_format (hc : CellSize c) (hal : page.toNat % 4096 = 0) (hne : page ≠ 0) :
    Holds (format page c (cellCount c) m) page c 0 (allCells c) := by
  obtain ⟨hlinked, hlast, -⟩ := linkCells_ok page (m := m) (i := 0) (n := cellCount c) hc trivial (by omega)
  rw [Nat.zero_add] at hlinked hlast
  have hmin := hc.min
  generalize hm' : (linkCells page c 0 (cellCount c) (link page c (List.range 0).reverse) m).1 = m' at hlinked
  generalize hl : (linkCells page c 0 (cellCount c) (link page c (List.range 0).reverse) m).2 = last at hlast
  have hformat : format page c (cellCount c) m =
      m'.setWords page [0, last, UInt64.ofNat c, UInt64.ofNat (cellCount c), UInt64.ofNat (cellCount c),
        Layout.slabMagic] := by
    rw [← hm', ← hl]
    rfl
  have hword : ∀ k (hk : k < 6), wordIn (format page c (cellCount c) m) page (8 * k) =
      [0, last, UInt64.ofNat c, UInt64.ofNat (cellCount c), UInt64.ofNat (cellCount c), Layout.slabMagic][k] := by
    intro k hk
    rw [hformat]
    exact Memory.word_setWords hk (by simp)
  have hcell : ∀ i < cellCount c, ∀ d, d + 8 ≤ c →
      wordIn (format page c (cellCount c) m) page (cellOffset c i + d) = wordIn m' page (cellOffset c i + d) := by
    intro i hi d hd
    have hend := cellOffset_add_le hi
    have hstart := header_le_cellOffset c i
    rw [hformat]
    refine (Memory.alters_setWords m' page _).word ?_
    have hd := disjoint_of_offsets page (j := 0) (n := 48) (k := cellOffset c i + d) (i := 8)
      (by omega) (by omega) (by omega)
    rw [show page + UInt64.ofNat 0 = page from UInt64.add_zero page] at hd
    exact hd.symm
  exact {
    aligned := hal
    ne_zero := hne
    next := hword 0 (by omega)
    first := (hword 1 (by omega)).trans hlast
    size := hword 2 (by omega)
    capacity := hword 3 (by omega)
    count := (hword 4 (by omega)).trans (congrArg UInt64.ofNat (length_allCells c).symm)
    mark := hword 5 (by omega)
    linked := hlinked.congr (fun i hi => hcell i (mem_allCells.1 hi) 0 (by omega)) fun i hi =>
      hcell i (mem_allCells.1 hi) 8 (by omega)
    nodup := List.nodup_reverse.2 List.nodup_range
    bound := fun i hi => mem_allCells.1 hi }

/-- A slab with another successor. -/
theorem Holds.setNext (h : Holds m page c next free) (hc : CellSize c) (w : Ptr) :
    Holds (m.setWord (page + nextField) w) page c w free := by
  have hmin := hc.min
  have hkeep : ∀ k, 8 ≤ k → k + 8 ≤ 4096 → wordIn (m.setWord (page + UInt64.ofNat 0) w) page k = wordIn m page k :=
    fun k h1 h2 => wordIn_setWord (by omega) h2 (by omega)
  have hcell : ∀ i ∈ free, ∀ d, d + 8 ≤ c → wordIn (m.setWord (page + UInt64.ofNat 0) w) page (cellOffset c i + d) =
      wordIn m page (cellOffset c i + d) := by
    intro i hi d hd
    have := cellOffset_add_le (h.bound i hi)
    have := header_le_cellOffset c i
    exact hkeep _ (by omega) (by omega)
  have hal := h.aligned
  exact {
    aligned := hal
    ne_zero := h.ne_zero
    next := wordIn_setWord_self m page 0 w
    first := (hkeep 8 (by omega) (by omega)).trans h.first
    size := (hkeep 16 (by omega) (by omega)).trans h.size
    capacity := (hkeep 24 (by omega) (by omega)).trans h.capacity
    count := (hkeep 32 (by omega) (by omega)).trans h.count
    mark := (hkeep 40 (by omega) (by omega)).trans h.mark
    linked := h.linked.congr (fun i hi => hcell i hi 0 (by omega)) fun i hi => hcell i hi 8 (by omega)
    nodup := h.nodup
    bound := h.bound }

theorem alters_setNext (m : Memory) (page w : Ptr) : Alters (headerBlock page) m (m.setWord (page + nextField) w) :=
  (Memory.alters_setWord _ _ _).mono (Memory.block_add_subset (j := 0) (by omega))

variable {rs : List Region} {s : Arena} {p : Pool} {B : Set Ptr} {mp : Mapper} {D : Set Nat} {f : Nat}

/-! ## Carving -/

/-- If no frame is free, none is carved. -/
theorem carve_none (h : s.Keeps p B) (hs : p.Sound rs) (hc : CellSize c) (hscan : p.scan = none) :
    (carve mp c).Ends s fun r t =>
      (¬p.Saturated ∧ r = .error (.fault .tooMany) ∨ p.Saturated ∧ r = .error (.halt .addOverflow)) ∧
        s.Becomes t (p.after [.alloc]) B ∅ := by
  unfold carve
  rw [Action.ends_ite, if_neg (by simp [isCellSize_iff.2 hc])]
  refine (Arena.allocFrame_ends h hs ∅).bind ?_
  intro r t hends
  obtain ⟨rfl, ht⟩ := hends
  rcases Pool.alloc_of_scan_none hs hscan with ⟨hlt, hr, -⟩ | ⟨hge, hr, -⟩
  · rw [hr]
    exact ⟨.inl ⟨Nat.not_le.2 hlt, rfl⟩, ht⟩
  · rw [hr]
    exact ⟨.inr ⟨hge, rfl⟩, ht⟩

/-- A free frame that is visible as a page becomes a slab with free cells only. -/
theorem carve_good (h : s.Keeps p B) (hs : p.Sound rs) (hc : CellSize c) (hscan : p.scan = some i)
    (hshow : mp.Shows (p.base + i)) (hd : Disjoint (pageAt (mp.page (p.base + i))) B) :
    (carve mp c).Ends s fun r t => r = .ok (mp.page (p.base + i)) ∧
      s.Becomes t (p.after [.alloc]) B (pageAt (mp.page (p.base + i))) ∧
      Holds t.memory (mp.page (p.base + i)) c 0 (allCells c) := by
  unfold carve
  rw [Action.ends_ite, if_neg (by simp [isCellSize_iff.2 hc])]
  refine (Arena.allocFrame_ends h hs (pageAt (mp.page (p.base + i)))).bind ?_
  intro r t hends
  obtain ⟨rfl, ht⟩ := hends
  rw [(hs.free_alloc hscan).1, Action.goes_ok, Action.ends_ite, if_neg (mt (Mapper.refuses_iff mp _).1 (not_not.2 hshow)),
    Action.ends_bind, Action.ends_lift, hc.capacityFor, Action.goes_ok, Action.ends_bind, Arena.ends_write,
    Action.goes_ok, Action.ends_bind, Action.ends_note, Action.goes_ok, Action.ends_pure]
  exact ⟨rfl, ht.trans (ht.keeps.becomes_write (alters_format hc) hd), holds_format hc hshow.1 hshow.2⟩

/-- A free frame that is visible nowhere usable goes back to the pool. -/
theorem carve_bad (h : s.Keeps p B) (hs : p.Sound rs) (hc : CellSize c) (hscan : p.scan = some i)
    (hshow : ¬mp.Shows (p.base + i)) : (carve mp c).Ends s fun r t => r = .error (.fault .badAlloc) ∧
      s.Becomes t (p.after [.alloc, .release ⟨Align.frameStart (p.base + i)⟩]) B ∅ := by
  unfold carve
  rw [Action.ends_ite, if_neg (by simp [isCellSize_iff.2 hc])]
  refine (Arena.allocFrame_ends h hs ∅).bind ?_
  intro r t hends
  obtain ⟨rfl, ht⟩ := hends
  obtain ⟨q, rfl, hback, -⟩ := hs.free_return hscan
  rw [(hs.free_alloc hscan).1, Action.goes_ok, Action.ends_ite, if_pos ((Mapper.refuses_iff mp _).2 hshow),
    Action.ends_bind, Action.ends_note, Action.goes_ok]
  refine (Arena.freeFrame_ends ht.keeps (hs.on .alloc).1 _ ∅).bind ?_
  intro r u hends
  obtain ⟨rfl, hu⟩ := hends
  rw [show (p.after [.alloc]) = Request.on p .alloc from rfl, hback, Action.goes_ok, Action.ends_bind, Action.ends_fail]
  exact ⟨rfl, ht.trans hu⟩

/-! ## Releasing -/

/-- The frame of a slab goes back to the pool, and the mark of the slab is cleared. -/
theorem release_ends (h : s.Keeps p B) (hs : p.Sound rs) (hD : Circulates mp D B)
    (hf : f ∈ D) (hu : p.Usable f) (h0 : f ≠ 0) (hnot : ¬p.Free f) (hshow : mp.Shows f)
    (hpage : Holds s.memory (mp.page f) c next free) : (release mp (mp.page f)).Ends s fun r t => r = .ok () ∧
      s.Becomes t (p.after [.release ⟨Align.frameStart f⟩]) B (block (mp.page f + magicField) 8) ∧
      t.memory.word (mp.page f + magicField) = 0 := by
  have hd : Disjoint (block (mp.page f + magicField) 8) B :=
    (hD.apart f hf hshow).mono_left (Memory.block_add_subset (j := 40) (by omega))
  unfold release
  rw [Action.ends_bind, hpage.verify_ends, Action.goes_ok, Action.ends_bind, Arena.ends_setWord, Action.goes_ok,
    Action.ends_bind, ends_header, Action.goes_ok, Action.ends_bind, Action.ends_note, Action.goes_ok,
    show mp.toPhys ⟨mp.page f⟩ = ⟨Align.frameStart f⟩ from hD.back f hf hshow]
  have hk := h.becomes_write (Memory.alters_setWord s.memory (mp.page f + magicField) 0) hd
  refine (Arena.freeFrame_ends hk.keeps hs _ ∅).mono ?_
  intro r t hends
  obtain ⟨hr, ht⟩ := hends
  refine ⟨hr.trans (hs.free_release hu h0 hnot).1, hk.trans (ht.mono (Set.empty_subset _)), ?_⟩
  rw [ht.alters.word (by rwa [Set.empty_union])]
  exact Memory.word_setWord _ _ _

end Keel.Slab
