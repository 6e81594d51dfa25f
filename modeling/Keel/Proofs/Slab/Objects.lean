import Mathlib.Data.Fintype.Card
import Mathlib.Data.Set.Insert
import Keel.Proofs.Slab.Cache

/-!
# Objects

The cells in use of some slabs are their `objects`, and `usedIn` counts them slab by slab. Taking a cell off the list of
a slab adds one object (`objects_take`, `usedIn_take`); a slab of which every cell is free adds none (`objects_idle`,
`usedIn_idle`). An object lies in the page of its slab behind the header, and no two objects meet.
-/

namespace Keel.Slab

open Keel.Memory (Alters block pageAt)

attribute [local irreducible] Memory.word

variable {m m' : Memory} {S : Set Ptr} {c i j : Nat} {page page' x y : Ptr} {v w : View} {vs xs ys : List View}
  {is : List Nat}

/-! ## Addresses of cells -/

theorem mem_pageAt_cellAt (hi : i < cellCount c) (hc : CellSize c) : cellAt page c i ∈ pageAt page := by
  have hend := cellOffset_add_le hi
  have hmin := hc.min
  exact Memory.add_mem_block (show cellOffset c i < 4096 by omega)

theorem containing_eq (hal : page.toNat % 4096 = 0) (hx : x ∈ pageAt page) : containing x = page := by
  rw [Memory.mem_pageAt hal] at hx
  rw [← UInt64.toNat_inj, containing, Align.toNat_pageFloor]
  omega

theorem containing_cellAt (hal : page.toNat % 4096 = 0) (hi : i < cellCount c) (hc : CellSize c) :
    containing (cellAt page c i) = page := containing_eq hal (mem_pageAt_cellAt hi hc)

theorem cellAt_mod (hal : page.toNat % 4096 = 0) (hi : i < cellCount c) (hc : CellSize c) :
    (cellAt page c i).toNat % 16 = 0 := by
  have hend := cellOffset_add_le hi
  have hmin := hc.min
  have hmul : cellOffset c i % 16 = 0 := by
    unfold cellOffset
    rw [Nat.add_mod, Nat.mul_mod, hc.step]
    rfl
  rw [cellAt_toNat hal (by omega)]
  omega

/-- Two cells of one size are at two addresses. -/
theorem cellAt_page_inj (hc : CellSize c) (hal : page.toNat % 4096 = 0) (hal' : page'.toNat % 4096 = 0)
    (hi : i < cellCount c) (hj : j < cellCount c) (h : cellAt page c i = cellAt page' c j) : page = page' ∧ i = j := by
  have hpage : page = page' := by rw [← containing_cellAt hal hi hc, h, containing_cellAt hal' hj hc]
  subst hpage
  have hmin := hc.min
  have hiend := cellOffset_add_le hi
  have hjend := cellOffset_add_le hj
  exact ⟨rfl, cellAt_inj (by omega) (by omega) hc h⟩

theorem disjoint_cellBlock (hi : i < cellCount c) (hj : j < cellCount c) (h : i ≠ j) :
    Disjoint (cellBlock page c i) (cellBlock page c j) := by
  have hiend := cellOffset_add_le hi
  have hjend := cellOffset_add_le hj
  exact disjoint_of_offsets page (cellOffset_apart c h) hiend hjend

theorem disjoint_headerBlock (hi : i < cellCount c) : Disjoint (headerBlock page) (cellBlock page c i) := by
  have hend := cellOffset_add_le hi
  have hstart := header_le_cellOffset c i
  have h := disjoint_of_offsets page (j := 0) (n := 48) (k := cellOffset c i) (i := c) (by omega) (by omega) hend
  rwa [show page + UInt64.ofNat 0 = page from UInt64.add_zero page] at h

/-! ## Cells in use -/

/-- The cells in use of some slabs. -/
def objects (c : Nat) (vs : List View) : Set Ptr :=
  {x | ∃ v ∈ vs, ∃ i < cellCount c, i ∉ v.free ∧ x = cellAt v.page c i}

/-- The number of cells in use of some slabs. -/
def usedIn (c : Nat) (vs : List View) : Nat := (vs.map fun v => cellCount c - v.free.length).sum

theorem mem_objects : x ∈ objects c vs ↔ ∃ v ∈ vs, ∃ i < cellCount c, i ∉ v.free ∧ x = cellAt v.page c i := Iff.rfl

theorem objects_append : objects c (xs ++ ys) = objects c xs ∪ objects c ys := by
  ext x
  simp only [mem_objects, List.mem_append, Set.mem_union]
  constructor
  · rintro ⟨v, hv | hv, h⟩
    · exact .inl ⟨v, hv, h⟩
    · exact .inr ⟨v, hv, h⟩
  · rintro (⟨v, hv, h⟩ | ⟨v, hv, h⟩)
    · exact ⟨v, .inl hv, h⟩
    · exact ⟨v, .inr hv, h⟩

theorem objects_cons (v : View) (vs : List View) : objects c (v :: vs) = objects c [v] ∪ objects c vs := by
  rw [← List.singleton_append, objects_append]

theorem usedIn_append : usedIn c (xs ++ ys) = usedIn c xs + usedIn c ys := by
  rw [usedIn, List.map_append, List.sum_append]
  rfl

theorem usedIn_cons : usedIn c (v :: vs) = cellCount c - v.free.length + usedIn c vs := rfl

theorem usedIn_le (hc : CellSize c) (vs : List View) : usedIn c vs ≤ vs.length * 253 := by
  have hcount := hc.cellCount_le
  induction vs with
  | nil => exact Nat.zero_le _
  | cons v vs ih =>
    rw [usedIn_cons, List.length_cons, Nat.succ_mul]
    omega

/-! ## What changes the objects -/

theorem objects_take_single (hi : i < cellCount c) (hnot : i ∉ is) :
    objects c [⟨page, is⟩] = insert (cellAt page c i) (objects c [⟨page, i :: is⟩]) := by
  ext x
  simp only [mem_objects, List.mem_singleton, Set.mem_insert_iff]
  constructor
  · rintro ⟨v, rfl, j, hj, hfree, rfl⟩
    by_cases hji : j = i
    · exact .inl (by rw [hji])
    · refine .inr ⟨_, rfl, j, hj, fun hm => ?_, rfl⟩
      rcases List.mem_cons.1 hm with h | h
      · exact hji h
      · exact hfree h
  · rintro (rfl | ⟨v, rfl, j, hj, hfree, rfl⟩)
    · exact ⟨_, rfl, i, hi, hnot, rfl⟩
    · exact ⟨_, rfl, j, hj, fun hm => hfree (List.mem_cons_of_mem _ hm), rfl⟩

/-- A cell taken off the list of its slab becomes an object. -/
theorem objects_take (xs ys : List View) (hi : i < cellCount c) (hnot : i ∉ is) :
    objects c (xs ++ ⟨page, is⟩ :: ys) = insert (cellAt page c i) (objects c (xs ++ ⟨page, i :: is⟩ :: ys)) := by
  rw [objects_append, objects_cons _ ys, objects_take_single hi hnot, objects_append, objects_cons _ ys]
  ext x
  simp only [Set.mem_union, Set.mem_insert_iff]
  tauto

theorem usedIn_take (h : is.length < cellCount c) :
    usedIn c (xs ++ ⟨page, is⟩ :: ys) = usedIn c (xs ++ ⟨page, i :: is⟩ :: ys) + 1 := by
  rw [usedIn_append, usedIn_append, usedIn_cons, usedIn_cons]
  simp only [List.length_cons]
  omega

/-- Of a slab all of whose cells are free, no cell is an object. -/
theorem objects_idle (xs ys : List View) (h : ∀ i < cellCount c, i ∈ v.free) :
    objects c (xs ++ v :: ys) = objects c (xs ++ ys) := by
  have hnone : objects c [v] = ∅ := by
    refine Set.eq_empty_of_forall_notMem ?_
    rintro x ⟨w, hw, i, hi, hnot, -⟩
    rw [List.mem_singleton.1 hw] at hnot
    exact hnot (h i hi)
  rw [objects_append, objects_cons, hnone, Set.empty_union, objects_append]

theorem usedIn_idle (h : v.free.length = cellCount c) : usedIn c (xs ++ v :: ys) = usedIn c (xs ++ ys) := by
  rw [usedIn_append, usedIn_cons, h, Nat.sub_self, Nat.zero_add, usedIn_append]

theorem Holds.mem_of_length {next : Ptr} {free : List Nat} (h : Holds m page c next free)
    (hl : free.length = cellCount c) : ∀ i < cellCount c, i ∈ free := by
  intro i hi
  by_contra hnot
  have := h.length_lt hi hnot
  omega

theorem Holds.exists_used {next : Ptr} {free : List Nat} (h : Holds m page c next free)
    (hl : free.length ≠ cellCount c) : ∃ i < cellCount c, i ∉ free := by
  by_contra hall
  have hfree : ∀ i < cellCount c, i ∈ free := by simpa using hall
  have hle := h.length_le
  have hge := ((List.nodup_range (n := cellCount c)).subperm fun i hi => hfree i (List.mem_range.1 hi)).length_le
  rw [List.length_range] at hge
  omega

/-! ## Where objects are -/

theorem unique (hn : (vs.map View.page).Nodup) (hv : v ∈ vs) (hw : w ∈ vs) (h : v.page = w.page) : v = w :=
  List.inj_on_of_nodup_map hn hv hw h

/-- A free cell is no object. -/
theorem notMem_objects (hal : ∀ v ∈ vs, v.page.toNat % 4096 = 0) (hc : CellSize c) (hn : (vs.map View.page).Nodup)
    (hv : v ∈ vs) (hi : i < cellCount c) (hfree : i ∈ v.free) : cellAt v.page c i ∉ objects c vs := by
  rintro ⟨w, hw, j, hj, hnot, he⟩
  obtain ⟨hpage, rfl⟩ := cellAt_page_inj hc (hal v hv) (hal w hw) hi hj he
  obtain rfl := unique hn hv hw hpage
  exact hnot hfree

namespace Chain

/-- There are no more slabs than pages. -/
theorem length_le (h : Chain m c vs) (hn : (vs.map View.page).Nodup) : vs.length ≤ 2 ^ 52 := by
  have hlt : ∀ a : Ptr, a.toNat / 4096 < 2 ^ 52 := fun a => by
    have := a.toNat_lt
    omega
  have hnodup : (vs.map fun v => (⟨v.page.toNat / 4096, hlt v.page⟩ : Fin (2 ^ 52))).Nodup := by
    refine List.Nodup.map_on (fun v hv w hw he => unique hn hv hw ?_) (List.Nodup.of_map _ hn)
    have hv := h.aligned hv
    have hw := h.aligned hw
    have he : v.page.toNat / 4096 = w.page.toNat / 4096 := congrArg Fin.val he
    exact UInt64.toNat_inj.1 (by omega)
  have := hnodup.length_le_card
  rwa [List.length_map, Fintype.card_fin] at this

/-- The slab of an object. -/
theorem of_objects (h : Chain m c vs) (hc : CellSize c) (hx : x ∈ objects c vs) :
    ∃ v ∈ vs, ∃ i < cellCount c, i ∉ v.free ∧ x = cellAt v.page c i ∧ containing x = v.page ∧
      block x c ⊆ pageAt v.page := by
  obtain ⟨v, hv, i, hi, hnot, rfl⟩ := hx
  exact ⟨v, hv, i, hi, hnot, rfl, containing_cellAt (h.aligned hv) hi hc, Holds.cellBlock_subset hi⟩

/-- Two objects of the same slabs do not meet. -/
theorem disjoint_objects (h : Chain m c vs) (hc : CellSize c) (hx : x ∈ objects c vs) (hy : y ∈ objects c vs)
    (hne : x ≠ y) : Disjoint (block x c) (block y c) := by
  obtain ⟨v, hv, i, hi, -, rfl, -, hvsub⟩ := h.of_objects hc hx
  obtain ⟨w, hw, j, hj, -, rfl, -, hwsub⟩ := h.of_objects hc hy
  by_cases hpage : v.page = w.page
  · rw [hpage] at hne ⊢
    refine disjoint_cellBlock hi hj ?_
    rintro rfl
    exact hne rfl
  · exact Set.disjoint_of_subset hvsub hwsub (h.disjoint hv hw hpage)

end Chain

/-! ## What slabs rely on -/

/-- The bytes that some slabs rely on: their headers and their free cells. -/
def guarded (c : Nat) (vs : List View) : Set Ptr :=
  {a | ∃ v ∈ vs, a ∈ headerBlock v.page ∨ ∃ i ∈ v.free, a ∈ cellBlock v.page c i}

theorem guarded_subset (h : Chain m c vs) {a : Ptr} (ha : a ∈ guarded c vs) : ∃ v ∈ vs, a ∈ pageAt v.page := by
  obtain ⟨v, hv, ha⟩ := ha
  refine ⟨v, hv, ?_⟩
  rcases ha with ha | ⟨i, hi, ha⟩
  · exact Holds.headerBlock_subset _ ha
  · obtain ⟨next, hh⟩ := h.holds hv
    exact Holds.cellBlock_subset (hh.bound i hi) ha

namespace Chain

/-- Slabs stay what they are if nothing is written that they rely on. -/
theorem write (h : Chain m c vs) (hc : CellSize c) (ha : Alters S m m') (hd : Disjoint (guarded c vs) S) :
    Chain m' c vs := by
  induction vs with
  | nil => trivial
  | cons v vs ih =>
    obtain ⟨hv, hvs⟩ := h
    have hsub : ∀ {T : Set Ptr}, T ⊆ guarded c (v :: vs) → Disjoint T S := fun hT => hd.mono_left hT
    refine ⟨hv.congr hc ha (hsub fun a ha => ?_) fun i hi => hsub fun a ha => ?_, ih hvs (hsub fun a ha => ?_)⟩
    · exact ⟨v, by simp, .inl ha⟩
    · exact ⟨v, by simp, .inr ⟨i, hi, ha⟩⟩
    · obtain ⟨w, hw, ha⟩ := ha
      exact ⟨w, by simp [hw], ha⟩

/-- An object is none of the bytes that its slabs rely on. -/
theorem disjoint_guarded (h : Chain m c vs) (hc : CellSize c) (hn : (vs.map View.page).Nodup) (hx : x ∈ objects c vs) :
    Disjoint (guarded c vs) (block x c) := by
  rw [Set.disjoint_left]
  rintro a ha hax
  obtain ⟨w, hw, j, hj, hnot, rfl, -, hsub⟩ := h.of_objects hc hx
  obtain ⟨v, hv, ha⟩ := ha
  obtain ⟨next, hh⟩ := h.holds hv
  by_cases he : v.page = w.page
  · obtain rfl := unique hn hv hw he
    rcases ha with ha | ⟨i, hi, ha⟩
    · exact Set.disjoint_left.1 (disjoint_headerBlock hj) ha hax
    · refine Set.disjoint_left.1 (disjoint_cellBlock (hh.bound i hi) hj ?_) ha hax
      rintro rfl
      exact hnot hi
  · refine Set.disjoint_left.1 (h.disjoint hv hw he) ?_ (hsub hax)
    rcases ha with ha | ⟨i, hi, ha⟩
    · exact Holds.headerBlock_subset _ ha
    · exact Holds.cellBlock_subset (hh.bound i hi) ha

end Chain

end Keel.Slab
