import Mathlib.Data.List.NodupEquivFin
import Keel.Proofs.Arena
import Keel.Slab.Carve

/-!
# The state of a slab page

`Holds m page c next free` says what memory `m` holds at a slab page of cells of `c` bytes: the header, whose link goes
to `next`, and the list of free cells, which are those with the indices `free`, the first one in front. Only the header
and the free cells count (`Holds.congr`), so writes to cells in use cannot break it.
- `pop_nil`, `pop_cons`: the first free cell is taken off the list;
- `push_taken`: a cell in use comes back in front; `push_free`, `push_outside`: a free cell is refused as dangling, and
  what is no cell as a bad argument, and then nothing is written.
-/

namespace Keel.Slab

open Keel.Memory (Alters block pageAt)

variable {m m' : Memory} {page next : Ptr} {c i j k n : Nat} {w : UInt64} {v : UInt8} {S : Set Ptr} {free : List Nat}

-- no proof here looks at the bytes of a word, so nothing should try to compute one
attribute [local irreducible] Memory.word

/-! ## Offsets in a page -/

/-- The word at an offset of a page. -/
def wordIn (m : Memory) (page : Ptr) (k : Nat) : UInt64 := m.word (page + UInt64.ofNat k)

/-- The offset of cell `i`. -/
def cellOffset (c i : Nat) : Nat := Layout.slabHeaderSize + i * c

/-- The number of cells of a page. -/
def cellCount (c : Nat) : Nat := Layout.maxCellSize / c

/-- The header of a page. -/
def headerBlock (page : Ptr) : Set Ptr := block page 48

/-- The bytes of cell `i`. -/
def cellBlock (page : Ptr) (c i : Nat) : Set Ptr := block (cellAt page c i) c

theorem cellAt_eq (page : Ptr) (c i : Nat) : cellAt page c i = page + UInt64.ofNat (cellOffset c i) := rfl

theorem header_le_cellOffset (c i : Nat) : 48 ≤ cellOffset c i := Nat.le_add_right _ _

/-- A cell ends inside the page. -/
theorem cellOffset_add_le (h : i < cellCount c) : cellOffset c i + c ≤ 4096 := by
  have hle : (i + 1) * c ≤ Layout.maxCellSize :=
    Nat.le_trans (Nat.mul_le_mul_right c h) (Nat.div_mul_le_self _ _)
  have hmax : Layout.maxCellSize = 4048 := rfl
  unfold cellOffset
  simp only [Layout.slabHeaderSize]
  rw [Nat.succ_mul] at hle
  omega

/-- Two cells do not meet. -/
theorem cellOffset_apart (c : Nat) (h : i ≠ j) :
    cellOffset c i + c ≤ cellOffset c j ∨ cellOffset c j + c ≤ cellOffset c i := by
  have hlt : ∀ {i j : Nat}, i < j → cellOffset c i + c ≤ cellOffset c j := fun {i j} hij => by
    have := Nat.mul_le_mul_right c hij
    unfold cellOffset
    rw [Nat.succ_mul] at this
    omega
  rcases Nat.lt_or_gt_of_ne h with h | h
  · exact .inl (hlt h)
  · exact .inr (hlt h)

/-! ## Words of a page -/

theorem wordIn_setWord_self (m : Memory) (page : Ptr) (k : Nat) (w : UInt64) :
    wordIn (m.setWord (page + UInt64.ofNat k) w) page k = w := Memory.word_setWord _ _ _

theorem disjoint_of_offsets (page : Ptr) (h : j + n ≤ k ∨ k + i ≤ j) (hj : j + n ≤ 4096) (hk : k + i ≤ 4096) :
    Disjoint (block (page + UInt64.ofNat j) n) (block (page + UInt64.ofNat k) i) := by
  rcases h with h | h
  · exact Memory.disjoint_block_add h (by omega)
  · exact (Memory.disjoint_block_add h (by omega)).symm

theorem wordIn_setWord (h : j + 8 ≤ k ∨ k + 8 ≤ j) (hj : j + 8 ≤ 4096) (hk : k + 8 ≤ 4096) :
    wordIn (m.setWord (page + UInt64.ofNat k) w) page j = wordIn m page j :=
  (Memory.alters_setWord _ _ _).word (disjoint_of_offsets page h hj hk)

theorem wordIn_fill (h : j + 8 ≤ k ∨ k + n ≤ j) (hj : j + 8 ≤ 4096) (hk : k + n ≤ 4096) :
    wordIn (m.fill (page + UInt64.ofNat k) v n) page j = wordIn m page j :=
  (Memory.alters_fill _ _ _ _).word (disjoint_of_offsets page h hj hk)

theorem word_add_ofNat (m : Memory) (page : Ptr) (k : Nat) : m.word (page + UInt64.ofNat k) = wordIn m page k := rfl

theorem add_freeListField (page : Ptr) : page + freeListField = page + UInt64.ofNat 8 := rfl

theorem add_cellSizeField (page : Ptr) : page + cellSizeField = page + UInt64.ofNat 16 := rfl

theorem add_freeCountField (page : Ptr) : page + freeCountField = page + UInt64.ofNat 32 := rfl

theorem cellAt_add_cellMagicField (page : Ptr) (c i : Nat) :
    cellAt page c i + cellMagicField = page + UInt64.ofNat (cellOffset c i + 8) := by
  rw [← Memory.add_ofNat_add]
  rfl

/-! ## The list of free cells -/

/-- The address of the first of some cells, zero if there is none. -/
def link (page : Ptr) (c : Nat) : List Nat → Ptr
  | [] => 0
  | i :: _ => cellAt page c i

/-- Each of some cells links to the next one and has the mark of a free cell. -/
def Linked (m : Memory) (page : Ptr) (c : Nat) : List Nat → Prop
  | [] => True
  | i :: is => wordIn m page (cellOffset c i) = link page c is ∧ wordIn m page (cellOffset c i + 8) = Layout.freeMagic ∧
    Linked m page c is

theorem Linked.congr (h : Linked m page c free) (h₀ : ∀ i ∈ free, wordIn m' page (cellOffset c i) =
    wordIn m page (cellOffset c i)) (h₈ : ∀ i ∈ free, wordIn m' page (cellOffset c i + 8) =
    wordIn m page (cellOffset c i + 8)) : Linked m' page c free := by
  induction free with
  | nil => trivial
  | cons i is ih =>
    obtain ⟨hlink, hmark, hrest⟩ := h
    refine ⟨(h₀ i (by simp)).trans hlink, (h₈ i (by simp)).trans hmark, ?_⟩
    exact ih hrest (fun j hj => h₀ j (by simp [hj])) fun j hj => h₈ j (by simp [hj])

theorem Linked.marked (h : Linked m page c free) (hi : i ∈ free) :
    wordIn m page (cellOffset c i + 8) = Layout.freeMagic := by
  induction free with
  | nil => cases hi
  | cons j js ih =>
    obtain ⟨-, hmark, hrest⟩ := h
    rcases List.mem_cons.1 hi with rfl | hi
    · exact hmark
    · exact ih hrest hi

/-! ## Pages -/

/-- What a slab page holds. -/
structure Holds (m : Memory) (page : Ptr) (c : Nat) (next : Ptr) (free : List Nat) : Prop where
  aligned : page.toNat % 4096 = 0
  ne_zero : page ≠ 0
  next : wordIn m page 0 = next
  first : wordIn m page 8 = link page c free
  size : wordIn m page 16 = UInt64.ofNat c
  capacity : wordIn m page 24 = UInt64.ofNat (cellCount c)
  count : wordIn m page 32 = UInt64.ofNat free.length
  mark : wordIn m page 40 = Layout.slabMagic
  linked : Linked m page c free
  nodup : free.Nodup
  bound : ∀ i ∈ free, i < cellCount c

/-- The sizes that cells can have. -/
structure CellSize (c : Nat) : Prop where
  min : 16 ≤ c
  max : c ≤ 4048
  step : c % 16 = 0

theorem isCellSize_iff : isCellSize c = true ↔ CellSize c := by
  simp only [isCellSize, Bool.and_eq_true, decide_eq_true_eq, beq_iff_eq]
  exact ⟨fun h => ⟨h.1.1, h.1.2, h.2⟩, fun h => ⟨⟨h.min, h.max⟩, h.step⟩⟩

namespace CellSize

theorem cellCount_le (hc : CellSize c) : cellCount c ≤ 253 := by
  refine Nat.div_le_of_le_mul ?_
  have hmax : Layout.maxCellSize = 4048 := rfl
  have := hc.min
  omega

theorem cellCount_pos (hc : CellSize c) : 0 < cellCount c := by
  have := hc.min
  exact Nat.div_pos (show c ≤ Layout.maxCellSize from hc.max) (by omega)

theorem capacityFor (hc : CellSize c) : Slab.capacityFor (ε := Fault) c = .ok (cellCount c) := by
  have := hc.min
  rw [Slab.capacityFor, Count.div, if_neg (by omega)]
  rfl

end CellSize

/-- Of some cells there are no more than fit. -/
theorem length_le_of_bound (hn : free.Nodup) (hb : ∀ i ∈ free, i < n) : free.length ≤ n := by
  have := (List.subperm_of_subset hn fun i hi => List.mem_range.2 (hb i hi)).length_le
  rwa [List.length_range] at this

theorem length_lt_of_bound (hn : free.Nodup) (hb : ∀ i ∈ free, i < n) (hi : i < n) (hfree : i ∉ free) :
    free.length < n := by
  have hall : ∀ j ∈ i :: free, j < n := by
    intro j hj
    rcases List.mem_cons.1 hj with rfl | hj
    · exact hi
    · exact hb j hj
  exact length_le_of_bound (List.nodup_cons.2 ⟨hfree, hn⟩) hall

/-- The header of a page, from its words. -/
theorem read_eq (hc : CellSize c) (hsize : wordIn m page 16 = UInt64.ofNat c)
    (hcap : wordIn m page 24 = UInt64.ofNat (cellCount c)) (hcount : wordIn m page 32 = UInt64.ofNat n)
    (hn : n ≤ cellCount c) (hmark : wordIn m page 40 = Layout.slabMagic) :
    Header.read m page = ⟨wordIn m page 0, wordIn m page 8, c, cellCount c, n, Layout.slabMagic⟩ := by
  have hmax := hc.max
  have hle := hc.cellCount_le
  show Header.mk (wordIn m page 0) (wordIn m page 8) (wordIn m page 16).toNat (wordIn m page 24).toNat
    (wordIn m page 32).toNat (wordIn m page 40) = _
  rw [hsize, hcap, hcount, hmark, UInt64.toNat_ofNat', UInt64.toNat_ofNat', UInt64.toNat_ofNat',
    Nat.mod_eq_of_lt (by omega), Nat.mod_eq_of_lt (by omega), Nat.mod_eq_of_lt (by omega)]

namespace Holds

/-- A page holds what it held if neither its header nor a free cell is altered. -/
theorem congr (h : Holds m page c next free) (hc : CellSize c) (ha : Alters S m m')
    (hhead : Disjoint (headerBlock page) S) (hfree : ∀ i ∈ free, Disjoint (cellBlock page c i) S) :
    Holds m' page c next free := by
  have hword : ∀ k, k + 8 ≤ 48 → wordIn m' page k = wordIn m page k := fun k hk =>
    ha.word (hhead.mono_left (Memory.block_add_subset hk))
  have hcell : ∀ i ∈ free, ∀ k, k + 8 ≤ 16 →
      wordIn m' page (cellOffset c i + k) = wordIn m page (cellOffset c i + k) := by
    intro i hi k hk
    have hsub : block (page + UInt64.ofNat (cellOffset c i + k)) 8 ⊆ cellBlock page c i := by
      rw [← Memory.add_ofNat_add, ← cellAt_eq]
      have := hc.min
      exact Memory.block_add_subset (by omega)
    exact ha.word ((hfree i hi).mono_left hsub)
  exact {
    aligned := h.aligned
    ne_zero := h.ne_zero
    next := (hword 0 (by omega)).trans h.next
    first := (hword 8 (by omega)).trans h.first
    size := (hword 16 (by omega)).trans h.size
    capacity := (hword 24 (by omega)).trans h.capacity
    count := (hword 32 (by omega)).trans h.count
    mark := (hword 40 (by omega)).trans h.mark
    linked := h.linked.congr (fun i hi => hcell i hi 0 (by omega)) fun i hi => hcell i hi 8 (by omega)
    nodup := h.nodup
    bound := h.bound }

theorem headerBlock_subset (page : Ptr) : headerBlock page ⊆ pageAt page := Memory.block_mono (by omega)

theorem cellBlock_subset (hi : i < cellCount c) : cellBlock page c i ⊆ pageAt page :=
  Memory.block_add_subset (cellOffset_add_le hi)

/-- A page holds what it held if nothing of it is altered. -/
theorem congr_page (h : Holds m page c next free) (hc : CellSize c) (ha : Alters S m m') (hd : Disjoint (pageAt page) S) :
    Holds m' page c next free :=
  h.congr hc ha (hd.mono_left (headerBlock_subset page)) fun i hi => hd.mono_left (cellBlock_subset (h.bound i hi))

theorem length_le (h : Holds m page c next free) : free.length ≤ cellCount c := length_le_of_bound h.nodup h.bound

theorem length_lt (h : Holds m page c next free) (hi : i < cellCount c) (hfree : i ∉ free) :
    free.length < cellCount c := length_lt_of_bound h.nodup h.bound hi hfree

theorem toNat_count (h : Holds m page c next free) (hc : CellSize c) : (wordIn m page 32).toNat = free.length := by
  have := h.length_le
  have := hc.cellCount_le
  rw [h.count, UInt64.toNat_ofNat', Nat.mod_eq_of_lt (by omega)]

/-- The header of a page. -/
theorem header (h : Holds m page c next free) (hc : CellSize c) :
    Header.read m page = ⟨next, link page c free, c, cellCount c, free.length, Layout.slabMagic⟩ := by
  rw [read_eq hc h.size h.capacity h.count h.length_le h.mark, h.next, h.first]

/-- The header says whether a cell is free. -/
theorem isFull_iff (h : Holds m page c next free) (hc : CellSize c) :
    (Header.read m page).isFull = true ↔ free = [] := by
  rw [h.header hc, Header.isFull, beq_iff_eq, List.length_eq_zero_iff]

end Holds

/-! ## Taking a cell -/

variable {s : Arena}

/-- A header is refused exactly if its mark does not fit. -/
theorem verify_ends {Q : Checked Fault Unit → Arena → Prop} : (verify page).Ends s Q ↔
    if wordIn s.memory page 40 = Layout.slabMagic then Q (.ok ()) s else Q (.error (.fault .corrupted)) s := by
  unfold verify
  rw [Action.ends_bind, Arena.ends_word, Action.goes_ok, Action.ends_ite,
    show s.memory.word (page + magicField) = wordIn s.memory page 40 from rfl]
  by_cases h : wordIn s.memory page 40 = Layout.slabMagic
  · rw [if_neg (not_not.2 h), if_pos h]
    rfl
  · rw [if_pos h, if_neg h]
    rfl

theorem Holds.verify_ends (h : Holds s.memory page c next free) {Q : Checked Fault Unit → Arena → Prop} :
    (verify page).Ends s Q ↔ Q (.ok ()) s := by
  rw [Slab.verify_ends, if_pos h.mark]

@[simp] theorem ends_header {Q : Checked Fault Header → Arena → Prop} :
    (header page).Ends s Q ↔ Q (.ok (Header.read s.memory page)) s := Iff.rfl

/-- No cell is taken off an empty list. -/
theorem pop_empty (hslab : wordIn s.memory page 40 = Layout.slabMagic) (hfirst : wordIn s.memory page 8 = 0) :
    (pop page).Ends s fun r t => r = .ok none ∧ t = s := by
  unfold pop
  rw [Action.ends_bind, Slab.verify_ends, if_pos hslab, Action.goes_ok, Action.ends_bind, Arena.ends_word, Action.goes_ok,
    show s.memory.word (page + freeListField) = wordIn s.memory page 8 from rfl, hfirst]
  exact ⟨rfl, rfl⟩

/-- A page without a free cell gives none. -/
theorem pop_nil (h : Holds s.memory page c next []) : (pop page).Ends s fun r t => r = .ok none ∧ t = s :=
  pop_empty h.mark h.first

theorem cellAt_toNat (h : page.toNat % 4096 = 0) (hi : cellOffset c i < 4096) :
    (cellAt page c i).toNat = page.toNat + cellOffset c i := by
  have := page.toNat_lt
  rw [cellAt_eq, Align.toNat_add_ofNat (by omega)]

theorem cellAt_ne_zero (h : page.toNat % 4096 = 0) (hi : cellOffset c i < 4096) : cellAt page c i ≠ 0 := fun hz => by
  have hn := cellAt_toNat h hi
  have := header_le_cellOffset c i
  rw [hz, UInt64.toNat_zero] at hn
  omega

/-- What `pop` leaves of a page whose first free cell is `i`. -/
def popped (m : Memory) (page : Ptr) (c i : Nat) (after : Ptr) (count : Nat) (poison : Bool) : Memory :=
  let m := (m.setWord (page + UInt64.ofNat 8) after).setWord (page + UInt64.ofNat 32) (UInt64.ofNat count)
  let m := (m.setWord (page + UInt64.ofNat (cellOffset c i + 8)) 0).setWord (page + UInt64.ofNat (cellOffset c i)) 0
  if poison then m.fill (page + UInt64.ofNat (cellOffset c i)) poisonTaken c else m

section

variable {is : List Nat}

theorem alters_header (m : Memory) (page : Ptr) (w : UInt64) (h : k + 8 ≤ 48) :
    Alters (headerBlock page ∪ S) m (m.setWord (page + UInt64.ofNat k) w) :=
  (Memory.alters_setWord _ _ _).mono (Set.subset_union_of_subset_left (Memory.block_add_subset h) _)

theorem block_subset_cellBlock (h : k + n ≤ c) :
    block (page + UInt64.ofNat (cellOffset c i + k)) n ⊆ cellBlock page c i := by
  rw [← Memory.add_ofNat_add, ← cellAt_eq]
  exact Memory.block_add_subset h

theorem alters_cell (m : Memory) (page : Ptr) (i : Nat) (w : UInt64) (h : k + 8 ≤ c) :
    Alters (S ∪ cellBlock page c i) m (m.setWord (page + UInt64.ofNat (cellOffset c i + k)) w) :=
  (Memory.alters_setWord _ _ _).mono (Set.subset_union_of_subset_right (block_subset_cellBlock h) _)

/-- Two memories have the same words in a page, but for the list, the count and the cell `i`. -/
def SameBut (m m' : Memory) (page : Ptr) (c i : Nat) : Prop :=
  ∀ k, k + 8 ≤ 4096 → (k + 8 ≤ cellOffset c i ∨ cellOffset c i + c ≤ k) → (k + 8 ≤ 8 ∨ 16 ≤ k) →
    (k + 8 ≤ 32 ∨ 40 ≤ k) → wordIn m' page k = wordIn m page k

/-- The links and marks of the other cells are untouched. -/
theorem Linked.sameBut {is : List Nat} (h : Linked m page c is) (hs : SameBut m m' page c i) (hc : CellSize c)
    (hb : ∀ j ∈ is, j < cellCount c) (hi : i ∉ is) : Linked m' page c is := by
  have hmin := hc.min
  have hcell : ∀ j ∈ is, ∀ d, d + 8 ≤ c → wordIn m' page (cellOffset c j + d) = wordIn m page (cellOffset c j + d) := by
    intro j hj d hd
    have hend := cellOffset_add_le (hb j hj)
    have hstart := header_le_cellOffset c j
    have hne : j ≠ i := fun he => hi (he ▸ hj)
    have hapart := cellOffset_apart c hne
    exact hs _ (by omega) (by omega) (by omega) (by omega)
  exact h.congr (fun j hj => hcell j hj 0 (by omega)) fun j hj => hcell j hj 8 (by omega)

/-- A page whose list and count have been set anew. -/
theorem Holds.sameBut {is : List Nat} (h : Holds m page c next free) (hs : SameBut m m' page c i)
    (hfirst : wordIn m' page 8 = link page c is) (hcount : wordIn m' page 32 = UInt64.ofNat is.length)
    (hlinked : Linked m' page c is) (hn : is.Nodup) (hb : ∀ j ∈ is, j < cellCount c) : Holds m' page c next is := by
  have hstart := header_le_cellOffset c i
  exact {
    aligned := h.aligned
    ne_zero := h.ne_zero
    next := (hs 0 (by omega) (by omega) (by omega) (by omega)).trans h.next
    first := hfirst
    size := (hs 16 (by omega) (by omega) (by omega) (by omega)).trans h.size
    capacity := (hs 24 (by omega) (by omega) (by omega) (by omega)).trans h.capacity
    count := hcount
    mark := (hs 40 (by omega) (by omega) (by omega) (by omega)).trans h.mark
    linked := hlinked
    nodup := hn
    bound := hb }

theorem alters_popped (m : Memory) (page : Ptr) (hc : CellSize c) (i : Nat) (after : Ptr) (count : Nat) (poison : Bool) :
    Alters (headerBlock page ∪ cellBlock page c i) m (popped m page c i after count poison) := by
  have hmin := hc.min
  have h := (((alters_header (S := cellBlock page c i) m page after (k := 8) (by omega)).trans
    (alters_header _ page (UInt64.ofNat count) (k := 32) (by omega))).trans
    (alters_cell _ page i 0 (k := 8) (by omega))).trans (alters_cell _ page i 0 (k := 0) (by omega))
  unfold popped
  cases poison with
  | false => exact h
  | true => exact h.trans ((Memory.alters_fill _ _ _ _).mono Set.subset_union_right)

/-- A word of the page outside the cell: only the list and the count change. -/
theorem wordIn_popped {after : Ptr} {count : Nat} {poison : Bool} (hc : CellSize c) (hi : cellOffset c i + c ≤ 4096)
    (hk : k + 8 ≤ 4096) (hcell : k + 8 ≤ cellOffset c i ∨ cellOffset c i + c ≤ k) :
    wordIn (popped m page c i after count poison) page k =
      wordIn ((m.setWord (page + UInt64.ofNat 8) after).setWord (page + UInt64.ofNat 32) (UInt64.ofNat count)) page k := by
  have hmin := hc.min
  unfold popped
  cases poison with
  | false =>
    simp only [Bool.false_eq_true, ↓reduceIte]
    rw [wordIn_setWord (by omega) hk (by omega), wordIn_setWord (by omega) hk (by omega)]
  | true =>
    simp only [↓reduceIte]
    rw [wordIn_fill (by omega) hk (by omega), wordIn_setWord (by omega) hk (by omega),
      wordIn_setWord (by omega) hk (by omega)]

theorem sameBut_popped (after : Ptr) (count : Nat) (poison : Bool) (hc : CellSize c) (hi : cellOffset c i + c ≤ 4096) :
    SameBut m (popped m page c i after count poison) page c i := fun k hk hcell h8 h32 => by
  rw [wordIn_popped hc hi hk hcell, wordIn_setWord (by omega) hk (by omega), wordIn_setWord (by omega) hk (by omega)]

theorem wordIn_popped_first (after : Ptr) (count : Nat) (poison : Bool) (hc : CellSize c)
    (hi : cellOffset c i + c ≤ 4096) : wordIn (popped m page c i after count poison) page 8 = after := by
  have hstart := header_le_cellOffset c i
  rw [wordIn_popped hc hi (by omega) (by omega), wordIn_setWord (by omega) (by omega) (by omega), wordIn_setWord_self]

theorem wordIn_popped_count (after : Ptr) (count : Nat) (poison : Bool) (hc : CellSize c)
    (hi : cellOffset c i + c ≤ 4096) :
    wordIn (popped m page c i after count poison) page 32 = UInt64.ofNat count := by
  have hstart := header_le_cellOffset c i
  rw [wordIn_popped hc hi (by omega) (by omega), wordIn_setWord_self]

theorem Holds.popped (h : Holds m page c next (i :: is)) (hc : CellSize c) (poison : Bool) :
    Holds (popped m page c i (link page c is) is.length poison) page c next is := by
  have hend := cellOffset_add_le (h.bound i List.mem_cons_self)
  have hbound : ∀ j ∈ is, j < cellCount c := fun j hj => h.bound j (List.mem_cons_of_mem i hj)
  obtain ⟨hnot, hnodup⟩ := List.nodup_cons.1 h.nodup
  have hs : SameBut m (Slab.popped m page c i (link page c is) is.length poison) page c i := sameBut_popped _ _ _ hc hend
  exact h.sameBut hs (wordIn_popped_first _ _ _ hc hend) (wordIn_popped_count _ _ _ hc hend)
    (h.linked.2.2.sameBut hs hc hbound hnot) hnodup hbound

/-- What `pop` goes on with after it has found the first cell of the list, whatever is behind that cell. -/
theorem pop_found {Q : Checked Fault (Option Ptr) → Arena → Prop} {after : Ptr} (hc : CellSize c) (hi : i < cellCount c)
    (hal : page.toNat % 4096 = 0) (hslab : wordIn s.memory page 40 = Layout.slabMagic)
    (hsize : wordIn s.memory page 16 = UInt64.ofNat c) (hcount : (wordIn s.memory page 32).toNat = n + 1)
    (hfirst : wordIn s.memory page 8 = cellAt page c i) (hlink : wordIn s.memory page (cellOffset c i) = after)
    (hmarked : wordIn s.memory page (cellOffset c i + 8) = Layout.freeMagic →
      Q (.ok (some (cellAt page c i))) { s with memory := popped s.memory page c i after n s.poison })
    (hbad : wordIn s.memory page (cellOffset c i + 8) ≠ Layout.freeMagic → Q (.error (.fault .corrupted)) s) :
    (pop page).Ends s Q := by
  have hmin := hc.min
  have hmax := hc.max
  have hend := cellOffset_add_le hi
  have hstart := header_le_cellOffset c i
  have hbig : n + 1 < 2 ^ 64 := hcount ▸ UInt64.toNat_lt _
  have hsub : Count.sub (ε := Fault) (n + 1) 1 = .ok n := Count.sub_eq_ok.2 ⟨by omega, rfl⟩
  unfold pop
  rw [Action.ends_bind, Slab.verify_ends, if_pos hslab, Action.goes_ok, Action.ends_bind, Arena.ends_word, Action.goes_ok,
    show s.memory.word (page + freeListField) = wordIn s.memory page 8 from rfl, hfirst, Action.ends_ite,
    if_neg (cellAt_ne_zero hal (by omega)), Action.ends_bind, Arena.ends_word, Action.goes_ok, cellAt_add_cellMagicField,
    word_add_ofNat]
  by_cases hmark : wordIn s.memory page (cellOffset c i + 8) = Layout.freeMagic
  · have hdone := hmarked hmark
    simp only [Action.ends_bind, Arena.ends_word, Action.goes_ok, word_add_ofNat, hmark, ne_eq, not_true_eq_false,
      ↓reduceIte, Arena.ends_setWord, add_freeListField, add_freeCountField, add_cellSizeField]
    rw [cellAt_eq] at hdone ⊢
    simp only [word_add_ofNat, hlink]
    rw [wordIn_setWord (by omega) (by omega) (by omega), hcount, hsub, Action.ends_lift, Action.goes_ok]
    simp only [Action.ends_bind, Arena.ends_setWord, Action.goes_ok, Action.ends_get, Action.ends_ite, Arena.ends_word,
      word_add_ofNat, Arena.ends_write, Action.ends_pure]
    cases hp : s.poison with
    | false =>
      rw [if_neg (by simp)]
      rwa [hp, popped, if_neg (by simp)] at hdone
    | true =>
      have hsize : (wordIn ((((s.memory.setWord (page + UInt64.ofNat 8) after).setWord
          (page + UInt64.ofNat 32) (UInt64.ofNat n)).setWord (page + UInt64.ofNat (cellOffset c i + 8)) 0).setWord
          (page + UInt64.ofNat (cellOffset c i)) 0) page 16).toNat = c := by
        rw [wordIn_setWord (by omega) (by omega) (by omega), wordIn_setWord (by omega) (by omega) (by omega),
          wordIn_setWord (by omega) (by omega) (by omega), wordIn_setWord (by omega) (by omega) (by omega), hsize,
          UInt64.toNat_ofNat', Nat.mod_eq_of_lt (by omega)]
      rw [if_pos rfl, hsize]
      rwa [hp, popped, if_pos rfl] at hdone
  · rw [Action.ends_ite, if_pos hmark]
    exact hbad hmark

/-- The first free cell is taken off the list. -/
theorem pop_cons (h : Holds s.memory page c next (i :: is)) (hc : CellSize c) : (pop page).Ends s fun r t =>
    r = .ok (some (cellAt page c i)) ∧
      t = { s with memory := popped s.memory page c i (link page c is) is.length s.poison } := by
  obtain ⟨hlink, hmark, -⟩ := h.linked
  exact pop_found hc (h.bound i (by simp)) h.aligned h.mark h.size (h.toNat_count hc) h.first hlink
    (fun _ => ⟨rfl, rfl⟩) fun hbad => absurd hmark hbad

end

/-! ## Giving a cell back -/

/-- An offset is that of a cell exactly if `push` takes it for one. -/
theorem isCellStart_ok {h : Header} (hc : CellSize c) (hsize : h.cellSize = c) (hcap : h.capacity = cellCount c)
    (d : Nat) : ∃ b, isCellStart h d = .ok b ∧ (b = true ↔ ∃ i < cellCount c, d = cellOffset c i) := by
  have hmax := hc.max
  have hmin := hc.min
  have hbytes : cellCount c * c ≤ Layout.maxCellSize := Nat.div_mul_le_self _ _
  have hmax' : Layout.maxCellSize = 4048 := rfl
  have hmul : Count.mul (ε := Fault) (cellCount c) c = .ok (cellCount c * c) := Count.mul_eq_ok.2 ⟨by omega, rfl⟩
  have hadd : Count.add (ε := Fault) Layout.slabHeaderSize (cellCount c * c) =
      .ok (Layout.slabHeaderSize + cellCount c * c) :=
    Count.add_eq_ok.2 ⟨by simp only [Layout.slabHeaderSize]; omega, rfl⟩
  unfold isCellStart
  rw [hsize, hcap, hmul]
  simp only [bind, Except.bind]
  rw [hadd]
  refine ⟨_, rfl, ?_⟩
  have h48 : Layout.slabHeaderSize = 48 := rfl
  simp only [Bool.and_eq_true, decide_eq_true_eq, beq_iff_eq, cellOffset]
  rw [h48]
  constructor
  · rintro ⟨⟨h1, h2⟩, h3⟩
    have hd := Nat.div_add_mod (d - 48) c
    rw [h3, Nat.mul_comm] at hd
    refine ⟨(d - 48) / c, ?_, by omega⟩
    exact Nat.div_lt_of_lt_mul (by rw [Nat.mul_comm]; omega)
  · rintro ⟨i, hi, rfl⟩
    have hlt : i * c + c ≤ cellCount c * c := by
      rw [← Nat.succ_mul]
      exact Nat.mul_le_mul_right c hi
    refine ⟨⟨by omega, by omega⟩, ?_⟩
    rw [Nat.add_sub_cancel_left, Nat.mul_mod_left]

/-- From an address on, links lead through the cells of a list and end. -/
def Follows (m : Memory) : Ptr → List Ptr → Prop
  | p, [] => p = 0
  | p, q :: l => p = q ∧ p ≠ 0 ∧ Follows m (m.word p) l

instance decidableFollows (m : Memory) : (p : Ptr) → (l : List Ptr) → Decidable (Follows m p l)
  | p, [] => inferInstanceAs (Decidable (p = 0))
  | p, q :: l =>
    have := decidableFollows m (m.word p) l
    inferInstanceAs (Decidable (p = q ∧ p ≠ 0 ∧ Follows m (m.word p) l))

namespace Follows

variable {p : Ptr} {l k : List Ptr}

theorem unique (hl : Follows m p l) (hk : Follows m p k) : l = k := by
  induction l generalizing p k with
  | nil =>
    cases k with
    | nil => rfl
    | cons q k => exact absurd hl hk.2.1
  | cons q l ih =>
    obtain ⟨rfl, hne, hl⟩ := hl
    cases k with
    | nil => exact absurd hk hne
    | cons q k =>
      obtain ⟨rfl, -, hk⟩ := hk
      rw [ih hl hk]

theorem congr (h : Follows m p l) (hw : ∀ q ∈ l, m'.word q = m.word q) : Follows m' p l := by
  induction l generalizing p with
  | nil => exact h
  | cons q l ih =>
    obtain ⟨rfl, hne, hl⟩ := h
    refine ⟨rfl, hne, ?_⟩
    rw [hw p (by simp)]
    exact ih hl fun q hq => hw q (by simp [hq])

/-- A cell is found exactly if the links lead through it. -/
theorem listed_eq (h : Follows m p l) (hn : l.length < n) (q : Ptr) : listed m q n p = .ok (decide (q ∈ l)) := by
  obtain ⟨n, rfl⟩ := Nat.exists_eq_succ_of_ne_zero (Nat.ne_of_gt (Nat.lt_of_le_of_lt (Nat.zero_le _) hn))
  induction l generalizing p n with
  | nil =>
    rw [listed, if_pos (show p = 0 from h)]
    rfl
  | cons r l ih =>
    obtain ⟨rfl, hne, hl⟩ := h
    rw [listed, if_neg hne]
    by_cases hq : p = q
    · rw [if_pos hq, decide_eq_true (by simp [hq])]
    · rw [if_neg hq]
      obtain ⟨n, rfl⟩ := Nat.exists_eq_succ_of_ne_zero
        (Nat.ne_of_gt (Nat.lt_of_le_of_lt (Nat.zero_le _) (Nat.lt_of_succ_lt_succ hn)))
      rw [ih hl n (Nat.lt_of_succ_lt_succ hn)]
      simp [Ne.symm hq]

end Follows

/-- The links of free cells lead through them. -/
theorem Linked.follows (h : Linked m page c free) (hal : page.toNat % 4096 = 0)
    (hb : ∀ i ∈ free, cellOffset c i < 4096) : Follows m (link page c free) (free.map (cellAt page c)) := by
  induction free with
  | nil => rfl
  | cons i is ih =>
    obtain ⟨hlink, -, hrest⟩ := h
    refine ⟨rfl, cellAt_ne_zero hal (hb i (by simp)), ?_⟩
    rw [link, cellAt_eq, word_add_ofNat, hlink]
    exact ih hrest fun j hj => hb j (by simp [hj])

/-- The list of free cells holds exactly the free cells. -/
theorem listed_ok {p : Ptr} (h : Linked m page c free) (hal : page.toNat % 4096 = 0)
    (hb : ∀ i ∈ free, cellOffset c i < 4096) (hn : free.length < n) :
    ∃ b, listed m p n (link page c free) = .ok b ∧ (b = true ↔ ∃ i ∈ free, cellAt page c i = p) :=
  ⟨_, (h.follows hal hb).listed_eq (by rwa [List.length_map]) p, by simp⟩

theorem cellAt_inj (hi : cellOffset c i < 4096) (hj : cellOffset c j < 4096) (hc : CellSize c)
    (h : cellAt page c i = cellAt page c j) : i = j := by
  rw [cellAt_eq, cellAt_eq, Memory.add_ofNat_inj (by omega) (by omega)] at h
  by_contra hne
  have := cellOffset_apart c hne
  have := hc.min
  omega

/-- What `push` leaves of a page after cell `i` has come back. -/
def pushed (m : Memory) (page : Ptr) (c i : Nat) (before : Ptr) (count : Nat) (poison : Bool) : Memory :=
  let m := if poison then m.fill (page + UInt64.ofNat (cellOffset c i + 16)) poisonFree (c - 16) else m
  let m := (m.setWord (page + UInt64.ofNat (cellOffset c i)) before).setWord (page + UInt64.ofNat (cellOffset c i + 8))
    Layout.freeMagic
  (m.setWord (page + UInt64.ofNat 8) (cellAt page c i)).setWord (page + UInt64.ofNat 32) (UInt64.ofNat count)

theorem alters_pushed (m : Memory) (page : Ptr) (hc : CellSize c) (i : Nat) (before : Ptr) (count : Nat) (poison : Bool) :
    Alters (headerBlock page ∪ cellBlock page c i) m (pushed m page c i before count poison) := by
  have hmin := hc.min
  have h : ∀ m : Memory, Alters (headerBlock page ∪ cellBlock page c i) m (pushed m page c i before count false) :=
    fun m => (((alters_cell m page i before (k := 0) (by omega)).trans
      (alters_cell _ page i Layout.freeMagic (k := 8) (by omega))).trans
      (alters_header _ page (cellAt page c i) (k := 8) (by omega))).trans
      (alters_header _ page (UInt64.ofNat count) (k := 32) (by omega))
  cases poison with
  | false => exact h m
  | true =>
    refine Alters.trans ?_ (h (m.fill (page + UInt64.ofNat (cellOffset c i + 16)) poisonFree (c - 16)))
    exact (Memory.alters_fill _ _ _ _).mono
      (Set.subset_union_of_subset_right (block_subset_cellBlock (by omega)) _)

theorem sameBut_pushed (before : Ptr) (count : Nat) (poison : Bool) (hc : CellSize c) (hi : cellOffset c i + c ≤ 4096) :
    SameBut m (pushed m page c i before count poison) page c i := fun k hk hcell h8 h32 => by
  have hmin := hc.min
  unfold pushed
  rw [wordIn_setWord (by omega) hk (by omega), wordIn_setWord (by omega) hk (by omega),
    wordIn_setWord (by omega) hk (by omega), wordIn_setWord (by omega) hk (by omega)]
  cases poison with
  | false => rfl
  | true => exact wordIn_fill (by omega) hk (by omega)

section

variable (before : Ptr) (count : Nat) (poison : Bool)

theorem wordIn_pushed_first : wordIn (pushed m page c i before count poison) page 8 = cellAt page c i := by
  rw [pushed, wordIn_setWord (by omega) (by omega) (by omega), wordIn_setWord_self]

theorem wordIn_pushed_count : wordIn (pushed m page c i before count poison) page 32 = UInt64.ofNat count := by
  rw [pushed, wordIn_setWord_self]

theorem wordIn_pushed_link (hc : CellSize c) (hi : cellOffset c i + c ≤ 4096) :
    wordIn (pushed m page c i before count poison) page (cellOffset c i) = before := by
  have hmin := hc.min
  have hstart := header_le_cellOffset c i
  rw [pushed, wordIn_setWord (by omega) (by omega) (by omega), wordIn_setWord (by omega) (by omega) (by omega),
    wordIn_setWord (by omega) (by omega) (by omega), wordIn_setWord_self]

theorem wordIn_pushed_mark (hc : CellSize c) (hi : cellOffset c i + c ≤ 4096) :
    wordIn (pushed m page c i before count poison) page (cellOffset c i + 8) = Layout.freeMagic := by
  have hmin := hc.min
  have hstart := header_le_cellOffset c i
  rw [pushed, wordIn_setWord (by omega) (by omega) (by omega), wordIn_setWord (by omega) (by omega) (by omega),
    wordIn_setWord_self]

end

theorem Holds.pushed (h : Holds m page c next free) (hc : CellSize c) (hi : i < cellCount c) (hfree : i ∉ free)
    (poison : Bool) :
    Holds (pushed m page c i (link page c free) (free.length + 1) poison) page c next (i :: free) := by
  have hend := cellOffset_add_le hi
  have hs : SameBut m (Slab.pushed m page c i (link page c free) (free.length + 1) poison) page c i :=
    sameBut_pushed _ _ _ hc hend
  refine h.sameBut hs (wordIn_pushed_first _ _ _) (wordIn_pushed_count _ _ _) ⟨wordIn_pushed_link _ _ _ hc hend,
    wordIn_pushed_mark _ _ _ hc hend, h.linked.sameBut hs hc h.bound hfree⟩ (List.nodup_cons.2 ⟨hfree, h.nodup⟩) ?_
  intro j hj
  rcases List.mem_cons.1 hj with rfl | hj
  · exact hi
  · exact h.bound j hj

theorem cellAt_sub_toNat (hi : cellOffset c i < 4096) : (cellAt page c i - page).toNat = cellOffset c i := by
  rw [cellAt_eq, UInt64.add_comm, UInt64.add_sub_cancel, UInt64.toNat_ofNat', Nat.mod_eq_of_lt (by omega)]

/-- A cell is found on the list of a page exactly if it is free. -/
theorem Holds.listed (h : Holds m page c next free) (hc : CellSize c) (hi : i < cellCount c) :
    listed m (cellAt page c i) linkLimit (link page c free) = .ok (decide (i ∈ free)) := by
  have hmin := hc.min
  have hoffset : ∀ j < cellCount c, cellOffset c j < 4096 := fun j hj => by
    have := cellOffset_add_le hj
    omega
  have hlength : free.length < linkLimit := by
    have := h.length_le
    have := hc.cellCount_le
    unfold linkLimit
    omega
  obtain ⟨b, hb, hiff⟩ := listed_ok (p := cellAt page c i) h.linked h.aligned
    (fun j hj => hoffset j (h.bound j hj)) hlength
  rw [hb]
  refine congrArg Except.ok ?_
  rw [Bool.eq_iff_iff, hiff, decide_eq_true_eq]
  constructor
  · rintro ⟨j, hj, he⟩
    rwa [← cellAt_inj (hoffset j (h.bound j hj)) (hoffset i hi) hc he]
  · exact fun hm => ⟨i, hm, rfl⟩

/-- What `push` goes on with for a cell, whatever the list of the page: a marked cell is looked for, one without a mark is
not. -/
theorem push_known {Q : Checked Fault Unit → Arena → Prop} {first : Ptr} {b : Bool} (hc : CellSize c)
    (hi : i < cellCount c) (hread : Header.read s.memory page = ⟨next, first, c, cellCount c, n, Layout.slabMagic⟩)
    (hn : n ≤ cellCount c) (hlisted : listed s.memory (cellAt page c i) linkLimit first = .ok b)
    (hfree : (wordIn s.memory page (cellOffset c i + 8) = Layout.freeMagic ∧ b = true) ∨ n = cellCount c →
      Q (.error (.fault .dangling)) s)
    (htaken : ¬((wordIn s.memory page (cellOffset c i + 8) = Layout.freeMagic ∧ b = true) ∨ n = cellCount c) →
      Q (.ok ()) { s with memory := pushed s.memory page c i first (n + 1) s.poison }) :
    (push page (cellAt page c i)).Ends s Q := by
  have hmin := hc.min
  have hend := cellOffset_add_le hi
  have hcount := hc.cellCount_le
  have hslab : wordIn s.memory page 40 = Layout.slabMagic := congrArg Header.magic hread
  obtain ⟨k, hk, hiff⟩ := isCellStart_ok (h := Header.mk next first c (cellCount c) n Layout.slabMagic) hc rfl rfl
    (cellAt page c i - page).toNat
  obtain rfl : k = true := hiff.2 ⟨i, hi, cellAt_sub_toNat (by omega)⟩
  have hsub : Count.sub (ε := Fault) c Layout.minCellSize = .ok (c - 16) := Count.sub_eq_ok.2 ⟨hmin, rfl⟩
  have hadd : Count.add (ε := Fault) n 1 = .ok (n + 1) := Count.add_eq_ok.2 ⟨by omega, rfl⟩
  have hrest : cellAt page c i + UInt64.ofNat Layout.minCellSize = page + UInt64.ofNat (cellOffset c i + 16) :=
    Memory.add_ofNat_add _ _ _
  -- the list is only searched for a marked cell: the two branches are one test
  have htest : ∀ X Y : Prop, (if (wordIn s.memory page (cellOffset c i + 8) == Layout.freeMagic) = true then
      if (b || n == cellCount c) = true then X else Y else if (false || n == cellCount c) = true then X else Y) ↔
      if (wordIn s.memory page (cellOffset c i + 8) = Layout.freeMagic ∧ b = true) ∨ n = cellCount c then X else Y := by
    intro X Y
    by_cases hm : wordIn s.memory page (cellOffset c i + 8) = Layout.freeMagic <;> simp [hm]
  unfold push
  rw [Action.ends_bind, Slab.verify_ends, if_pos hslab, Action.goes_ok, Action.ends_bind, ends_header, Action.goes_ok,
    hread, Action.ends_bind, hk, Action.ends_lift, Action.goes_ok, Action.ends_ite, if_neg (by simp)]
  simp only [Action.ends_bind, Arena.ends_word, Action.goes_ok, Action.ends_get, hlisted, cellAt_add_cellMagicField,
    word_add_ofNat, Action.ends_ite, Action.ends_lift, Action.ends_pure, Action.ends_note, Action.ends_fail,
    Action.goes_error, hsub, hadd, hrest, Arena.ends_write, Arena.ends_setWord, add_freeListField, add_freeCountField]
  rw [htest]
  by_cases hm : (wordIn s.memory page (cellOffset c i + 8) = Layout.freeMagic ∧ b = true) ∨ n = cellCount c
  · rw [if_pos hm]
    exact hfree hm
  · rw [if_neg hm]
    have hdone := htaken hm
    unfold pushed at hdone
    cases hp : s.poison with
    | false =>
      rw [if_neg (by simp)]
      rwa [hp, if_neg (by simp)] at hdone
    | true =>
      rw [if_pos rfl]
      rwa [hp, if_pos rfl] at hdone

/-- What `push` goes on with after it has found out whether a cell is free. -/
theorem push_cell {Q : Checked Fault Unit → Arena → Prop} (h : Holds s.memory page c next free) (hc : CellSize c)
    (hi : i < cellCount c) (hfree : i ∈ free → Q (.error (.fault .dangling)) s)
    (htaken : i ∉ free → Q (.ok ()) { s with
      memory := pushed s.memory page c i (link page c free) (free.length + 1) s.poison }) :
    (push page (cellAt page c i)).Ends s Q := by
  refine push_known hc hi (h.header hc) h.length_le (h.listed hc hi) (fun hm => hfree ?_) fun hm => htaken fun hm' => ?_
  · rcases hm with hm | hm
    · exact of_decide_eq_true hm.2
    · by_contra hm'
      exact absurd hm (Nat.ne_of_lt (h.length_lt hi hm'))
  · exact hm (.inl ⟨h.linked.marked hm', decide_eq_true hm'⟩)

/-- A cell in use comes back in front of the list. -/
theorem push_taken (h : Holds s.memory page c next free) (hc : CellSize c) (hi : i < cellCount c) (hfree : i ∉ free) :
    (push page (cellAt page c i)).Ends s fun r t => r = .ok () ∧
      t = { s with memory := pushed s.memory page c i (link page c free) (free.length + 1) s.poison } :=
  push_cell h hc hi (fun hm => absurd hm hfree) fun _ => ⟨rfl, rfl⟩

/-- A cell that is free already is refused. -/
theorem push_free (h : Holds s.memory page c next free) (hc : CellSize c) (hi : i ∈ free) :
    (push page (cellAt page c i)).Ends s fun r t => r = .error (.fault .dangling) ∧ t = s :=
  push_cell h hc (h.bound i hi) (fun _ => ⟨rfl, rfl⟩) fun hn => absurd hi hn

/-- What is no cell is refused, whatever the list of the page. -/
theorem push_stray {p first : Ptr} (hc : CellSize c)
    (hread : Header.read s.memory page = ⟨next, first, c, cellCount c, n, Layout.slabMagic⟩)
    (hp : ∀ i < cellCount c, p ≠ cellAt page c i) :
    (push page p).Ends s fun r t => r = .error (.fault .badArgs) ∧ t = s := by
  have hslab : wordIn s.memory page 40 = Layout.slabMagic := congrArg Header.magic hread
  obtain ⟨b, hb, hiff⟩ := isCellStart_ok (h := Header.mk next first c (cellCount c) n Layout.slabMagic) hc rfl rfl
    (p - page).toNat
  have hno : b = false := by
    rw [← Bool.not_eq_true, hiff]
    rintro ⟨i, hi, hd⟩
    refine hp i hi ?_
    rw [cellAt_eq, ← hd, UInt64.ofNat_toNat, UInt64.add_comm, UInt64.sub_add_cancel]
  subst hno
  unfold push
  rw [Action.ends_bind, Slab.verify_ends, if_pos hslab, Action.goes_ok, Action.ends_bind, ends_header, Action.goes_ok,
    hread, Action.ends_bind, hb, Action.ends_lift, Action.goes_ok, Action.ends_ite, if_pos (by rfl)]
  exact ⟨rfl, rfl⟩

/-- What is no cell is refused. -/
theorem push_outside {p : Ptr} (h : Holds s.memory page c next free) (hc : CellSize c)
    (hp : ∀ i < cellCount c, p ≠ cellAt page c i) :
    (push page p).Ends s fun r t => r = .error (.fault .badArgs) ∧ t = s :=
  push_stray hc (h.header hc) hp

end Keel.Slab
