import Keel.Proofs.Slab.Stack

/-!
# Marks written over

A free cell has a mark, and whoever still knows its address can write over it. `Lists` reads the free list of a slab off
memory, link by link, and looks at no mark; `Guarded` says that the list is in order and that no cell of it is taken back.
- `Strung` is what a slab page holds but for the marks of its free cells. It is kept by what takes a cell off the list, by
  what puts one on that is off it, and by writes to cells off the list and to marks (`Strung.popped`, `Strung.pushed`,
  `Strung.congr`).
- A cell of the list is refused if it has its mark, or if all cells are free; else it is taken back (`Strung.push_listed`).
  So a strung page is guarded exactly if it is not `Exposed` (`Strung.guarded_iff`), and from an unexposed one every request
  leads to a strung one (`Strung.step`).
- A cell of the list that is taken back becomes its own successor, and the list has no end (`not_lists_pushed`). Every
  exposed page takes such a cell back (`Strung.takes_twice`).

Together: **`guarded_through`**, from a fresh slab on.
-/

namespace Keel.Slab

open Keel.Action (Ends)
open Keel.Memory (Alters block)

attribute [local irreducible] Memory.word

variable {m m' : Memory} {s : Arena} {page a : Ptr} {c i : Nat} {S : Set Ptr} {free is : List Nat} {l : List Ptr}
  {bytes : List UInt8}

/-! ## Free lists -/

/-- The free list of a slab is read off memory. -/
def Lists (m : Memory) (page : Ptr) (l : List Ptr) : Prop := Follows m (Header.read m page).freeList l

instance decidableLists (m : Memory) (page : Ptr) (l : List Ptr) : Decidable (Lists m page l) :=
  inferInstanceAs (Decidable (Follows m (Header.read m page).freeList l))

/-- The free list is in order, has the length that the header says, and no cell of it is taken back. -/
def Guarded (page : Ptr) (s : Arena) : Prop :=
  ∃ l, Lists s.memory page l ∧ l.Nodup ∧ (Header.read s.memory page).freeCount = l.length ∧
    ∀ p ∈ l, (push page p s).result = .error (.fault .dangling) ∨ (push page p s).result = .error (.fault .corrupted)

/-- A free cell has lost its mark, and there are cells in use. -/
def Exposed (page : Ptr) (s : Arena) : Prop :=
  (Header.read s.memory page).freeCount ≠ (Header.read s.memory page).capacity ∧
    ∃ l, Lists s.memory page l ∧ ∃ p ∈ l, s.memory.word (p + cellMagicField) ≠ Layout.freeMagic

/-- Clients write any bytes into one cell that is off the list, or into the mark of one that is on it. -/
def Permits (page : Ptr) (c : Nat) (s : Arena) : Request → Prop
  | .write a bytes => ∃ l, Lists s.memory page l ∧ ∃ i < cellCount c,
      (cellAt page c i ∉ l ∧ block a bytes.length ⊆ block (cellAt page c i) c) ∨
      (cellAt page c i ∈ l ∧ block a bytes.length ⊆ block (cellAt page c i + cellMagicField) 8)
  | _ => True

/-- Something holds at every point of a run. -/
def Along (page : Ptr) (c : Nat) (P : Arena → Prop) : Arena → List Request → Prop
  | s, [] => P s
  | s, q :: qs => P s ∧ (Permits page c s q → Along page c P (serve page q s).state qs)

/-! ## Pages without their marks -/

/-- What a slab page holds, but for the marks of its free cells. -/
structure Strung (m : Memory) (page : Ptr) (c : Nat) (free : List Nat) : Prop where
  aligned : page.toNat % 4096 = 0
  size : wordIn m page 16 = UInt64.ofNat c
  capacity : wordIn m page 24 = UInt64.ofNat (cellCount c)
  count : wordIn m page 32 = UInt64.ofNat free.length
  mark : wordIn m page 40 = Layout.slabMagic
  follows : Follows m (wordIn m page 8) (free.map (cellAt page c))
  nodup : free.Nodup
  bound : ∀ i ∈ free, i < cellCount c

theorem Holds.strung {next : Ptr} (h : Holds m page c next free) (hc : CellSize c) : Strung m page c free where
  aligned := h.aligned
  size := h.size
  capacity := h.capacity
  count := h.count
  mark := h.mark
  follows := by
    rw [h.first]
    refine h.linked.follows h.aligned fun i hi => ?_
    have := cellOffset_add_le (h.bound i hi)
    have := hc.min
    omega
  nodup := h.nodup
  bound := h.bound

namespace Strung

theorem offset_lt (h : Strung m page c free) (hc : CellSize c) (hi : i ∈ free) : cellOffset c i < 4096 := by
  have := cellOffset_add_le (h.bound i hi)
  have := hc.min
  omega

theorem header (h : Strung m page c free) (hc : CellSize c) : Header.read m page =
    ⟨wordIn m page 0, wordIn m page 8, c, cellCount c, free.length, Layout.slabMagic⟩ :=
  read_eq hc h.size h.capacity h.count (length_le_of_bound h.nodup h.bound) h.mark

theorem lists_iff (h : Strung m page c free) : Lists m page l ↔ l = free.map (cellAt page c) :=
  ⟨fun hl => Follows.unique hl h.follows, fun hl => hl ▸ h.follows⟩

theorem mem_map (h : Strung m page c free) (hc : CellSize c) (hi : i < cellCount c) :
    cellAt page c i ∈ free.map (cellAt page c) ↔ i ∈ free := by
  rw [List.mem_map]
  constructor
  · rintro ⟨j, hj, he⟩
    have := cellOffset_add_le hi
    have := hc.min
    rwa [← cellAt_inj (h.offset_lt hc hj) (by omega) hc he]
  · exact fun hm => ⟨i, hm, rfl⟩

theorem nodup_map (h : Strung m page c free) (hc : CellSize c) : (free.map (cellAt page c)).Nodup :=
  List.Nodup.map_on (fun _ hi _ hj he => cellAt_inj (h.offset_lt hc hi) (h.offset_lt hc hj) hc he) h.nodup

/-- Links and header are what counts. -/
theorem congr (h : Strung m page c free) (ha : Alters S m m') (hhead : Disjoint (headerBlock page) S)
    (hlink : ∀ i ∈ free, Disjoint (block (cellAt page c i) 8) S) : Strung m' page c free := by
  have hword : ∀ k, k + 8 ≤ 48 → wordIn m' page k = wordIn m page k := fun k hk =>
    ha.word (hhead.mono_left (Memory.block_add_subset hk))
  exact {
    aligned := h.aligned
    size := (hword 16 (by omega)).trans h.size
    capacity := (hword 24 (by omega)).trans h.capacity
    count := (hword 32 (by omega)).trans h.count
    mark := (hword 40 (by omega)).trans h.mark
    follows := by
      rw [hword 8 (by omega)]
      refine h.follows.congr fun q hq => ?_
      obtain ⟨i, hi, rfl⟩ := List.mem_map.1 hq
      exact ha.word (hlink i hi)
    nodup := h.nodup
    bound := h.bound }

/-- A page whose list and count have been set anew, one cell apart from the others. -/
theorem sameBut (h : Strung m page c free) (hs : SameBut m m' page c i)
    (hcount : wordIn m' page 32 = UInt64.ofNat is.length)
    (hfollows : Follows m' (wordIn m' page 8) (is.map (cellAt page c))) (hn : is.Nodup)
    (hb : ∀ j ∈ is, j < cellCount c) : Strung m' page c is := by
  have hstart := header_le_cellOffset c i
  exact {
    aligned := h.aligned
    size := (hs 16 (by omega) (by omega) (by omega) (by omega)).trans h.size
    capacity := (hs 24 (by omega) (by omega) (by omega) (by omega)).trans h.capacity
    count := hcount
    mark := (hs 40 (by omega) (by omega) (by omega) (by omega)).trans h.mark
    follows := hfollows
    nodup := hn
    bound := hb }

/-- The links of the other cells are untouched. -/
theorem follows_sameBut {p : Ptr} (h : Follows m p (is.map (cellAt page c))) (hs : SameBut m m' page c i)
    (hc : CellSize c) (hb : ∀ j ∈ is, j < cellCount c) (hi : i ∉ is) : Follows m' p (is.map (cellAt page c)) := by
  refine h.congr fun q hq => ?_
  obtain ⟨j, hj, rfl⟩ := List.mem_map.1 hq
  have hend := cellOffset_add_le (hb j hj)
  have hstart := header_le_cellOffset c j
  have hne : j ≠ i := fun he => hi (he ▸ hj)
  have hapart := cellOffset_apart c hne
  have hmin := hc.min
  exact hs (cellOffset c j) (by omega) (by omega) (by omega) (by omega)

theorem popped (h : Strung m page c (i :: is)) (hc : CellSize c) (poison : Bool) :
    Strung (popped m page c i (wordIn m page (cellOffset c i)) is.length poison) page c is := by
  have hend := cellOffset_add_le (h.bound i List.mem_cons_self)
  have hbound : ∀ j ∈ is, j < cellCount c := fun j hj => h.bound j (List.mem_cons_of_mem i hj)
  obtain ⟨hnot, hnodup⟩ := List.nodup_cons.1 h.nodup
  obtain ⟨hfirst, -, hrest⟩ := h.follows
  rw [hfirst, cellAt_eq, word_add_ofNat] at hrest
  have hs : SameBut m (Slab.popped m page c i (wordIn m page (cellOffset c i)) is.length poison) page c i :=
    sameBut_popped _ _ _ hc hend
  refine h.sameBut hs (wordIn_popped_count _ _ _ hc hend) ?_ hnodup hbound
  rw [wordIn_popped_first _ _ _ hc hend]
  exact follows_sameBut hrest hs hc hbound hnot

theorem pushed (h : Strung m page c free) (hc : CellSize c) (hi : i < cellCount c) (hfree : i ∉ free) (poison : Bool) :
    Strung (pushed m page c i (wordIn m page 8) (free.length + 1) poison) page c (i :: free) := by
  have hend := cellOffset_add_le hi
  have hmin := hc.min
  have hs : SameBut m (Slab.pushed m page c i (wordIn m page 8) (free.length + 1) poison) page c i :=
    sameBut_pushed _ _ _ hc hend
  refine h.sameBut hs (wordIn_pushed_count _ _ _) ?_ (List.nodup_cons.2 ⟨hfree, h.nodup⟩) ?_
  · rw [wordIn_pushed_first]
    refine ⟨rfl, cellAt_ne_zero h.aligned (by omega), ?_⟩
    rw [cellAt_eq, word_add_ofNat, wordIn_pushed_link _ _ _ hc hend]
    exact follows_sameBut h.follows hs hc h.bound hfree
  · intro j hj
    rcases List.mem_cons.1 hj with rfl | hj
    · exact hi
    · exact h.bound j hj

/-! ## What is answered -/

theorem listed_eq (h : Strung m page c free) (hc : CellSize c) (hi : i < cellCount c) :
    listed m (cellAt page c i) linkLimit (wordIn m page 8) = .ok (decide (i ∈ free)) := by
  have hle := length_le_of_bound h.nodup h.bound
  have hcount := hc.cellCount_le
  rw [h.follows.listed_eq (by rw [List.length_map]; unfold linkLimit; omega)]
  simp only [h.mem_map hc hi]

/-- A cell of the list is refused if it has its mark or all cells are free, and else taken back. -/
theorem push_listed (h : Strung s.memory page c free) (hc : CellSize c) (hi : i ∈ free) :
    (push page (cellAt page c i)).Ends s fun r t =>
      ((wordIn s.memory page (cellOffset c i + 8) = Layout.freeMagic ∨ free.length = cellCount c) ∧
        r = .error (.fault .dangling) ∧ t = s) ∨
      (¬(wordIn s.memory page (cellOffset c i + 8) = Layout.freeMagic ∨ free.length = cellCount c) ∧ r = .ok () ∧
        t = { s with memory :=
          Slab.pushed s.memory page c i (wordIn s.memory page 8) (free.length + 1) s.poison }) := by
  have hb := h.bound i hi
  refine push_known hc hb (h.header hc) (length_le_of_bound h.nodup h.bound) (h.listed_eq hc hb) ?_ ?_
  · intro hm
    exact .inl ⟨hm.imp_left And.left, rfl, rfl⟩
  · intro hm
    exact .inr ⟨fun hm' => hm (hm'.imp_left fun hm' => ⟨hm', decide_eq_true hi⟩), rfl, rfl⟩

/-- A cell off the list comes back, since there is a cell in use. -/
theorem push_unlisted (h : Strung s.memory page c free) (hc : CellSize c) (hi : i < cellCount c) (hfree : i ∉ free) :
    (push page (cellAt page c i)).Ends s fun r t => r = .ok () ∧
      t = { s with memory :=
        Slab.pushed s.memory page c i (wordIn s.memory page 8) (free.length + 1) s.poison } := by
  have hlt := length_lt_of_bound h.nodup h.bound hi hfree
  refine push_known hc hi (h.header hc) (Nat.le_of_lt hlt) (h.listed_eq hc hi) (fun hm => ?_) fun _ => ⟨rfl, rfl⟩
  rcases hm with ⟨-, hm⟩ | hm
  · exact absurd (of_decide_eq_true hm) hfree
  · exact absurd hm (Nat.ne_of_lt hlt)

/-- Cells are refused as long as the list is not exposed. -/
theorem exposed_iff (h : Strung s.memory page c free) (hc : CellSize c) : Exposed page s ↔
    free.length ≠ cellCount c ∧ ∃ i ∈ free, wordIn s.memory page (cellOffset c i + 8) ≠ Layout.freeMagic := by
  simp only [Exposed, h.header hc, h.lists_iff, exists_eq_left, List.mem_map, exists_exists_and_eq_and,
    cellAt_add_cellMagicField, word_add_ofNat]

theorem guarded_iff (h : Strung s.memory page c free) (hc : CellSize c) : Guarded page s ↔ ¬Exposed page s := by
  have hguarded : Guarded page s ↔ ∀ i ∈ free, (push page (cellAt page c i) s).result = .error (.fault .dangling) ∨
      (push page (cellAt page c i) s).result = .error (.fault .corrupted) := by
    simp only [Guarded, h.header hc, h.lists_iff, exists_eq_left, List.length_map, List.forall_mem_map, h.nodup_map hc,
      true_and]
  rw [hguarded, h.exposed_iff hc]
  constructor
  · rintro hall ⟨hsome, i, hi, hmark⟩
    obtain ⟨hm, -⟩ | ⟨-, hok, -⟩ := h.push_listed hc hi
    · exact hm.elim hmark hsome
    · rcases hall i hi with hr | hr
      · cases hok.symm.trans hr
      · cases hok.symm.trans hr
  · intro hno i hi
    obtain ⟨-, hr, -⟩ | ⟨hm, -⟩ := h.push_listed hc hi
    · exact .inl hr
    · exact absurd ⟨fun he => hm (.inr he), i, hi, fun he => hm (.inl he)⟩ hno

/-! ## Runs -/

/-- A cell is taken off the list, or nothing is changed. -/
theorem pop (h : Strung s.memory page c free) (hc : CellSize c) :
    (pop page).Ends s fun _ t => ∃ is, Strung t.memory page c is := by
  cases free with
  | nil =>
    refine (pop_empty h.mark h.follows).mono fun r t hr => ?_
    obtain ⟨-, rfl⟩ := hr
    exact ⟨[], h⟩
  | cons i is =>
    have hle := length_le_of_bound h.nodup h.bound
    have hcells := hc.cellCount_le
    have hcount : (wordIn s.memory page 32).toNat = is.length + 1 := by
      rw [h.count, UInt64.toNat_ofNat', Nat.mod_eq_of_lt (by omega), List.length_cons]
    exact pop_found hc (h.bound i (by simp)) h.aligned h.mark h.size hcount h.follows.1 rfl
      (fun _ => ⟨is, h.popped hc s.poison⟩) fun _ => ⟨i :: is, h⟩

/-- Where the list is not exposed, no cell comes onto it twice. -/
theorem push (h : Strung s.memory page c free) (hc : CellSize c) (hsafe : ¬Exposed page s) (p : Ptr) :
    (push page p).Ends s fun _ t => ∃ is, Strung t.memory page c is := by
  by_cases hp : ∃ i < cellCount c, p = cellAt page c i
  · obtain ⟨i, hi, rfl⟩ := hp
    by_cases hfree : i ∈ free
    · refine (h.push_listed hc hfree).mono fun r t hr => ?_
      obtain ⟨-, -, rfl⟩ | ⟨hm, -⟩ := hr
      · exact ⟨free, h⟩
      · exact absurd ((h.exposed_iff hc).2 ⟨fun he => hm (.inr he), i, hfree, fun he => hm (.inl he)⟩) hsafe
    · refine (h.push_unlisted hc hi hfree).mono fun r t hr => ?_
      obtain ⟨-, rfl⟩ := hr
      exact ⟨i :: free, h.pushed hc hi hfree s.poison⟩
  · refine (push_stray hc (h.header hc) fun i hi he => hp ⟨i, hi, he⟩).mono fun r t hr => ?_
    obtain ⟨-, rfl⟩ := hr
    exact ⟨free, h⟩

/-- Clients do not get at links. -/
theorem write (h : Strung s.memory page c free) (hc : CellSize c) (hw : Permits page c s (.write a bytes)) :
    Strung (s.memory.setBytes a bytes) page c free := by
  obtain ⟨l, hl, i, hi, hw⟩ := hw
  obtain rfl := h.lists_iff.1 hl
  rw [h.mem_map hc hi] at hw
  have hmin := hc.min
  have hlink : ∀ j < cellCount c, block (cellAt page c j) 8 ⊆ cellBlock page c j := fun j _ =>
    Memory.block_mono (by omega)
  have hsub : block a bytes.length ⊆ cellBlock page c i := by
    rcases hw with ⟨-, hsub⟩ | ⟨-, hsub⟩
    · exact hsub
    · refine hsub.trans ?_
      rw [cellAt_add_cellMagicField]
      exact block_subset_cellBlock (by omega)
  refine h.congr (Memory.alters_setBytes _ a bytes) ((disjoint_headerBlock hi).mono_right hsub) fun j hj => ?_
  have hjb := h.bound j hj
  by_cases hji : j = i
  · subst hji
    rcases hw with ⟨hoff, -⟩ | ⟨-, hmark⟩
    · exact absurd hj hoff
    · have hend := cellOffset_add_le hjb
      rw [cellAt_add_cellMagicField] at hmark
      exact (disjoint_of_offsets page (j := cellOffset c j) (.inl le_rfl) (by omega) (by omega)).mono_right hmark
  · exact ((disjoint_cellBlock hjb hi hji).mono_left (hlink j hjb)).mono_right hsub

/-- A request leaves the list in order where it is not exposed. -/
theorem step (h : Strung s.memory page c free) (hc : CellSize c) (hsafe : ¬Exposed page s) (q : Request)
    (hq : Permits page c s q) : ∃ is, Strung (serve page q s).state.memory page c is := by
  cases q with
  | pop =>
    have hends : (serve page .pop).Ends s fun _ t => ∃ is, Strung t.memory page c is := by
      refine (h.pop hc).bind fun r t hr => ?_
      cases r with
      | error e => exact hr
      | ok p => exact hr
    exact hends
  | push p =>
    have hends : (serve page (.push p)).Ends s fun _ t => ∃ is, Strung t.memory page c is := by
      refine (h.push hc hsafe p).bind fun r t hr => ?_
      cases r with
      | error e => exact hr
      | ok u => exact hr
    exact hends
  | write a bytes => exact ⟨free, h.write hc hq⟩

/-- A strung page is guarded along a run exactly if it is nowhere exposed. -/
theorem through (h : ∃ free, Strung s.memory page c free) (hc : CellSize c) (qs : List Request) :
    Along page c (Guarded page) s qs ↔ Along page c (fun t => ¬Exposed page t) s qs := by
  induction qs generalizing s with
  | nil =>
    obtain ⟨free, h⟩ := h
    exact h.guarded_iff hc
  | cons q qs ih =>
    obtain ⟨free, h⟩ := h
    constructor
    · rintro ⟨hguard, hrest⟩
      have hsafe := (h.guarded_iff hc).1 hguard
      exact ⟨hsafe, fun hq => (ih (h.step hc hsafe q hq)).1 (hrest hq)⟩
    · rintro ⟨hsafe, hrest⟩
      exact ⟨(h.guarded_iff hc).2 hsafe, fun hq => (ih (h.step hc hsafe q hq)).2 (hrest hq)⟩

end Strung

/-! ## Cells taken back twice -/

/-- Links that lead to a cell go on from there, also where others have changed. -/
theorem Follows.behind {p q : Ptr} {k : List Ptr} (h : Follows m p (l ++ q :: k)) (hw : ∀ r ∈ l, m'.word r = m.word r)
    {n : List Ptr} (hn : Follows m' p n) : ∃ n', n = l ++ n' ∧ Follows m' q n' := by
  induction l generalizing p n with
  | nil =>
    obtain ⟨rfl, -⟩ := h
    exact ⟨n, rfl, hn⟩
  | cons r l ih =>
    obtain ⟨rfl, hne, h⟩ := h
    cases n with
    | nil => exact absurd hn hne
    | cons r n =>
      obtain ⟨rfl, -, hn⟩ := hn
      rw [hw p (by simp)] at hn
      obtain ⟨n', rfl, hn'⟩ := ih h (fun r hr => hw r (by simp [hr])) hn
      exact ⟨n', rfl, hn'⟩

/-- A cell that comes onto the list twice is behind itself, so the list has no end. -/
theorem not_lists_pushed (h : Strung m page c free) (hc : CellSize c) (hi : i ∈ free) (n : Nat) (poison : Bool)
    (l : List Ptr) : ¬Lists (pushed m page c i (wordIn m page 8) n poison) page l := by
  intro hl
  have hb := h.bound i hi
  have hend := cellOffset_add_le hb
  have hne := cellAt_ne_zero h.aligned (h.offset_lt hc hi)
  have hs : SameBut m (pushed m page c i (wordIn m page 8) n poison) page c i := sameBut_pushed _ _ _ hc hend
  obtain ⟨xs, ys, rfl⟩ := List.append_of_mem hi
  obtain ⟨hsplit, hnot⟩ : Follows m (wordIn m page 8) (xs.map (cellAt page c) ++ cellAt page c i :: ys.map (cellAt page c))
      ∧ i ∉ xs := by
    refine ⟨by simpa using h.follows, fun hm => ?_⟩
    exact (List.nodup_append.1 h.nodup).2.2 i hm i (by simp) rfl
  have hwords : ∀ r ∈ xs.map (cellAt page c),
      (pushed m page c i (wordIn m page 8) n poison).word r = m.word r := by
    intro r hr
    obtain ⟨j, hj, rfl⟩ := List.mem_map.1 hr
    have hjend := cellOffset_add_le (h.bound j (by simp [hj]))
    have hstart := header_le_cellOffset c j
    have hapart := cellOffset_apart c (i := j) (j := i) fun he => hnot (he ▸ hj)
    have hmin := hc.min
    exact hs (cellOffset c j) (by omega) (by omega) (by omega) (by omega)
  -- the cell leads back to the old list, and that to the cell
  have hfirst : Follows (pushed m page c i (wordIn m page 8) n poison) (cellAt page c i) l := by
    rw [← wordIn_pushed_first (m := m) (wordIn m page 8) n poison]
    exact hl
  cases l with
  | nil => exact absurd hfirst hne
  | cons p l =>
    obtain ⟨-, -, hrest⟩ := id hfirst
    rw [cellAt_eq, word_add_ofNat, wordIn_pushed_link _ _ _ hc hend] at hrest
    obtain ⟨k, hk, hagain⟩ := hsplit.behind hwords hrest
    have hsame := congrArg List.length (hfirst.unique hagain)
    rw [hk] at hsame
    simp at hsame
    omega

/-- Where the list is exposed, a cell of it is taken back, and from then on the list has no end. -/
theorem Strung.takes_twice (h : Strung s.memory page c free) (hc : CellSize c) (hopen : Exposed page s) :
    ∃ l, Lists s.memory page l ∧ ∃ p ∈ l, (Slab.push page p).Ends s fun r t =>
      r = .ok () ∧ ∀ k, ¬Lists t.memory page k := by
  obtain ⟨hsome, i, hi, hmark⟩ := (h.exposed_iff hc).1 hopen
  refine ⟨_, h.lists_iff.2 rfl, cellAt page c i, List.mem_map_of_mem hi, (h.push_listed hc hi).mono fun r t hr => ?_⟩
  obtain ⟨hm, -⟩ | ⟨-, hok, rfl⟩ := hr
  · exact absurd hm (not_or.2 ⟨hmark, hsome⟩)
  · exact ⟨hok, not_lists_pushed h hc hi _ _⟩

/-! ## Fresh slabs -/

/-- **No cell is taken back twice**, whatever is taken and given back from a fresh slab on, and whatever clients write into
cells that they have and into the marks of those that they have given back, exactly as long as no free cell loses its mark
while others are in use. -/
theorem guarded_through {mapper : Mapper} (hcarve : (carve mapper c s).result = .ok page) (qs : List Request) :
    Along page c (Guarded page) (carve mapper c s).state qs ↔
      Along page c (fun t => ¬Exposed page t) (carve mapper c s).state qs := by
  obtain ⟨hc, -⟩ := carve_eq_ok.1 hcarve
  obtain ⟨-, next, free, hpage, -⟩ := agrees_carve hc hcarve
  exact Strung.through ⟨free, hpage.strung hc⟩ hc qs

/-- Four frames of memory in which cells are not overwritten when they come and go. -/
def bareFrames : Arena := { Heap.Session.fourFrames with poison := false }

theorem carve_bareFrames : (carve .identity 1024 bareFrames).result = .ok 0x1000 := by decide +kernel

/-- Two of three cells are taken, one is given back, and its mark is written over. -/
def forging : List Request := [.pop, .pop, .push 0x1830, .write 0x1838 (Memory.wordBytes 0)]

theorem guarded_bareFrames : (carve .identity 1024 bareFrames).result = .ok 0x1000 ∧
    (Along 0x1000 1024 (Guarded 0x1000) (carve .identity 1024 bareFrames).state forging ↔
      Along 0x1000 1024 (fun t => ¬Exposed 0x1000 t) (carve .identity 1024 bareFrames).state forging) :=
  ⟨carve_bareFrames, guarded_through carve_bareFrames forging⟩

/-- What a run leads to. -/
def reached (page : Ptr) (s : Arena) (qs : List Request) : Arena := qs.foldl (fun s q => (serve page q s).state) s

theorem lists_returned : Lists (reached 0x1000 (carve .identity 1024 bareFrames).state (forging.take 3)).memory 0x1000
    [0x1830, 0x1030] := by decide +kernel

theorem lists_forged : Lists (reached 0x1000 (carve .identity 1024 bareFrames).state forging).memory 0x1000
    [0x1830, 0x1030] := by decide +kernel

theorem push_forged : (push 0x1000 0x1830 (reached 0x1000 (carve .identity 1024 bareFrames).state forging)).result =
    .ok () := by decide +kernel

/-- The cell whose mark is gone is taken back a second time. -/
theorem not_guarded_forging : ¬Along 0x1000 1024 (Guarded 0x1000) (carve .identity 1024 bareFrames).state forging := by
  intro h
  have hpermits : Permits 0x1000 1024 (reached 0x1000 (carve .identity 1024 bareFrames).state (forging.take 3))
      (.write 0x1838 (Memory.wordBytes 0)) := ⟨_, lists_returned, 2, by decide, .inr ⟨by decide, subset_rfl⟩⟩
  obtain ⟨l, hl, -, -, hpush⟩ := (((h.2 trivial).2 trivial).2 trivial).2 hpermits
  rw [hl.unique lists_forged] at hpush
  rcases hpush 0x1830 (by simp) with hr | hr
  · cases push_forged.symm.trans hr
  · cases push_forged.symm.trans hr

end Keel.Slab
