import Mathlib.Algebra.BigOperators.Group.List.Basic
import Keel.Proofs.Slab.Carve
import Keel.Slab.Cache

/-!
# The slabs of a cache

A cache is seen as a list of `View`s, each the page of a slab and the indices of its free cells. `Chain` says that memory
holds those slabs, each linked to the next, and `Leads` that they lead to some address, whatever is there. What a walk
does along slabs that lead somewhere is said once for each walk (`Leads.ownsFrom`, `Leads.popFrom`): either it ends among
them, or it goes on where they lead. For a whole list of slabs, `ownsFrom_ends` looks for a page in it, `popFrom_full` and
`popFrom_first` for the first slab with a free cell.
-/

namespace Keel.Slab

open Keel.Memory (Alters pageAt)

attribute [local irreducible] Memory.word

variable {m m' : Memory} {c i n : Nat} {S : Set Ptr}

/-- A slab of a cache: its page, and the free cells in the order of its list. -/
structure View where
  page : Ptr
  free : List Nat

/-- The page of the first of some slabs, zero if there is none. -/
def head : List View → Ptr
  | [] => 0
  | v :: _ => v.page

/-- Memory holds some slabs with cells of `c` bytes, each linked to the next. -/
def Chain (m : Memory) (c : Nat) : List View → Prop
  | [] => True
  | v :: vs => Holds m v.page c (head vs) v.free ∧ Chain m c vs

variable {v w : View} {vs xs ys : List View}

namespace Chain

theorem congr (h : Chain m c vs) (hc : CellSize c) (ha : Alters S m m') (hd : ∀ v ∈ vs, Disjoint (pageAt v.page) S) :
    Chain m' c vs := by
  induction vs with
  | nil => trivial
  | cons v vs ih =>
    obtain ⟨hv, hvs⟩ := h
    exact ⟨hv.congr_page hc ha (hd v (by simp)), ih hvs fun w hw => hd w (by simp [hw])⟩

theorem holds (h : Chain m c vs) (hv : v ∈ vs) : ∃ next, Holds m v.page c next v.free := by
  induction vs with
  | nil => cases hv
  | cons w vs ih =>
    obtain ⟨hw, hvs⟩ := h
    rcases List.mem_cons.1 hv with rfl | hv
    · exact ⟨_, hw⟩
    · exact ih hvs hv

theorem mid (h : Chain m c (xs ++ v :: ys)) : Holds m v.page c (head ys) v.free := by
  induction xs with
  | nil => exact h.1
  | cons w xs ih => exact ih h.2

theorem right (h : Chain m c (xs ++ ys)) : Chain m c ys := by
  induction xs with
  | nil => exact h
  | cons w xs ih => exact ih h.2

theorem aligned (h : Chain m c vs) (hv : v ∈ vs) : v.page.toNat % 4096 = 0 := by
  obtain ⟨next, hh⟩ := h.holds hv
  exact hh.aligned

theorem page_ne_zero (h : Chain m c vs) (hv : v ∈ vs) : v.page ≠ 0 := by
  obtain ⟨next, hh⟩ := h.holds hv
  exact hh.ne_zero

theorem disjoint (h : Chain m c vs) (hv : v ∈ vs) (hw : w ∈ vs) (hne : v.page ≠ w.page) :
    Disjoint (pageAt v.page) (pageAt w.page) := Memory.disjoint_pageAt (h.aligned hv) (h.aligned hw) hne

theorem head_append {zs : List View} (xs : List View) (hp : v.page = w.page) :
    head (xs ++ v :: ys) = head (xs ++ w :: zs) := by
  cases xs with
  | nil => exact hp
  | cons x xs => rfl

/-- One slab is changed, those of `as` behind it are skipped, and the others are left alone. -/
theorem set (as : List View) (h : Chain m c (xs ++ v :: (as ++ ys))) (hc : CellSize c)
    (hn : ((xs ++ v :: (as ++ ys)).map View.page).Nodup) (hp : w.page = v.page)
    (hw : Holds m' w.page c (head ys) w.free) (ha : Alters (pageAt v.page) m m') : Chain m' c (xs ++ w :: ys) := by
  induction xs with
  | nil =>
    obtain ⟨hnot, -⟩ := List.nodup_cons.1 hn
    have hys := h.2.right
    refine ⟨hw, hys.congr hc ha fun u hu => ?_⟩
    refine Memory.disjoint_pageAt (hys.aligned hu) h.1.aligned fun he => hnot ?_
    rw [← he]
    exact List.mem_map_of_mem (List.mem_append_right _ hu)
  | cons x xs ih =>
    obtain ⟨hx, hrest⟩ := h
    obtain ⟨hnot, hn⟩ := List.nodup_cons.1 hn
    refine ⟨?_, ih hrest hn⟩
    show Holds m' x.page c (head (xs ++ w :: ys)) x.free
    rw [show head (xs ++ w :: ys) = head (xs ++ v :: (as ++ ys)) from head_append xs hp]
    refine hx.congr_page hc ha (Memory.disjoint_pageAt hx.aligned (hrest.aligned (by simp)) fun he => hnot ?_)
    rw [he]
    exact List.mem_map_of_mem (by simp)

end Chain

/-- The links of slabs lead through their pages. -/
theorem Chain.follows (h : Chain m c vs) : Follows m (head vs) (vs.map View.page) := by
  induction vs with
  | nil => rfl
  | cons v vs ih =>
    obtain ⟨hv, hvs⟩ := h
    have hnext : m.word v.page = head vs := by
      rw [← hv.next, wordIn, show v.page + UInt64.ofNat 0 = v.page from UInt64.add_zero v.page]
    refine ⟨rfl, hv.ne_zero, ?_⟩
    rw [head, hnext]
    exact ih hvs

/-! ## Slabs that lead somewhere -/

/-- The page of the first of some slabs, `e` if there is none. -/
def headTo (e : Ptr) : List View → Ptr
  | [] => e
  | v :: _ => v.page

/-- Memory holds some slabs with cells of `c` bytes, each linked to the next and the last one to `e`. -/
def Leads (m : Memory) (c : Nat) (e : Ptr) : List View → Prop
  | [] => True
  | v :: vs => Holds m v.page c (headTo e vs) v.free ∧ Leads m c e vs

theorem head_append_eq (xs ys : List View) : head (xs ++ ys) = headTo (head ys) xs := by cases xs <;> rfl

theorem head_eq (vs : List View) : head vs = headTo 0 vs := by cases vs <;> rfl

/-- The first slabs of a list lead to the others. -/
theorem Chain.leads (xs : List View) (h : Chain m c (xs ++ ys)) : Leads m c (head ys) xs := by
  induction xs with
  | nil => trivial
  | cons x xs ih =>
    refine ⟨?_, ih h.2⟩
    rw [← head_append_eq]
    exact h.1

/-- All slabs of a list lead to its end. -/
theorem Chain.leads_end (h : Chain m c vs) : Leads m c 0 vs := by
  rw [← List.append_nil vs] at h
  exact Chain.leads vs h

variable {e target : Ptr}

theorem Leads.congr (h : Leads m c e xs) (hc : CellSize c) (ha : Alters S m m')
    (hd : ∀ v ∈ xs, Disjoint (pageAt v.page) S) : Leads m' c e xs := by
  induction xs with
  | nil => trivial
  | cons v vs ih =>
    obtain ⟨hv, hvs⟩ := h
    exact ⟨hv.congr_page hc ha (hd v (by simp)), ih hvs fun w hw => hd w (by simp [hw])⟩

/-! ## Walks -/

variable {s : Arena}

theorem next_ends {next : Ptr} {page : Ptr} {free : List Nat} (h : Holds s.memory page c next free)
    {Q : Checked Fault Ptr → Arena → Prop} : (Cache.next page).Ends s Q ↔ Q (.ok next) s := by
  rw [Cache.next, Arena.ends_word, show s.memory.word (page + nextField) = wordIn s.memory page 0 from rfl, h.next]

/-- A page is found among the slabs, or looked for where they lead. -/
theorem Leads.ownsFrom {Q : Checked Fault Bool → Arena → Prop} (h : Leads s.memory c e xs)
    (hmem : target ∈ xs.map View.page → Q (.ok true) s)
    (hnot : target ∉ xs.map View.page → (Cache.ownsFrom target n e).Ends s Q) :
    (Cache.ownsFrom target (n + xs.length) (headTo e xs)).Ends s Q := by
  induction xs with
  | nil => exact hnot List.not_mem_nil
  | cons v vs ih =>
    obtain ⟨hv, hvs⟩ := h
    rw [List.length_cons, ← Nat.add_assoc, Cache.ownsFrom, headTo, if_neg hv.ne_zero, Action.ends_bind, hv.verify_ends,
      Action.goes_ok, Action.ends_ite]
    by_cases ht : v.page = target
    · rw [if_pos ht]
      exact hmem (by simp [ht])
    · rw [if_neg ht, Action.ends_bind, next_ends hv, Action.goes_ok]
      exact ih hvs (fun hm => hmem (by simp [hm])) fun hm => hnot (by simp [hm, Ne.symm ht])

/-- Full slabs are passed by. -/
theorem Leads.popFrom {Q : Checked Fault (Option Ptr) → Arena → Prop} (h : Leads s.memory c e xs)
    (hfull : ∀ v ∈ xs, v.free = []) (hQ : (Cache.popFrom n e).Ends s Q) :
    (Cache.popFrom (n + xs.length) (headTo e xs)).Ends s Q := by
  induction xs with
  | nil => exact hQ
  | cons v vs ih =>
    obtain ⟨hv, hvs⟩ := h
    have hnil := hv
    rw [hfull v (by simp)] at hnil
    rw [List.length_cons, ← Nat.add_assoc, Cache.popFrom, headTo, if_neg hv.ne_zero]
    refine (pop_nil hnil).bind ?_
    intro r t hends
    obtain ⟨rfl, rfl⟩ := hends
    rw [Action.goes_ok]
    simp only [Action.ends_bind]
    rw [next_ends hv, Action.goes_ok]
    exact ih hvs fun w hw => hfull w (by simp [hw])

/-- The steps that are left after some slabs are at least one. -/
theorem exists_steps {k : Nat} (h : k < n) : ∃ l, n = l + 1 + k := ⟨n - k - 1, by omega⟩

/-- A walk looks for a page among the slabs. -/
theorem ownsFrom_ends (h : Chain s.memory c vs) (hn : vs.length < n) :
    (Cache.ownsFrom target n (head vs)).Ends s fun r t =>
      (∃ b, r = .ok b ∧ (b = true ↔ ∃ v ∈ vs, v.page = target)) ∧ t = s := by
  obtain ⟨k, rfl⟩ := exists_steps hn
  rw [head_eq]
  refine h.leads_end.ownsFrom (fun hm => ⟨⟨true, rfl, ?_⟩, rfl⟩) fun hm => ?_
  · simpa using hm
  · rw [Cache.ownsFrom, if_pos rfl]
    exact ⟨⟨false, rfl, by simpa using hm⟩, rfl⟩

/-- No cell is found where every slab is full. -/
theorem popFrom_full (h : Chain s.memory c vs) (hn : vs.length < n) (hfull : ∀ v ∈ vs, v.free = []) :
    (Cache.popFrom n (head vs)).Ends s fun r t => r = .ok none ∧ t = s := by
  obtain ⟨k, rfl⟩ := exists_steps hn
  rw [head_eq]
  refine h.leads_end.popFrom hfull ?_
  rw [Cache.popFrom, if_pos rfl]
  exact ⟨rfl, rfl⟩

/-- A slab with a free cell gives its first one. -/
theorem popFrom_cons {page next : Ptr} {is : List Nat} (h : Holds s.memory page c next (i :: is)) (hc : CellSize c) :
    (Cache.popFrom (n + 1) page).Ends s fun r t => r = .ok (some (cellAt page c i)) ∧
      t = { s with memory := popped s.memory page c i (link page c is) is.length s.poison } := by
  rw [Cache.popFrom, if_neg h.ne_zero]
  refine (pop_cons h hc).bind ?_
  intro r t hends
  obtain ⟨rfl, rfl⟩ := hends
  exact ⟨rfl, rfl⟩

/-- The first free cell of the first slab that is not full is found. -/
theorem popFrom_first {page : Ptr} {is : List Nat} (h : Chain s.memory c (xs ++ ⟨page, i :: is⟩ :: ys)) (hc : CellSize c)
    (hn : xs.length < n) (hfull : ∀ v ∈ xs, v.free = []) :
    (Cache.popFrom n (head (xs ++ ⟨page, i :: is⟩ :: ys))).Ends s fun r t => r = .ok (some (cellAt page c i)) ∧
      t = { s with memory := popped s.memory page c i (link page c is) is.length s.poison } := by
  obtain ⟨k, rfl⟩ := exists_steps hn
  rw [head_append_eq]
  exact (Chain.leads xs h).popFrom hfull (popFrom_cons h.mid hc)

end Keel.Slab
