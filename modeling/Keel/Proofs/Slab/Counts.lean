import Mathlib.Algebra.Order.BigOperators.Group.List
import Mathlib.Data.Set.Card
import Keel.Proofs.Slab.Operations

/-!
# What a cache counts

The books of a cache in order agree with what a walk along its slabs finds. The walk of `slabs` names each page
(`Leads.slabsFrom`, `slabs_ends`), and the walk of `stats` adds up the free cells (`Leads.freeCellsFrom`,
`stats_ends`). Cells in use and free cells are all cells (`usedIn_add_freeIn`), and there are as many cells in use
as objects (`encard_objects`).
-/

namespace Keel.Slab

open Keel.Frame (Pool)

attribute [local irreducible] Memory.word

variable {E : Estate} {a : Arena} {s : CacheSite} {p : Pool} {m : Memory} {c n : Nat} {e : Ptr} {v : View}
  {vs : List View}

/-! ## Counting cells -/

/-- The number of free cells of some slabs. -/
def freeIn (vs : List View) : Nat := (vs.map fun v => v.free.length).sum

theorem freeIn_cons : freeIn (v :: vs) = v.free.length + freeIn vs := rfl

theorem freeIn_append (vs ws : List View) : freeIn (vs ++ ws) = freeIn vs + freeIn ws := by
  rw [freeIn, List.map_append, List.sum_append]
  rfl

/-- A cell is in use or free. -/
theorem usedIn_add_freeIn (h : Chain m c vs) : usedIn c vs + freeIn vs = vs.length * cellCount c := by
  induction vs with
  | nil => simp [usedIn, freeIn]
  | cons v vs ih =>
    have hle := h.1.length_le
    have hrest := ih h.2
    rw [usedIn_cons, freeIn_cons, List.length_cons, Nat.succ_mul]
    omega

theorem freeIn_lt (h : Chain m c vs) (hc : CellSize c) (hn : (vs.map View.page).Nodup) : freeIn vs < 2 ^ 64 := by
  have hall := usedIn_add_freeIn h
  have hlen := h.length_le hn
  have hcells : vs.length * cellCount c ≤ 2 ^ 52 * 253 := Nat.mul_le_mul hlen hc.cellCount_le
  omega

/-- The cells in use of one slab. -/
theorem objects_single (v : View) :
    objects c [v] = cellAt v.page c '' ↑(Finset.range (cellCount c) \ v.free.toFinset) := by
  ext x
  simp only [mem_objects, List.mem_singleton, exists_eq_left, Set.mem_image, Finset.mem_coe, Finset.mem_sdiff,
    Finset.mem_range, List.mem_toFinset, and_assoc, @eq_comm _ x]

theorem encard_objects_single {next : Ptr} (h : Holds m v.page c next v.free) (hc : CellSize c) :
    (objects c [v]).encard = ↑(cellCount c - v.free.length) := by
  have hsub : v.free.toFinset ⊆ Finset.range (cellCount c) := fun i hi =>
    Finset.mem_range.2 (h.bound i (List.mem_toFinset.1 hi))
  have hinj : Set.InjOn (cellAt v.page c) ↑(Finset.range (cellCount c) \ v.free.toFinset) := by
    intro i hi j hj he
    have hi := Finset.mem_range.1 (Finset.mem_sdiff.1 hi).1
    have hj := Finset.mem_range.1 (Finset.mem_sdiff.1 hj).1
    exact (cellAt_page_inj hc h.aligned h.aligned hi hj he).2
  rw [objects_single, hinj.encard_image, Set.encard_coe_eq_coe_finsetCard, Finset.card_sdiff_of_subset hsub,
    Finset.card_range, List.toFinset_card_of_nodup h.nodup]

/-- **The cells in use** are as many as the objects. -/
theorem encard_objects (h : Chain m c vs) (hc : CellSize c) (hn : (vs.map View.page).Nodup) :
    (objects c vs).encard = usedIn c vs := by
  induction vs with
  | nil => simp [objects, usedIn]
  | cons v vs ih =>
    obtain ⟨hnot, hn⟩ := List.nodup_cons.1 hn
    have hd : Disjoint (objects c [v]) (objects c vs) := by
      rw [Set.disjoint_left]
      rintro x ⟨u, hu, i, hi, -, rfl⟩ hx
      obtain rfl := List.mem_singleton.1 hu
      obtain ⟨w, hw, -, -, -, -, hpage, -⟩ := h.2.of_objects hc hx
      rw [containing_cellAt h.1.aligned hi hc] at hpage
      exact hnot (hpage ▸ List.mem_map_of_mem hw)
    rw [objects_cons, Set.encard_union_eq hd, encard_objects_single h.1 hc, ih h.2 hn, usedIn_cons, Nat.cast_add]

/-! ## Walks -/

/-- The pages of some slabs are named, and then what is found where they lead. -/
theorem Leads.slabsFrom {Q : Checked Fault (List (Except Fault Ptr)) → Arena → Prop} (h : Leads a.memory c e vs)
    (hQ : (Cache.slabsFrom n e).Ends a fun r t => Q (r.map (vs.map (fun v => .ok v.page) ++ ·)) t) :
    (Cache.slabsFrom (n + vs.length) (headTo e vs)).Ends a Q := by
  induction vs generalizing Q with
  | nil =>
    refine hQ.mono fun r t hr => ?_
    cases r <;> exact hr
  | cons v vs ih =>
    obtain ⟨hv, hvs⟩ := h
    rw [List.length_cons, ← Nat.add_assoc, Cache.slabsFrom, headTo, if_neg hv.ne_zero, Action.ends_bind,
      Action.ends_attempt, hv.verify_ends, Action.attempted_ok, Action.goes_ok]
    simp only [Action.ends_bind]
    rw [next_ends hv, Action.goes_ok, Action.ends_bind]
    refine ih hvs (hQ.mono fun r t hr => ?_)
    cases r <;> exact hr

/-- A walk adds up the free cells of some slabs and goes on where they lead. -/
theorem Leads.freeCellsFrom {acc : Nat} {Q : Checked Fault Nat → Arena → Prop} (h : Leads a.memory c e vs)
    (hc : CellSize c) (hacc : acc + freeIn vs < 2 ^ 64)
    (hQ : (Cache.freeCellsFrom n e (acc + freeIn vs)).Ends a Q) :
    (Cache.freeCellsFrom (n + vs.length) (headTo e vs) acc).Ends a Q := by
  induction vs generalizing acc with
  | nil => exact hQ
  | cons v vs ih =>
    obtain ⟨hv, hvs⟩ := h
    rw [freeIn_cons, ← Nat.add_assoc] at hacc hQ
    have hadd : Count.add acc v.free.length = (.ok (acc + v.free.length) : Checked Fault Nat) :=
      Count.add_eq_ok.2 ⟨by omega, rfl⟩
    rw [List.length_cons, ← Nat.add_assoc, Cache.freeCellsFrom, headTo, if_neg hv.ne_zero, Action.ends_bind,
      hv.verify_ends, Action.goes_ok, Action.ends_bind, ends_header, Action.goes_ok, hv.header hc, Action.ends_bind,
      Action.ends_lift, hadd, Action.goes_ok]
    exact ih hvs hacc hQ

/-- A walk names the page of each slab. -/
theorem slabsFrom_ends (h : Chain a.memory c vs) (hn : vs.length < n) :
    (Cache.slabsFrom n (head vs)).Ends a fun r t => r = .ok (vs.map fun v => .ok v.page) ∧ t = a := by
  obtain ⟨k, rfl⟩ := exists_steps hn
  rw [head_eq]
  refine h.leads_end.slabsFrom ?_
  rw [Cache.slabsFrom, if_pos rfl, Action.ends_pure, Except.map, List.append_nil]
  exact ⟨rfl, rfl⟩

/-- A walk adds up the free cells of the slabs. -/
theorem freeCellsFrom_ends {acc : Nat} (h : Chain a.memory c vs) (hc : CellSize c) (hn : vs.length < n)
    (hacc : acc + freeIn vs < 2 ^ 64) :
    (Cache.freeCellsFrom n (head vs) acc).Ends a fun r t => r = .ok (acc + freeIn vs) ∧ t = a := by
  obtain ⟨k, rfl⟩ := exists_steps hn
  rw [head_eq]
  refine h.leads_end.freeCellsFrom hc hacc ?_
  rw [Cache.freeCellsFrom, if_pos rfl]
  exact ⟨rfl, rfl⟩

/-! ## Reports -/

/-- The slabs of a cache are on a list without a cycle. -/
theorem slabs_ends (h : Stands E p c s vs) :
    Cache.slabs.Ends s fun r t => r = .ok (vs.map fun v => .ok v.page) ∧ t = s := by
  unfold Cache.slabs
  rw [Action.ends_bind, Action.ends_get, Action.goes_ok, Cache.ends_inArena, h.first]
  refine (slabsFrom_ends h.chain h.length_lt).mono ?_
  intro r a hends
  obtain ⟨rfl, rfl⟩ := hends
  exact ⟨rfl, rfl⟩

/-- **A report** succeeds and says how many slabs there are, and cells in use and free. -/
theorem stats_ends (h : Stands E p c s vs) :
    Cache.stats.Ends s fun r t => r = .ok ⟨c, vs.length, usedIn c vs, freeIn vs⟩ ∧ t = s := by
  have hlt := freeIn_lt h.chain h.cell h.distinct
  have hbound : 0 + freeIn vs < 2 ^ 64 := by omega
  unfold Cache.stats
  rw [Action.ends_bind, Action.ends_get, Action.goes_ok]
  simp only [Action.ends_bind]
  rw [Cache.ends_inArena, h.first, h.size, h.count, h.used]
  refine (freeCellsFrom_ends h.chain h.cell h.length_lt hbound).mono ?_
  intro r a hends
  obtain ⟨rfl, rfl⟩ := hends
  rw [Nat.zero_add]
  exact ⟨rfl, rfl⟩

end Keel.Slab
