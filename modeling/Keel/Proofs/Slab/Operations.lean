import Keel.Proofs.Slab.Standing

/-!
# What a cache does

Each operation on a cache in order, case by case.
- `allocate_first`, `allocate_fresh`, `allocate_unusable`, `allocate_none`: a cell of the first slab that has a free one,
  else the top cell of a fresh slab, else none;
- `free_taken`, `free_free`, `free_outside`, `free_foreign`: an object comes back, and what is none is refused.
-/

namespace Keel.Slab

open Keel.Memory (Alters pageAt)
open Keel.Frame (Pool Request)

attribute [local irreducible] Memory.word

variable {E : Estate} {s t : CacheSite} {p q : Pool} {c i k : Nat} {page x : Ptr} {v w : View} {vs ws xs ys : List View}
  {is : List Nat}

/-! ## Parts of a cache -/

namespace Cache

variable {α : Type} {a : Arena} {k : Cache}

@[simp] theorem ends_inArena {x : Action Arena α} {Q : Checked Fault α → CacheSite → Prop} :
    (inArena x).Ends ⟨a, k⟩ Q ↔ x.Ends a fun r t => Q r ⟨t, k⟩ := Iff.rfl

@[simp] theorem ends_update {f : Cache → Cache} {Q : Checked Fault Unit → CacheSite → Prop} :
    (update f).Ends ⟨a, k⟩ Q ↔ Q (.ok ()) ⟨a, f k⟩ := Iff.rfl

theorem ends_countTaken {Q : Checked Fault Unit → CacheSite → Prop} (h : k.inUse + 1 < 2 ^ 64) :
    countTaken.Ends ⟨a, k⟩ Q ↔ Q (.ok ()) ⟨a, { k with inUse := k.inUse + 1 }⟩ := by
  unfold countTaken
  rw [Action.ends_bind, Action.ends_get, Action.goes_ok, Action.ends_bind, Action.ends_lift,
    Count.add_eq_ok.2 ⟨h, rfl⟩, Action.goes_ok, ends_update]

end Cache

namespace Stands

theorem length_lt (h : Stands E p c s vs) : vs.length < linkLimit := by
  have := h.chain.length_le h.distinct
  unfold linkLimit
  omega

theorem inUse_lt (h : Stands E p c s vs) : s.cache.inUse + 1 < 2 ^ 64 := by
  have := h.chain.length_le h.distinct
  have := usedIn_le h.cell vs
  rw [h.used]
  omega

end Stands

/-! ## Allocating -/

/-- The first free cell of a slab becomes an object. -/
theorem Stands.turn_pop (xs : List View) (h : Stands E p c s (xs ++ ⟨page, i :: is⟩ :: ys)) : Turns E c s
    ⟨{ s.arena with memory := popped s.arena.memory page c i (link page c is) is.length s.arena.poison },
      { s.cache with inUse := s.cache.inUse + 1 }⟩ p [] (xs ++ ⟨page, i :: is⟩ :: ys) (xs ++ ⟨page, is⟩ :: ys) := by
  have hmid := h.chain.mid
  have hlen : is.length < cellCount c := hmid.length_le
  exact h.turn_cell (w := ⟨page, is⟩) rfl (hmid.bound i (by simp)) (hmid.popped h.cell s.arena.poison)
    (alters_popped _ page h.cell i (link page c is) is.length _)
    (fun hx => absurd hx (notMem_objects (fun v hv => h.chain.aligned hv) h.cell h.distinct (v := ⟨page, i :: is⟩)
      (by simp) (hmid.bound i (by simp)) (by simp)))
    ((congrArg (· + 1) h.used).trans (usedIn_take hlen).symm)

/-- The first slab with a free cell gives its first one. -/
theorem allocate_first {mp : Mapper} (h : Stands E p c s (xs ++ ⟨page, i :: is⟩ :: ys))
    (hfull : ∀ v ∈ xs, v.free = []) : (Cache.allocate mp).Ends s fun r t => r = .ok (cellAt page c i) ∧
      Turns E c s t p [] (xs ++ ⟨page, i :: is⟩ :: ys) (xs ++ ⟨page, is⟩ :: ys) := by
  have hlt := h.length_lt
  rw [List.length_append] at hlt
  unfold Cache.allocate
  rw [Action.ends_bind, Action.ends_get, Action.goes_ok, Action.ends_bind, Cache.ends_inArena, h.first]
  refine (popFrom_first h.chain h.cell (by omega) hfull).mono ?_
  intro r t hends
  obtain ⟨rfl, rfl⟩ := hends
  rw [Action.goes_ok]
  simp only [Action.ends_bind]
  rw [Cache.ends_countTaken h.inUse_lt, Action.goes_ok, Action.ends_pure]
  exact ⟨rfl, h.turn_pop xs⟩

/-- What is done with a fresh slab. -/
theorem pop_fresh (h : Stands E p c s (⟨page, i :: is⟩ :: ys)) : Action.Ends (do
      let cell ← Action.ofOption .badAlloc (← Cache.inArena (pop page))
      Cache.countTaken
      return cell) s fun r t =>
    r = .ok (cellAt page c i) ∧ Turns E c s t p [] (⟨page, i :: is⟩ :: ys) (⟨page, is⟩ :: ys) := by
  have hturn := Stands.turn_pop [] h
  rw [Action.ends_bind, Cache.ends_inArena]
  refine (pop_cons h.chain.1 h.cell).mono ?_
  intro r t hends
  obtain ⟨rfl, rfl⟩ := hends
  rw [Action.goes_ok, Action.ends_bind, Action.ends_some, Action.goes_ok, Action.ends_bind,
    Cache.ends_countTaken h.inUse_lt, Action.goes_ok, Action.ends_pure]
  exact ⟨rfl, hturn⟩

/-- The cells of a fresh slab below the one that is handed out first. -/
def lowCells (c : Nat) : List Nat := (List.range (cellCount c - 1)).reverse

theorem allCells_eq (hc : CellSize c) : allCells c = (cellCount c - 1) :: lowCells c := by
  have hpos := hc.cellCount_pos
  rw [allCells, lowCells, show cellCount c = cellCount c - 1 + 1 by omega, List.range_succ, List.reverse_append]
  rfl

/-- The page of a free frame is not that of a slab. -/
theorem Stands.page_ne {f : Nat} (h : Stands E p c s vs) (hf : p.Free f) (hv : v ∈ vs) : v.page ≠ E.mapper.page f := by
  obtain ⟨g, hg, hshow, hnot, he⟩ := h.backed v hv
  rw [← he]
  intro hpage
  rw [h.supplies.circulates.page_inj hg (h.supplies.free f hf) hshow hpage] at hnot
  exact hnot hf

/-- A frame that has become a slab with free cells only. -/
theorem Stands.turn_fresh {u : Arena} (h : Stands E p c s vs) (hscan : p.scan = some k)
    (hshow : E.mapper.Shows (p.base + k))
    (hu : s.arena.Becomes u (p.after [.alloc]) E.bitmap (pageAt (E.mapper.page (p.base + k))))
    (hh : Holds u.memory (E.mapper.page (p.base + k)) c (head vs) (allCells c)) :
    Turns E c s ⟨u, { s.cache with first := E.mapper.page (p.base + k), slabCount := s.cache.slabCount + 1 }⟩ p
      [.alloc] vs (⟨E.mapper.page (p.base + k), allCells c⟩ :: vs) := by
  have hsup := h.supplies
  have hfree := (Pool.free_of_scan hscan).1
  have hD := hsup.free _ hfree
  have hne := fun v hv => h.page_ne hfree (v := v) hv
  have hafter : ∀ f, (p.after [.alloc]).Free f ↔ p.Free f ∧ f ≠ p.base + k := (hsup.sound.free_alloc hscan).2
  have htouched := page_subset_touched (w := ⟨E.mapper.page (p.base + k), allCells c⟩) h.chain h.cell hshow.1 hne
  have hdisj : ∀ v ∈ vs, Disjoint (pageAt v.page) (pageAt (E.mapper.page (p.base + k)) ∪ E.bitmap) := fun v hv =>
    Set.disjoint_union_right.2 ⟨Memory.disjoint_pageAt (h.chain.aligned hv) hshow.1 (hne v hv),
      hsup.disjoint_bitmap (h.backed v hv)⟩
  refine {
    stands := {
      supplies := hsup.after hu.keeps fun f hf => hsup.free f ((hafter f).1 hf).1
      cell := h.cell
      size := h.size
      first := rfl
      count := congrArg (· + 1) h.count
      used := ?_
      chain := ⟨hh, h.chain.congr h.cell hu.alters hdisj⟩
      distinct := ?_
      backed := fun v hv => ?_ }
    frames := fun f hf => ?_
    alters := hu.alters.mono (Set.union_subset_union htouched (E.asked_cons _ _).ge)
    poison := hu.poison }
  · rw [usedIn_cons, length_allCells, Nat.sub_self, Nat.zero_add]
    exact h.used
  · refine List.nodup_cons.2 ⟨fun hm => ?_, h.distinct⟩
    obtain ⟨v, hv, he⟩ := List.mem_map.1 hm
    exact hne v hv he
  · rcases List.mem_cons.1 hv with rfl | hv
    · exact ⟨_, hD, hshow, fun hf => ((hafter _).1 hf).2 rfl, rfl⟩
    · obtain ⟨g, hg, hgs, hnot, he⟩ := h.backed v hv
      exact ⟨g, hg, hgs, fun hf => hnot ((hafter g).1 hf).1, he⟩
  · simp only [hafter, List.exists_mem_cons_iff, hsup.circulates.page_eq_iff hD hf hshow]
    constructor
    · rintro (⟨hf, -⟩ | rfl | hv)
      · exact .inl hf
      · exact .inl hfree
      · exact .inr hv
    · rintro (hff | hv)
      · by_cases he : f = p.base + k
        · exact .inr (.inl he)
        · exact .inl ⟨hff, he⟩
      · exact .inr (.inr hv)

/-- If every slab is full, a new one is carved. -/
theorem allocate_full {mp : Mapper} {Q : Checked Fault Ptr → CacheSite → Prop} (h : Stands E p c s vs)
    (hfull : ∀ v ∈ vs, v.free = []) (hQ : (carve mp c).Ends s.arena fun r a => Action.Goes (fun slab => do
      Cache.inArena (Arena.setWord (slab + nextField) (head vs))
      Cache.update fun c => { c with first := slab }
      let slabCount ← Action.lift (Count.add vs.length 1)
      Cache.update fun c => { c with slabCount }
      let cell ← Action.ofOption .badAlloc (← Cache.inArena (pop slab))
      Cache.countTaken
      return cell) Q r ⟨a, s.cache⟩) : (Cache.allocate mp).Ends s Q := by
  unfold Cache.allocate
  rw [Action.ends_bind, Action.ends_get, Action.goes_ok, Action.ends_bind, Cache.ends_inArena, h.first]
  refine (popFrom_full h.chain h.length_lt hfull).mono ?_
  intro r a hends
  obtain ⟨rfl, rfl⟩ := hends
  rw [Action.goes_ok]
  simp only [Action.ends_bind]
  rw [Cache.ends_inArena, h.size, h.count]
  simpa only [Action.ends_bind] using hQ

/-- If every slab is full, a fresh one gives its top cell. -/
theorem allocate_fresh (h : Stands E p c s vs) (hfull : ∀ v ∈ vs, v.free = []) (hscan : p.scan = some k)
    (hshow : E.mapper.Shows (p.base + k)) :
    (Cache.allocate E.mapper).Ends s fun r t => r = .ok (cellAt (E.mapper.page (p.base + k)) c (cellCount c - 1)) ∧
      Turns E c s t p [.alloc] vs (⟨E.mapper.page (p.base + k), lowCells c⟩ :: vs) := by
  have hsup := h.supplies
  have hlt := h.chain.length_le h.distinct
  have hdisj := hsup.circulates.apart _ (hsup.free _ (Pool.free_of_scan hscan).1) hshow
  refine allocate_full h hfull ((carve_good hsup.keeps hsup.sound h.cell hscan hshow hdisj).mono ?_)
  intro r a hends
  obtain ⟨rfl, ha, hh⟩ := hends
  rw [Action.goes_ok, Action.ends_bind, Cache.ends_inArena, Arena.ends_setWord, Action.goes_ok, Action.ends_bind,
    Cache.ends_update, Action.goes_ok, Action.ends_bind, Action.ends_lift, Count.add_eq_ok.2 ⟨by omega, rfl⟩,
    Action.goes_ok, Action.ends_bind, Cache.ends_update, Action.goes_ok]
  have hnext := hh.setNext h.cell (head vs)
  have hbecomes := ha.trans (ha.keeps.becomes_write ((alters_setNext _ _ (head vs)).mono (Holds.headerBlock_subset _)) hdisj)
  have hturn := h.turn_fresh hscan hshow hbecomes hnext
  have hidle := objects_idle [] vs (v := ⟨E.mapper.page (p.base + k), allCells c⟩) fun i hi =>
    mem_allCells.2 hi
  rw [allCells_eq h.cell, h.count] at hturn
  rw [allCells_eq h.cell] at hidle
  refine (pop_fresh hturn.stands).mono ?_
  intro r t hends
  obtain ⟨rfl, ht⟩ := hends
  refine ⟨rfl, hturn.trans ht (fun w hw => ?_) fun x hx _ => hidle.symm.subset hx⟩
  rcases List.mem_cons.1 hw with rfl | hw
  · exact ⟨⟨_, lowCells c⟩, by simp, rfl⟩
  · exact ⟨w, by simp [hw], rfl⟩

/-- Requests to the pool that leave the same frames free. -/
theorem Stands.turn_pool {u : Arena} {qs : List Request} (h : Stands E p c s vs)
    (hB : E.bitmap ⊆ E.asked qs) (hu : s.arena.Becomes u (p.after qs) E.bitmap ∅)
    (hfree : ∀ f, (p.after qs).Free f ↔ p.Free f) : Turns E c s ⟨u, s.cache⟩ p qs vs vs where
  stands := h.onPool hu fun f hf =>
    ⟨h.supplies.free f ((hfree f).1 hf), fun _ hv => h.page_ne ((hfree f).1 hf) hv⟩
  frames := fun f _ => or_congr_left (hfree f)
  alters := hu.alters.mono (Set.union_subset (Set.empty_subset _) (hB.trans Set.subset_union_right))
  poison := hu.poison

/-- If every slab is full and the next frame is visible nowhere usable, the frame goes back. -/
theorem allocate_unusable (h : Stands E p c s vs) (hfull : ∀ v ∈ vs, v.free = []) (hscan : p.scan = some k)
    (hshow : ¬E.mapper.Shows (p.base + k)) :
    (Cache.allocate E.mapper).Ends s fun r t => r = .error (.fault .badAlloc) ∧
      Turns E c s t p [.alloc, .release ⟨Align.frameStart (p.base + k)⟩] vs vs := by
  obtain ⟨q, -, -, hfree⟩ := h.supplies.sound.free_return hscan
  refine allocate_full h hfull ((carve_bad h.supplies.keeps h.supplies.sound h.cell hscan hshow).mono ?_)
  intro r a hends
  obtain ⟨rfl, ha⟩ := hends
  exact ⟨rfl, h.turn_pool (E.asked_cons _ _).ge ha hfree⟩

/-- If every slab is full and no frame is free, there is no cell. -/
theorem allocate_none (h : Stands E p c s vs) (hfull : ∀ v ∈ vs, v.free = []) (hscan : p.scan = none) :
    (Cache.allocate E.mapper).Ends s fun r t =>
      (¬p.Saturated ∧ r = .error (.fault .tooMany) ∨ p.Saturated ∧ r = .error (.halt .addOverflow)) ∧
        Turns E c s t p [.alloc] vs vs := by
  refine allocate_full h hfull ((carve_none h.supplies.keeps h.supplies.sound h.cell hscan).mono ?_)
  intro r a hends
  obtain ⟨hr, ha⟩ := hends
  have hturn := h.turn_pool (E.asked_cons _ _).ge ha (h.supplies.sound.free_alloc_none hscan).2
  rcases hr with ⟨hlt, rfl⟩ | ⟨hge, rfl⟩
  · exact ⟨.inl ⟨hlt, rfl⟩, hturn⟩
  · exact ⟨.inr ⟨hge, rfl⟩, hturn⟩

/-- The first slab with a free cell, if not every slab is full. -/
theorem full_or_first (vs : List View) : (∀ v ∈ vs, v.free = []) ∨
    ∃ xs page i is ys, vs = xs ++ ⟨page, i :: is⟩ :: ys ∧ ∀ v ∈ xs, v.free = [] := by
  induction vs with
  | nil => exact .inl fun _ => nofun
  | cons v vs ih =>
    obtain ⟨page, free⟩ := v
    cases free with
    | cons i is => exact .inr ⟨[], page, i, is, vs, rfl, fun _ => nofun⟩
    | nil =>
      rcases ih with hfull | ⟨xs, page', i, is, ys, rfl, hxs⟩
      · exact .inl fun v hv => (List.mem_cons.1 hv).elim (fun he => he ▸ rfl) (hfull v)
      · exact .inr ⟨⟨page, []⟩ :: xs, page', i, is, ys, rfl, fun v hv =>
          (List.mem_cons.1 hv).elim (fun he => he ▸ rfl) (hxs v)⟩

theorem objects_first (h : Stands E p c s (xs ++ ⟨page, i :: is⟩ :: ys)) :
    cellAt page c i ∉ objects c (xs ++ ⟨page, i :: is⟩ :: ys) ∧
      objects c (xs ++ ⟨page, is⟩ :: ys) = insert (cellAt page c i) (objects c (xs ++ ⟨page, i :: is⟩ :: ys)) := by
  have hmid := h.chain.mid
  have hi := hmid.bound i (by simp)
  exact ⟨notMem_objects (fun v hv => h.chain.aligned hv) h.cell h.distinct (v := ⟨page, i :: is⟩) (by simp) hi (by simp),
    objects_take xs ys hi (List.nodup_cons.1 hmid.nodup).1⟩

/-- **Allocating** adds one object, or answers why not and adds none. -/
theorem allocate_ends (h : Stands E p c s vs) : (Cache.allocate E.mapper).Ends s fun r t => ∃ qs ws,
    Turns E c s t p qs vs ws ∧ ((∃ x, r = .ok x ∧ x ∉ objects c vs ∧ objects c ws = insert x (objects c vs)) ∨
      (ws = vs ∧ (r = .error (.fault .tooMany) ∨ r = .error (.fault .badAlloc) ∨
        r = .error (.halt .addOverflow) ∧ (p.after qs).Saturated))) := by
  rcases full_or_first vs with hfull | ⟨xs, page, i, is, ys, rfl, hxs⟩
  · cases hscan : p.scan with
    | none =>
      refine (allocate_none h hfull hscan).mono ?_
      intro r t hends
      obtain ⟨hr, hturn⟩ := hends
      refine ⟨_, _, hturn, .inr ⟨rfl, ?_⟩⟩
      rcases hr with ⟨-, hr⟩ | ⟨hsat, hr⟩
      · exact .inl hr
      · exact .inr (.inr ⟨hr, h.supplies.sound.saturated_alloc hscan hsat⟩)
    | some k =>
      by_cases hshow : E.mapper.Shows (p.base + k)
      · refine (allocate_fresh h hfull hscan hshow).mono ?_
        intro r t hends
        obtain ⟨hr, hturn⟩ := hends
        have hpos := h.cell.cellCount_pos
        have htop : cellCount c - 1 ∉ lowCells c := by simp [lowCells]
        have hnew : cellAt (E.mapper.page (p.base + k)) c (cellCount c - 1) ∉ objects c vs := by
          rintro ⟨v, hv, j, hj, -, he⟩
          obtain ⟨hpage, -⟩ := cellAt_page_inj h.cell hshow.1 (h.chain.aligned hv) (by omega) hj he
          exact h.page_ne (Pool.free_of_scan hscan).1 hv hpage.symm
        have hall : objects c (⟨E.mapper.page (p.base + k), (cellCount c - 1) :: lowCells c⟩ :: vs) = objects c vs := by
          rw [← allCells_eq h.cell]
          exact objects_idle [] vs fun i hi => mem_allCells.2 hi
        refine ⟨_, _, hturn, .inl ⟨_, hr, hnew, ?_⟩⟩
        rw [← hall]
        exact objects_take [] vs (by omega) htop
      · refine (allocate_unusable h hfull hscan hshow).mono ?_
        intro r t hends
        obtain ⟨hr, hturn⟩ := hends
        exact ⟨_, _, hturn, .inr ⟨rfl, .inr (.inl hr)⟩⟩
  · refine (allocate_first h hxs).mono ?_
    intro r t hends
    obtain ⟨hr, hturn⟩ := hends
    exact ⟨_, _, hturn, .inl ⟨_, hr, objects_first h⟩⟩

/-! ## Taking back -/

/-- A cache owns the pages of its slabs. -/
theorem owns_ends (h : Stands E p c s vs) (slab : Ptr) : (Cache.owns slab).Ends s fun r t =>
    (∃ b, r = .ok b ∧ (b = true ↔ ∃ v ∈ vs, v.page = slab)) ∧ t = s := by
  unfold Cache.owns
  rw [Action.ends_bind, Action.ends_get, Action.goes_ok, Cache.ends_inArena, h.first]
  refine (ownsFrom_ends h.chain h.length_lt).mono ?_
  intro r a hends
  obtain ⟨hr, rfl⟩ := hends
  exact ⟨hr, rfl⟩

/-- A pointer into no slab of the cache is refused. -/
theorem free_foreign (h : Stands E p c s vs) (hx : ∀ v ∈ vs, v.page ≠ containing x) :
    (Cache.free x).Ends s fun r t => r = .error (.fault .badArgs) ∧ t = s := by
  unfold Cache.free
  refine (owns_ends h _).bind ?_
  intro r t hends
  obtain ⟨⟨b, rfl, hb⟩, rfl⟩ := hends
  have hno : b = false := by
    rw [← Bool.not_eq_true, hb]
    rintro ⟨v, hv, he⟩
    exact hx v hv he
  subst hno
  exact ⟨rfl, rfl⟩

/-- A pointer into a slab of the cache is left to the slab. -/
theorem free_push {Q : Checked Fault Unit → CacheSite → Prop} (h : Stands E p c s vs) (hv : v ∈ vs)
    (hx : containing x = v.page) (hQ : (push v.page x).Ends s.arena fun r a => Action.Goes (fun _ => do
      let inUse ← Action.lift (Count.sub (← get).cache.inUse 1)
      Cache.update fun c => { c with inUse }) Q r ⟨a, s.cache⟩) : (Cache.free x).Ends s Q := by
  unfold Cache.free
  refine (owns_ends h _).bind ?_
  intro r t hends
  obtain ⟨⟨b, rfl, hb⟩, rfl⟩ := hends
  obtain rfl : b = true := hb.2 ⟨v, hv, hx.symm⟩
  rw [Action.goes_ok, Action.ends_ite, if_neg (by simp), hx, Action.ends_bind]
  exact hQ

/-- An object comes back to its slab. -/
theorem free_taken {free : List Nat} (h : Stands E p c s (xs ++ ⟨page, free⟩ :: ys)) (hi : i < cellCount c)
    (hfree : i ∉ free) : (Cache.free (cellAt page c i)).Ends s fun r t => r = .ok () ∧
      Turns E c s t p [] (xs ++ ⟨page, free⟩ :: ys) (xs ++ ⟨page, i :: free⟩ :: ys) := by
  have hmid := h.chain.mid
  have hlen : free.length < cellCount c := hmid.length_lt hi hfree
  have hused : s.cache.inUse = usedIn c (xs ++ ⟨page, i :: free⟩ :: ys) + 1 := h.used.trans (usedIn_take hlen)
  have hnot : cellAt page c i ∉ objects c (xs ++ ⟨page, i :: free⟩ :: ys) := by
    have hpages : (xs ++ ⟨page, i :: free⟩ :: ys).map View.page = (xs ++ ⟨page, free⟩ :: ys).map View.page := by
      rw [List.map_append, List.map_cons, List.map_append, List.map_cons]
    refine notMem_objects (v := ⟨page, i :: free⟩) (fun v hv => ?_) h.cell (by rw [hpages]; exact h.distinct) (by simp) hi
      (by simp)
    obtain ⟨w, hw, he⟩ := List.mem_map.1 (hpages ▸ List.mem_map_of_mem (f := View.page) hv)
    rw [← he]
    exact h.chain.aligned hw
  refine free_push h (v := ⟨page, free⟩) (by simp) (containing_cellAt hmid.aligned hi h.cell)
    ((push_taken hmid h.cell hi hfree).mono ?_)
  intro r a hends
  obtain ⟨rfl, rfl⟩ := hends
  rw [Action.goes_ok, Action.ends_bind, Action.ends_get, Action.goes_ok, Action.ends_bind, Action.ends_lift,
    Count.sub_eq_ok.2 ⟨show 1 ≤ s.cache.inUse by omega, rfl⟩, Action.goes_ok, Cache.ends_update]
  exact ⟨rfl, h.turn_cell (w := ⟨page, i :: free⟩) rfl hi (hmid.pushed h.cell hi hfree s.arena.poison)
    (alters_pushed _ page h.cell i _ _ _) (fun _ => hnot) (show s.cache.inUse - 1 = _ by omega)⟩

/-- A free cell is refused. -/
theorem free_free (h : Stands E p c s vs) (hv : v ∈ vs) (hi : i ∈ v.free) :
    (Cache.free (cellAt v.page c i)).Ends s fun r t => r = .error (.fault .dangling) ∧ t = s := by
  obtain ⟨next, hh⟩ := h.chain.holds hv
  refine free_push h hv (containing_cellAt hh.aligned (hh.bound i hi) h.cell) ((push_free hh h.cell hi).mono ?_)
  intro r a hends
  obtain ⟨rfl, rfl⟩ := hends
  exact ⟨rfl, rfl⟩

/-- A pointer into a slab of the cache that is no cell is refused. -/
theorem free_outside (h : Stands E p c s vs) (hv : v ∈ vs) (hx : containing x = v.page)
    (hcell : ∀ i < cellCount c, x ≠ cellAt v.page c i) :
    (Cache.free x).Ends s fun r t => r = .error (.fault .badArgs) ∧ t = s := by
  obtain ⟨next, hh⟩ := h.chain.holds hv
  refine free_push h hv hx ((push_outside hh h.cell hcell).mono ?_)
  intro r a hends
  obtain ⟨rfl, rfl⟩ := hends
  exact ⟨rfl, rfl⟩

/-- **Taking back** accepts the objects and nothing else. -/
theorem free_ends (h : Stands E p c s vs) (x : Ptr) : (Cache.free x).Ends s fun r t =>
    (x ∈ objects c vs ∧ r = .ok () ∧ ∃ ws, Turns E c s t p [] vs ws ∧ objects c ws = objects c vs \ {x}) ∨
      (x ∉ objects c vs ∧ t = s ∧ (r = .error (.fault .badArgs) ∨ r = .error (.fault .dangling))) := by
  by_cases hslab : ∃ v ∈ vs, v.page = containing x
  · obtain ⟨v, hv, hpage⟩ := hslab
    have hal := h.chain.aligned hv
    by_cases hcell : ∃ i < cellCount c, x = cellAt v.page c i
    · obtain ⟨i, hi, rfl⟩ := hcell
      by_cases hfree : i ∈ v.free
      · refine (free_free h hv hfree).mono ?_
        intro r t hends
        obtain ⟨hr, ht⟩ := hends
        exact .inr ⟨notMem_objects (fun v hv => h.chain.aligned hv) h.cell h.distinct hv hi hfree, ht, .inr hr⟩
      · obtain ⟨xs, ys, rfl⟩ := List.append_of_mem hv
        have htake : objects c (xs ++ v :: ys) =
            insert (cellAt v.page c i) (objects c (xs ++ ⟨v.page, i :: v.free⟩ :: ys)) := objects_take xs ys hi hfree
        refine (free_taken h hi hfree).mono ?_
        intro r t hends
        obtain ⟨hr, hturn⟩ := hends
        have hws := hturn.stands
        have hnot := notMem_objects (fun v hv => hws.chain.aligned hv) h.cell hws.distinct (v := ⟨v.page, i :: v.free⟩)
          (by simp) hi (by simp)
        refine .inl ⟨⟨v, by simp, i, hi, hfree, rfl⟩, hr, _, hturn, ?_⟩
        rw [htake, Set.insert_sdiff_self_of_notMem hnot]
    · have hno : ∀ i < cellCount c, x ≠ cellAt v.page c i := fun i hi he => hcell ⟨i, hi, he⟩
      refine (free_outside h hv hpage.symm hno).mono ?_
      intro r t hends
      obtain ⟨hr, ht⟩ := hends
      refine .inr ⟨?_, ht, .inl hr⟩
      rintro ⟨w, hw, i, hi, -, rfl⟩
      rw [containing_cellAt (h.chain.aligned hw) hi h.cell] at hpage
      exact hno i hi (by rw [hpage])
  · refine (free_foreign h fun v hv he => hslab ⟨v, hv, he⟩).mono ?_
    intro r t hends
    obtain ⟨hr, ht⟩ := hends
    refine .inr ⟨?_, ht, .inl hr⟩
    rintro ⟨w, hw, i, hi, -, rfl⟩
    exact hslab ⟨w, hw, (containing_cellAt (h.chain.aligned hw) hi h.cell).symm⟩

end Keel.Slab
