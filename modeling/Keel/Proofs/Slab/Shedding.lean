import Keel.Proofs.Slab.Operations

/-!
# Shedding slabs

A cache gives up the slabs without an object: it unlinks each from the list that runs through the slabs themselves, takes
its mark off and hands its page to the pool, and goes on with the slab that stood behind it (`shrinkFrom_ends`). A slab is
passed by or discarded (`shrinkFrom_busy`, `shrinkFrom_idle`), so what is left is the old list without those slabs,
whatever their places in it. `Culls` says what happens to memory and to the pool: no byte of a slab that is left changes
but its link, so its cells and their list stay as they are, the marks of the others are cleared, and the pool counts one
free frame more for each of them. It holds for one slab (`discard_ends`, from `relink_ends` and `turn_release`, and that
from `Stands.drop` for the cache and `Stands.culls_drop` for the rest), and one shedding follows another (`Culls.trans`,
`Sheds.trans`).
-/

namespace Keel.Slab

open Keel.Memory (Alters block pageAt)
open Keel.Frame (Pool Request)

attribute [local irreducible] Memory.word

variable {E : Estate} {p q r : Pool} {c n k : Nat} {v w : View} {vs ws us xs ys : List View}

/-! ## Links and marks -/

namespace View

/-- The bytes that link a slab to the next one. -/
def linkBytes (v : View) : Set Ptr := block (v.page + nextField) 8

/-- The bytes that mark a page as a slab. -/
def markBytes (v : View) : Set Ptr := block (v.page + magicField) 8

theorem linkBytes_subset (v : View) : v.linkBytes ⊆ headerBlock v.page := Memory.block_add_subset (j := 0) (by omega)

theorem markBytes_subset (v : View) : v.markBytes ⊆ headerBlock v.page := Memory.block_add_subset (j := 40) (by omega)

/-- Whether no cell of a slab is in use. -/
def idle (c : Nat) (v : View) : Bool := v.free.length == cellCount c

end View

variable {S T U R : Set View}

/-- The links of some slabs. -/
def links (S : Set View) : Set Ptr := {a | ∃ v ∈ S, a ∈ v.linkBytes}

/-- The marks of some slabs. -/
def marks (S : Set View) : Set Ptr := {a | ∃ v ∈ S, a ∈ v.markBytes}

theorem links_mono (h : S ⊆ T) : links S ⊆ links T := fun _ ⟨v, hv, ha⟩ => ⟨v, h hv, ha⟩

theorem marks_mono (h : S ⊆ T) : marks S ⊆ marks T := fun _ ⟨v, hv, ha⟩ => ⟨v, h hv, ha⟩

/-! ## Slabs that are given up -/

/-- Slabs have pages of their own, apart from the bitmap. -/
structure Scattered (E : Estate) (S : Set View) : Prop where
  aligned : ∀ v ∈ S, v.page.toNat % 4096 = 0
  distinct : ∀ v ∈ S, ∀ w ∈ S, v.page = w.page → v = w
  apart : ∀ v ∈ S, Disjoint (pageAt v.page) E.bitmap

theorem Stands.scattered {s : CacheSite} (h : Stands E p c s vs) : Scattered E {v | v ∈ vs} where
  aligned := fun _ hv => h.chain.aligned hv
  distinct := fun _ hv _ hw he => unique h.distinct hv hw he
  apart := fun v hv => h.supplies.disjoint_bitmap (h.backed v hv)

/-- The page of a slab meets neither links nor marks of others, nor the bitmap. -/
theorem Scattered.disjoint (h : Scattered E S) (hv : v ∈ S) (hT : T ⊆ S) (hout : v ∉ T) :
    Disjoint (pageAt v.page) (links T ∪ marks T ∪ E.bitmap) := by
  have hpage : ∀ w ∈ T, Disjoint (pageAt v.page) (headerBlock w.page) := by
    intro w hw
    have hne : v.page ≠ w.page := fun he => hout (h.distinct v hv w (hT hw) he ▸ hw)
    exact (Memory.disjoint_pageAt (h.aligned v hv) (h.aligned w (hT hw)) hne).mono_right (Holds.headerBlock_subset _)
  refine Set.disjoint_union_right.2 ⟨Set.disjoint_union_right.2 ⟨?_, ?_⟩, h.apart v hv⟩
  · rw [Set.disjoint_right]
    rintro a ⟨w, hw, ha⟩
    exact Set.disjoint_right.1 (hpage w hw) (w.linkBytes_subset ha)
  · rw [Set.disjoint_right]
    rintro a ⟨w, hw, ha⟩
    exact Set.disjoint_right.1 (hpage w hw) (w.markBytes_subset ha)

/-- The link of a slab has no byte of a mark. -/
theorem Scattered.disjoint_link (h : Scattered E S) (hv : v ∈ S) (hT : T ⊆ S) : Disjoint v.linkBytes (marks T) := by
  rw [Set.disjoint_left]
  rintro a ha ⟨w, hw, hmark⟩
  by_cases hvw : v = w
  · subst hvw
    exact Set.disjoint_left.1 (disjoint_of_offsets v.page (j := 0) (n := 8) (k := 40) (i := 8) (by omega) (by omega)
      (by omega)) ha hmark
  · have hne : v.page ≠ w.page := fun he => hvw (h.distinct v hv w (hT hw) he)
    exact Set.disjoint_left.1 (Memory.disjoint_pageAt (h.aligned v hv) (h.aligned w (hT hw)) hne)
      (Holds.headerBlock_subset _ (v.linkBytes_subset ha)) (Holds.headerBlock_subset _ (w.markBytes_subset hmark))

variable {a b d : Arena}

/-- What has become of an arena with the slabs `S` of which those of `T` are left: only links were written, the marks of
the slabs that are gone, which are cleared, and the bitmap; and the pool has got `n` frames back. -/
structure Culls (E : Estate) (a b : Arena) (p q : Pool) (S T : Set View) (n : Nat) : Prop where
  subset : T ⊆ S
  alters : Alters (links S ∪ marks (S \ T) ∪ E.bitmap) a.memory b.memory
  cleared : ∀ v ∈ S \ T, b.memory.word (v.page + magicField) = 0
  used : q.usedFrames + n = p.usedFrames
  free : q.freeFrames = p.freeFrames + n
  failures : q.failures = p.failures

theorem Culls.refl (E : Estate) (a : Arena) (p : Pool) (S : Set View) : Culls E a a p p S S 0 where
  subset := subset_rfl
  alters := Alters.refl _ _
  cleared := fun _ hv => absurd hv.1 hv.2
  used := rfl
  free := rfl
  failures := rfl

/-- More slabs are given up. -/
theorem Culls.trans (hS : Scattered E S) (h : Culls E a b p q S T n) (h' : Culls E b d q r T U k) :
    Culls E a d p r S U (n + k) where
  subset := h'.subset.trans h.subset
  alters := by
    refine (h.alters.mono ?_).trans (h'.alters.mono ?_)
    · have hgone : S \ T ⊆ S \ U := Set.sdiff_subset_sdiff_right h'.subset
      exact Set.union_subset_union_left _ (Set.union_subset_union_right _ (marks_mono hgone))
    · have hgone : T \ U ⊆ S \ U := Set.sdiff_subset_sdiff_left h.subset
      exact Set.union_subset_union_left _ (Set.union_subset_union (links_mono h.subset) (marks_mono hgone))
  cleared := by
    rintro v ⟨hv, hout⟩
    by_cases hT : v ∈ T
    · exact h'.cleared v ⟨hT, hout⟩
    · -- the mark is that of a slab that went before, and its page is no longer written
      have hpage := (hS.disjoint hv h.subset hT).mono_left
        (v.markBytes_subset.trans (Holds.headerBlock_subset v.page))
      have hd := hpage.mono_right (Set.union_subset_union_left E.bitmap
        (Set.union_subset_union_right (links T) (marks_mono (Set.sdiff_subset (t := U)))))
      rw [h'.alters.word hd]
      exact h.cleared v ⟨hv, hT⟩
  used := by rw [← h.used, ← h'.used]; omega
  free := by rw [h'.free, h.free, Nat.add_assoc]
  failures := h'.failures.trans h.failures

/-- A slab that is left keeps every byte but its link. -/
theorem Culls.keeps {x : Ptr} (hS : Scattered E S) (h : Culls E a b p q S T n) (hv : v ∈ T) (hx : x ∈ pageAt v.page)
    (hlink : x ∉ v.linkBytes) : b.memory.read x = a.memory.read x := by
  have hvS := h.subset hv
  have hothers := hS.disjoint hvS (T := S \ {v}) Set.sdiff_subset (by simp)
  refine h.alters x ?_
  intro hwritten
  apply Set.disjoint_left.1 hothers hx
  rcases hwritten with (⟨w, hw, hxw⟩ | ⟨w, ⟨hw, hout⟩, hxw⟩) | hbitmap
  · have hne : w ≠ v := by
      rintro rfl
      exact hlink hxw
    exact .inl (.inl ⟨w, ⟨hw, hne⟩, hxw⟩)
  · have hne : w ≠ v := by
      rintro rfl
      exact hout hv
    exact .inl (.inr ⟨w, ⟨hw, hne⟩, hxw⟩)
  · exact .inr hbitmap

/-- The slabs of others stay. -/
theorem Culls.beside (h : Culls E a b p q S T n) (hR : Disjoint S R) : Culls E a b p q (S ∪ R) (T ∪ R) n := by
  have hgone : (S ∪ R) \ (T ∪ R) = S \ T := by
    ext v
    simp only [Set.mem_sdiff, Set.mem_union, not_or]
    constructor
    · rintro ⟨hv, hT, hout⟩
      exact ⟨hv.resolve_right hout, hT⟩
    · rintro ⟨hv, hT⟩
      exact ⟨.inl hv, hT, Set.disjoint_left.1 hR hv⟩
  exact {
    subset := Set.union_subset_union_left R h.subset
    alters := by
      rw [hgone]
      refine h.alters.mono (Set.union_subset_union_left _ (Set.union_subset_union_left _ (links_mono ?_)))
      exact Set.subset_union_left
    cleared := by
      rw [hgone]
      exact h.cleared
    used := h.used
    free := h.free
    failures := h.failures }

/-! ## Caches that shed slabs -/

variable {s t u : CacheSite} {qs qs' : List Request}

/-- A cache has turned and given up `n` slabs. -/
structure Sheds (E : Estate) (c : Nat) (s t : CacheSite) (p : Pool) (qs : List Request) (vs ws : List View) (n : Nat) :
    Prop extends Turns E c s t p qs vs ws where
  culls : Culls E s.arena t.arena p (p.after qs) {v | v ∈ vs} {w | w ∈ ws} n

theorem objects_mono (h : vs ⊆ ws) : objects c vs ⊆ objects c ws := by
  rintro x ⟨v, hv, hx⟩
  exact ⟨v, h hv, hx⟩

theorem Sheds.trans (hs : Stands E p c s vs) (h : Sheds E c s t p qs vs ws n)
    (h' : Sheds E c t u (p.after qs) qs' ws us k) : Sheds E c s u p (qs ++ qs') vs us (n + k) where
  toTurns := h.toTurns.trans h'.toTurns (fun w hw => ⟨w, List.mem_append_left _ (h.culls.subset hw), rfl⟩)
    fun x _ hx => objects_mono h'.culls.subset hx
  culls := by
    rw [Pool.after_append]
    exact h.culls.trans hs.scattered h'.culls

/-- The frames that become free are those of the slabs that are gone. -/
theorem Sheds.free_iff {f : Nat} (h : Stands E p c s vs) (ht : Sheds E c s t p qs vs ws n) :
    (p.after qs).Free f ↔ p.Free f ∨ ∃ v ∈ vs, v ∉ ws ∧ f = Align.frameOf (E.mapper.toPhys ⟨v.page⟩).raw := by
  constructor
  · intro hf
    have hmem := ht.stands.supplies.free f hf
    refine ((ht.frames f hmem).1 (.inl hf)).imp_right ?_
    rintro ⟨v, hv, hpage⟩
    have hout : v ∉ ws := fun hw => ht.stands.page_ne hf hw hpage
    exact ⟨v, hv, hout, ((h.supplies.frame_of_page (h.backed v hv)).2 f hmem).1 hpage⟩
  · rintro (hf | ⟨v, hv, hout, rfl⟩)
    · rcases (ht.frames f (h.supplies.free f hf)).2 (.inl hf) with hfree | ⟨w, hw, hpage⟩
      · exact hfree
      · exact absurd hpage (h.page_ne hf (ht.culls.subset hw))
    · obtain ⟨hmem, hiff⟩ := h.supplies.frame_of_page (h.backed v hv)
      have hpage := (hiff _ hmem).2 rfl
      rcases (ht.frames _ hmem).2 (.inr ⟨v, hv, hpage⟩) with hfree | ⟨w, hw, hwp⟩
      · exact hfree
      · obtain rfl := unique h.distinct hv (ht.culls.subset hw) (hpage.trans hwp.symm)
        exact absurd hw hout

theorem links_subset_touched (h : Stands E p c s vs) : links {v | v ∈ vs} ⊆ touched c vs ws := by
  rintro a ⟨v, hv, ha⟩
  exact header_subset_touched h.chain h.cell h.distinct hv (v.linkBytes_subset ha)

theorem Stands.disjoint_links (h : Stands E p c s vs) : Disjoint (links {v | v ∈ vs}) E.bitmap := by
  rw [Set.disjoint_left]
  rintro a ⟨v, hv, ha⟩
  exact Set.disjoint_left.1 (h.scattered.apart v hv) (Holds.headerBlock_subset _ (v.linkBytes_subset ha))

theorem Stands.disjoint_marks (h : Stands E p c s vs) (hT : T ⊆ {v | v ∈ vs}) : Disjoint (marks T) E.bitmap := by
  rw [Set.disjoint_left]
  rintro a ⟨v, hv, ha⟩
  exact Set.disjoint_left.1 (h.scattered.apart v (hT hv)) (Holds.headerBlock_subset _ (v.markBytes_subset ha))

/-! ## One slab -/

/-- The page of the last of some slabs, zero if there is none. -/
def last (vs : List View) : Ptr := ((vs.getLast?).map View.page).getD 0

theorem last_append (xs : List View) (v : View) : last (xs ++ [v]) = v.page := by
  rw [last, List.getLast?_concat]
  rfl

/-- The slab before `v`, or the cache, is made to go on after `v`. -/
theorem relink_ends (h : Stands E p c s (xs ++ v :: ys)) : (Cache.relink (last xs) (head ys)).Ends s fun r t =>
    r = .ok () ∧ ∃ m, t = ⟨{ s.arena with memory := m }, { s.cache with first := head (xs ++ ys) }⟩ ∧
      Chain m c (xs ++ ys) ∧ Holds m v.page c (head ys) v.free ∧
      Alters (links {w | w ∈ xs ++ v :: ys}) s.arena.memory m := by
  unfold Cache.relink
  rcases xs.eq_nil_or_concat' with rfl | ⟨zs, u, rfl⟩
  · rw [show last [] = 0 from rfl, if_pos rfl]
    exact ⟨rfl, s.arena.memory, rfl, h.chain.2, h.chain.1, Alters.refl _ _⟩
  · have hlist : zs ++ [u] ++ v :: ys = zs ++ u :: ([v] ++ ys) := by simp
    rw [hlist] at h ⊢
    have hv := h.chain.right.2.1
    have hne : v.page ≠ u.page := by
      have hn := h.distinct
      rw [List.map_append] at hn
      obtain ⟨hnot, -⟩ := List.nodup_cons.1 hn.of_append_right
      rintro he
      exact hnot (by simp [he])
    have hlink := Memory.alters_setWord s.arena.memory (u.page + nextField) (head ys)
    have ha := hlink.mono (u.linkBytes_subset.trans (Holds.headerBlock_subset _))
    have hfirst : head (zs ++ [u] ++ ys) = s.cache.first := by
      rw [h.first, List.append_assoc]
      exact Chain.head_append zs rfl
    rw [last_append, if_neg (h.chain.page_ne_zero (by simp)), Cache.ends_inArena, Arena.ends_setWord, hfirst]
    refine ⟨rfl, _, rfl, ?_, ?_, hlink.mono fun a hm => ⟨u, by simp, hm⟩⟩
    · rw [List.append_assoc]
      exact h.chain.set [v] h.cell h.distinct rfl (h.chain.mid.setNext h.cell (head ys)) ha
    · exact hv.congr_page h.cell ha (h.chain.disjoint (by simp) (by simp) hne)

theorem exists_mem_middle {Q : View → Prop} : (∃ w ∈ xs ++ v :: ys, Q w) ↔ Q v ∨ ∃ w ∈ xs ++ ys, Q w := by
  simp only [List.perm_middle.mem_iff, List.exists_mem_cons_iff]

/-- The slabs besides one of them have pages of their own. -/
theorem Stands.besides (h : Stands E p c s (xs ++ v :: ys)) :
    ((xs ++ ys).map View.page).Nodup ∧ ∀ w ∈ xs ++ ys, w ∈ xs ++ v :: ys ∧ w.page ≠ v.page := by
  have hn := h.distinct
  rw [List.map_append, List.map_cons, List.nodup_middle, ← List.map_append] at hn
  obtain ⟨hnew, hn⟩ := List.nodup_cons.1 hn
  refine ⟨hn, fun w hw => ⟨List.perm_middle.mem_iff.2 (List.mem_cons_of_mem v hw), fun he => hnew ?_⟩⟩
  rw [← he]
  exact List.mem_map_of_mem hw

/-- A cache without one of its slabs is in order, if only the frame of that slab has become free. -/
theorem Stands.drop {a : Arena} {f : Nat} (h : Stands E p c s (xs ++ v :: ys)) (hidle : v.free.length = cellCount c)
    (hchain : Chain a.memory c (xs ++ ys)) (hk : a.Keeps (p.after qs) E.bitmap) (hf : f ∈ E.frames)
    (hpage : E.mapper.page f = v.page) (hafter : ∀ g, (p.after qs).Free g ↔ p.Free g ∨ g = f) :
    Stands E (p.after qs) c ⟨a, { s.cache with first := head (xs ++ ys), slabCount := s.cache.slabCount - 1 }⟩
      (xs ++ ys) where
  supplies := h.supplies.after hk fun g hg => ((hafter g).1 hg).elim (h.supplies.free g) fun he => he ▸ hf
  cell := h.cell
  size := h.size
  first := rfl
  count := by
    show s.cache.slabCount - 1 = _
    rw [h.count, List.length_append, List.length_cons, List.length_append]
    omega
  used := h.used.trans (usedIn_idle hidle)
  chain := hchain
  distinct := h.besides.1
  backed := fun w hw => by
    obtain ⟨hw, hne⟩ := h.besides.2 w hw
    obtain ⟨g, hg, hshow, hnot, he⟩ := h.backed w hw
    refine ⟨g, hg, hshow, fun hfree => ?_, he⟩
    rcases (hafter g).1 hfree with hfree | rfl
    · exact hnot hfree
    · exact hne (he.symm.trans hpage)

/-- One slab is given up: it is unlinked, and then its mark is cleared and its frame handed back. -/
theorem Stands.culls_drop {m : Memory} (h : Stands E p c s (xs ++ v :: ys))
    (ha : Alters (links {w | w ∈ xs ++ v :: ys}) s.arena.memory m)
    (hb : Alters (v.markBytes ∪ E.bitmap) m b.memory) (hcleared : b.memory.word (v.page + magicField) = 0)
    (hused : q.usedFrames + 1 = p.usedFrames) (hfree : q.freeFrames = p.freeFrames + 1)
    (hfailures : q.failures = p.failures) :
    Culls E s.arena b p q {w | w ∈ xs ++ v :: ys} {w | w ∈ xs ++ ys} 1 where
  subset := fun w hw => (h.besides.2 w hw).1
  alters := by
    have hmem : v ∈ xs ++ v :: ys := List.mem_append_right _ List.mem_cons_self
    have hout : v ∉ xs ++ ys := fun hv => (h.besides.2 v hv).2 rfl
    have hmarks : v.markBytes ⊆ marks ({w | w ∈ xs ++ v :: ys} \ {w | w ∈ xs ++ ys}) :=
      fun x hx => ⟨v, ⟨hmem, hout⟩, hx⟩
    refine (ha.mono ?_).trans (hb.mono ?_)
    · exact Set.subset_union_left.trans Set.subset_union_left
    · exact Set.union_subset_union_left _ (hmarks.trans Set.subset_union_right)
  cleared := by
    rintro w ⟨hw, hnot⟩
    obtain rfl := (List.mem_cons.1 (List.perm_middle.mem_iff.1 hw)).resolve_right hnot
    exact hcleared
  used := hused
  free := hfree
  failures := hfailures

/-- The slab that was skipped goes back to the pool. -/
theorem turn_release {m : Memory} (h : Stands E p c s (xs ++ v :: ys)) (hidle : v.free.length = cellCount c)
    (hchain : Chain m c (xs ++ ys)) (hv : Holds m v.page c (head ys) v.free)
    (ha : Alters (links {w | w ∈ xs ++ v :: ys}) s.arena.memory m) :
    (release E.mapper v.page).Ends { s.arena with memory := m } fun r a => r = .ok () ∧ ∃ qs,
      Sheds E c s ⟨a, { s.cache with first := head (xs ++ ys), slabCount := s.cache.slabCount - 1 }⟩ p qs
        (xs ++ v :: ys) (xs ++ ys) 1 := by
  have hmem : v ∈ xs ++ v :: ys := List.mem_append_right _ List.mem_cons_self
  obtain ⟨f, hf, hshow, hnot, hpage⟩ := h.backed v hmem
  obtain ⟨h0, hu⟩ := h.supplies.usable f hf
  have hsound := h.supplies.sound
  have hbecomes := h.supplies.keeps.becomes_write ha h.disjoint_links
  rw [← hpage] at hv ⊢
  refine (release_ends hbecomes.keeps hsound h.supplies.circulates hf hu h0 hnot hshow hv).mono ?_
  intro r a hends
  obtain ⟨hr, hrel, hcleared⟩ := hends
  rw [hpage] at hrel hcleared
  obtain ⟨hok, hback⟩ := hsound.free_release hu h0 hnot
  have hafter : ∀ g, (p.after [.release ⟨Align.frameStart f⟩]).Free g ↔ p.Free g ∨ g = f := hback
  obtain ⟨hused, hfree, hfailures⟩ := hsound.counts_release hok
  have hmark : v.markBytes ⊆ headerBlock v.page := v.markBytes_subset
  -- the other slabs have pages of their own, so the mark that is cleared is none of their bytes
  have hothers : Chain a.memory c (xs ++ ys) := hchain.congr h.cell hrel.alters fun w hw => by
    obtain ⟨hw, hne⟩ := h.besides.2 w hw
    refine Set.disjoint_union_right.2 ⟨?_, h.supplies.disjoint_bitmap (h.backed w hw)⟩
    exact (h.chain.disjoint hw hmem hne).mono_right (hmark.trans (Holds.headerBlock_subset _))
  refine ⟨hr, [.release ⟨Align.frameStart f⟩], ?_⟩
  exact {
    stands := h.drop hidle hothers hrel.keeps hf hpage hafter
    frames := fun g hg => by
      rw [hafter, or_assoc, ← h.supplies.circulates.page_eq_iff hf hg hshow, hpage, exists_mem_middle]
    alters := by
      have hheader : headerBlock v.page ⊆ touched c (xs ++ v :: ys) (xs ++ ys) :=
        header_subset_touched h.chain h.cell h.distinct hmem
      have hall := ha.mono (T := touched c (xs ++ v :: ys) (xs ++ ys) ∪ E.bitmap)
        ((links_subset_touched h).trans Set.subset_union_left)
      rw [E.asked_cons]
      exact hall.trans (hrel.alters.mono (Set.union_subset_union_left _ (hmark.trans hheader)))
    poison := hrel.poison
    culls := h.culls_drop ha hrel.alters hcleared hused hfree hfailures }

/-! ## All slabs -/

/-- Idle slabs have no objects. -/
theorem objects_busy {m : Memory} (h : Chain m c vs) : objects c (vs.filter fun v => !v.idle c) = objects c vs := by
  ext x
  constructor
  · rintro ⟨v, hv, hx⟩
    exact ⟨v, (List.mem_filter.1 hv).1, hx⟩
  · rintro ⟨v, hv, i, hi, hnot, hx⟩
    refine ⟨v, List.mem_filter.2 ⟨hv, ?_⟩, i, hi, hnot, hx⟩
    obtain ⟨next, hh⟩ := h.holds hv
    have := hh.length_lt hi hnot
    rw [Bool.not_eq_true', View.idle, beq_eq_false_iff_ne]
    omega

theorem usedIn_busy (vs : List View) : usedIn c (vs.filter fun v => !v.idle c) = usedIn c vs := by
  induction vs with
  | nil => rfl
  | cons v vs ih =>
    by_cases hidle : v.idle c = true
    · have hlen : v.free.length = cellCount c := by rwa [View.idle, beq_iff_eq] at hidle
      rw [List.filter_cons_of_neg (by simp [hidle]), ih, usedIn_cons, hlen, Nat.sub_self, Nat.zero_add]
    · rw [List.filter_cons_of_pos (by simpa using hidle), usedIn_cons, usedIn_cons, ih]

/-- What becomes of a slab without a cell in use: it is unlinked from between `before` and `after`, and goes back. -/
def Cache.discard (mapper : Mapper) (before slab after : Ptr) : Action CacheSite Unit := do
  Cache.relink before after
  let slabCount ← Action.lift (Count.sub (← get).cache.slabCount 1)
  Cache.update fun c => { c with slabCount }
  Cache.inArena (release mapper slab)

section

variable {mapper : Mapper} {before page next : Ptr} {free : List Nat} {released : Nat}
  {Q : Checked Fault Nat → CacheSite → Prop}

/-- A slab with a cell in use is passed by. -/
theorem shrinkFrom_busy (h : Holds s.arena.memory page c next free) (hc : CellSize c) (hbusy : free.length ≠ cellCount c)
    (hQ : (Cache.shrinkFrom mapper n page next released).Ends s Q) :
    (Cache.shrinkFrom mapper (n + 1) before page released).Ends s Q := by
  rw [Cache.shrinkFrom, if_neg h.ne_zero, Action.ends_bind, Cache.ends_inArena, h.verify_ends, Action.goes_ok,
    Action.ends_bind, Cache.ends_inArena, ends_header, Action.goes_ok, h.header hc, Action.ends_ite,
    if_neg (by simpa [Header.isEmpty] using hbusy)]
  exact hQ

/-- A slab without one goes back. -/
theorem shrinkFrom_idle (h : Holds s.arena.memory page c next free) (hc : CellSize c) (hidle : free.length = cellCount c)
    (hr : released + 1 < 2 ^ 64) (hQ : (Cache.discard mapper before page next).Ends s fun r t =>
      r = .ok () ∧ (Cache.shrinkFrom mapper n before next (released + 1)).Ends t Q) :
    (Cache.shrinkFrom mapper (n + 1) before page released).Ends s Q := by
  have hrest : (Cache.discard mapper before page next >>= fun _ => Action.lift (Count.add released 1) >>= fun k =>
      Cache.shrinkFrom mapper n before next k).Ends s Q := by
    refine hQ.bind ?_
    intro r t hends
    obtain ⟨rfl, ht⟩ := hends
    rwa [Action.goes_ok, Action.ends_bind, Action.ends_lift, Count.add_eq_ok.2 ⟨hr, rfl⟩, Action.goes_ok]
  rw [Cache.shrinkFrom, if_neg h.ne_zero, Action.ends_bind, Cache.ends_inArena, h.verify_ends, Action.goes_ok,
    Action.ends_bind, Cache.ends_inArena, ends_header, Action.goes_ok, h.header hc, Action.ends_ite,
    if_pos (by simpa [Header.isEmpty] using hidle)]
  simpa only [Cache.discard, bind_assoc] using hrest

end

/-- A cache that discards an idle slab. -/
theorem discard_ends (h : Stands E p c s (xs ++ v :: ys)) (hidle : v.free.length = cellCount c) :
    (Cache.discard E.mapper (last xs) v.page (head ys)).Ends s fun r t => r = .ok () ∧ ∃ qs,
      Sheds E c s t p qs (xs ++ v :: ys) (xs ++ ys) 1 := by
  have hcount := h.count
  rw [List.length_append, List.length_cons] at hcount
  unfold Cache.discard
  refine (relink_ends h).bind ?_
  intro r t hends
  obtain ⟨rfl, m, rfl, hchain, hv, ha⟩ := hends
  rw [Action.goes_ok, Action.ends_bind, Action.ends_get, Action.goes_ok, Action.ends_bind, Action.ends_lift,
    Count.sub_eq_ok.2 ⟨show 1 ≤ s.cache.slabCount by omega, rfl⟩, Action.goes_ok, Action.ends_bind,
    Cache.ends_update, Action.goes_ok, Cache.ends_inArena]
  exact turn_release h hidle hchain hv ha

/-- The slabs from `ys` on lose those that are idle. -/
theorem shrinkFrom_ends (xs : List View) {released : Nat} (h : Stands E p c s (xs ++ ys)) (hn : ys.length < n)
    (hr : released + ys.length < 2 ^ 64) :
    (Cache.shrinkFrom E.mapper n (last xs) (head ys) released).Ends s fun r t =>
      r = .ok (released + ys.countP (View.idle c)) ∧ ∃ qs,
        Sheds E c s t p qs (xs ++ ys) (xs ++ ys.filter fun v => !v.idle c) (ys.countP (View.idle c)) := by
  induction ys generalizing xs s p n released with
  | nil =>
    obtain ⟨n, rfl⟩ := Nat.exists_eq_succ_of_ne_zero (Nat.ne_of_gt hn)
    rw [Cache.shrinkFrom, head, if_pos rfl, Action.ends_pure, List.countP_nil, Nat.add_zero]
    exact ⟨rfl, [], h.turns, .refl _ _ _ _⟩
  | cons v ys ih =>
    obtain ⟨n, rfl⟩ := Nat.exists_eq_succ_of_ne_zero (Nat.ne_of_gt (Nat.lt_of_le_of_lt (Nat.zero_le _) hn))
    have hlen : (v :: ys).length = ys.length + 1 := rfl
    by_cases hidle : v.free.length = cellCount c
    · have hidle' : v.idle c = true := by rwa [View.idle, beq_iff_eq]
      refine shrinkFrom_idle h.chain.mid h.cell hidle (by omega) ((discard_ends h hidle).mono ?_)
      intro r t hends
      obtain ⟨rfl, qs, hshed⟩ := hends
      refine ⟨rfl, (ih xs hshed.stands (by omega) (by omega)).mono ?_⟩
      intro r u hends
      obtain ⟨rfl, qs', hrest⟩ := hends
      rw [List.countP_cons_of_pos hidle', List.filter_cons_of_neg (by simp [hidle']),
        Nat.add_comm (ys.countP (View.idle c)) 1]
      exact ⟨by rw [Nat.add_assoc], qs ++ qs', hshed.trans h hrest⟩
    · have hidle' : v.idle c = false := by rwa [View.idle, beq_eq_false_iff_ne]
      have hlist : ∀ zs, xs ++ v :: zs = xs ++ [v] ++ zs := fun zs => by simp
      refine shrinkFrom_busy h.chain.mid h.cell hidle ?_
      rw [hlist] at h
      have hlast : head (v :: ys) = last (xs ++ [v]) := (last_append xs v).symm
      rw [List.countP_cons_of_neg (by simp [hidle']), List.filter_cons_of_pos (by simp [hidle']), hlist ys,
        hlist (ys.filter _), hlast]
      have hr' : released + ys.length < 2 ^ 64 := by omega
      exact ih (xs ++ [v]) h (Nat.lt_of_succ_lt_succ hn) hr'

/-- **Shrinking a cache**: every idle slab goes back to the pool, and the others stay in order. -/
theorem shrink_ends (h : Stands E p c s vs) : (Cache.shrink E.mapper).Ends s fun r t =>
    r = .ok (vs.countP (View.idle c)) ∧ ∃ qs,
      Sheds E c s t p qs vs (vs.filter fun v => !v.idle c) (vs.countP (View.idle c)) := by
  have hlt := h.chain.length_le h.distinct
  unfold Cache.shrink
  rw [Action.ends_bind, Action.ends_get, Action.goes_ok, h.first]
  refine (shrinkFrom_ends [] h h.length_lt (by omega)).mono ?_
  intro r t hends
  obtain ⟨rfl, hshed⟩ := hends
  exact ⟨by rw [Nat.zero_add], hshed⟩

end Keel.Slab
