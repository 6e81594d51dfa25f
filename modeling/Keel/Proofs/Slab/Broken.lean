import Keel.Proofs.Patched
import Keel.Proofs.Slab.Counts
import Keel.Proofs.Slab.Shedding

/-!
# Caches with broken headers

`Broken` says that a cache is one in order, but for marks: that of some slab `b` is wrong, and those of slabs behind it
may be. A walk still finds its way along the slabs before `b` (`Broken.leads`), and there it stops (`verify_ends`). So the
slabs before `b` are served as ever, and whatever would have to go past `b` is refused, with nothing changed:
- `Broken.slabs_ends`, `Broken.stats_ends`, `Broken.owns_ends`: what is reported;
- `Broken.free_before`, `Broken.free_behind`, `Broken.allocate_first`, `Broken.allocate_full`: cells that change hands.
  `Stacks` says of two sites that one has a cell more on a list of free cells, and differs in nothing else;
- `Broken.shrink_ends`: a shrink sheds slabs one by one before it comes to `b`. The cache in order sheds the same ones,
  and as no byte of the marks is read or written, the one remains the other but for marks (`blind_discard`,
  `Broken.discard`).
-/

namespace Keel.Slab

open Keel.Action (Blind)
open Keel.Memory (Alters block pageAt)
open Keel.Frame (Pool Request)

attribute [local irreducible] Memory.word

variable {E : Estate} {p : Pool} {c i n : Nat} {patch m : Memory} {s t : CacheSite} {b v w : View}
  {xs ys zs : List View} {page e : Ptr}

/-! ## Wrong marks -/

/-- Memory after the marks of some pages were overwritten. -/
def deface (m : Memory) (ws : List (Ptr × UInt64)) : Memory :=
  ws.foldl (fun m w => m.setWord (w.1 + magicField) w.2) m

theorem alters_deface (m : Memory) (ws : List (Ptr × UInt64)) :
    Alters {a | ∃ w ∈ ws, a ∈ block (w.1 + magicField) 8} m (deface m ws) := by
  induction ws generalizing m with
  | nil => exact Alters.refl _ _
  | cons w ws ih =>
    refine ((Memory.alters_setWord m (w.1 + magicField) w.2).mono fun a ha => ?_).trans
      ((ih (m.setWord (w.1 + magicField) w.2)).mono fun a ha => ?_)
    · exact ⟨w, by simp, ha⟩
    · obtain ⟨u, hu, ha⟩ := ha
      exact ⟨u, by simp [hu], ha⟩

/-- A page whose mark was overwritten has one of the marks that were written there. -/
theorem word_deface {ws : List (Ptr × UInt64)} (hal : ∀ w ∈ ws, w.1.toNat % 4096 = 0) (hpage : page ∈ ws.map Prod.fst) :
    ∃ w ∈ ws, w.1 = page ∧ (deface m ws).word (page + magicField) = w.2 := by
  induction ws generalizing m with
  | nil => cases hpage
  | cons w ws ih =>
    by_cases hrest : page ∈ ws.map Prod.fst
    · obtain ⟨u, hu, hup, hword⟩ := ih (m := m.setWord (w.1 + magicField) w.2) (fun u hu => hal u (by simp [hu])) hrest
      exact ⟨u, by simp [hu], hup, hword⟩
    · have hw : page = w.1 := (List.mem_cons.1 hpage).resolve_right hrest
      refine ⟨w, by simp, hw.symm, ?_⟩
      -- no later mark is that of the same page, and pages do not meet
      have hlater := alters_deface (m.setWord (w.1 + magicField) w.2) ws
      have hmark : ∀ a : Ptr, block (a + magicField) 8 ⊆ pageAt a := fun a => Memory.block_add_subset (j := 40) (by omega)
      rw [hw]
      refine (hlater.word (Set.disjoint_left.2 fun a ha hlist => ?_)).trans (Memory.word_setWord _ _ _)
      obtain ⟨u, hu, hau⟩ := hlist
      have hne : w.1 ≠ u.1 := fun he => hrest (by rw [hw, he]; exact List.mem_map_of_mem hu)
      exact Set.disjoint_left.1 (Memory.disjoint_pageAt (hal w (by simp)) (hal u (by simp [hu])) hne) (hmark _ ha)
        (hmark _ hau)

/-! ## A broken cache -/

/-- The cache of `t` is the one of `s`, which is in order, but for the marks of `b` and of slabs behind it: those are as
in `patch`, and that of `b` is wrong. -/
structure Broken (E : Estate) (p : Pool) (c : Nat) (patch : Memory) (s t : CacheSite) (xs : List View) (b : View)
    (zs : List View) : Prop where
  stands : Stands E p c s (xs ++ b :: zs)
  patched : s.arena.Patched (marks {v | v ∈ b :: zs}) patch t.arena
  cache : t.cache = s.cache
  wrong : patch.word (b.page + magicField) ≠ Layout.slabMagic

/-- What is refused as corrupted, with nothing changed. -/
def Refuses {α : Type} (t : CacheSite) (r : Checked Fault α) (u : CacheSite) : Prop :=
  r = .error (.fault .corrupted) ∧ u = t

namespace Broken

/-- A slab before the broken one is none behind it. -/
theorem notMem_behind (h : Broken E p c patch s t xs b zs) (hv : v ∈ xs) : v ∉ b :: zs := fun hm => by
  have hn := h.stands.distinct
  rw [List.map_append] at hn
  exact List.disjoint_of_nodup_append hn (List.mem_map_of_mem hv) (List.mem_map_of_mem hm)

/-- The pages before the broken slab have no byte of the marks that may be wrong. -/
theorem disjoint (h : Broken E p c patch s t xs b zs) (hv : v ∈ xs) :
    Disjoint (pageAt v.page) (marks {v | v ∈ b :: zs}) := by
  have hd := h.stands.scattered.disjoint (v := v) (T := {v | v ∈ b :: zs}) (List.mem_append_left _ hv)
    (fun w hw => List.mem_append_right _ hw) (h.notMem_behind hv)
  exact hd.mono_right (Set.subset_union_of_subset_left Set.subset_union_right _)

/-- A walk finds its way to the broken slab. -/
theorem leads (h : Broken E p c patch s t xs b zs) : Leads t.arena.memory c b.page xs :=
  (Chain.leads xs h.stands.chain).congr h.stands.cell h.patched.outside fun _ hv => h.disjoint hv

theorem first (h : Broken E p c patch s t xs b zs) : t.cache.first = headTo b.page xs := by
  rw [h.cache, h.stands.first]
  exact head_append_eq xs (b :: zs)

theorem size (h : Broken E p c patch s t xs b zs) : t.cache.cellSize = c := by rw [h.cache, h.stands.size]

theorem mark_ne (h : Broken E p c patch s t xs b zs) : wordIn t.arena.memory b.page 40 ≠ Layout.slabMagic := by
  have hsub : block (b.page + magicField) 8 ⊆ marks {v | v ∈ b :: zs} := fun a ha => ⟨b, by simp, ha⟩
  have hword := h.patched.inside.word (Set.disjoint_compl_right_iff_subset.2 hsub)
  exact fun he => h.wrong (hword.symm.trans he)

/-- There are more steps than slabs before the broken one. -/
theorem steps (h : Broken E p c patch s t xs b zs) : ∃ k, linkLimit = k + 1 + xs.length := by
  have hlt := h.stands.length_lt
  rw [List.length_append] at hlt
  exact exists_steps (by omega)

theorem page_ne_zero (h : Broken E p c patch s t xs b zs) : b.page ≠ 0 := h.stands.chain.page_ne_zero (by simp)

/-- The header of the broken slab is refused. -/
theorem verify_ends (h : Broken E p c patch s t xs b zs) {Q : Checked Fault Unit → Arena → Prop} :
    (verify b.page).Ends t.arena Q ↔ Q (.error (.fault .corrupted)) t.arena := by
  rw [Slab.verify_ends, if_neg h.mark_ne]

/-! ## Reports -/

theorem slabs_ends (h : Broken E p c patch s t xs b zs) : Cache.slabs.Ends t fun r u =>
    r = .ok (xs.map (fun v => .ok v.page) ++ [.error .corrupted]) ∧ u = t := by
  obtain ⟨k, hk⟩ := h.steps
  unfold Cache.slabs
  rw [Action.ends_bind, Action.ends_get, Action.goes_ok, Cache.ends_inArena, h.first, hk]
  refine h.leads.slabsFrom ?_
  rw [Cache.slabsFrom, if_neg h.page_ne_zero, Action.ends_bind, Action.ends_attempt, h.verify_ends,
    Action.attempted_fault, Action.goes_ok, Action.ends_pure]
  exact ⟨rfl, rfl⟩

theorem stats_ends (h : Broken E p c patch s t xs b zs) : Cache.stats.Ends t (Refuses t) := by
  obtain ⟨k, hk⟩ := h.steps
  have hfree : 0 + freeIn xs < 2 ^ 64 := by
    have hall := freeIn_lt h.stands.chain h.stands.cell h.stands.distinct
    rw [freeIn_append] at hall
    omega
  unfold Cache.stats
  rw [Action.ends_bind, Action.ends_get, Action.goes_ok]
  simp only [Action.ends_bind]
  rw [Cache.ends_inArena, h.first, hk]
  refine h.leads.freeCellsFrom h.stands.cell hfree ?_
  rw [Cache.freeCellsFrom, if_neg h.page_ne_zero, Action.ends_bind, h.verify_ends, Action.goes_error]
  exact ⟨rfl, rfl⟩

theorem owns_ends (h : Broken E p c patch s t xs b zs) (page : Ptr) : (Cache.owns page).Ends t fun r u =>
    r = (if page ∈ xs.map View.page then .ok true else .error (.fault .corrupted)) ∧ u = t := by
  obtain ⟨k, hk⟩ := h.steps
  unfold Cache.owns
  rw [Action.ends_bind, Action.ends_get, Action.goes_ok, Cache.ends_inArena, h.first, hk]
  refine h.leads.ownsFrom (fun hm => ?_) fun hm => ?_
  · rw [if_pos hm]
    exact ⟨rfl, rfl⟩
  · rw [Cache.ownsFrom, if_neg h.page_ne_zero, Action.ends_bind, h.verify_ends, Action.goes_error, if_neg hm]
    exact ⟨rfl, rfl⟩

end Broken

/-! ## Cells -/

/-- The cache of `u` is that of `t` with an object less: the cell `x` lies on top of the free cells of its slab. Nothing
else differs but the bytes of the cell. -/
structure Stacks (t u : CacheSite) (x : Ptr) : Prop where
  header : Header.read u.arena.memory (containing x) = { Header.read t.arena.memory (containing x) with
    freeList := x
    freeCount := (Header.read t.arena.memory (containing x)).freeCount + 1 }
  link : u.arena.memory.word x = (Header.read t.arena.memory (containing x)).freeList
  alters : Alters (headerBlock (containing x) ∪ block x t.cache.cellSize) t.arena.memory u.arena.memory
  cache : t.cache = { u.cache with inUse := u.cache.inUse + 1 }
  pool : u.arena.pool = t.arena.pool
  poison : u.arena.poison = t.arena.poison

section

variable {a : Arena} {k : Cache} {next : Ptr} {free is : List Nat}

/-- A cell that comes back lies on top. -/
theorem stacks_pushed (h : Holds a.memory page c next free) (hc : CellSize c) (hi : i < cellCount c) (hfree : i ∉ free)
    (hsize : k.cellSize = c) (hpos : 0 < k.inUse) : Stacks ⟨a, k⟩
      ⟨{ a with memory := pushed a.memory page c i (link page c free) (free.length + 1) a.poison },
        { k with inUse := k.inUse - 1 }⟩ (cellAt page c i) := by
  have hpage := containing_cellAt h.aligned hi hc
  have hnew := (h.pushed hc hi hfree a.poison).header hc
  have hcount : k.inUse - 1 + 1 = k.inUse := by omega
  exact {
    header := by rw [hpage, hnew, h.header hc]; rfl
    link := by rw [hpage, h.header hc]; exact wordIn_pushed_link _ _ _ hc (cellOffset_add_le hi)
    alters := by rw [hpage, hsize]; exact alters_pushed _ page hc i _ _ _
    cache := by rw [hcount]
    pool := rfl
    poison := rfl }

/-- A cell that is handed out lay on top. -/
theorem stacks_popped (h : Holds a.memory page c next (i :: is)) (hc : CellSize c) (hsize : k.cellSize = c) :
    Stacks ⟨{ a with memory := popped a.memory page c i (link page c is) is.length a.poison },
      { k with inUse := k.inUse + 1 }⟩ ⟨a, k⟩ (cellAt page c i) := by
  have hpage := containing_cellAt h.aligned (h.bound i List.mem_cons_self) hc
  have hnew := (h.popped hc a.poison).header hc
  exact {
    header := by rw [hpage, hnew, h.header hc]; rfl
    link := by rw [hpage, hnew]; exact h.linked.1
    alters := by
      rw [hpage]
      show Alters (headerBlock page ∪ block (cellAt page c i) k.cellSize) _ _
      rw [hsize]
      exact (alters_popped _ page hc i _ _ _).symm
    cache := rfl
    pool := rfl
    poison := rfl }

end

namespace Leads

theorem holds (h : Leads m c e xs) (hv : v ∈ xs) : ∃ next, Holds m v.page c next v.free := by
  induction xs with
  | nil => cases hv
  | cons w xs ih =>
    obtain ⟨hw, hxs⟩ := h
    rcases List.mem_cons.1 hv with rfl | hv
    · exact ⟨_, hw⟩
    · exact ih hxs hv

theorem headTo_append (xs : List View) : headTo e (xs ++ v :: ys) = headTo v.page xs := by cases xs <;> rfl

theorem mid (h : Leads m c e (xs ++ v :: ys)) : Holds m v.page c (headTo e ys) v.free := by
  induction xs with
  | nil => exact h.1
  | cons w xs ih => exact ih h.2

/-- The slabs before one of some slabs lead to it. -/
theorem left (h : Leads m c e (xs ++ v :: ys)) : Leads m c v.page xs := by
  induction xs with
  | nil => trivial
  | cons w xs ih =>
    obtain ⟨hw, hrest⟩ := h
    rw [List.append_eq, headTo_append] at hw
    exact ⟨hw, ih hrest⟩

end Leads

theorem usedIn_pos {vs : List View} (hv : v ∈ vs) (hlt : v.free.length < cellCount c) : 0 < usedIn c vs := by
  obtain ⟨xs, ys, rfl⟩ := List.append_of_mem hv
  rw [usedIn_append, usedIn_cons]
  omega

namespace Broken

/-- An object of a slab before the broken one comes back. -/
theorem free_before (h : Broken E p c patch s t xs b zs) (hv : v ∈ xs) (hi : i < cellCount c) (hfree : i ∉ v.free) :
    (Cache.free (cellAt v.page c i)).Ends t fun r u => r = .ok () ∧ Stacks t u (cellAt v.page c i) := by
  obtain ⟨next, hh⟩ := h.leads.holds hv
  have hpage := containing_cellAt hh.aligned hi h.stands.cell
  have hpos : 0 < t.cache.inUse := by
    rw [h.cache, h.stands.used]
    exact usedIn_pos (List.mem_append_left _ hv) (hh.length_lt hi hfree)
  unfold Cache.free
  refine (h.owns_ends _).bind ?_
  intro r u hends
  obtain ⟨rfl, rfl⟩ := hends
  rw [hpage, if_pos (List.mem_map_of_mem hv), Action.goes_ok, Action.ends_ite, if_neg (by simp), Action.ends_bind,
    Cache.ends_inArena]
  refine (push_taken hh h.stands.cell hi hfree).mono ?_
  intro r a hends
  obtain ⟨rfl, rfl⟩ := hends
  rw [Action.goes_ok, Action.ends_bind, Action.ends_get, Action.goes_ok, Action.ends_bind, Action.ends_lift,
    Count.sub_eq_ok.2 ⟨hpos, rfl⟩, Action.goes_ok, Cache.ends_update]
  exact ⟨rfl, stacks_pushed hh h.stands.cell hi hfree h.size hpos⟩

/-- A pointer into no slab before the broken one is refused. -/
theorem free_behind {x : Ptr} (h : Broken E p c patch s t xs b zs) (hx : containing x ∉ xs.map View.page) :
    (Cache.free x).Ends t (Refuses t) := by
  unfold Cache.free
  refine (h.owns_ends _).bind ?_
  intro r u hends
  obtain ⟨rfl, rfl⟩ := hends
  rw [if_neg hx]
  exact ⟨rfl, rfl⟩

/-- The first slab with a free cell gives its first one, if it is before the broken one. -/
theorem allocate_first {is : List Nat} (h : Broken E p c patch s t (xs ++ ⟨page, i :: is⟩ :: ys) b zs)
    (hfull : ∀ v ∈ xs, v.free = []) (mapper : Mapper) : (Cache.allocate mapper).Ends t fun r u =>
      r = .ok (cellAt page c i) ∧ Stacks u t (cellAt page c i) := by
  obtain ⟨k, hk⟩ := h.steps
  obtain ⟨next, hh⟩ := h.leads.holds (v := ⟨page, i :: is⟩) (by simp)
  have hsteps : linkLimit = k + ys.length + 1 + 1 + xs.length := by
    rw [hk, List.length_append, List.length_cons]
    omega
  have hused : t.cache.inUse + 1 < 2 ^ 64 := by
    rw [h.cache]
    exact h.stands.inUse_lt
  unfold Cache.allocate
  rw [Action.ends_bind, Action.ends_get, Action.goes_ok, Action.ends_bind, Cache.ends_inArena, h.first, hsteps,
    Leads.headTo_append]
  refine h.leads.left.popFrom hfull ((popFrom_cons hh h.stands.cell).mono ?_)
  intro r a hends
  obtain ⟨rfl, rfl⟩ := hends
  rw [Action.goes_ok]
  simp only [Action.ends_bind]
  rw [Cache.ends_countTaken hused, Action.goes_ok, Action.ends_pure]
  exact ⟨rfl, stacks_popped hh h.stands.cell h.size⟩

/-- If every slab before the broken one is full, there is no cell. -/
theorem allocate_full (h : Broken E p c patch s t xs b zs) (hfull : ∀ v ∈ xs, v.free = []) (mapper : Mapper) :
    (Cache.allocate mapper).Ends t (Refuses t) := by
  obtain ⟨k, hk⟩ := h.steps
  unfold Cache.allocate
  rw [Action.ends_bind, Action.ends_get, Action.goes_ok, Action.ends_bind, Cache.ends_inArena, h.first, hk]
  refine h.leads.popFrom hfull ?_
  rw [Cache.popFrom, if_neg h.page_ne_zero, pop, Action.ends_bind, Action.ends_bind, h.verify_ends, Action.goes_error,
    Action.goes_error, Action.goes_error]
  exact ⟨rfl, rfl⟩

end Broken

/-! ## Shrinking -/

/-- `t` is `s` with the bytes of `D` as they are in `patch`. -/
structure Patched (D : Set Ptr) (patch : Memory) (s t : CacheSite) : Prop where
  arena : s.arena.Patched D patch t.arena
  cache : t.cache = s.cache

section

variable {α : Type} {D : Set Ptr} {mapper : Mapper} {before after : Ptr}

/-- A header of which no byte is altered. -/
theorem read_congr {S : Set Ptr} {m' : Memory} (ha : Alters S m m') (hd : Disjoint (headerBlock page) S) :
    Header.read m' page = Header.read m page := by
  have hword : ∀ k, k + 8 ≤ 48 → wordIn m' page k = wordIn m page k := fun k hk =>
    ha.word (hd.mono_left (Memory.block_add_subset hk))
  show Header.mk (wordIn m' page 0) (wordIn m' page 8) (wordIn m' page 16).toNat (wordIn m' page 24).toNat
    (wordIn m' page 32).toNat (wordIn m' page 40) = _
  rw [hword 0 (by omega), hword 8 (by omega), hword 16 (by omega), hword 24 (by omega), hword 32 (by omega),
    hword 40 (by omega)]
  rfl

theorem blind_header (hd : Disjoint (headerBlock page) D) : Blind (Arena.Patched D patch) (header page) :=
  Blind.get_bind (fun _ _ h => by rw [read_congr h.outside hd]) fun _ => Action.blind_pure _

theorem blind_verify (hd : Disjoint (headerBlock page) D) : Blind (Arena.Patched D patch) (verify page) :=
  (Arena.Patched.blind_word (hd.mono_left (Memory.block_add_subset (j := 40) (by omega)))).bind fun _ =>
    Blind.ite ((Action.blind_note _).bind fun _ => Action.blind_fail _) (Action.blind_pure _)

/-- A slab goes back alike. -/
theorem blind_release (hd : Disjoint (headerBlock page) D) : Blind (Arena.Patched D patch) (release mapper page) :=
  (blind_verify hd).bind fun _ =>
    (Arena.Patched.blind_setWord (hd.mono_left (Memory.block_add_subset (j := 40) (by omega)))).bind fun _ =>
      (blind_header hd).bind fun _ => (Action.blind_note _).bind fun _ => Arena.Patched.blind_freeFrame _

theorem blind_inArena {x : Action Arena α} (hx : Blind (Arena.Patched D patch) x) :
    Blind (Patched D patch) (Cache.inArena x) :=
  hx.zoom (fun _ _ h => h.arena) fun _ _ _ _ h ha => ⟨ha, h.cache⟩

theorem blind_update (f : Cache → Cache) : Blind (Patched D patch) (Cache.update f) :=
  Action.blind_modify fun _ _ h => ⟨h.arena, congrArg f h.cache⟩

/-- A slab is discarded alike, if neither it nor the one before it has a byte of `D` in its header. -/
theorem blind_discard (hbefore : before ≠ 0 → Disjoint (headerBlock before) D) (hd : Disjoint (headerBlock page) D) :
    Blind (Patched D patch) (Cache.discard mapper before page after) := by
  have hrelink : Blind (Patched D patch) (Cache.relink before after) := by
    unfold Cache.relink
    split
    · exact blind_update _
    · rename_i hne
      exact blind_inArena (Arena.Patched.blind_setWord
        ((hbefore hne).mono_left (Memory.block_add_subset (j := 0) (by omega))))
  refine hrelink.bind fun _ => Blind.get_bind (fun _ _ h => by rw [h.cache]) fun _ => ?_
  exact (Action.blind_lift _).bind fun _ => (blind_update _).bind fun _ => blind_inArena (blind_release hd)

end

namespace Broken

theorem disjoint_header (h : Broken E p c patch s t xs b zs) (hv : v ∈ xs) :
    Disjoint (headerBlock v.page) (marks {v | v ∈ b :: zs}) := (h.disjoint hv).mono_left (Holds.headerBlock_subset _)

/-- One slab without a cell in use is discarded, and the cache is broken as before. -/
theorem discard (h : Broken E p c patch s t (xs ++ v :: ys) b zs) (hidle : v.free.length = cellCount c) :
    (Cache.discard E.mapper (last xs) v.page (headTo b.page ys)).Ends t fun r u => r = .ok () ∧ ∃ s' qs,
      Broken E (p.after qs) c patch s' u (xs ++ ys) b zs ∧
        Sheds E c s s' p qs (xs ++ v :: ys ++ b :: zs) (xs ++ ys ++ b :: zs) 1 := by
  have hlist : ∀ ys, xs ++ ys ++ b :: zs = xs ++ (ys ++ b :: zs) := fun ys => List.append_assoc ..
  have hstands := h.stands
  rw [hlist, List.cons_append] at hstands
  have hbefore : last xs ≠ 0 → Disjoint (headerBlock (last xs)) (marks {v | v ∈ b :: zs}) := by
    rcases xs.eq_nil_or_concat' with rfl | ⟨ws, w, rfl⟩
    · exact fun hne => absurd rfl hne
    · intro _
      rw [last_append]
      exact h.disjoint_header (by simp)
  obtain ⟨hr, qs, hshed⟩ := discard_ends hstands hidle
  rw [head_append_eq] at hr hshed
  -- the cache in order has discarded the slab, and the broken one does the same but for the marks
  have hblind : Blind (Patched (marks {v | v ∈ b :: zs}) patch)
      (Cache.discard E.mapper (last xs) v.page (headTo b.page ys)) :=
    blind_discard hbefore (h.disjoint_header (by simp))
  obtain ⟨hresult, -, hpatched⟩ := hblind s t ⟨h.patched, h.cache⟩
  refine ⟨hresult.trans hr, _, qs, ⟨?_, hpatched.arena, hpatched.cache, h.wrong⟩, ?_⟩
  · rw [hlist]
    exact hshed.stands
  · rw [hlist, hlist, List.cons_append]
    exact hshed

/-- The slabs of `ys` that are idle are discarded one by one, and then the walk is at the broken slab. -/
theorem shrinkFrom (xs : List View) {released : Nat} (h : Broken E p c patch s t (xs ++ ys) b zs)
    (hr : released + ys.length < 2 ^ 64) :
    (Cache.shrinkFrom E.mapper (n + 1 + ys.length) (last xs) (headTo b.page ys) released).Ends t fun r u =>
      r = .error (.fault .corrupted) ∧ ∃ s' qs,
        Broken E (p.after qs) c patch s' u (xs ++ ys.filter fun v => !v.idle c) b zs ∧
        Sheds E c s s' p qs (xs ++ ys ++ b :: zs) ((xs ++ ys.filter fun v => !v.idle c) ++ b :: zs)
          (ys.countP (View.idle c)) := by
  -- the walk has passed `xs`, of which the last slab is linked anew where the one behind it goes
  induction ys generalizing xs s t p released with
  | nil =>
    rw [List.append_nil] at h
    rw [List.length_nil, Nat.add_zero, Cache.shrinkFrom, headTo, if_neg h.page_ne_zero, Action.ends_bind,
      Cache.ends_inArena, h.verify_ends, Action.goes_error, List.filter_nil, List.append_nil]
    exact ⟨rfl, s, [], h, h.stands.turns, .refl _ _ _ _⟩
  | cons v ys ih =>
    have hlen : (v :: ys).length = ys.length + 1 := rfl
    have hv := h.leads.mid
    rw [List.length_cons, ← Nat.add_assoc, headTo]
    by_cases hidle : v.free.length = cellCount c
    · have hidle' : v.idle c = true := by rwa [View.idle, beq_iff_eq]
      refine shrinkFrom_idle hv h.stands.cell hidle (by omega) ((h.discard hidle).mono ?_)
      intro r u hends
      obtain ⟨rfl, s', qs, hbroken, hshed⟩ := hends
      refine ⟨rfl, (ih xs hbroken (by omega)).mono ?_⟩
      intro r u hends
      obtain ⟨rfl, s'', qs', hbroken', hrest⟩ := hends
      rw [List.countP_cons_of_pos hidle', List.filter_cons_of_neg (by simp [hidle']),
        Nat.add_comm (ys.countP (View.idle c)) 1]
      refine ⟨rfl, s'', qs ++ qs', ?_, hshed.trans h.stands hrest⟩
      rwa [Pool.after_append]
    · have hidle' : v.idle c = false := by rwa [View.idle, beq_eq_false_iff_ne]
      have hlist : ∀ zs, xs ++ v :: zs = xs ++ [v] ++ zs := fun zs => by simp
      have hlast : v.page = last (xs ++ [v]) := (last_append xs v).symm
      refine shrinkFrom_busy hv h.stands.cell hidle ?_
      rw [hlist] at h
      rw [List.countP_cons_of_neg (by simp [hidle']), List.filter_cons_of_pos (by simp [hidle']), hlist ys,
        hlist (ys.filter _), hlast]
      exact ih (xs ++ [v]) h (by omega)

/-- **Shrinking a broken cache**: the idle slabs before the broken one go back, and then the shrink fails. -/
theorem shrink_ends (h : Broken E p c patch s t xs b zs) : (Cache.shrink E.mapper).Ends t fun r u =>
    r = .error (.fault .corrupted) ∧ ∃ s' qs,
      Broken E (p.after qs) c patch s' u (xs.filter fun v => !v.idle c) b zs ∧
      Sheds E c s s' p qs (xs ++ b :: zs) ((xs.filter fun v => !v.idle c) ++ b :: zs) (xs.countP (View.idle c)) := by
  obtain ⟨k, hk⟩ := h.steps
  have hlt : 0 + xs.length < 2 ^ 64 := by
    have := h.stands.length_lt
    rw [List.length_append] at this
    unfold linkLimit at this
    omega
  unfold Cache.shrink
  rw [Action.ends_bind, Action.ends_get, Action.goes_ok, h.first, hk]
  exact shrinkFrom [] h hlt

end Broken

end Keel.Slab
