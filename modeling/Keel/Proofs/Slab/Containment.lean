import Keel.Proofs.Slab.Broken
import Keel.Proofs.Slab.Forgery
import Keel.Proofs.Slab.Sessions

/-!
# A broken header is contained

Whatever has happened to a cache, the marks of some of its slabs may be overwritten, and then there is a first slab `bad`
whose mark is wrong (`broken_of_kept`). The slabs before it are still the cache's own: their objects come back, their
cells are handed out, and those without an object are released. Everything else is refused as corrupted. `Contains` says
so of every request, with what it leaves behind (`contains_of_broken`), and `Reclaims` what a shrink has done when it
stops: the slabs that are left are linked in their old order, and counted.
-/

namespace Keel.Slab

open Keel.Memory (Alters block pageAt)
open Keel.Frame (Pool)

attribute [local irreducible] Memory.word

/-- What a shrink has done that released the slabs `gone` and left the slabs `kept`, in this order. -/
structure Reclaims (mapper : Mapper) (t u : CacheSite) (gone kept : List Ptr) : Prop where
  /-- The link of a slab is the first word of its page. -/
  linked : Follows u.arena.memory u.cache.first kept
  cache : u.cache = { t.cache with first := u.cache.first, slabCount := kept.length }
  pool : ∃ p ∈ t.arena.pool?, ∃ q ∈ u.arena.pool?,
    (∀ f, q.Free f ↔ p.Free f ∨ ∃ page ∈ gone, f = Align.frameOf (mapper.toPhys ⟨page⟩).raw) ∧
      q.freeFrames = p.freeFrames + gone.length ∧ q.usedFrames + gone.length = p.usedFrames ∧ q.failures = p.failures
  cleared : ∀ page ∈ gone, (Header.read u.arena.memory page).magic = 0
  /-- Of a slab that is left only the link may change. -/
  stays : ∀ page ∈ kept, ∀ a ∈ pageAt page, a ∉ block (page + nextField) 8 →
    u.arena.memory.read a = t.arena.memory.read a

namespace Session

/-- The site of a session after the marks of some pages were overwritten. -/
def deface (s : Session) (ws : List (Ptr × UInt64)) : CacheSite :=
  ⟨{ s.site.arena with memory := Slab.deface s.memory ws }, s.site.cache⟩

/-- What the requests to a cache come to at the site `t`, where it has the slabs `front`, then `bad`, whose mark is wrong,
and then those of `back`. The objects are those of the session, of which `t` is the site but for marks. -/
structure Contains (s : Session) (t : CacheSite) (front : List Ptr) (bad : Ptr) (back : List Ptr) : Prop where
  slabs : Cache.slabs.Ends t fun r u => r = .ok (front.map .ok ++ [.error .corrupted]) ∧ u = t
  stats : Cache.stats.Ends t (Refuses t)
  owns : ∀ page, (Cache.owns page).Ends t fun r u =>
    r = (if page ∈ front then .ok true else .error (.fault .corrupted)) ∧ u = t
  objects : ∀ x ∈ s.live, containing x ∈ front ++ bad :: back
  free : ∀ x ∈ s.live, (Cache.free x).Ends t fun r u =>
    if containing x ∈ front then r = .ok () ∧ Stacks t u x else Refuses t r u
  /-- A cell of the first slab that is not full is handed out, apart from all objects. -/
  allocate : ∀ mapper : Mapper, (Cache.allocate mapper).Ends t fun r u =>
    match front.find? fun page => !(Header.read t.arena.memory page).isFull with
    | some page => ∃ x, r = .ok x ∧ containing x = page ∧ Stacks u t x ∧
        ∀ y ∈ s.live, Disjoint (block x t.cache.cellSize) (block y t.cache.cellSize)
    | none => Refuses t r u
  shrink : (Cache.shrink s.mapper).Ends t fun r u => r = .error (.fault .corrupted) ∧
    Reclaims s.mapper t u (front.filter fun page => (Header.read t.arena.memory page).isEmpty)
      ((front.filter fun page => !(Header.read t.arena.memory page).isEmpty) ++ bad :: back)

end Session

variable {E : Estate} {p : Pool} {c n : Nat} {patch : Memory} {s t s' u : CacheSite} {b v : View}
  {xs ys zs ks : List View} {qs : List Frame.Request}

/-! ## Shrinking -/

theorem isEmpty_eq {m : Memory} {next : Ptr} (h : Holds m v.page c next v.free) (hc : CellSize c) :
    (Header.read m v.page).isEmpty = v.idle c := by
  rw [h.header hc]
  rfl

namespace Broken

/-- What the slabs before the broken one say of themselves. -/
theorem filter_isEmpty (h : Broken E p c patch s t xs b zs) (f : Bool → Bool) :
    (xs.map View.page).filter (fun page => f (Header.read t.arena.memory page).isEmpty) =
      (xs.filter fun v => f (v.idle c)).map View.page := by
  rw [List.filter_map]
  congr 1
  refine List.filter_congr fun v hv => ?_
  obtain ⟨next, hh⟩ := h.leads.holds hv
  exact congrArg f (isEmpty_eq hh h.stands.cell)

/-- The slabs that are gone are the idle ones before the broken one. -/
theorem mem_gone (h : Broken E p c patch s t xs b zs) :
    (v ∈ xs ++ b :: zs ∧ v ∉ (xs.filter fun v => !v.idle c) ++ b :: zs) ↔ v ∈ xs.filter (View.idle c) := by
  have hnot : v ∈ xs → v ∉ b :: zs := h.notMem_behind
  simp only [List.mem_append, List.mem_filter, Bool.not_eq_true']
  by_cases hidle : v.idle c = true
  · simp only [hidle, Bool.true_eq_false, and_false, false_or, and_true]
    tauto
  · simp only [Bool.not_eq_true] at hidle
    simp only [hidle, Bool.false_eq_true, and_false, and_true]
    tauto

/-- A slab that is left keeps every byte but its link. -/
theorem stays (h : Broken E p c patch s t xs b zs) (h' : Broken E (p.after qs) c patch s' u ks b zs)
    (hshed : Sheds E c s s' p qs (xs ++ b :: zs) (ks ++ b :: zs) n) (hv : v ∈ ks ++ b :: zs) {a : Ptr}
    (ha : a ∈ pageAt v.page) (hlink : a ∉ v.linkBytes) : u.arena.memory.read a = t.arena.memory.read a := by
  by_cases hmark : a ∈ marks {v | v ∈ b :: zs}
  · exact (h'.patched.inside a (not_not.2 hmark)).trans (h.patched.inside a (not_not.2 hmark)).symm
  · rw [h'.patched.outside a hmark, h.patched.outside a hmark]
    exact hshed.culls.keeps h.stands.scattered hv ha hlink

/-- What a shrink of a broken cache has done. -/
theorem reclaims (h : Broken E p c patch s t xs b zs)
    (h' : Broken E (p.after qs) c patch s' u (xs.filter fun v => !v.idle c) b zs)
    (hshed : Sheds E c s s' p qs (xs ++ b :: zs) ((xs.filter fun v => !v.idle c) ++ b :: zs)
      (xs.countP (View.idle c))) :
    Reclaims E.mapper t u ((xs.filter (View.idle c)).map View.page)
      (((xs.filter fun v => !v.idle c) ++ b :: zs).map View.page) where
  linked := by
    rw [h'.cache, h'.stands.first]
    refine h'.stands.chain.follows.congr fun q hq => ?_
    obtain ⟨v, hv, rfl⟩ := List.mem_map.1 hq
    refine h'.patched.outside.word ?_
    rw [show v.page = v.page + nextField from (UInt64.add_zero _).symm]
    exact h'.stands.scattered.disjoint_link hv fun w hw => List.mem_append_right _ hw
  cache := by
    have hused : s'.cache.inUse = s.cache.inUse := by
      rw [h.stands.used, h'.stands.used, usedIn_append, usedIn_append, usedIn_busy]
    have hsize : s'.cache.cellSize = s.cache.cellSize := h'.stands.size.trans h.stands.size.symm
    rw [h'.cache, h.cache, List.length_map, ← h'.stands.count]
    show s'.cache = ⟨s.cache.cellSize, s'.cache.first, s'.cache.slabCount, s.cache.inUse⟩
    rw [← hused, ← hsize]
  pool := by
    have hlen : ((xs.filter (View.idle c)).map View.page).length = xs.countP (View.idle c) := by
      rw [List.length_map, List.countP_eq_length_filter]
    refine ⟨p, (h.patched.keeps h.stands.supplies.keeps).pool?, p.after qs,
      (h'.patched.keeps h'.stands.supplies.keeps).pool?, fun f => ?_, ?_⟩
    · rw [hshed.free_iff h.stands]
      simp only [List.mem_map, exists_exists_and_eq_and]
      simp only [← h.mem_gone, and_assoc]
    · rw [hlen]
      exact ⟨hshed.culls.free, hshed.culls.used, hshed.culls.failures⟩
  cleared := by
    intro page hpage
    obtain ⟨v, hv, rfl⟩ := List.mem_map.1 hpage
    have hword : (u.arena.memory.word (v.page + magicField)) = s'.arena.memory.word (v.page + magicField) := by
      refine h'.patched.outside.word ((h.disjoint (List.mem_of_mem_filter hv)).mono_left ?_)
      exact v.markBytes_subset.trans (Holds.headerBlock_subset _)
    exact hword.trans (hshed.culls.cleared v (h.mem_gone.2 hv))
  stays := by
    intro page hpage a ha hlink
    obtain ⟨v, hv, rfl⟩ := List.mem_map.1 hpage
    exact h.stays h' hshed hv ha hlink

/-! ## Cells -/

/-- A cell of a slab before the broken one that is handed out is apart from all objects. -/
theorem disjoint_first {page x : Ptr} {i : Nat} {is : List Nat}
    (h : Broken E p c patch s t (xs ++ ⟨page, i :: is⟩ :: ys) b zs)
    (hx : x ∈ objects c (xs ++ ⟨page, i :: is⟩ :: ys ++ b :: zs)) :
    Disjoint (block (cellAt page c i) c) (block x c) := by
  have hstands := h.stands
  rw [List.append_assoc, List.cons_append] at hstands hx
  obtain ⟨hnew, hobjects⟩ := objects_first hstands
  have hturned := (hstands.turn_pop xs).stands
  have hmem : ∀ y, y ∈ insert (cellAt page c i) (objects c (xs ++ ⟨page, i :: is⟩ :: (ys ++ b :: zs))) →
      y ∈ objects c (xs ++ ⟨page, is⟩ :: (ys ++ b :: zs)) := fun y hy => by rwa [hobjects]
  refine hturned.chain.disjoint_objects hturned.cell (hmem _ (Set.mem_insert _ _))
    (hmem _ (Set.mem_insert_of_mem _ hx)) ?_
  rintro rfl
  exact hnew hx

theorem isFull_iff (h : Broken E p c patch s t xs b zs) (hv : v ∈ xs) :
    (Header.read t.arena.memory v.page).isFull = true ↔ v.free = [] := by
  obtain ⟨next, hh⟩ := h.leads.holds hv
  exact hh.isFull_iff h.stands.cell

theorem find?_full (h : Broken E p c patch s t xs b zs) (hfull : ∀ v ∈ xs, v.free = []) :
    (xs.map View.page).find? (fun page => !(Header.read t.arena.memory page).isFull) = none := by
  refine List.find?_eq_none.2 fun page hpage => ?_
  obtain ⟨v, hv, rfl⟩ := List.mem_map.1 hpage
  simp [(h.isFull_iff hv).2 (hfull v hv)]

theorem find?_first {page : Ptr} {i : Nat} {is : List Nat}
    (h : Broken E p c patch s t (xs ++ ⟨page, i :: is⟩ :: ys) b zs) (hfull : ∀ v ∈ xs, v.free = []) :
    ((xs ++ ⟨page, i :: is⟩ :: ys).map View.page).find?
      (fun page => !(Header.read t.arena.memory page).isFull) = some page := by
  refine List.find?_eq_some_iff_append.2 ⟨?_, xs.map View.page, ys.map View.page, by simp, fun q hq => ?_⟩
  · have hiff := h.isFull_iff (v := ⟨page, i :: is⟩) (by simp)
    simpa using hiff
  · obtain ⟨v, hv, rfl⟩ := List.mem_map.1 hq
    simp [(h.isFull_iff (List.mem_append_left _ hv)).2 (hfull v hv)]

end Broken

/-! ## Containment -/

namespace Session

variable {s : Session} {ws : List (Ptr × UInt64)}

/-- **A broken cache** serves the slabs before the first broken one, and refuses the rest. -/
theorem contains_of_broken (h : Broken E p c patch s.site t xs b zs) (hm : s.mapper = E.mapper)
    (hlive : s.live = objects c (xs ++ b :: zs)) :
    s.Contains t (xs.map View.page) b.page (zs.map View.page) where
  slabs := by
    rw [List.map_map]
    exact h.slabs_ends
  stats := h.stats_ends
  owns := h.owns_ends
  objects := by
    intro x hx
    rw [hlive] at hx
    obtain ⟨v, hv, -, -, -, -, hpage, -⟩ := h.stands.chain.of_objects h.stands.cell hx
    rw [hpage, ← List.map_cons, ← List.map_append]
    exact List.mem_map_of_mem hv
  free := by
    intro x hx
    rw [hlive] at hx
    obtain ⟨v, hv, i, hi, hfree, rfl, hpage, -⟩ := h.stands.chain.of_objects h.stands.cell hx
    by_cases hfront : containing (cellAt v.page c i) ∈ xs.map View.page
    · simp only [if_pos hfront]
      rw [hpage] at hfront
      obtain ⟨w, hw, hwp⟩ := List.mem_map.1 hfront
      obtain rfl := unique h.stands.distinct (List.mem_append_left _ hw) hv hwp
      exact h.free_before hw hi hfree
    · simp only [if_neg hfront]
      exact h.free_behind hfront
  allocate := by
    intro mapper
    rcases full_or_first xs with hfull | ⟨as, page, i, is, bs, rfl, hfull⟩
    · rw [h.find?_full hfull]
      exact h.allocate_full hfull mapper
    · rw [h.find?_first hfull]
      obtain ⟨hr, hstacks⟩ := h.allocate_first hfull mapper
      have hh := h.leads.mid
      refine ⟨_, hr, containing_cellAt hh.aligned (hh.bound i List.mem_cons_self) h.stands.cell, hstacks, fun y hy => ?_⟩
      rw [h.size]
      exact h.disjoint_first (hlive ▸ hy)
  shrink := by
    obtain ⟨hr, s', qs, h', hshed⟩ := h.shrink_ends
    have hgone := h.filter_isEmpty id
    have hkept := h.filter_isEmpty not
    simp only [id_eq] at hgone
    rw [hm, hgone, hkept, ← List.map_cons, ← List.map_append]
    exact ⟨hr, h.reclaims h' hshed⟩

/-- A cache in order that gets new marks is patched where the slabs have them. -/
theorem patched_deface (hs : Stands E p c s.site (xs ++ zs)) (hws : ∀ w ∈ ws, ∃ v ∈ zs, v.page = w.1) :
    s.site.arena.Patched (marks {v | v ∈ zs}) (Slab.deface s.memory ws) (s.deface ws).arena where
  outside := by
    refine (alters_deface s.memory ws).mono ?_
    rintro a ⟨w, hw, ha⟩
    obtain ⟨v, hv, hvw⟩ := hws w hw
    refine ⟨v, hv, ?_⟩
    rwa [View.markBytes, hvw]
  inside := Alters.refl _ _
  pool := rfl
  poison := rfl
  apart := by
    intro k hk
    obtain ⟨k', hk', -, hbitmap, -⟩ := hs.supplies.keeps
    obtain rfl := Option.some.inj (hk'.symm.trans hk)
    rw [hbitmap]
    exact (hs.disjoint_marks fun v hv => List.mem_append_right _ hv).symm

/-- The slabs of a cache in order, of which some get a wrong mark, are those before the first broken one, that one, and
the others. -/
theorem broken_of_kept (h : s.Kept E c) (hne : ws ≠ []) (hws : ∀ w ∈ ws, s.HasSlab w.1 ∧ w.2 ≠ Layout.slabMagic) :
    ∃ p patch xs b zs, Broken E p c patch s.site (s.deface ws) xs b zs ∧ s.live = objects c (xs ++ b :: zs) ∧
      b.page ∈ ws.map Prod.fst ∧ ∀ v ∈ xs, v.page ∉ ws.map Prod.fst := by
  obtain ⟨-, p, vs, hs, hlive⟩ := h
  have hslab : ∀ w ∈ ws, ∃ v ∈ vs, v.page = w.1 := fun w hw =>
    List.mem_map.1 ((hasSlab_iff hs w.1).1 (hws w hw).1)
  obtain ⟨w, hw⟩ := List.exists_mem_of_ne_nil ws hne
  obtain ⟨v, hv, hvw⟩ := hslab w hw
  have hsome : (vs.find? fun v => decide (v.page ∈ ws.map Prod.fst)).isSome :=
    List.find?_isSome.2 ⟨v, hv, decide_eq_true (hvw ▸ List.mem_map_of_mem hw)⟩
  obtain ⟨b, hfind⟩ := Option.isSome_iff_exists.1 hsome
  obtain ⟨hb, xs, zs, rfl, hxs⟩ := List.find?_eq_some_iff_append.1 hfind
  have hbad : b.page ∈ ws.map Prod.fst := of_decide_eq_true hb
  have hfront : ∀ v ∈ xs, v.page ∉ ws.map Prod.fst := fun v hv => by simpa using hxs v hv
  have hpatched : s.site.arena.Patched _ _ (s.deface ws).arena := patched_deface hs fun w hw => by
    obtain ⟨v, hv, hvw⟩ := hslab w hw
    have hnot : v ∉ xs := fun hm => hfront v hm (hvw ▸ List.mem_map_of_mem hw)
    exact ⟨v, (List.mem_append.1 hv).resolve_left hnot, hvw⟩
  have haligned : ∀ w ∈ ws, w.1.toNat % 4096 = 0 := fun w hw => by
    obtain ⟨v, hv, hvw⟩ := hslab w hw
    rw [← hvw]
    exact hs.chain.aligned hv
  have hwrong : (Slab.deface s.memory ws).word (b.page + magicField) ≠ Layout.slabMagic := by
    obtain ⟨w, hw, -, hword⟩ := word_deface (m := s.memory) haligned hbad
    rw [hword]
    exact (hws w hw).2
  exact ⟨p, _, xs, b, zs, ⟨hs, hpatched, rfl, hwrong⟩, hlive, hbad, hfront⟩

/-- **A broken header is contained**, whatever has happened to the cache before. Of its slabs, named by a walk along their
links, any that there are get a mark that is wrong. The slabs before the first of them are served on, and what goes past
them is refused as corrupted: reports, objects that come back, requests for a cell and shrinks. -/
theorem contains_through {rs : List Region} {mapper : Mapper} {a : Arena} (h : Heap.Session.Founded rs mapper a)
    (hc : isCellSize c = true) (es : List Event) (hes : (start a mapper c).LetAll es) (hne : ws ≠ [])
    (hws : ∀ w ∈ ws, HasSlab (es.foldl happen (start a mapper c)) w.1 ∧ w.2 ≠ Layout.slabMagic) :
    ∃ front bad back,
      (Cache.slabs (es.foldl happen (start a mapper c)).site).result = .ok ((front ++ bad :: back).map .ok) ∧
      bad ∈ ws.map Prod.fst ∧ (∀ page ∈ front, page ∉ ws.map Prod.fst) ∧
      Contains (es.foldl happen (start a mapper c)) (deface (es.foldl happen (start a mapper c)) ws) front bad back := by
  obtain ⟨E, hkept⟩ := kept_through h (isCellSize_iff.1 hc) es hes
  obtain ⟨p, patch, xs, b, zs, hbroken, hlive, hbad, hfront⟩ := broken_of_kept hkept hne hws
  refine ⟨xs.map View.page, b.page, zs.map View.page, ?_, hbad, fun page hpage => ?_,
    contains_of_broken hbroken hkept.1 hlive⟩
  · rw [← List.map_cons, ← List.map_append, List.map_map]
    exact (slabs_ends hbroken.stands).1
  · obtain ⟨v, hv, rfl⟩ := List.mem_map.1 hpage
    exact hfront v hv

theorem founded_bareFrames : Heap.Session.Founded Frame.Session.fourFrames .identity bareFrames :=
  ⟨Heap.Session.opens_fourFrames.founded.pool, Heap.Session.opens_fourFrames.founded.home,
    Heap.Session.opens_fourFrames.founded.apart, Heap.Session.opens_fourFrames.founded.back⟩

/-- Two slabs of one cell each, of which the younger one has got its object back. -/
def twoSlabs : Session := List.foldl happen (start bareFrames .identity 4048) [.allocate, .allocate, .free 0x2030]

theorem hasSlab_twoSlabs : twoSlabs.HasSlab 0x1000 := by
  unfold HasSlab
  decide +kernel

/-- The mark of the older slab is cleared. -/
theorem contains_twoSlabs : ∃ front bad back,
    (Cache.slabs twoSlabs.site).result = .ok ((front ++ bad :: back).map .ok) ∧
      bad ∈ [((0x1000 : Ptr), (0 : UInt64))].map Prod.fst ∧
      (∀ page ∈ front, page ∉ [((0x1000 : Ptr), (0 : UInt64))].map Prod.fst) ∧
      twoSlabs.Contains (twoSlabs.deface [(0x1000, 0)]) front bad back :=
  contains_through founded_bareFrames rfl _ ⟨trivial, trivial, trivial, trivial⟩ (by simp) fun w hw => by
    obtain rfl := List.mem_singleton.1 hw
    exact ⟨hasSlab_twoSlabs, by decide⟩

end Session

end Keel.Slab
