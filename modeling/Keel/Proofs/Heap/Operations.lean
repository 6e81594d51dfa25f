import Keel.Proofs.Heap.Standing

/-!
# What a heap does

Each operation on a heap in order, by the objects it adds and takes away.
- `allocate_ends`: one object of the smallest class that holds the request is added, or none;
- `free_ends`: an object is taken away, whatever its class, and any other pointer is refused, as dangling (`free_free`),
  as no cell (`free_outside`) or as none of the heap's (`free_stray`);
- `shrink_ends`: the objects stay, and no slab is left without one.
-/

namespace Keel.Heap

open Keel.Frame (Pool)
open Keel.Slab (Estate View Holds objects containing)

attribute [local irreducible] Memory.word

variable {E : Estate} {s t : HeapSite} {p : Pool} {V : SizeClass → List View} {i j : SizeClass} {x : Ptr} {size : Nat}
  {v : View} {ws : List View}

/-! ## Parts of a heap -/

section

variable {α : Type}

theorem ends_onCache {a : Action Slab.CacheSite α} {Q : Checked Fault α → HeapSite → Prop} :
    (onCache i a).Ends s Q ↔ a.Ends ((cachePart i).get s) fun r c => Q r ((cachePart i).set s c) := Iff.rfl

theorem ends_inArena {a : Action Arena α} {Q : Checked Fault α → HeapSite → Prop} :
    (Action.zoom arenaPart a).Ends s Q ↔ a.Ends s.arena fun r t => Q r { s with arena := t } := Iff.rfl

theorem set_get (s : HeapSite) (i : SizeClass) : (cachePart i).set s ((cachePart i).get s) = s := by
  simp [cachePart]

end

/-! ## Classes -/

theorem classSize_mono : ∀ i j : SizeClass, i ≤ j → classSize i ≤ classSize j := by decide

theorem classSize_last : classSize ⟨7, by decide⟩ = Layout.maxHeapObject := rfl

/-- The class of a request is the smallest that holds it. -/
theorem classFor_eq_ok (h : classFor size = .ok i) : size ≠ 0 ∧ ∀ j, size ≤ classSize j ↔ i ≤ j := by
  unfold classFor at h
  split at h
  · cases h
  · rename_i h0
    cases hf : (List.finRange classCount).find? fun i => decide (size ≤ classSize i) with
    | none => simp [hf, orFault] at h
    | some k =>
      obtain rfl : k = i := by simpa [hf, orFault] using h
      obtain ⟨hk, n, hn, hnk, hbefore⟩ := List.find?_eq_some_iff_getElem.1 hf
      refine ⟨h0, fun j => ⟨fun hj => ?_, fun hkj => (of_decide_eq_true hk).trans (classSize_mono k j hkj)⟩⟩
      rw [List.getElem_finRange] at hnk
      by_contra hlt
      have hjn : j.val < n := by
        rw [← hnk] at hlt
        exact Nat.lt_of_not_le hlt
      have := hbefore j.val hjn
      rw [List.getElem_finRange] at this
      simp [hj] at this

theorem classFor_eq_error {e : Failure Fault} (h : classFor size = .error e) :
    size = 0 ∧ e = .fault .badArgs ∨ Layout.maxHeapObject < size ∧ e = .fault .noSuch := by
  unfold classFor at h
  split at h
  · rename_i h0
    exact .inl ⟨h0, (Except.error.inj h).symm⟩
  · cases hf : (List.finRange classCount).find? fun i => decide (size ≤ classSize i) with
    | some k => simp [hf, orFault] at h
    | none =>
      have hlast := List.find?_eq_none.1 hf ⟨7, by decide⟩ (List.mem_finRange _)
      rw [classSize_last, decide_eq_true_eq, Nat.not_le] at hlast
      rw [hf] at h
      exact .inr ⟨hlast, (Except.error.inj h).symm⟩

/-! ## Operations -/

/-- **Allocating** adds one object of the smallest class that holds the request, or answers why not. -/
theorem allocate_ends (h : Stands E p s V) (size : Nat) : (Heap.allocate size).Ends s fun r t =>
    (∃ e, classFor size = .error e ∧ r = .error e ∧ t = s) ∨
    ∃ i, classFor size = .ok i ∧ ∃ qs ws, Turns E s t p qs V (Function.update V i ws) ∧
      ((∃ x, r = .ok x ∧ x ∉ objectsOf V i ∧ objects (classSize i) ws = insert x (objectsOf V i)) ∨
        (ws = V i ∧ (r = .error (.fault .tooMany) ∨ r = .error (.fault .badAlloc) ∨
          r = .error (.halt .addOverflow) ∧ (p.after qs).Saturated))) := by
  unfold Heap.allocate
  rw [Action.ends_bind, Action.ends_lift]
  cases hc : classFor size with
  | error e => exact .inl ⟨e, rfl, rfl, rfl⟩
  | ok i =>
    rw [Action.goes_ok, Action.ends_bind, Action.ends_get, Action.goes_ok, ends_onCache, h.mapper]
    refine (Slab.allocate_ends (h.caches i)).mono ?_
    intro r c hends
    obtain ⟨qs, ws, hturn, hr⟩ := hends
    exact .inr ⟨i, rfl, qs, ws, h.onCache hturn, hr⟩

/-- A pointer into a slab is left to the cache of the slab. -/
theorem free_route {Q : Checked Fault Unit → HeapSite → Prop} (h : Stands E p s V) (hv : v ∈ V i)
    (hx : containing x = v.page)
    (hQ : (Slab.Cache.free x).Ends ((cachePart i).get s) fun r c => Q r ((cachePart i).set s c)) :
    (Heap.free x).Ends s Q := by
  obtain ⟨next, hh⟩ := (h.chain i).holds hv
  rw [← hx] at hh
  unfold Heap.free
  rw [Action.ends_bind, ends_inArena, hh.verify_ends, Action.goes_ok, Action.ends_bind, ends_inArena, Slab.ends_header,
    Action.goes_ok, hh.header (cellSize_classSize i), classOf?_classSize]
  exact ends_onCache.2 hQ

/-- A pointer into no slab is refused, whatever the bytes of its page look like. -/
theorem free_stray (h : Stands E p s V) (hx : ∀ i, ∀ v ∈ V i, v.page ≠ containing x) :
    (Heap.free x).Ends s fun r t =>
      (r = .error (.fault .corrupted) ∨ r = .error (.fault .badArgs)) ∧ t = s := by
  unfold Heap.free
  rw [Action.ends_bind, ends_inArena, Slab.verify_ends]
  split
  · rw [Action.goes_ok, Action.ends_bind, ends_inArena, Slab.ends_header, Action.goes_ok]
    cases classOf? (Slab.Header.read s.arena.memory (containing x)).cellSize with
    | none => exact ⟨.inr rfl, rfl⟩
    | some i =>
      rw [ends_onCache]
      refine (Slab.free_foreign (h.caches i) (hx i)).mono ?_
      rintro r c ⟨rfl, rfl⟩
      exact ⟨.inr rfl, set_get s i⟩
  · exact ⟨.inl rfl, rfl⟩

/-- A free cell is refused. -/
theorem free_free (h : Stands E p s V) (hv : v ∈ V i) {k : Nat} (hk : k ∈ v.free) :
    (Heap.free (Slab.cellAt v.page (classSize i) k)).Ends s fun r t => r = .error (.fault .dangling) ∧ t = s := by
  have hc := cellSize_classSize i
  obtain ⟨next, hh⟩ := (h.chain i).holds hv
  refine free_route h hv (Slab.containing_cellAt hh.aligned (hh.bound k hk) hc)
    ((Slab.free_free (h.caches i) hv hk).mono ?_)
  rintro r c ⟨rfl, rfl⟩
  exact ⟨rfl, set_get s i⟩

/-- A pointer into a slab that is no cell is refused. -/
theorem free_outside (h : Stands E p s V) (hv : v ∈ V i) (hx : containing x = v.page)
    (hcell : ∀ k < Slab.cellCount (classSize i), x ≠ Slab.cellAt v.page (classSize i) k) :
    (Heap.free x).Ends s fun r t => r = .error (.fault .badArgs) ∧ t = s := by
  refine free_route h hv hx ((Slab.free_outside (h.caches i) hv hx hcell).mono ?_)
  rintro r c ⟨rfl, rfl⟩
  exact ⟨rfl, set_get s i⟩

/-- **Taking back** accepts the objects of all classes and nothing else. -/
theorem free_ends (h : Stands E p s V) (x : Ptr) : (Heap.free x).Ends s fun r t =>
    (∃ i, x ∈ objectsOf V i ∧ r = .ok () ∧ ∃ ws, Turns E s t p [] V (Function.update V i ws) ∧
      objects (classSize i) ws = objectsOf V i \ {x}) ∨
    ((∀ i, x ∉ objectsOf V i) ∧ t = s ∧
      (r = .error (.fault .corrupted) ∨ r = .error (.fault .badArgs) ∨ r = .error (.fault .dangling))) := by
  by_cases hslab : ∃ i, ∃ v ∈ V i, v.page = containing x
  · obtain ⟨i, v, hv, hpage⟩ := hslab
    refine free_route h hv hpage.symm ((Slab.free_ends (h.caches i) x).mono ?_)
    rintro r c (⟨hx, hr, ws, hturn, hobj⟩ | ⟨hx, rfl, hr⟩)
    · exact .inl ⟨i, hx, hr, ws, h.onCache hturn, hobj⟩
    · refine .inr ⟨fun j hj => ?_, set_get s i, .inr hr⟩
      obtain ⟨w, hw, -, -, -, -, hwp, -⟩ := (h.chain j).of_objects (cellSize_classSize j) hj
      obtain rfl := h.class_eq hv hw (hpage.trans hwp)
      exact hx hj
  · refine (free_stray h fun i v hv he => hslab ⟨i, v, hv, he⟩).mono ?_
    rintro r t ⟨hr, rfl⟩
    refine .inr ⟨fun i hi => ?_, rfl, hr.imp_right .inl⟩
    obtain ⟨v, hv, -, -, -, -, hp, -⟩ := (h.chain i).of_objects (cellSize_classSize i) hi
    exact hslab ⟨i, v, hv, hp.symm⟩

/-- The slabs of some classes without the idle ones. -/
def shrunk (is : List SizeClass) (V : SizeClass → List View) (i : SizeClass) : List View :=
  if i ∈ is then (V i).filter fun v => !v.idle (classSize i) else V i

/-- The number of idle slabs of some classes. -/
def idleIn (is : List SizeClass) (V : SizeClass → List View) : Nat :=
  (is.map fun i => (V i).countP (View.idle (classSize i))).sum

theorem objectsOf_shrunk (h : Stands E p s V) (is : List SizeClass) (i : SizeClass) :
    objectsOf (shrunk is V) i = objectsOf V i := by
  unfold objectsOf shrunk
  split
  · exact Slab.objects_busy (h.chain i)
  · rfl

/-- Classes that have lost their idle slabs have none. -/
theorem idleIn_shrunk (is : List SizeClass) (V : SizeClass → List View) : idleIn is (shrunk is V) = 0 := by
  refine List.sum_eq_zero fun n hn => ?_
  obtain ⟨i, hi, rfl⟩ := List.mem_map.1 hn
  rw [shrunk, if_pos hi, List.countP_eq_zero]
  intro v hv
  simpa using (List.mem_filter.1 hv).2

/-- Each of some classes loses its idle slabs. -/
theorem shrinkClasses_ends {is : List SizeClass} {released : Nat} (h : Stands E p s V) (hn : is.Nodup)
    (hr : released + is.length * 2 ^ 52 < 2 ^ 64) : (shrinkClasses is released).Ends s fun r t =>
      r = .ok (released + idleIn is V) ∧ ∃ qs, Sheds E s t p qs V (shrunk is V) (idleIn is V) := by
  induction is generalizing s p V released with
  | nil =>
    have hsame : shrunk [] V = V := funext fun i => if_neg (by simp)
    rw [shrinkClasses, Action.ends_pure, hsame]
    exact ⟨rfl, [], h.turns, fun _ => List.Subset.refl _, .refl _ _ _ _⟩
  | cons i is ih =>
    obtain ⟨hnot, hn⟩ := List.nodup_cons.1 hn
    have hcount : (V i).countP (View.idle (classSize i)) ≤ 2 ^ 52 :=
      List.countP_le_length.trans ((h.chain i).length_le (h.caches i).distinct)
    rw [List.length_cons, Nat.succ_mul] at hr
    rw [shrinkClasses, Action.ends_bind, Action.ends_get, Action.goes_ok, Action.ends_bind, ends_onCache, h.mapper]
    refine (Slab.shrink_ends (h.caches i)).mono ?_
    intro r c hends
    obtain ⟨rfl, qs, hshed⟩ := hends
    have hfirst := h.sheds_onCache hshed
    have hone : ∀ j, j ≠ i → shrunk [i] V j = V j := fun j hij => if_neg (by simpa using hij)
    have hW : Function.update V i ((V i).filter fun v => !v.idle (classSize i)) = shrunk [i] V := by
      funext j
      by_cases hij : j = i
      · subst hij
        rw [Function.update_self, shrunk, if_pos (by simp)]
      · rw [Function.update_of_ne hij, hone j hij]
    have hall : shrunk is (shrunk [i] V) = shrunk (i :: is) V := by
      funext j
      by_cases hij : j = i
      · subst hij
        rw [shrunk, if_neg hnot, shrunk, if_pos (by simp), shrunk, if_pos (by simp)]
      · rw [shrunk, hone j hij, shrunk]
        simp [hij]
    have hidle : idleIn (i :: is) V = (V i).countP (View.idle (classSize i)) + idleIn is (shrunk [i] V) := by
      rw [idleIn, List.map_cons, List.sum_cons, idleIn]
      congr 2
      refine List.map_congr_left fun j hj => ?_
      rw [hone j]
      rintro rfl
      exact hnot hj
    rw [hW] at hfirst
    rw [Action.goes_ok, Action.ends_bind, Action.ends_lift, Count.add_eq_ok.2 ⟨by omega, rfl⟩, Action.goes_ok]
    refine (ih hfirst.stands hn (by omega)).mono ?_
    intro r t hends
    obtain ⟨rfl, qs', hrest⟩ := hends
    rw [hall] at hrest
    rw [hidle]
    exact ⟨by rw [Nat.add_assoc], qs ++ qs', hfirst.trans h hrest⟩

/-- **Shrinking** keeps the objects and leaves no idle slab. -/
theorem shrink_ends (h : Stands E p s V) : Heap.shrink.Ends s fun r t =>
    r = .ok (idleIn (List.finRange classCount) V) ∧ ∃ qs, Sheds E s t p qs V (shrunk (List.finRange classCount) V)
      (idleIn (List.finRange classCount) V) := by
  unfold Heap.shrink
  rw [Action.ends_bind]
  refine (shrinkClasses_ends h (List.nodup_finRange _) (by rw [List.length_finRange]; decide)).mono ?_
  intro r t hends
  obtain ⟨rfl, hshed⟩ := hends
  rw [Nat.zero_add, Action.goes_ok]
  dsimp only
  rw [Action.ends_ite]
  split
  · exact ⟨rfl, hshed⟩
  · exact ⟨rfl, hshed⟩

end Keel.Heap
