import Mathlib.Algebra.BigOperators.Fin
import Mathlib.Data.Set.Card.Arithmetic
import Keel.Proofs.Heap.Accounts
import Keel.Proofs.Kernel.Sessions

/-!
# The heap objects of a kernel

The objects of a kernel are those that its heap would take back (`objects`); where the memory services are in order, they
are the objects of the slabs (`mem_objects`), and the report counts them (`stats_objects`). Allocating adds one of them or
none (`allocate_objects`), taking back removes the one that it accepts (`free_objects`), and what leaves the slabs as they
are leaves the objects (`objects_eq`).
-/

namespace Keel.Kernel

open Keel.Frame (Pool)
open Keel.Heap (Object objectsOf classFor row)
open Keel.Memory (Alters)
open Keel.Slab (Estate View)

attribute [local irreducible] Memory.word

variable {E : Estate} {k k' : Kernel} {p q : Pool} {V W : SizeClass → List View} {o : Object} {i j : SizeClass} {x : Ptr}
  {S : Set Ptr} {m : Memory}

/-- The objects in use: those that the heap would take back, in the class that their slabs tell. -/
def objects (k : Kernel) : Set Object :=
  {o | (onGround (Ground.free o.start) k).result = .ok () ∧
    (Slab.Header.read k.ground.arena.memory (Slab.containing o.start)).cellSize = classSize o.sizeClass}

/-- The memory services of a kernel are in order. -/
def Stands (E : Estate) (k : Kernel) : Prop := ∃ p V, Ground.Stands E p k.ground V

theorem classSize_injective : Function.Injective classSize := by
  intro i j h
  have hi := Heap.classOf?_classSize i
  rw [h, Heap.classOf?_classSize, Option.some.injEq] at hi
  exact hi.symm

/-- The objects are those of the slabs. -/
theorem mem_objects (h : Ground.Stands E p k.ground V) : o ∈ k.objects ↔ o.start ∈ objectsOf V o.sizeClass := by
  obtain ⟨heap, hheap, hh⟩ := id h
  constructor
  · intro ho
    obtain ⟨hfree, hsize⟩ := ho
    obtain ⟨i, hi, hcell⟩ := Session.object_of_inUse h hfree
    rwa [classSize_injective (hsize.symm.trans hcell)]
  · intro ho
    have hfree : (onGround (Ground.free o.start) k).result = .ok () := by
      have hends : (onGround (Ground.free o.start) k).result = (Heap.free o.start ⟨k.ground.arena, heap⟩).result := by
        simp only [onGround, Action.zoom, groundPart, Ground.free, Ground.onHeap, hheap]
      rw [hends]
      rcases Heap.free_ends hh o.start with ⟨-, -, hr, -⟩ | ⟨hno, -⟩
      · exact hr
      · exact absurd ho (hno _)
    obtain ⟨i, hi, hcell⟩ := Session.object_of_inUse h hfree
    exact ⟨hfree, by rw [hcell, hh.class_eq_of_objects hi ho]⟩

/-- The objects are the same if the slabs have the same ones. -/
theorem objects_eq (h : Ground.Stands E p k.ground V) (h' : Ground.Stands E q k'.ground W)
    (hobj : ∀ i, objectsOf W i = objectsOf V i) : k'.objects = k.objects := by
  ext o
  rw [mem_objects h, mem_objects h', hobj]

/-- Other memory services with the same slabs leave the objects. -/
theorem objects_over {g : Ground} (h : Ground.Stands E p k.ground V) (h' : Ground.Stands E q g W)
    (hobj : ∀ i, objectsOf W i = objectsOf V i) : objects { k with ground := g } = k.objects := objects_eq h h' hobj

/-- No object is of two classes. -/
theorem object_unique (h : k.Stands E) (hi : ⟨x, i⟩ ∈ k.objects) (hj : ⟨x, j⟩ ∈ k.objects) : i = j := by
  obtain ⟨p, V, hV⟩ := h
  obtain ⟨heap, -, hh⟩ := id hV
  exact hh.class_eq_of_objects ((mem_objects hV).1 hi) ((mem_objects hV).1 hj)

/-- Objects do not meet. -/
theorem disjoint_objects {o' : Object} (h : k.Stands E) (ho : o ∈ k.objects) (ho' : o' ∈ k.objects) (hne : o ≠ o') :
    Disjoint o.bytes o'.bytes := by
  obtain ⟨p, V, hV⟩ := h
  obtain ⟨heap, -, hh⟩ := id hV
  have hstart : o.start ≠ o'.start := by
    intro he
    obtain ⟨x, i⟩ := o
    obtain ⟨y, j⟩ := o'
    obtain rfl : x = y := he
    obtain rfl := object_unique ⟨p, V, hV⟩ ho ho'
    exact hne rfl
  exact hh.disjoint_objects ((mem_objects hV).1 ho) ((mem_objects hV).1 ho') hstart

/-- Objects lie at multiples of sixteen, and not at the null address. -/
theorem object_start (h : k.Stands E) (ho : o ∈ k.objects) : o.start ≠ 0 ∧ o.start.toNat % 16 = 0 := by
  obtain ⟨p, V, hV⟩ := h
  obtain ⟨heap, -, hh⟩ := id hV
  have hc := Heap.cellSize_classSize o.sizeClass
  obtain ⟨v, hv, n, hn, -, hx, -⟩ := (hh.chain o.sizeClass).of_objects hc ((mem_objects hV).1 ho)
  have hal := (hh.chain o.sizeClass).aligned hv
  rw [hx]
  refine ⟨fun h0 => ?_, Slab.cellAt_mod hal hn hc⟩
  have hend := Slab.cellOffset_add_le hn
  have hmin := hc.min
  have hheader : 0 < Slab.cellOffset (classSize o.sizeClass) n := Nat.add_pos_left (by decide) _
  have hzero := congrArg UInt64.toNat h0
  rw [Slab.cellAt_toNat hal (by omega)] at hzero
  have h00 : (0 : UInt64).toNat = 0 := rfl
  omega

/-! ## What stays -/

/-- The objects that stay keep every byte. -/
def Preserves (k k' : Kernel) : Prop := ∀ o ∈ k.objects, o ∈ k'.objects → ∀ a ∈ o.bytes,
  k'.ground.arena.memory.read a = k.ground.arena.memory.read a

theorem Preserves.refl (k : Kernel) : k.Preserves k := fun _ _ _ _ _ => rfl

/-- Where a heap writes that turns its slabs into others, it preserves the objects. -/
theorem preserves_of_touched {qs : List Frame.Request} (h : Ground.Stands E p k.ground V)
    (h' : Ground.Stands E q k'.ground W)
    (ha : Alters (Heap.touched V W ∪ E.asked qs) k.ground.arena.memory k'.ground.arena.memory) : k.Preserves k' := by
  obtain ⟨_, -, hh⟩ := id h
  exact fun o ho ho' a hao => ha a (hh.notMem_touched ((mem_objects h).1 ho) ((mem_objects h').1 ho') hao)

/-- The bitmap lies in no object. -/
theorem preserves_of_bitmap (h : Ground.Stands E p k.ground V)
    (ha : Alters E.bitmap k.ground.arena.memory k'.ground.arena.memory) : k.Preserves k' := by
  obtain ⟨_, -, hh⟩ := id h
  exact fun o ho _ a hao => ha a fun hb => Set.disjoint_left.1 (hh.disjoint_guarded ((mem_objects h).1 ho)) (.inr hb) hao

/-- A request to the pool writes the bitmap only. -/
theorem preserves_onPool {α : Type} {x : Action Pool α} {r : Frame.Request} (h : Ground.Stands E p k.ground V)
    (hx : (x p).state = r.on p) : k.Preserves (onPool x k).state := by
  obtain ⟨a, log, ha, hon⟩ := Session.onPool_request h hx
  rw [hon]
  exact preserves_of_bitmap h (ha.alters.mono (Set.empty_union _).subset)

/-- **A write into objects** is to nothing that the memory services rely on. -/
theorem moves_objects (h : Ground.Stands E p k.ground V) (hS : ∀ a ∈ S, ∃ o ∈ k.objects, a ∈ o.bytes)
    (ha : Alters S k.ground.arena.memory m) :
    Ground.Moves E k.ground { k.ground with arena.memory := m } p [] V V := by
  obtain ⟨heap, hheap, hh⟩ := id h
  have hguarded : Disjoint (Heap.guarded V ∪ E.bitmap) S := by
    rw [Set.disjoint_right]
    intro a haS
    obtain ⟨o, ho, hao⟩ := hS a haS
    exact Set.disjoint_right.1 (hh.disjoint_guarded ((mem_objects h).1 ho)) hao
  have hreach : S ⊆ E.reach := by
    intro a haS
    obtain ⟨o, ho, hao⟩ := hS a haS
    obtain ⟨v, hv, -, -, -, -, -, hpage⟩ :=
      (hh.chain _).of_objects (Heap.cellSize_classSize o.sizeClass) ((mem_objects h).1 ho)
    exact hh.page_subset hv (hpage hao)
  exact ⟨⟨heap, hheap, hh.write ha hguarded⟩, fun _ _ => id, ha.mono (hreach.trans Set.subset_union_left)⟩

/-- A write into objects leaves them objects, and all services in order. -/
theorem write_objects (h : k.Stands E) (hS : ∀ a ∈ S, ∃ o ∈ k.objects, a ∈ o.bytes)
    (ha : Alters S k.ground.arena.memory m) : Stands E { k with ground.arena.memory := m } ∧
      objects { k with ground.arena.memory := m } = k.objects ∧ Leads E ∅ k { k with ground.arena.memory := m } := by
  obtain ⟨p, V, hV⟩ := h
  have hmoves := moves_objects hV hS ha
  refine ⟨⟨_, V, hmoves.stands⟩, objects_over hV hmoves.stands fun _ => rfl, fun p' V' hV' => ?_⟩
  exact ⟨[], V', List.forall_mem_nil _, moves_objects hV' hS ha⟩

/-! ## Counting -/

/-- **The report** counts the objects, and there are not too many of them. -/
theorem stats_objects (h : k.Stands E) : ∃ n, (onGround (Ground.onHeap Heap.stats) k).result = .ok n ∧
    (n.inUse : ℕ∞) = k.objects.encard ∧ n.inUse < 2 ^ 64 - 1 := by
  obtain ⟨p, V, hV⟩ := h
  obtain ⟨heap, hheap, hh⟩ := id hV
  let s : Heap.Session := ⟨⟨k.ground.arena, heap⟩, k.objects⟩
  have hlive : ∀ o, o ∈ s.live ↔ o.start ∈ objectsOf V o.sizeClass := fun o => mem_objects hV
  have hsum : HeapStats.inUse ⟨(List.finRange classCount).map (row V)⟩ =
      ((List.finRange classCount).map fun i => Slab.usedIn (classSize i) (V i)).sum := by
    rw [HeapStats.inUse, List.map_map]
    rfl
  refine ⟨⟨(List.finRange classCount).map (row V)⟩, ?_, ?_, ?_⟩
  · have hends : (onGround (Ground.onHeap Heap.stats) k).result = (Heap.stats s.site).result := by
      simp only [onGround, Action.zoom, groundPart, Ground.onHeap, hheap]
      rfl
    rw [hends, (Heap.stats_ends hh).1]
  · have hunion : k.objects = ⋃ i, s.liveOf i := by
      ext o
      simp [Heap.Session.liveOf, s]
    have hdisjoint : Pairwise (Function.onFun Disjoint s.liveOf) := by
      intro i j hij
      rw [Function.onFun, Set.disjoint_left]
      intro o hi hj
      exact hij (hi.2.symm.trans hj.2)
    rw [hunion, Set.encard_iUnion_of_finite hdisjoint, finsum_eq_sum_of_fintype, Fin.sum_univ_def, hsum,
      Nat.cast_list_sum, List.map_map]
    congr 1
    refine List.map_congr_left fun i _ => ?_
    exact (Heap.Session.encard_liveOf (s := s) hh hlive i).symm
  · have hused : ∀ i, Slab.usedIn (classSize i) (V i) ≤ 2 ^ 60 := fun i => by
      have hle := Slab.usedIn_le (Heap.cellSize_classSize i) (V i)
      have hlength := (hh.chain i).length_le (hh.caches i).distinct
      omega
    have hle := List.sum_le_card_nsmul ((List.finRange classCount).map fun i => Slab.usedIn (classSize i) (V i))
      (2 ^ 60) fun n hn => by
        obtain ⟨i, -, rfl⟩ := List.mem_map.1 hn
        exact hused i
    rw [List.length_map, List.length_finRange, ← hsum, smul_eq_mul] at hle
    have hcount : classCount = 8 := rfl
    omega

/-! ## Allocating and taking back -/

/-- The pool can count no further failed request. -/
def Saturated (k : Kernel) : Prop := ∃ p ∈ k.ground.arena.pool?, p.Saturated

/-- A fault that the machine outlives, or a halt for want of a count in the pool. -/
def Refused {α : Type} (r : Checked Fault α) (k : Kernel) : Prop :=
  (∃ f, f ≠ .corrupted ∧ r = .error (.fault f)) ∨ r = .error (.halt .addOverflow) ∧ k.Saturated

theorem refused_fault {α : Type} {f : Fault} (h : f ≠ .corrupted) : Refused (.error (.fault f) : Checked Fault α) k :=
  .inl ⟨f, h, rfl⟩

/-- **Allocating** adds an object of the smallest class that holds the request, or none. -/
theorem allocate_objects (h : k.Stands E) (size : Nat) : (onGround (Ground.allocate size)).Ends k fun r k' =>
    (∃ g, k' = { k with ground := g }) ∧ k'.Stands E ∧ k.Preserves k' ∧
      ((∃ x i, r = .ok x ∧ classFor size = .ok i ∧ ⟨x, i⟩ ∉ k.objects ∧ k'.objects = insert ⟨x, i⟩ k.objects) ∨
        Refused r k' ∧ k'.objects = k.objects) := by
  obtain ⟨p, V, hV⟩ := h
  obtain ⟨heap, hheap, hh⟩ := id hV
  rw [ends_onGround, Ground.allocate, Ground.ends_onHeap hheap]
  refine (Heap.allocate_ends hh size).mono ?_
  intro r t hends
  refine ⟨⟨_, rfl⟩, ?_⟩
  rcases hends with ⟨e, he, rfl, rfl⟩ | ⟨i, hi, qs, ws, hturn, hr⟩
  · have hsame : (⟨k.ground.arena, some heap⟩ : Ground) = k.ground := by rw [← hheap]
    rw [hsame]
    refine ⟨⟨p, V, hV⟩, .refl k, .inr ⟨?_, rfl⟩⟩
    rcases Heap.classFor_eq_error he with ⟨-, rfl⟩ | ⟨-, rfl⟩
    · exact refused_fault nofun
    · exact refused_fault nofun
  · have hW : Ground.Stands E (p.after qs) ⟨t.arena, some t.heap⟩ (Function.update V i ws) := ⟨_, rfl, hturn.stands⟩
    refine ⟨⟨_, _, hW⟩, preserves_of_touched hV hW hturn.alters, ?_⟩
    rcases hr with ⟨x, rfl, hnew, hws⟩ | ⟨rfl, hr⟩
    · refine .inl ⟨x, i, rfl, hi, fun hx => hnew ((mem_objects hV).1 hx), ?_⟩
      ext o
      obtain ⟨y, j⟩ := o
      rw [mem_objects (k := { k with ground := ⟨t.arena, some t.heap⟩ }) hW, Set.mem_insert_iff, mem_objects hV]
      by_cases hj : j = i
      · subst hj
        rw [Heap.Session.objectsOf_update_self, hws, Set.mem_insert_iff, Object.mk.injEq, and_iff_left rfl]
      · rw [Heap.Session.objectsOf_update_of_ne V ws hj, Object.mk.injEq]
        exact (or_iff_right fun hxy => hj hxy.2).symm
    · refine .inr ⟨?_, objects_over hV hW fun j => ?_⟩
      · rcases hr with rfl | rfl | ⟨rfl, hfull⟩
        · exact refused_fault nofun
        · exact refused_fault nofun
        · exact .inr ⟨rfl, _, Session.pool?_of_stands (k := { k with ground := ⟨t.arena, some t.heap⟩ }) hW, hfull⟩
      · rw [Function.update_eq_self]

/-- **Taking back** removes the object that comes back, and what is refused changes nothing. -/
theorem free_objects (h : k.Stands E) (x : Ptr) : (onGround (Ground.free x)).Ends k fun r k' =>
    ((∃ i, ⟨x, i⟩ ∈ k.objects) ∧ r = .ok () ∧ (∃ g, k' = { k with ground := g }) ∧ k'.Stands E ∧ k.Preserves k' ∧
      k'.objects = {o ∈ k.objects | o.start ≠ x}) ∨
    ((∀ i, ⟨x, i⟩ ∉ k.objects) ∧ (∃ f, r = .error (.fault f)) ∧ k' = k) := by
  obtain ⟨p, V, hV⟩ := id h
  obtain ⟨heap, hheap, hh⟩ := id hV
  rw [ends_onGround, Ground.free, Ground.ends_onHeap hheap]
  refine (Heap.free_ends hh x).mono ?_
  intro r t hends
  rcases hends with ⟨i, hi, rfl, ws, hturn, hws⟩ | ⟨hno, rfl, hr⟩
  · have hW : Ground.Stands E (p.after []) ⟨t.arena, some t.heap⟩ (Function.update V i ws) := ⟨_, rfl, hturn.stands⟩
    have hx : ⟨x, i⟩ ∈ k.objects := (mem_objects hV).2 hi
    refine .inl ⟨⟨i, hx⟩, rfl, ⟨_, rfl⟩, ⟨_, _, hW⟩, preserves_of_touched hV hW hturn.alters, ?_⟩
    ext o
    obtain ⟨y, j⟩ := o
    rw [mem_objects (k := { k with ground := ⟨t.arena, some t.heap⟩ }) hW, Set.mem_sep_iff, mem_objects hV]
    by_cases hj : j = i
    · subst hj
      rw [Heap.Session.objectsOf_update_self, hws]
      rfl
    · rw [Heap.Session.objectsOf_update_of_ne V ws hj]
      refine (and_iff_left_of_imp fun hy => ?_).symm
      rintro rfl
      exact hj (hh.class_eq_of_objects hy hi)
  · refine .inr ⟨fun i hi => hno i ((mem_objects hV).1 hi), ?_, by rw [← hheap]⟩
    rcases hr with rfl | rfl | rfl <;> exact ⟨_, rfl⟩

/-! ## The pool -/

/-- Taking a range of frames out of use leaves the objects, and never stops the machine. -/
theorem reserve_objects (h : k.Stands E) (base : PhysAddr) (length : UInt64) :
    (onPool (Pool.reserve base length)).Ends k fun r k' => (∃ g, k' = { k with ground := g }) ∧ k'.Stands E ∧
      k.Preserves k' ∧ k'.objects = k.objects ∧ ((∃ n, r = .ok n) ∨ Refused r k') := by
  obtain ⟨p, V, hV⟩ := h
  obtain ⟨heap, -, hh⟩ := id hV
  have hpreserves : (Ground.onPool (Pool.reserve base length)).Ends k.ground fun _ g =>
      k.Preserves { k with ground := g } := preserves_onPool (r := .reserve base length) hV rfl
  refine ends_onGround.2 (((Ground.reserve_ends hV base length).and hpreserves).mono ?_)
  intro r g hends
  obtain ⟨⟨rfl, hmoves⟩, hpreserves⟩ := hends
  refine ⟨⟨g, rfl⟩, ⟨_, V, hmoves.stands⟩, hpreserves, objects_over hV hmoves.stands fun _ => rfl, ?_⟩
  rcases Pool.reserve_ends hh.supplies.sound base length with ⟨hr, -⟩ | ⟨-, -, hr | hr⟩
  · exact .inl ⟨_, hr⟩
  · rw [hr]
    exact .inr (refused_fault nofun)
  · rw [hr]
    exact .inr (refused_fault nofun)

/-! ## Requests that leave the objects -/

/-- Shrinking gives slabs back and no object. -/
theorem shrink_objects (h : k.Stands E) :
    (Request.on k .shrink).objects = k.objects ∧ k.Preserves (Request.on k .shrink) := by
  obtain ⟨p, V, hV⟩ := h
  obtain ⟨heap, hheap, hh⟩ := id hV
  have hends : (onGround (Ground.onHeap Heap.shrink)).Ends k fun _ k' => k'.objects = k.objects ∧ k.Preserves k' := by
    rw [ends_onGround, Ground.ends_onHeap hheap]
    refine (Heap.shrink_ends hh).mono ?_
    intro r t hends
    obtain ⟨-, qs, hturn, -⟩ := hends
    have hW : Ground.Stands E (p.after qs) ⟨t.arena, some t.heap⟩ _ := ⟨_, rfl, hturn.stands⟩
    exact ⟨objects_over hV hW (Heap.objectsOf_shrunk hh _), preserves_of_touched hV hW hturn.alters⟩
  exact hends

namespace Session

variable {s : Session}

/-- What is asked of the pool leaves the objects of the heap. -/
theorem pool_objects (h : s.Kept E) {q : Request} (hq : s.Permits q) (hpool : (∃ pa, q = .freeFrame pa) ∨
    q = .allocFrame ∨ ∃ base length, q = .reserve base length) :
    (s.step q).kernel.objects = s.kernel.objects ∧ s.kernel.Preserves (s.step q).kernel := by
  obtain ⟨hm, p, V, hV, hlent⟩ := h
  rcases hpool with ⟨pa, rfl⟩ | rfl | ⟨base, length, rfl⟩
  · exact ⟨objects_eq hV (stands_freeFrame hV hlent hq) fun _ => rfl, preserves_onPool (r := .release pa) hV rfl⟩
  · exact ⟨objects_eq hV (moves_allocFrame hV).stands fun _ => rfl, preserves_onPool (r := .alloc) hV rfl⟩
  · exact ⟨objects_eq hV (Ground.reserve_ends hV base length).2.stands fun _ => rfl,
      preserves_onPool (r := .reserve base length) hV rfl⟩

/-- What clients write leaves the objects of the heap where they are. -/
theorem objects_write {a : Ptr} {bytes : List UInt8} (hE : Visible E) (h : s.Kept E)
    (hq : s.Permits (.write a bytes)) : (s.step (.write a bytes)).kernel.objects = s.kernel.objects := by
  obtain ⟨hm, p, V, hV, hlent⟩ := h
  exact objects_eq hV (moves_write hE hm hV hlent hq).stands fun _ => rfl

/-- A frame that a client holds meets no object. -/
theorem disjoint_held (hE : Visible E) (h : s.Kept E) (ho : o ∈ s.kernel.objects) {f : Nat} (hf : f ∈ s.held) :
    Disjoint o.bytes (Memory.pageAt (s.mapper.page f)) := by
  obtain ⟨hm, p, V, hV, hlent⟩ := h
  obtain ⟨heap, -, hh⟩ := id hV
  obtain ⟨hmem, hno⟩ := hlent f hf
  obtain ⟨v, hv, -, -, -, -, -, hpage⟩ :=
    (hh.chain _).of_objects (Heap.cellSize_classSize o.sizeClass) ((mem_objects hV).1 ho)
  obtain ⟨g, hg, -, -, hpage'⟩ := (hh.caches o.sizeClass).backed v hv
  have hne : g ≠ f := fun he => hno (.inr ⟨o.sizeClass, v, hv, by rw [← he, hpage']⟩)
  have hsmall := hh.supplies.circulates.small
  rw [hm]
  exact (hE.covers.disjoint hg hmem (hsmall g hg) (hsmall f hmem) hne).mono_left (hpage' ▸ hpage)

end Session

end Keel.Kernel
