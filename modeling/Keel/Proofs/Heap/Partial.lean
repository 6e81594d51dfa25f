import Keel.Proofs.Heap.Neighbours

/-!
# Heaps that see some frames only

A mapper need not show every frame: one at the null address, or at an address that is of no page, never becomes a slab.
A heap over such a mapper (`Founded`) stays in order under the same events as one that sees all frames, if others give
back no page of a slab and no frame in which the bitmap is visible (`Lets`). The estate has all frames of usable regions
in which the bitmap is not visible (`Wide`), so what others give back is one of its frames (`mem_frames_of_release`), and
every session stays in order (`kept_foldl_lets`).
-/

namespace Keel.Heap.Session

open Keel.Memory (pageAt)
open Keel.Frame (Pool)
open Keel.Slab (Estate Supplies View)

attribute [local irreducible] Memory.word

variable {E : Estate} {s : Session} {p : Pool} {V : SizeClass → List View}

/-! ## Events -/

/-- Whether others may give frame `f` back: it is no page of a slab, and the bitmap is not visible in it. -/
def Yields (s : Session) (f : Nat) : Prop :=
  ¬s.HasSlab (s.site.heap.mapper.page f) ∧
    (s.site.heap.mapper.Shows f → Disjoint (pageAt (s.site.heap.mapper.page f)) s.bitmap)

/-- What may happen to a heap: any request to it, writes into objects that are held or past the slabs and the bitmap, and
requests to the pool that give back none of its frames. -/
def Lets (s : Session) : Event → Prop
  | .pool (.release pa) => (Arena.freeFrame pa s.site.arena).result = .ok () → s.Yields (Align.frameOf pa.raw)
  | e => s.Allows e

/-- Every one of some events is let happen when it does. -/
def LetAll (s : Session) : List Event → Prop
  | [] => True
  | e :: es => s.Lets e ∧ (s.happen e).LetAll es

/-! ## Heaps in order -/

/-- An estate that has all frames of usable regions in which the bitmap is not visible. -/
def Wide (E : Estate) : Prop := ∀ r ∈ E.regions, r.kind = .usable → ∀ f ≠ 0, r.base.raw.toNat ≤ f * 4096 →
  f * 4096 + 4096 ≤ r.stop → (E.mapper.Shows f → Disjoint (pageAt (E.mapper.page f)) E.bitmap) → f ∈ E.frames

/-- What goes back to the pool is a frame of the estate, unless the bitmap is visible in it. -/
theorem mem_frames_of_freed {a : Arena} {pa : PhysAddr} (hE : Wide E) (h : Supplies E a p)
    (hr : (Arena.freeFrame pa a).result = .ok ()) (hd : E.mapper.Shows (Align.frameOf pa.raw) →
      Disjoint (pageAt (E.mapper.page (Align.frameOf pa.raw))) E.bitmap) : Align.frameOf pa.raw ∈ E.frames := by
  have hsound := h.sound
  have hresult := (Arena.freeFrame_ends h.keeps hsound pa ∅).1.symm.trans hr
  rcases Pool.release_ends hsound pa with ⟨-, hrel, -⟩ | ⟨-, -, hrefused⟩
  · obtain ⟨r, hr, hkind, h1, h2⟩ := hrel.usable.region hsound.charts
    exact hE r hr hkind _ hrel.frame_ne_zero h1 h2 hd
  · rw [hresult] at hrefused
    rcases hrefused with hrefused | hrefused <;> cases hrefused

/-- What others give back is a frame of the estate, and no page of a slab. -/
theorem mem_frames_of_release {pa : PhysAddr} (hE : Wide E) (hV : Stands E p s.site V)
    (hr : (Arena.freeFrame pa s.site.arena).result = .ok ()) (hq : s.Lets (.pool (.release pa))) :
    Align.frameOf pa.raw ∈ E.frames ∧ ∀ i, ∀ v ∈ V i, v.page ≠ E.mapper.page (Align.frameOf pa.raw) := by
  obtain ⟨hslab, hbitmap⟩ := hq hr
  rw [hasSlab_iff hV, hV.mapper] at hslab
  rw [bitmap_eq hV, hV.mapper] at hbitmap
  exact ⟨mem_frames_of_freed hE hV.supplies hr hbitmap, fun i v hv he => hslab ⟨i, v, hv, he⟩⟩

/-- Whatever is let happen keeps the invariant. -/
theorem kept_lets (hE : Wide E) (h : s.Kept E) (e : Event) (he : s.Lets e) : (s.happen e).Kept E := by
  cases e with
  | heap q => exact kept_heap h he
  | pool q =>
    obtain ⟨p, V, hV, hlive⟩ := h
    refine ⟨_, V, stands_request hV ?_, hlive⟩
    rintro pa rfl hr
    exact mem_frames_of_release hE hV hr he

theorem kept_foldl_lets {es : List Event} (hE : Wide E) (h : s.Kept E) (hes : s.LetAll es) :
    (es.foldl happen s).Kept E := by
  induction es generalizing s with
  | nil => exact h
  | cons e es ih => exact ih (kept_lets hE h e hes.1) hes.2

/-- A pool supplies all frames that it may ever give out. -/
theorem Founded.estate {rs : List Region} {mapper : Mapper} {a : Arena} (h : Founded rs mapper a) :
    ∃ E p, Wide E ∧ E.mapper = mapper ∧ Supplies E a p := by
  obtain ⟨k, p, hk, hsound, hp, hsup⟩ := h.supplies
  have hall := hsup {f | f ≠ 0 ∧ p.Usable f ∧ (mapper.Shows f → Disjoint (pageAt (mapper.page f)) k.home.bytes)}
    (fun f hf => ⟨(hf.clear hsound).1, (hf.clear hsound).2, h.apart k hk p hp f hf⟩) fun f => id
  refine ⟨_, p, fun r hr hkind f h0 h1 h2 hd => ?_, rfl, hall⟩
  exact ⟨h0, hsound.charts.usable hr hkind ⟨h1, h2⟩, hd⟩

/-- A heap is opened over all frames that its pool may ever give out. -/
theorem wide_start {rs : List Region} {mapper : Mapper} {a : Arena} (h : Founded rs mapper a) :
    ∃ E, Wide E ∧ (start a mapper).Kept E := by
  obtain ⟨E, p, hE, rfl, hsup⟩ := h.estate
  refine ⟨E, hE, p, _, stands_empty hsup, fun o => ?_⟩
  simp [start, Slab.objects]

/-- **Every session** with a heap stays in order, whatever its mapper shows. -/
theorem kept_through {rs : List Region} {mapper : Mapper} {a : Arena} (h : Founded rs mapper a) (es : List Event)
    (hes : (start a mapper).LetAll es) : ∃ E, (es.foldl happen (start a mapper)).Kept E := by
  obtain ⟨E, hE, hkept⟩ := wide_start h
  exact ⟨E, kept_foldl_lets hE hkept hes⟩

end Keel.Heap.Session
