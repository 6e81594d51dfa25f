import Keel.Proofs.Heap.Partial

/-!
# Sessions with a cache

A cache may have cells of any size that a slab can have, and share its pool and memory with others. A session begins with
an empty cache over a pool, and an *event* is a request to the cache with any argument, a write, or a request of others to
the pool. Writes go into objects that clients hold, or past the slabs and the bitmap, and others give back no page of a
slab and no frame in which the bitmap is visible. `Session.Kept` is the invariant: the cache is in order, and clients hold
its objects. Each event keeps it (`kept_happen`), whence every session does (`kept_through`).
-/

namespace Keel.Slab

open Keel.Memory (block pageAt)
open Keel.Frame (Pool)
open Keel.Heap.Session (Founded Wide mem_frames_of_freed)

attribute [local irreducible] Memory.word

/-- A cache, the mapper that shows it its slabs, and the objects that its clients hold. -/
structure Session where
  mapper : Mapper
  site : CacheSite
  live : Set Ptr

namespace Session

/-- What may happen to a cache: a request to it, a write, or a request of others to its pool. -/
inductive Event
  | allocate
  | free (x : Ptr)
  | shrink
  | write (a : Ptr) (bytes : List UInt8)
  | pool (q : Frame.Request)

/-- The session with an empty cache of cells of `c` bytes. -/
def start (a : Arena) (mapper : Mapper) (c : Nat) : Session := ⟨mapper, ⟨a, Cache.empty c⟩, ∅⟩

/-- The memory of a session. -/
def memory (s : Session) : Memory := s.site.arena.memory

/-- The session after an event. -/
def happen (s : Session) : Event → Session
  | .allocate =>
    let t := Cache.allocate s.mapper s.site
    match t.result with
    | .ok x => { s with site := t.state, live := insert x s.live }
    | .error _ => { s with site := t.state }
  | .free x =>
    let t := Cache.free x s.site
    match t.result with
    | .ok () => { s with site := t.state, live := s.live \ {x} }
    | .error _ => { s with site := t.state }
  | .shrink => { s with site := (Cache.shrink s.mapper s.site).state }
  | .write a bytes =>
    { s with site := ⟨{ s.site.arena with memory := s.memory.setBytes a bytes }, s.site.cache⟩ }
  | .pool q => { s with site := ⟨s.site.arena.request q, s.site.cache⟩ }

/-- Whether a page is a slab of the cache. -/
def HasSlab (s : Session) (page : Ptr) : Prop := (Cache.owns page s.site).result = .ok true

/-- Where the bitmap of the pool is kept in memory, if it is. -/
def bitmap (s : Session) : Set Ptr := {a | ∃ h ∈ s.site.arena.pool, a ∈ h.home.bytes}

/-- What may happen: writes go into objects that are held, or past the slabs and the bitmap, and what others give back is
no page of a slab, and the bitmap is not visible in it. -/
def Lets (s : Session) : Event → Prop
  | .write a bytes => (∃ x ∈ s.live, block a bytes.length ⊆ block x s.site.cache.cellSize) ∨
      (∀ page, s.HasSlab page → Disjoint (pageAt page) (block a bytes.length)) ∧ Disjoint s.bitmap (block a bytes.length)
  | .pool (.release pa) => (Arena.freeFrame pa s.site.arena).result = .ok () →
      ¬s.HasSlab (s.mapper.page (Align.frameOf pa.raw)) ∧ (s.mapper.Shows (Align.frameOf pa.raw) →
        Disjoint (pageAt (s.mapper.page (Align.frameOf pa.raw))) s.bitmap)
  | _ => True

/-- Every one of some events is let happen when it does. -/
def LetAll (s : Session) : List Event → Prop
  | [] => True
  | e :: es => s.Lets e ∧ (s.happen e).LetAll es

/-- The cache of a session is in order, and its objects are those that clients hold. -/
def Kept (E : Estate) (c : Nat) (s : Session) : Prop :=
  s.mapper = E.mapper ∧ ∃ p vs, Stands E p c s.site vs ∧ s.live = objects c vs

variable {E : Estate} {s : Session} {p : Pool} {c : Nat} {vs : List View}

theorem hasSlab_iff (h : Stands E p c s.site vs) (page : Ptr) : s.HasSlab page ↔ page ∈ vs.map View.page := by
  obtain ⟨r, t, log, ht, ⟨b, rfl, hb⟩, -⟩ := (owns_ends h page).trace
  rw [HasSlab, ht, Except.ok.injEq, hb, List.mem_map]

theorem bitmap_eq (h : Stands E p c s.site vs) : s.bitmap = E.bitmap := by
  obtain ⟨k, hk, -, hB, -⟩ := h.supplies.keeps
  ext a
  simp [bitmap, hk, hB]

/-! ## Events -/

theorem kept_allocate (h : s.Kept E c) : (s.happen .allocate).Kept E c := by
  obtain ⟨hm, p, vs, hs, hlive⟩ := h
  rw [happen, hm]
  obtain ⟨r, t, log, ht, qs, ws, hturn, ha⟩ := (allocate_ends hs).trace
  rw [ht]
  rcases ha with ⟨x, rfl, -, hws⟩ | ⟨rfl, hr⟩
  · exact ⟨rfl, _, ws, hturn.stands, by rw [hws, ← hlive]⟩
  · rcases hr with rfl | rfl | ⟨rfl, -⟩ <;> exact ⟨rfl, _, _, hturn.stands, hlive⟩

/-- Whatever pointer comes back, clients hold the objects that are left. -/
theorem kept_free (h : s.Kept E c) (x : Ptr) : (s.happen (.free x)).Kept E c := by
  obtain ⟨hm, p, vs, hs, hlive⟩ := h
  rw [happen]
  obtain ⟨r, t, log, ht, hf⟩ := (free_ends hs x).trace
  rw [ht]
  rcases hf with ⟨-, rfl, ws, hturn, hws⟩ | ⟨-, rfl, hr⟩
  · exact ⟨hm, _, ws, hturn.stands, by rw [hws, ← hlive]⟩
  · rcases hr with rfl | rfl <;> exact ⟨hm, _, vs, hs, hlive⟩

theorem kept_shrink (h : s.Kept E c) : (s.happen .shrink).Kept E c := by
  obtain ⟨hm, p, vs, hs, hlive⟩ := h
  rw [happen, hm]
  obtain ⟨r, t, log, ht, -, qs, hshed⟩ := (shrink_ends hs).trace
  rw [ht]
  exact ⟨rfl, _, _, hshed.stands, by rw [hlive, objects_busy hs.chain]⟩

/-- A write into an object, or past the slabs and the bitmap, is to nothing that the cache relies on. -/
theorem kept_write {a : Ptr} {bytes : List UInt8} (h : s.Kept E c) (he : s.Lets (.write a bytes)) :
    (s.happen (.write a bytes)).Kept E c := by
  obtain ⟨hm, p, vs, hs, hlive⟩ := h
  refine ⟨hm, p, vs, hs.write (Memory.alters_setBytes _ a bytes) (Set.disjoint_union_left.2 ?_), hlive⟩
  rcases he with ⟨x, hx, hsub⟩ | ⟨hslabs, hbitmap⟩
  · rw [hlive] at hx
    rw [hs.size] at hsub
    obtain ⟨v, hv, -, -, -, -, -, hpage⟩ := hs.chain.of_objects hs.cell hx
    have hapart := (hs.supplies.disjoint_bitmap (hs.backed v hv)).symm
    exact ⟨(hs.chain.disjoint_guarded hs.cell hs.distinct hx).mono_right hsub, hapart.mono_right (hsub.trans hpage)⟩
  · rw [bitmap_eq hs] at hbitmap
    refine ⟨Set.disjoint_left.2 fun b hb => ?_, hbitmap⟩
    obtain ⟨v, hv, hbv⟩ := guarded_subset hs.chain hb
    exact Set.disjoint_left.1 (hslabs v.page ((hasSlab_iff hs _).2 (List.mem_map_of_mem hv))) hbv

/-- What others give back is a frame of the estate, and no page of a slab. -/
theorem kept_pool {q : Frame.Request} (hE : Wide E) (h : s.Kept E c) (he : s.Lets (.pool q)) :
    (s.happen (.pool q)).Kept E c := by
  obtain ⟨hm, p, vs, hs, hlive⟩ := h
  have hsound := hs.supplies.sound
  refine ⟨hm, _, vs, hs.onPool (hs.supplies.keeps.request hsound q) fun f hf => ?_, hlive⟩
  rcases hsound.free_on hf with hf | ⟨pa, rfl, hr, rfl⟩
  · exact ⟨hs.supplies.free f hf, fun v hv => hs.page_ne hf hv⟩
  · have hok : (Arena.freeFrame pa s.site.arena).result = .ok () :=
      (Arena.freeFrame_ends hs.supplies.keeps hsound pa ∅).1.trans hr
    obtain ⟨hslab, hbitmap⟩ := he hok
    rw [hasSlab_iff hs, hm] at hslab
    rw [bitmap_eq hs, hm] at hbitmap
    refine ⟨mem_frames_of_freed hE hs.supplies hok hbitmap, fun v hv hpage => hslab ?_⟩
    rw [← hpage]
    exact List.mem_map_of_mem hv

/-- Whatever is let happen keeps the invariant. -/
theorem kept_happen (hE : Wide E) (h : s.Kept E c) (e : Event) (he : s.Lets e) : (s.happen e).Kept E c := by
  cases e with
  | allocate => exact kept_allocate h
  | free x => exact kept_free h x
  | shrink => exact kept_shrink h
  | write a bytes => exact kept_write h he
  | pool q => exact kept_pool hE h he

theorem kept_foldl {es : List Event} (hE : Wide E) (h : s.Kept E c) (hes : s.LetAll es) :
    (es.foldl happen s).Kept E c := by
  induction es generalizing s with
  | nil => exact h
  | cons e es ih => exact ih (kept_happen hE h e hes.1) hes.2

/-- **Every session** with a cache keeps it in order, whatever the size of its cells. -/
theorem kept_through {rs : List Region} {mapper : Mapper} {a : Arena} (h : Founded rs mapper a) (hc : CellSize c)
    (es : List Event) (hes : (start a mapper c).LetAll es) : ∃ E, (es.foldl happen (start a mapper c)).Kept E c := by
  obtain ⟨E, p, hE, hm, hsup⟩ := h.estate
  have hstart : (start a mapper c).Kept E c :=
    ⟨hm.symm, p, [], stands_empty hsup hc, by simp [start, objects]⟩
  exact ⟨E, kept_foldl hE hstart hes⟩

end Session

end Keel.Slab
