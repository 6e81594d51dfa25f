import Keel.Proofs.Ground
import Keel.Proofs.Heap.Sessions

/-!
# A heap and its neighbours

A heap shares its pool with others, who take frames from the pool, reserve them and give them back, and memory with
everyone. An *event* is a request to the heap with any argument, a write, or a request of others to the pool; the others
give back no page of a slab, and writes go into objects that are held or past the slabs and the bitmap. In every session
made of events, a request to the heap changes no byte of an object that is live before and after, writes in pages of its
slabs, and leaves the frames of others alone (`respects_run`).
-/

namespace Keel.Heap.Session

open Keel.Memory (Alters block pageAt)
open Keel.Frame (Pool)
open Keel.Slab (Estate View)

attribute [local irreducible] Memory.word

/-! ## What is whose -/

/-- What may happen to a heap: a request to it or a write, or a request of others to its pool. -/
inductive Event
  | heap (q : Request)
  | pool (q : Frame.Request)

variable {E : Estate} {s t : Session} {p : Pool} {V W : SizeClass → List View} {page : Ptr} {f : Nat}

/-- The memory of a session. -/
def memory (s : Session) : Memory := s.site.arena.memory

/-- Whether a page is a slab of the heap: one of the caches says so. -/
def HasSlab (s : Session) (page : Ptr) : Prop :=
  ∃ i : SizeClass, (Slab.Cache.owns page ((cachePart i).get s.site)).result = .ok true

/-- Where the bitmap of the pool is kept in memory, if it is. -/
def bitmap (s : Session) : Set Ptr := {a | ∃ h ∈ s.site.arena.pool, a ∈ h.home.bytes}

/-- Whether a frame of the pool is in the hands of others: it is neither free nor the page of a slab, nor does it hold the
bitmap. -/
def Lent (s : Session) (f : Nat) : Prop :=
  (∃ p ∈ s.site.arena.pool?, p.Usable f ∧ f ≠ 0 ∧ ¬p.Free f) ∧ ¬s.HasSlab (s.site.heap.mapper.page f) ∧
    Disjoint (pageAt (s.site.heap.mapper.page f)) s.bitmap

/-- The session after an event. -/
def happen (s : Session) : Event → Session
  | .heap q => s.step q
  | .pool q => ⟨⟨s.site.arena.request q, s.site.heap⟩, s.live⟩

/-- What may happen: any request to the heap, writes into objects that are held or past the slabs and the bitmap, and
requests to the pool that give back only what is lent. -/
def Allows (s : Session) : Event → Prop
  | .heap (.write a bytes) => s.Permits (.write a bytes) ∨
      (∀ page, s.HasSlab page → Disjoint (pageAt page) (block a bytes.length)) ∧ Disjoint s.bitmap (block a bytes.length)
  | .pool (.release pa) => (Arena.freeFrame pa s.site.arena).result = .ok () → s.Lent (Align.frameOf pa.raw)
  | _ => True

/-- Every one of some events is allowed when it happens. -/
def Allowed (s : Session) : List Event → Prop
  | [] => True
  | e :: es => s.Allows e ∧ (s.happen e).Allowed es

/-- What became of the neighbours of a heap from `s` to `t`: objects that stay keep their bytes, what is written are bytes
of slabs and, by requests to the pool, of the bitmap, and lent frames stay so with all their bytes. -/
structure Spares (s t : Session) : Prop where
  objects : ∀ o ∈ s.live, o ∈ t.live → ∀ a ∈ o.bytes, t.memory.read a = s.memory.read a
  writes : ∃ qs, t.site.arena.pool? = s.site.arena.pool?.map (Pool.after · qs) ∧
    ∀ a, t.memory.read a ≠ s.memory.read a →
      (∃ page, (s.HasSlab page ∨ t.HasSlab page) ∧ a ∈ pageAt page) ∨ qs ≠ [] ∧ a ∈ s.bitmap
  frames : ∀ f, s.Lent f → t.Lent f ∧ ∀ a ∈ pageAt (s.site.heap.mapper.page f), t.memory.read a = s.memory.read a

/-- What a request to a heap owes the neighbours of the heap, whatever its argument and answer. -/
def Respects (s : Session) : Request → Prop
  | .write _ _ => True
  | q => s.Spares (s.step q)

/-! ## Heaps in order -/

/-- An estate that has all frames of usable regions apart from the bitmap, each visible. -/
structure Whole (E : Estate) : Prop where
  shows : ∀ f ∈ E.frames, E.mapper.Shows f
  all : ∀ r ∈ E.regions, r.kind = .usable → ∀ f ≠ 0, r.base.raw.toNat ≤ f * 4096 → f * 4096 + 4096 ≤ r.stop →
    Disjoint (pageAt (E.mapper.page f)) E.bitmap → f ∈ E.frames

theorem hasSlab_iff (hV : Stands E p s.site V) : s.HasSlab page ↔ ∃ i, ∃ v ∈ V i, v.page = page := by
  refine exists_congr fun i => ?_
  obtain ⟨r, c, log, hr, ⟨b, rfl, hb⟩, -⟩ := (Slab.owns_ends (hV.caches i) page).trace
  rw [hr, ← hb, Except.ok.injEq]

theorem bitmap_eq (hV : Stands E p s.site V) : s.bitmap = E.bitmap := by
  obtain ⟨h, hs, -, hB, -⟩ := hV.supplies.keeps
  ext a
  simp [bitmap, hs, hB]

/-- The frames that are lent are those of the estate that are neither free nor slabs. -/
theorem lent_iff (hE : Whole E) (hV : Stands E p s.site V) : s.Lent f ↔ f ∈ E.frames ∧ ¬E.Owns p V f := by
  have hsound := hV.supplies.sound
  rw [Lent, hasSlab_iff hV, bitmap_eq hV, hV.mapper, hV.supplies.keeps.pool?, Estate.Owns, not_or]
  simp only [Option.mem_some_iff, exists_eq_left']
  constructor
  · rintro ⟨⟨hu, h0, hfree⟩, hslab, hd⟩
    obtain ⟨r, hr, hk, h1, h2⟩ := hu.region hsound.charts
    exact ⟨hE.all r hr hk f h0 h1 h2 hd, hfree, hslab⟩
  · rintro ⟨hf, hfree, hslab⟩
    obtain ⟨h0, hu⟩ := hV.supplies.usable f hf
    exact ⟨⟨hu, h0, hfree⟩, hslab, hV.supplies.circulates.apart f hf (hE.shows f hf)⟩

/-! ## Requests to the heap -/

/-- A byte of a frame that is neither free nor a slab is none that is written. -/
theorem notMem_touched_of_frame {qs : List Frame.Request} {a : Ptr} (hE : Whole E) (hV : Stands E p s.site V)
    (hW : Stands E (p.after qs) t.site W) (hf : f ∈ E.frames) (ho : ¬E.Owns p V f) (ho' : ¬E.Owns (p.after qs) W f)
    (ha : a ∈ pageAt (E.mapper.page f)) : a ∉ touched V W ∪ E.asked qs := by
  obtain ⟨hal, hnull⟩ := hE.shows f hf
  -- Pages are the same or disjoint, and the page of the frame is that of no slab, neither before nor after.
  rintro (⟨⟨i, v, hv, hav⟩, -⟩ | hb)
  · rcases List.mem_append.1 hv with hv | hv
    · have hne : E.mapper.page f ≠ v.page := fun he => ho (.inr ⟨i, v, hv, he.symm⟩)
      exact Set.disjoint_left.1 (Memory.disjoint_pageAt hal ((hV.chain i).aligned hv) hne) ha hav
    · have hne : E.mapper.page f ≠ v.page := fun he => ho' (.inr ⟨i, v, hv, he.symm⟩)
      exact Set.disjoint_left.1 (Memory.disjoint_pageAt hal ((hW.chain i).aligned hv) hne) ha hav
  · exact Set.disjoint_left.1 (hV.supplies.circulates.apart f hf ⟨hal, hnull⟩) ha (E.asked_subset qs hb)

/-- **A heap that turns** spares its neighbours. -/
theorem spares_of_turned (hE : Whole E) (hV : Stands E p s.site V)
    (hlive : ∀ o, o ∈ s.live ↔ o.start ∈ objectsOf V o.sizeClass) (h : Turned E s t p V) : s.Spares t := by
  obtain ⟨qs, W, hturn, hlive'⟩ := h
  have hW := hturn.stands
  refine ⟨fun o ho ho' a ha => ?_, ⟨qs, ?_, fun a hne => ?_⟩, fun f hf => ?_⟩
  · exact hturn.alters a (hV.notMem_touched ((hlive o).1 ho) ((hlive' o).1 ho') ha)
  · rw [hW.supplies.keeps.pool?, hV.supplies.keeps.pool?, Option.map_some]
  · have hwritten : a ∈ touched V W ∪ E.asked qs := by
      by_contra hno
      exact hne (hturn.alters a hno)
    rw [bitmap_eq hV]
    refine hwritten.imp (fun ht => ?_) id
    obtain ⟨⟨i, v, hv, ha⟩, -⟩ := ht
    refine ⟨v.page, (List.mem_append.1 hv).imp (fun hv => ?_) fun hv => ?_, ha⟩
    · exact (hasSlab_iff hV).2 ⟨i, v, hv, rfl⟩
    · exact (hasSlab_iff hW).2 ⟨i, v, hv, rfl⟩
  · obtain ⟨hmem, ho⟩ := (lent_iff hE hV).1 hf
    have ho' : ¬E.Owns (p.after qs) W f := fun h => ho ((hturn.frames f hmem).1 h)
    refine ⟨(lent_iff hE hW).2 ⟨hmem, ho'⟩, fun a ha => ?_⟩
    rw [hV.mapper] at ha
    exact hturn.alters a (notMem_touched_of_frame hE hV hW hmem ho ho' ha)

/-- A session respects the neighbours as long as its invariant holds. -/
theorem respects_of_kept (hE : Whole E) (h : s.Kept E) (q : Request) : s.Respects q := by
  obtain ⟨p, V, hV, hlive⟩ := h
  cases q with
  | allocate size => exact spares_of_turned hE hV hlive (turned_allocate hV hlive size)
  | free x => exact spares_of_turned hE hV hlive (turned_free hV hlive x)
  | shrink => exact spares_of_turned hE hV hlive (turned_shrink hV hlive)
  | write a bytes => trivial

/-! ## Events -/

/-- A write into an object, or past the slabs and the bitmap, is to nothing that the heap relies on. -/
theorem stands_write {a : Ptr} {bytes : List UInt8} (hV : Stands E p s.site V)
    (hlive : ∀ o, o ∈ s.live ↔ o.start ∈ objectsOf V o.sizeClass) (he : s.Allows (.heap (.write a bytes))) :
    Stands E p (s.step (.write a bytes)).site V := by
  refine hV.write (Memory.alters_setBytes _ a bytes) ?_
  rcases he with ⟨o, ho, hsub⟩ | ⟨hslabs, hbitmap⟩
  · exact (hV.disjoint_guarded ((hlive o).1 ho)).mono_right hsub
  · rw [bitmap_eq hV] at hbitmap
    refine Set.disjoint_union_left.2 ⟨?_, hbitmap⟩
    rw [Set.disjoint_left]
    intro b hb
    obtain ⟨i, hb⟩ := hb
    obtain ⟨v, hv, hbv⟩ := Slab.guarded_subset (hV.chain i) hb
    exact Set.disjoint_left.1 (hslabs v.page ((hasSlab_iff hV).2 ⟨i, v, hv, rfl⟩)) hbv

/-- A request of others to the pool leaves a heap in order, if it frees frames of the estate only and no page of a slab. -/
theorem stands_request {q : Frame.Request} (hV : Stands E p s.site V)
    (hq : ∀ pa, q = .release pa → (Arena.freeFrame pa s.site.arena).result = .ok () →
      Align.frameOf pa.raw ∈ E.frames ∧ ∀ i, ∀ v ∈ V i, v.page ≠ E.mapper.page (Align.frameOf pa.raw)) :
    Stands E (p.after [q]) (s.happen (.pool q)).site V := by
  have hkeeps := hV.supplies.keeps
  have hsound := hV.supplies.sound
  refine hV.onPool (hkeeps.request hsound q) fun f hf => ?_
  rcases hsound.free_on hf with hf | ⟨pa, rfl, hr, rfl⟩
  · exact ⟨hV.supplies.free f hf, fun i v hv => hV.page_ne hf hv⟩
  · have hresult := (Arena.freeFrame_ends hkeeps hsound pa ∅).1
    exact hq pa rfl (hresult.trans hr)

/-- Others give back nothing but what is lent, so no page of a slab becomes free. -/
theorem stands_pool {q : Frame.Request} (hE : Whole E) (hV : Stands E p s.site V) (hq : s.Allows (.pool q)) :
    Stands E (p.after [q]) (s.happen (.pool q)).site V := by
  refine stands_request hV fun pa hpa hr => ?_
  subst hpa
  obtain ⟨hmem, hno⟩ := (lent_iff hE hV).1 (hq hr)
  exact ⟨hmem, fun i v hv he => hno (.inr ⟨i, v, hv, he⟩)⟩

/-- Whatever is asked of the heap keeps the invariant, and so does a write that is allowed. -/
theorem kept_heap {q : Request} (h : s.Kept E) (hq : s.Allows (.heap q)) : (s.step q).Kept E := by
  obtain ⟨p, V, hV, hlive⟩ := id h
  cases q with
  | allocate size => exact kept_step h _ trivial
  -- any pointer may come back, not just one that is held
  | free x => exact (turned_free hV hlive x).kept
  | shrink => exact kept_step h _ trivial
  | write a bytes => exact ⟨p, V, stands_write hV hlive hq, hlive⟩

/-- Whatever is allowed keeps the invariant. -/
theorem kept_happen (hE : Whole E) (h : s.Kept E) (e : Event) (he : s.Allows e) : (s.happen e).Kept E := by
  cases e with
  | heap q => exact kept_heap h he
  | pool q =>
    obtain ⟨p, V, hV, hlive⟩ := h
    exact ⟨_, V, stands_pool hE hV he, hlive⟩

theorem kept_foldl_happen {es : List Event} (hE : Whole E) (h : s.Kept E) (hes : s.Allowed es) :
    (es.foldl happen s).Kept E := by
  induction es generalizing s with
  | nil => exact h
  | cons e es ih => exact ih (kept_happen hE h e hes.1) hes.2

/-! ## Runs -/

/-- A heap is opened over all frames that its pool may ever give out. -/
theorem whole_start {rs : List Region} {mapper : Mapper} {a : Arena} (h : Opens rs mapper a) :
    ∃ E, Whole E ∧ (start a mapper).Kept E := by
  obtain ⟨k, p, hk, hsound, hp, hsup⟩ := h.founded.supplies
  have hall := hsup {f | f ≠ 0 ∧ p.Usable f ∧ Disjoint (pageAt (mapper.page f)) k.home.bytes}
    (fun f hf => ⟨(hf.clear hsound).1, (hf.clear hsound).2, h.apart k hk p hp f hf⟩)
    fun f hf => ⟨hf.1, hf.2.1, fun _ => hf.2.2⟩
  refine ⟨_, ⟨fun f hf => ?_, fun r hr hkind f h0 h1 h2 hd => ?_⟩, p, _, stands_empty hall, fun o => ?_⟩
  · obtain ⟨h0, hu, -⟩ := hf
    obtain ⟨r, hr, hkind, h1, h2⟩ := hu.region hsound.charts
    exact (h.mapped r hr hkind f h0 h1 h2).1
  · exact ⟨h0, hsound.charts.usable hr hkind ⟨h1, h2⟩, hd⟩
  · simp [start, Slab.objects]

/-- **Every request** to a heap, whatever has happened to it before, with any argument and any answer: objects that are
live before and after keep their bytes, and nothing is written but pages of slabs, so nothing in the frames of others. -/
theorem respects_run {rs : List Region} {mapper : Mapper} {a : Arena} (h : Opens rs mapper a) (es : List Event)
    (q : Request) (hes : (start a mapper).Allowed es) : Respects (es.foldl happen (start a mapper)) q := by
  obtain ⟨E, hE, hkept⟩ := whole_start h
  exact respects_of_kept hE (kept_foldl_happen hE hkept hes) q

/-- An object is handed out, others take the next frame, the client writes a slab's mark into its object, and a pointer
into the frame of the others is refused. -/
theorem respects_fourFrames : Respects (List.foldl happen (start fourFrames .identity)
    [.heap (.allocate 2000), .pool .alloc, .heap (.write 0x1030 (Memory.wordBytes Layout.slabMagic)),
      .heap (.free 0x2000)]) (.free 0x1030) := by
  have hlive : ⟨0x1030, ⟨7, by decide⟩⟩ ∈ ((start fourFrames .identity).step (.allocate 2000)).live := by
    rw [step, allocate_fourFrames]
    exact Set.mem_insert _ _
  refine respects_run opens_fourFrames _ _ ⟨trivial, trivial, .inl ⟨_, hlive, ?_⟩, trivial, trivial⟩
  rw [Object.bytes, Memory.length_wordBytes]
  exact Memory.block_mono (by decide)

end Keel.Heap.Session
