import Keel.Proofs.Frame.Sessions
import Keel.Proofs.Heap.Operations

/-!
# Sessions with a heap

A session is an empty heap over a pool, and a list of requests to it and of writes by its clients, together with the
objects that the clients hold. Clients give back only what they hold and write only into what they hold, any bytes.
`Session.Kept` is the invariant: the heap is in order, and its objects are those that the clients hold (`kept_run`). So
each object handed out lies behind the header of a slab and apart from all others, and no request is refused but for its
size or for want of frames (`separates_run`).
-/

namespace Keel.Heap

open Keel.Memory (block pageAt)
open Keel.Frame (Pool)
open Keel.Slab (Estate Supplies View objects)

attribute [local irreducible] Memory.word

/-! ## Sessions -/

/-- A request to a heap, or a write of a client. -/
inductive Request
  | allocate (size : Nat)
  | free (x : Ptr)
  | shrink
  | write (a : Ptr) (bytes : List UInt8)

/-- An object in the hands of a client. -/
structure Object where
  start : Ptr
  sizeClass : SizeClass

/-- The bytes of an object. -/
def Object.bytes (o : Object) : Set Ptr := block o.start (classSize o.sizeClass)

/-- A heap and what its clients hold. -/
structure Session where
  site : HeapSite
  live : Set Object

namespace Session

/-- The session with an empty heap. -/
def start (a : Arena) (mapper : Mapper) : Session := ⟨⟨a, Heap.empty mapper⟩, ∅⟩

/-- One request or write. -/
def step (s : Session) : Request → Session
  | .allocate size =>
    let t := Heap.allocate size s.site
    match t.result, classFor size with
    | .ok x, .ok i => ⟨t.state, insert ⟨x, i⟩ s.live⟩
    | _, _ => ⟨t.state, s.live⟩
  | .free x =>
    let t := Heap.free x s.site
    match t.result with
    | .ok () => ⟨t.state, {o ∈ s.live | o.start ≠ x}⟩
    | .error _ => ⟨t.state, s.live⟩
  | .shrink => ⟨(Heap.shrink s.site).state, s.live⟩
  | .write a bytes =>
    ⟨{ s.site with arena := { s.site.arena with memory := s.site.arena.memory.setBytes a bytes } }, s.live⟩

/-- The session after a list of requests. -/
def run (s : Session) (qs : List Request) : Session := qs.foldl step s

/-- What clients may do: they give back what they hold, and write into what they hold. -/
def Permits (s : Session) : Request → Prop
  | .allocate _ => True
  | .free x => ∃ o ∈ s.live, o.start = x
  | .shrink => True
  | .write a bytes => ∃ o ∈ s.live, block a bytes.length ⊆ o.bytes

/-- Every one of some requests is permitted when it is made. -/
def Permitted (s : Session) : List Request → Prop
  | [] => True
  | q :: qs => s.Permits q ∧ (s.step q).Permitted qs

/-! ## Answers -/

/-- An object for a request of `size` bytes, as `t` has handed it out after `s`: it is aligned, its block is that of the
smallest class that holds the request, lies behind the header of a slab of that class, and meets no object held. -/
def Separated (s : Session) (t : HeapSite) (size : Nat) (x : Ptr) : Prop :=
  x.toNat % 16 = 0 ∧ ∃ i, size ≤ classSize i ∧ (∀ j, size ≤ classSize j → classSize i ≤ classSize j) ∧
    (∃ page, page.toNat % 4096 = 0 ∧ (Slab.Cache.owns page ((cachePart i).get t)).result = .ok true ∧
      page.toNat + 48 ≤ x.toNat ∧ x.toNat + classSize i ≤ page.toNat + 4096) ∧
    ∀ o ∈ s.live, Disjoint (block x (classSize i)) o.bytes

/-- What a session owes its clients. -/
def Answers (s : Session) : Request → Prop
  | .allocate size =>
    match Heap.allocate size s.site with
    | ⟨.ok x, t, _⟩ => s.Separated t size x
    | ⟨.error (.fault f), _, _⟩ => f ≠ .corrupted ∧ f ≠ .dangling ∧ (f = .badArgs → size = 0)
    | ⟨.error (.halt h), _, _⟩ => h = .addOverflow
  | .free x => (Heap.free x s.site).result = .ok ()
  | .shrink => ∃ n, (Heap.shrink s.site).result = .ok n
  | .write _ _ => True

/-! ## One request -/

variable {E : Estate} {s : Session} {p : Pool} {V : SizeClass → List View} {ws : List View} {i j : SizeClass} {x : Ptr}

theorem objectsOf_update_self (V : SizeClass → List View) (i : SizeClass) (ws : List View) :
    objectsOf (Function.update V i ws) i = objects (classSize i) ws := by
  rw [objectsOf, Function.update_self]

theorem objectsOf_update_of_ne (V : SizeClass → List View) (ws : List View) (h : j ≠ i) :
    objectsOf (Function.update V i ws) j = objectsOf V j := by
  rw [objectsOf, Function.update_of_ne h]

/-- The heap of a session is in order, and its objects are those that the clients hold. -/
def Kept (E : Estate) (s : Session) : Prop :=
  ∃ p V, Stands E p s.site V ∧ ∀ o, o ∈ s.live ↔ o.start ∈ objectsOf V o.sizeClass

/-- What one request has done to a session: its heap has turned, and clients hold the objects of the new slabs. -/
def Turned (E : Estate) (s t : Session) (p : Pool) (V : SizeClass → List View) : Prop :=
  ∃ qs W, Turns E s.site t.site p qs V W ∧ ∀ o, o ∈ t.live ↔ o.start ∈ objectsOf W o.sizeClass

theorem Turned.kept {t : Session} (h : Turned E s t p V) : t.Kept E := by
  obtain ⟨qs, W, hturn, hlive⟩ := h
  exact ⟨_, W, hturn.stands, hlive⟩

theorem turned_allocate (hV : Stands E p s.site V) (hlive : ∀ o, o ∈ s.live ↔ o.start ∈ objectsOf V o.sizeClass)
    (size : Nat) : Turned E s (s.step (.allocate size)) p V := by
  obtain ⟨r, t, log, ht, ha⟩ := (allocate_ends hV size).trace
  simp only [step, ht]
  rcases ha with ⟨e, -, rfl, rfl⟩ | ⟨i, hi, qs, ws, hturn, ⟨x, rfl, -, hws⟩ | ⟨rfl, hr⟩⟩
  · exact ⟨[], V, hV.turns, hlive⟩
  · rw [hi]
    refine ⟨qs, _, hturn, fun o => ?_⟩
    obtain ⟨y, j⟩ := o
    rw [Set.mem_insert_iff, hlive]
    by_cases hj : j = i
    · subst hj
      rw [objectsOf_update_self, hws, Set.mem_insert_iff, Object.mk.injEq, and_iff_left rfl]
    · rw [objectsOf_update_of_ne V ws hj, Object.mk.injEq]
      exact or_iff_right fun hxy => hj hxy.2
  · rw [Function.update_eq_self] at hturn
    rcases hr with rfl | rfl | ⟨rfl, -⟩ <;> exact ⟨qs, V, hturn, hlive⟩

/-- Whatever pointer comes back, clients hold the objects that are left. -/
theorem turned_free (hV : Stands E p s.site V) (hlive : ∀ o, o ∈ s.live ↔ o.start ∈ objectsOf V o.sizeClass) (x : Ptr) :
    Turned E s (s.step (.free x)) p V := by
  obtain ⟨r, t, log, ht, hf⟩ := (free_ends hV x).trace
  simp only [step, ht]
  rcases hf with ⟨i, hi, rfl, ws, hturn, hws⟩ | ⟨-, rfl, hr⟩
  · refine ⟨[], _, hturn, fun o => ?_⟩
    obtain ⟨y, j⟩ := o
    rw [Set.mem_sep_iff, hlive]
    by_cases hj : j = i
    · subst hj
      rw [objectsOf_update_self, hws]
      rfl
    · rw [objectsOf_update_of_ne V ws hj]
      refine and_iff_left_of_imp fun hy => ?_
      rintro rfl
      exact hj (hV.class_eq_of_objects hy hi)
  · rcases hr with rfl | rfl | rfl <;> exact ⟨[], V, hV.turns, hlive⟩

theorem turned_shrink (hV : Stands E p s.site V) (hlive : ∀ o, o ∈ s.live ↔ o.start ∈ objectsOf V o.sizeClass) :
    Turned E s (s.step .shrink) p V := by
  obtain ⟨r, t, log, ht, -, qs, hturn, -⟩ := (shrink_ends hV).trace
  simp only [step, ht]
  refine ⟨qs, _, hturn, fun o => ?_⟩
  rw [objectsOf_shrunk hV]
  exact hlive o

theorem kept_write {a : Ptr} {bytes : List UInt8} (h : s.Kept E) (hw : s.Permits (.write a bytes)) :
    (s.step (.write a bytes)).Kept E := by
  obtain ⟨p, V, hV, hlive⟩ := h
  obtain ⟨o, ho, hsub⟩ := hw
  have hd := (hV.disjoint_guarded ((hlive o).1 ho)).mono_right hsub
  exact ⟨p, V, hV.write (Memory.alters_setBytes _ a bytes) hd, hlive⟩

/-- Whatever is permitted keeps the invariant. -/
theorem kept_step (h : s.Kept E) (q : Request) (hq : s.Permits q) : (s.step q).Kept E := by
  obtain ⟨p, V, hV, hlive⟩ := id h
  cases q with
  | allocate size => exact (turned_allocate hV hlive size).kept
  | free x => exact (turned_free hV hlive x).kept
  | shrink => exact (turned_shrink hV hlive).kept
  | write a bytes => exact kept_write h hq

/-- A new object of a heap in order is apart from those held before. -/
theorem separated_of_turns {t : HeapSite} {qs : List Frame.Request} {size : Nat}
    (hlive : ∀ o, o ∈ s.live ↔ o.start ∈ objectsOf V o.sizeClass)
    (hturn : Turns E s.site t p qs V (Function.update V i ws)) (hi : classFor size = .ok i) (hnew : x ∉ objectsOf V i)
    (hws : objects (classSize i) ws = insert x (objectsOf V i)) : s.Separated t size x := by
  have hW := hturn.stands
  have hself := objectsOf_update_self V i ws
  have hx : x ∈ objectsOf (Function.update V i ws) i := by
    rw [hself, hws]
    exact Set.mem_insert _ _
  obtain ⟨-, hmin⟩ := classFor_eq_ok hi
  have hc := cellSize_classSize i
  obtain ⟨v, hv, k, hk, -, hcell, -, -⟩ := (hW.chain i).of_objects hc hx
  have hal := (hW.chain i).aligned hv
  have hend := Slab.cellOffset_add_le hk
  have hstart := Slab.header_le_cellOffset (classSize i) k
  have hsize := hc.min
  have hnat : x.toNat = v.page.toNat + Slab.cellOffset (classSize i) k := by
    rw [hcell, Slab.cellAt_toNat hal (by omega)]
  refine ⟨by rw [hcell]; exact Slab.cellAt_mod hal hk hc, i, (hmin i).2 (le_refl i),
    fun j hj => classSize_mono i j ((hmin j).1 hj), ⟨v.page, hal, ?_, by omega, by omega⟩, fun o ho => ?_⟩
  · obtain ⟨r, c, log, hr, ⟨b, rfl, hb⟩, -⟩ := (Slab.owns_ends (hW.caches i) v.page).trace
    rw [hr, hb.2 ⟨v, hv, rfl⟩]
  · have hold := (hlive o).1 ho
    have ho' : o.start ∈ objectsOf (Function.update V i ws) o.sizeClass := by
      by_cases hj : o.sizeClass = i
      · rw [hj] at hold ⊢
        rw [hself, hws]
        exact Set.mem_insert_of_mem _ hold
      · rwa [objectsOf_update_of_ne V ws hj]
    refine hW.disjoint_objects hx ho' fun he => ?_
    have hj := hW.class_eq_of_objects hx (he ▸ ho')
    rw [← hj, ← he] at hold
    exact hnew hold

/-- A session answers as it should as long as its invariant holds. -/
theorem answers_of_kept (h : s.Kept E) (q : Request) (hq : s.Permits q) : s.Answers q := by
  obtain ⟨p, V, hV, hlive⟩ := h
  cases q with
  | allocate size =>
    obtain ⟨r, t, log, ht, ha⟩ := (allocate_ends hV size).trace
    simp only [Answers, ht]
    rcases ha with ⟨e, he, rfl, rfl⟩ | ⟨i, hi, qs, ws, hturn, ⟨x, rfl, hnew, hws⟩ | ⟨-, hr⟩⟩
    · rcases classFor_eq_error he with ⟨h0, rfl⟩ | ⟨-, rfl⟩
      · exact ⟨nofun, nofun, fun _ => h0⟩
      · exact ⟨nofun, nofun, nofun⟩
    · exact separated_of_turns hlive hturn hi hnew hws
    · rcases hr with rfl | rfl | ⟨rfl, -⟩
      · exact ⟨nofun, nofun, nofun⟩
      · exact ⟨nofun, nofun, nofun⟩
      · exact rfl
  | free x =>
    obtain ⟨o, ho, rfl⟩ := hq
    obtain ⟨r, t, log, ht, ⟨i, -, rfl, -⟩ | ⟨hno, -⟩⟩ := (free_ends hV o.start).trace
    · rw [Answers, ht]
    · exact absurd ((hlive o).1 ho) (hno _)
  | shrink =>
    obtain ⟨r, t, log, ht, rfl, -⟩ := (shrink_ends hV).trace
    exact ⟨_, by rw [ht]⟩
  | write a bytes => trivial

/-! ## Runs -/

theorem kept_run {qs : List Request} (h : s.Kept E) (hqs : s.Permitted qs) : (s.run qs).Kept E := by
  unfold run
  induction qs generalizing s with
  | nil => exact h
  | cons q qs ih => exact ih (kept_step h q hqs.1) hqs.2

/-- What a heap is opened over: a pool that came out of some memory map and some requests, whose bitmap is no part of a
free frame, and a mapper that shows the usable frames, each at a page of its own and none at the null address. -/
structure Opens (rs : List Region) (mapper : Mapper) (a : Arena) : Prop where
  pool : ∃ b l qs, (Pool.create rs b).result = .ok l ∧
    a.pool? = some ((l.withBitmap (Pool.create rs b).state).after qs)
  home : ∀ h ∈ a.pool, h.home.Fits
  apart : ∀ h ∈ a.pool, ∀ p ∈ a.pool?, ∀ f, p.Free f → Disjoint (pageAt (mapper.page f)) h.home.bytes
  mapped : ∀ r ∈ rs, r.kind = .usable → ∀ f ≠ 0, r.base.raw.toNat ≤ f * 4096 → f * 4096 + 4096 ≤ r.stop →
    mapper.Shows f ∧ mapper.toPhys (mapper.toVirt ⟨Align.frameStart f⟩) = ⟨Align.frameStart f⟩

/-- What a heap needs of the mapper if it may show some frames only: those that it shows it leads back to, and the bitmap
is no part of the free ones among them. Nothing is asked of a frame that is visible at the null address, or at none of a
page. -/
structure Founded (rs : List Region) (mapper : Mapper) (a : Arena) : Prop where
  pool : ∃ b l qs, (Pool.create rs b).result = .ok l ∧
    a.pool? = some ((l.withBitmap (Pool.create rs b).state).after qs)
  home : ∀ h ∈ a.pool, h.home.Fits
  apart : ∀ h ∈ a.pool, ∀ p ∈ a.pool?, ∀ f, p.Free f → mapper.Shows f →
    Disjoint (pageAt (mapper.page f)) h.home.bytes
  back : ∀ r ∈ rs, r.kind = .usable → ∀ f ≠ 0, r.base.raw.toNat ≤ f * 4096 → f * 4096 + 4096 ≤ r.stop →
    mapper.Shows f → mapper.toPhys (mapper.toVirt ⟨Align.frameStart f⟩) = ⟨Align.frameStart f⟩

theorem Opens.founded {rs : List Region} {mapper : Mapper} {a : Arena} (h : Opens rs mapper a) :
    Founded rs mapper a where
  pool := h.pool
  home := h.home
  apart := fun k hk p hp f hf _ => h.apart k hk p hp f hf
  back := fun r hr hkind f h0 h1 h2 _ => (h.mapped r hr hkind f h0 h1 h2).2

/-- The pool supplies a heap with frames of usable regions that are apart from the bitmap where they are shown, if its
free frames are among them. -/
theorem Founded.supplies {rs : List Region} {mapper : Mapper} {a : Arena} (h : Founded rs mapper a) : ∃ k p,
    a.pool = some k ∧ p.Sound rs ∧ a.pool? = some p ∧ ∀ F : Set Nat, (∀ f, p.Free f → f ∈ F) →
      (∀ f ∈ F, f ≠ 0 ∧ p.Usable f ∧ (mapper.Shows f → Disjoint (pageAt (mapper.page f)) k.home.bytes)) →
      Supplies ⟨rs, mapper, F, k.home.bytes⟩ a p := by
  obtain ⟨b, l, qs, hc, hp⟩ := h.pool
  have hsound := (Frame.Session.kept_run hc qs).sound
  rw [Frame.Session.pool_run] at hsound
  change Pool.Sound ((l.withBitmap (Pool.create rs b).state).after qs) rs at hsound
  generalize (l.withBitmap (Pool.create rs b).state).after qs = p at hp hsound
  obtain ⟨k, hk, hkp⟩ := Option.map_eq_some_iff.1 hp
  refine ⟨k, p, hk, hsound, hp, fun F hfree hF => ?_⟩
  exact {
    keeps := ⟨k, hk, h.home k hk, rfl, hkp⟩
    sound := hsound
    circulates := {
      small := fun f hf => (hF f hf).2.1.lt hsound.charts
      back := fun f hf hshow => by
        obtain ⟨h0, hu, -⟩ := hF f hf
        obtain ⟨r, hr, hkind, h1, h2⟩ := hu.region hsound.charts
        exact h.back r hr hkind f h0 h1 h2 hshow
      apart := fun f hf hshow => (hF f hf).2.2 hshow }
    usable := fun f hf => ⟨(hF f hf).1, (hF f hf).2.1⟩
    free := hfree }

theorem kept_start {rs : List Region} {mapper : Mapper} {a : Arena} (h : Opens rs mapper a) :
    ∃ E, (start a mapper).Kept E := by
  obtain ⟨k, p, hk, hsound, hp, hsup⟩ := h.founded.supplies
  have hfree := hsup {f | p.Free f} (fun f => id) fun f hf =>
    ⟨(hf.clear hsound).1, (hf.clear hsound).2, fun _ => h.apart k hk p hp f hf⟩
  exact ⟨_, p, _, stands_empty hfree, fun o => by simp [start, objects]⟩

/-- **Every session** with a heap, of any length: what is handed out is an aligned block of the smallest class, behind the
header of a slab and apart from all that clients hold, and what clients hold is taken back. -/
theorem separates_run {rs : List Region} {mapper : Mapper} {a : Arena} (h : Opens rs mapper a) (qs : List Request)
    (q : Request) (hqs : (start a mapper).Permitted qs) (hq : ((start a mapper).run qs).Permits q) :
    ((start a mapper).run qs).Answers q := by
  obtain ⟨E, hE⟩ := kept_start h
  exact answers_of_kept (kept_run hE hqs) q hq

/-- Blank memory under a pool of four frames. -/
def fourFrames : Arena :=
  ⟨.blank, (Pool.create Frame.Session.fourFrames ⟨#[0]⟩).result.toOption.map fun l =>
    ⟨l, .apart (Pool.create Frame.Session.fourFrames ⟨#[0]⟩).state⟩, true⟩

theorem opens_fourFrames : Opens Frame.Session.fourFrames .identity fourFrames where
  pool := ⟨⟨#[0]⟩, _, [], rfl, rfl⟩
  home := by
    rintro h ⟨rfl⟩
    trivial
  apart := by
    rintro h ⟨rfl⟩ p - f -
    exact Set.disjoint_empty _
  mapped := by
    rintro r hr - f h0 h1 h2
    obtain rfl := List.mem_singleton.1 hr
    have hstop : Region.stop (.usable ⟨0⟩ 0x4000) = 0x4000 := rfl
    have hf : (Align.frameStart f).toNat = f * 4096 := Align.toNat_frameStart (by omega)
    refine ⟨⟨?_, fun hz => ?_⟩, rfl⟩
    · show (Align.frameStart f).toNat % 4096 = 0
      omega
    · have hz : Align.frameStart f = 0 := hz
      rw [hz, UInt64.toNat_zero] at hf
      omega

theorem allocate_fourFrames : (Heap.allocate 2000 (start fourFrames .identity).site).result = .ok 0x1030 := by
  decide +kernel

/-- An object is handed out, made to look like a slab, and taken back. -/
theorem separates_fourFrames : (((start fourFrames .identity).run
    [.allocate 2000, .write 0x1030 (Memory.wordBytes Layout.slabMagic), .free 0x1030]).Answers (.allocate 16)) := by
  have hlive : ⟨0x1030, ⟨7, by decide⟩⟩ ∈ ((start fourFrames .identity).step (.allocate 2000)).live := by
    rw [step, allocate_fourFrames]
    exact Set.mem_insert _ _
  refine separates_run opens_fourFrames _ _ ⟨trivial, ⟨_, hlive, ?_⟩, ⟨_, hlive, rfl⟩, trivial⟩ trivial
  rw [Object.bytes, Memory.length_wordBytes]
  exact Memory.block_mono (by decide)

end Session

end Keel.Heap
