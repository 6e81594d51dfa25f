import Keel.Proofs.Frame.Returns
import Keel.Proofs.Heap.Blocks

/-!
# Requests that get no block

A request that gets no block should leave everything as it was: the bitmap and the counts of the pool, the caches of the
heap, and memory. Only the count of failed requests is no part of that (`Pool.books`, `Spared`). The state before is any
with a pool that has served requests, or with none (`Ground.Served`); nothing is known of the heap, of its slabs, of
memory or of the mapper.
- A walk that takes no cell has written nothing (`popFrom_unmoved`).
- A slab that cannot be carved costs nothing: a frame that is visible nowhere usable goes back, and then the pool is
  what it was (`Sound.books_return`, `carve_spares`). Once a slab is carved, nothing fails any more (`popFresh_serves`).
- So the heap spares everything where it hands out no object (`Ground.allocate_spares`).

The route of whole frames takes the frame first and asks the heap afterwards. If there is no heap, or the mapper shows
the frame at the null address, nobody gets the frame and it stays taken (`Strands`, `takeFrame_cases`). These are
exactly the requests that get no block and cost something (**`alloc_spares_iff`**).
-/

namespace Keel

open Keel.Memory (Alters)
open Keel.Frame (Bitmap Pool Request)
open Keel.Action (Ends)

attribute [local irreducible] Memory.word

variable {rs : List Region} {p : Pool} {i : Nat}

/-! ## The pool -/

namespace Frame.Pool

/-- What a request that fails should leave as it was. -/
def books (p : Pool) : Bitmap × Nat × Nat := (p.bitmap, p.usedFrames, p.freeFrames)

/-- Without a free frame a request leaves the books as they were. -/
theorem Sound.books_exhausted (h : p.Sound rs) (hs : p.scan = none) : (p.after [.alloc]).books = p.books := by
  show (Request.on p .alloc).books = p.books
  rcases alloc_of_scan_none h hs with ⟨-, -, hq⟩ | ⟨-, -, hq⟩
  · rw [Request.on, hq]
    rfl
  · rw [Request.on, hq]

/-- A frame that is handed out and given back leaves the books as they were. -/
theorem Sound.books_return (h : p.Sound rs) (hs : p.scan = some i) :
    (p.after [.alloc, .release ⟨Align.frameStart (p.base + i)⟩]).books = p.books := by
  show (release _ (alloc p).state).state.books = p.books
  rw [(h.undoes hs).2]
  rfl

end Frame.Pool

/-! ## Arenas -/

namespace Arena

variable {s t u : Arena}

/-- The addresses at which the bitmap of the pool is kept, if there is one. -/
def bitmapBytes (s : Arena) : Set Ptr := s.pool.elim ∅ fun h => h.home.bytes

/-- `t` differs from `s` in the count of failed requests at most. -/
structure Spared (s t : Arena) : Prop where
  books : t.pool?.map Pool.books = s.pool?.map Pool.books
  memory : Alters s.bitmapBytes s.memory t.memory

theorem Spared.refl (s : Arena) : s.Spared s := ⟨rfl, Alters.refl _ _⟩

/-- The pool, if there is one, has served requests since it was opened. -/
def Served (s : Arena) : Prop :=
  ∀ h, s.pool = some h → h.home.Fits ∧ ∃ rs b l qs, (Pool.create rs b).result = .ok l ∧
    h.ledger.withBitmap (h.home.load s.memory) = (l.withBitmap (Pool.create rs b).state).after qs

/-- Such a pool has sound books. -/
theorem Served.keeps (hs : s.Served) {h : HousedPool} (hpool : s.pool = some h) :
    ∃ p rs, p.Sound rs ∧ s.Keeps p s.bitmapBytes := by
  obtain ⟨hfits, rs, b, l, qs, hc, hp⟩ := hs h hpool
  have hsound := (Frame.Session.kept_run hc qs).sound
  rw [Frame.Session.pool_run] at hsound
  exact ⟨_, rs, hsound, h, hpool, hfits, by rw [bitmapBytes, hpool]; rfl, hp⟩

theorem Keeps.spared {q : Pool} (hs : s.Keeps p s.bitmapBytes) (ht : s.Becomes t q s.bitmapBytes ∅)
    (hbooks : q.books = p.books) : s.Spared t where
  books := by rw [ht.keeps.pool?, hs.pool?, Option.map_some, Option.map_some, hbooks]
  memory := by simpa using ht.alters

end Arena

/-! ## Slabs -/

namespace Slab

variable {α : Type} {s : Arena} {mapper : Mapper} {c n : Nat}

/-- Where no cell is answered, the arena is as it was. -/
def Unmoved (s : Arena) (r : Checked Fault (Option Ptr)) (t : Arena) : Prop :=
  (∃ f, r = .error (.fault f)) ∨ r = .ok none → t = s

theorem Unmoved.halt {t : Arena} (h : Halt) : Unmoved s (.error (.halt h)) t := by
  rintro (⟨f, hf⟩ | hr)
  · cases hf
  · cases hr

theorem Unmoved.some {t : Arena} (cell : Ptr) : Unmoved s (.ok (some cell)) t := by
  rintro (⟨f, hf⟩ | hr)
  · cases hf
  · cases hr

/-- A slab from which no cell is taken is as it was. -/
theorem pop_unmoved (slab : Ptr) (s : Arena) : (pop slab).Ends s (Unmoved s) := by
  unfold pop
  rw [Action.ends_bind, verify_ends]
  split
  · rw [Action.goes_ok, Action.ends_bind, Arena.ends_word, Action.goes_ok, Action.ends_ite]
    split
    · exact fun _ => rfl
    · rw [Action.ends_bind, Arena.ends_word, Action.goes_ok, Action.ends_ite]
      split
      · exact fun _ => rfl
      · -- From here on the cell is taken, and only the count of free cells can still stop that.
        simp only [Action.ends_bind, Arena.ends_word, Arena.ends_setWord, Action.goes_ok, Action.ends_lift]
        rw [Count.sub]
        split
        · simp only [Action.ends_bind, Arena.ends_setWord, Arena.ends_word, Arena.ends_write, Action.ends_get,
            Action.ends_pure, Action.ends_ite, Action.goes_ok]
          split
          · exact .some _
          · exact .some _
        · exact .halt _
  · exact fun _ => rfl

/-- A walk that takes no cell has written nothing. -/
theorem popFrom_unmoved (n : Nat) (slab : Ptr) (s : Arena) : (Cache.popFrom n slab).Ends s (Unmoved s) := by
  induction n generalizing slab with
  | zero => exact .halt _
  | succ n ih =>
    rw [Cache.popFrom, Action.ends_ite]
    split
    · exact fun _ => rfl
    · refine (pop_unmoved slab s).bind fun r t h => ?_
      rcases r with (f | e) | cell
      · rw [Action.goes_error]
        exact fun _ => h (.inl ⟨f, rfl⟩)
      · exact .halt e
      · rw [Action.goes_ok]
        cases cell with
        | some cell => exact .some cell
        | none =>
          obtain rfl := h (.inr rfl)
          exact ih _

/-- A free frame that is visible as a page becomes a slab with free cells only, wherever the bitmap is kept. -/
theorem carve_formats {B : Set Ptr} (h : s.Keeps p B) (hs : p.Sound rs) (hc : CellSize c) (hscan : p.scan = some i)
    (hshow : mapper.Shows (p.base + i)) : (carve mapper c).Ends s fun r t =>
      r = .ok (mapper.page (p.base + i)) ∧ Holds t.memory (mapper.page (p.base + i)) c 0 (allCells c) := by
  unfold carve
  rw [Action.ends_ite, if_neg (by simp [isCellSize_iff.2 hc])]
  refine (Arena.allocFrame_ends h hs ∅).bind ?_
  rintro r t ⟨rfl, -⟩
  rw [(hs.free_alloc hscan).1, Action.goes_ok, Action.ends_ite,
    if_neg (mt (Mapper.refuses_iff mapper _).1 (not_not.2 hshow)), Action.ends_bind, Action.ends_lift, hc.capacityFor,
    Action.goes_ok, Action.ends_bind, Arena.ends_write, Action.goes_ok, Action.ends_bind, Action.ends_note,
    Action.goes_ok, Action.ends_pure]
  exact ⟨rfl, holds_format hc hshow.1 hshow.2⟩

/-- A slab that cannot be carved costs nothing, and one that is carved has only free cells. -/
theorem carve_spares (hs : s.Served) (mapper : Mapper) (c : Nat) : (carve mapper c).Ends s fun r t =>
    (∀ f, r = .error (.fault f) → s.Spared t) ∧
      ∀ slab, r = .ok slab → CellSize c ∧ Holds t.memory slab c 0 (allCells c) := by
  by_cases hc : CellSize c
  · cases hpool : s.pool with
    | none =>
      unfold carve
      rw [Action.ends_ite, if_neg (by simp [isCellSize_iff.2 hc]), Action.ends_bind, Arena.allocFrame]
      unfold Action.Ends
      rw [Arena.onPool_of_none hpool]
      exact ⟨fun _ _ => .refl s, nofun⟩
    | some h =>
      obtain ⟨p, rs, hsound, hkeeps⟩ := hs.keeps hpool
      cases hscan : p.scan with
      | none =>
        refine (carve_none hkeeps hsound hc hscan).mono ?_
        rintro r t ⟨hr, ht⟩
        refine ⟨fun _ _ => hkeeps.spared ht (hsound.books_exhausted hscan), ?_⟩
        rintro slab rfl
        rcases hr with ⟨-, hr⟩ | ⟨-, hr⟩ <;> cases hr
      | some i =>
        by_cases hshow : mapper.Shows (p.base + i)
        · refine (carve_formats hkeeps hsound hc hscan hshow).mono ?_
          rintro r t ⟨rfl, hholds⟩
          refine ⟨nofun, fun slab hslab => ?_⟩
          cases hslab
          exact ⟨hc, hholds⟩
        · refine (carve_bad hkeeps hsound hc hscan hshow).mono ?_
          rintro r t ⟨rfl, ht⟩
          exact ⟨fun _ _ => hkeeps.spared ht (hsound.books_return hscan), nofun⟩
  · unfold carve
    rw [Action.ends_ite, if_pos (by simpa using mt isCellSize_iff.1 hc)]
    exact ⟨fun _ _ => .refl s, nofun⟩

/-- Counting a cell as taken may overflow and does not fail. -/
theorem countTaken_serves (a : Arena) (k : Cache) :
    Cache.countTaken.Ends ⟨a, k⟩ fun r _ => ∀ f, r ≠ .error (.fault f) := by
  unfold Cache.countTaken
  rw [Action.ends_bind, Action.ends_get, Action.goes_ok]
  refine Ends.lift_bind (fun n _ => nofun) fun e he f hf => ?_
  rw [Count.add] at he
  split at he
  · cases he
  · cases he
    cases hf

/-- Once a slab is carved, its first cell is taken, or a count overflows. -/
theorem popFresh_serves {a : Arena} {slab : Ptr} (hc : CellSize c) (h : Holds a.memory slab c 0 (allCells c))
    (k : Cache) : Action.Ends (do
      Cache.inArena (Arena.setWord (slab + nextField) k.first)
      Cache.update fun c => { c with first := slab }
      let slabCount ← Action.lift (Count.add k.slabCount 1)
      Cache.update fun c => { c with slabCount }
      let cell ← Action.ofOption .badAlloc (← Cache.inArena (pop slab))
      Cache.countTaken
      return cell) ⟨a, k⟩ fun r _ => ∀ f, r ≠ .error (.fault f) := by
  rw [Action.ends_bind, Cache.ends_inArena, Arena.ends_setWord, Action.goes_ok, Action.ends_bind, Cache.ends_update,
    Action.goes_ok]
  refine Ends.lift_bind (fun n _ => ?_) fun e he f hf => ?_
  · have hnext := h.setNext hc k.first
    rw [allCells_eq hc] at hnext
    rw [Action.ends_bind, Cache.ends_update, Action.goes_ok, Action.ends_bind, Cache.ends_inArena]
    refine (pop_cons hnext hc).mono ?_
    rintro r t ⟨rfl, -⟩
    rw [Action.goes_ok, Action.ends_bind, Action.ends_some, Action.goes_ok]
    refine (countTaken_serves t _).bind fun r t hr => ?_
    rcases r with (f | e) | u
    · exact absurd rfl (hr f)
    · exact nofun
    · exact nofun
  · rw [Count.add] at he
    split at he
    · cases he
    · cases he
      cases hf

/-- A cache that hands out no cell is as it was, and its arena is spared. -/
theorem allocate_spares {a : Arena} (ha : a.Served) (k : Cache) (mapper : Mapper) :
    (Cache.allocate mapper).Ends ⟨a, k⟩ fun r s =>
      ∀ f, r = .error (.fault f) → s.cache = k ∧ a.Spared s.arena := by
  unfold Cache.allocate
  rw [Action.ends_bind, Action.ends_get, Action.goes_ok, Action.ends_bind, Cache.ends_inArena]
  refine (popFrom_unmoved _ _ a).mono fun r t h => ?_
  rcases r with (f | e) | _ | cell
  · obtain rfl := h (.inl ⟨f, rfl⟩)
    rw [Action.goes_error]
    exact fun _ _ => ⟨rfl, .refl _⟩
  · rw [Action.goes_error]
    exact nofun
  · obtain rfl := h (.inr rfl)
    rw [Action.goes_ok, Action.ends_bind, Cache.ends_inArena]
    refine (carve_spares ha mapper k.cellSize).mono ?_
    rintro r u ⟨hfault, hok⟩
    cases r with
    | error e =>
      rw [Action.goes_error]
      exact fun f hf => ⟨rfl, hfault f (by simpa using hf)⟩
    | ok slab =>
      obtain ⟨hc, hholds⟩ := hok slab rfl
      rw [Action.goes_ok]
      exact (popFresh_serves hc hholds k).mono fun r s hr f hf => absurd hf (hr f)
  · rw [Action.goes_ok]
    refine (countTaken_serves t k).bind fun r s hr => ?_
    rcases r with (f | e) | u
    · exact absurd rfl (hr f)
    · exact nofun
    · exact nofun

end Slab

/-! ## The heap -/

namespace Ground

variable {g : Ground}

/-- `g'` differs from `g` in the count of failed requests at most: the heap is the same, and so are pool and memory. -/
structure Spared (g g' : Ground) : Prop where
  heap : g'.heap = g.heap
  arena : g.arena.Spared g'.arena

theorem Spared.refl (g : Ground) : g.Spared g := ⟨rfl, .refl _⟩

/-- The pool, if it has been started, has served requests since; nothing is asked of the heap. -/
def Served (g : Ground) : Prop := g.arena.Served

/-- The map of a heap is found where there is a heap. -/
theorem ends_heapMapper {heap : Heap} (h : g.heap = some heap) {Q : Checked Fault Mapper → Ground → Prop} :
    heapMapper.Ends g Q ↔ Q (.ok heap.mapper) g := by
  obtain ⟨a, _⟩ := g
  obtain rfl := h
  rfl

/-- An object that is not handed out leaves heap and arena as they were. -/
theorem allocate_spares (hg : g.Served) (size : Nat) : (allocate size).Ends g fun r g' =>
    ∀ f, r = .error (.fault f) → g.Spared g' := by
  obtain ⟨a, heap⟩ := g
  cases heap with
  | none =>
    unfold Action.Ends allocate
    rw [onHeap_of_none rfl]
    exact fun _ _ => .refl _
  | some heap =>
    rw [allocate, ends_onHeap rfl, Heap.allocate]
    refine Ends.lift_bind (fun i _ => ?_) fun e _ _ _ => .refl _
    rw [Action.ends_bind, Action.ends_get, Action.goes_ok]
    refine Heap.ends_onCache.2 ((Slab.allocate_spares hg heap.caches[i] heap.mapper).mono fun r c hc f hf => ?_)
    obtain ⟨hcache, harena⟩ := hc f hf
    obtain ⟨u, k⟩ := c
    obtain rfl : k = heap.caches[i] := hcache
    exact ⟨by simp [Heap.cachePart], harena⟩

end Ground

/-! ## Whole frames -/

namespace Allocator

open Ground (Served Spared)
open Layout (Block)
open Session (answered ends_alloc)

variable {g : Ground} {l : Block}

/-- A frame is free, and it is visible nowhere: there is no heap to ask for its address, or the address is null. -/
def Loses (g : Ground) : Prop :=
  ∃ p i, g.arena.pool? = some p ∧ p.scan = some i ∧
    ∀ heap, g.heap = some heap → (heap.mapper.toVirt ⟨Align.frameStart (p.base + i)⟩).isNull = true

/-- The pool has one free frame less. -/
def Short (g g' : Ground) : Prop :=
  ∃ p q, g.arena.pool? = some p ∧ g'.arena.pool? = some q ∧ q.usedFrames = p.usedFrames + 1 ∧
    q.freeFrames + 1 = p.freeFrames

theorem Short.not_spared {g' : Ground} (h : Short g g') : ¬ Spared g g' := by
  rintro ⟨-, hbooks, -⟩
  obtain ⟨p, q, hp, hq, hused, -⟩ := h
  rw [hp, hq] at hbooks
  have hsame : q.usedFrames = p.usedFrames := congrArg (fun b => b.2.1) (Option.some.inj hbooks)
  omega

/-- A request for a frame that is lost fails and leaves the frame taken. One that fails otherwise spares everything. -/
theorem takeFrame_cases (hg : Served g) : takeFrame.Ends g fun r g' =>
    (Loses g ∧ (∃ f, r = .error (.fault f)) ∧ Short g g') ∨
      (¬ Loses g ∧ ∀ f, r = .error (.fault f) → Spared g g') := by
  obtain ⟨a, heap⟩ := g
  unfold takeFrame
  rw [Action.ends_bind, Ground.ends_inArena]
  cases hpool : a.pool with
  | none =>
    unfold Action.Ends Arena.allocFrame
    rw [Arena.onPool_of_none hpool]
    refine .inr ⟨fun hloses => ?_, fun _ _ => .refl _⟩
    obtain ⟨p, i, hp, -⟩ := hloses
    simp [Arena.pool?, hpool] at hp
  | some h =>
    obtain ⟨p, rs, hsound, hkeeps⟩ := hg.keeps hpool
    have hloses : ∀ {i}, p.scan = some i → (Loses ⟨a, heap⟩ ↔
        ∀ k, heap = some k → (k.mapper.toVirt ⟨Align.frameStart (p.base + i)⟩).isNull = true) := by
      intro i hscan
      constructor
      · rintro ⟨q, j, hq, hj, hnull⟩
        cases hkeeps.pool?.symm.trans hq
        cases hscan.symm.trans hj
        exact hnull
      · exact fun hnull => ⟨p, i, hkeeps.pool?, hscan, hnull⟩
    refine (Arena.allocFrame_ends hkeeps hsound ∅).mono ?_
    rintro r t ⟨rfl, ht⟩
    cases hscan : p.scan with
    | none =>
      have hspared : Spared ⟨a, heap⟩ ⟨t, heap⟩ := ⟨rfl, hkeeps.spared ht (hsound.books_exhausted hscan)⟩
      have hkept : ¬ Loses ⟨a, heap⟩ := by
        rintro ⟨q, j, hq, hj, -⟩
        cases hkeeps.pool?.symm.trans hq
        cases hscan.symm.trans hj
      rcases (hsound.free_alloc_none hscan).1 with hr | ⟨hr, -⟩
      · rw [hr]
        exact .inr ⟨hkept, fun _ _ => hspared⟩
      · rw [hr]
        exact .inr ⟨hkept, by simp⟩
    | some i =>
      obtain ⟨-, -, -, hused, hfree, -⟩ := Pool.alloc_of_scan hsound hscan
      have hshort : ∀ heap', Short ⟨a, heap⟩ ⟨t, heap'⟩ := fun _ =>
        ⟨p, _, hkeeps.pool?, ht.keeps.pool?, hused, hfree⟩
      rw [(hsound.free_alloc hscan).1, Action.goes_ok, hloses hscan]
      cases heap with
      | none => exact .inl ⟨by simp, ⟨_, rfl⟩, hshort none⟩
      | some k =>
        rw [Action.ends_bind, Ground.ends_heapMapper rfl, Action.goes_ok, Action.ends_ite]
        split
        · rename_i hnull
          refine .inl ⟨?_, ⟨_, rfl⟩, hshort (some k)⟩
          rintro k' ⟨⟩
          exact hnull
        · rename_i hseen
          refine .inr ⟨fun hnull => hseen (hnull k rfl), fun f hf => ?_⟩
          cases hf

/-! ## Blocks of any layout -/

/-- The layout is served by whole frames, and the next frame is lost. -/
def Strands (g : Ground) (l : Block) : Prop := l.fitsHeap = false ∧ l.fitsFrame = true ∧ Loses g

/-- A layout is served, or it fails and spares everything, or a frame is lost. -/
theorem serve_cases (hg : Served g) (l : Block) : (serve l).Ends g fun r g' =>
    (Strands g l ∧ (∃ f, r = .error (.fault f)) ∧ Short g g') ∨
      (¬ Strands g l ∧ ∀ f, r = .error (.fault f) → Spared g g') := by
  unfold serve
  cases hheap : l.fitsHeap with
  | true =>
    rw [if_pos rfl]
    exact (Ground.allocate_spares hg _).mono fun r g' hr => .inr ⟨fun h => by simp [Strands, hheap] at h, hr⟩
  | false =>
    rw [if_neg Bool.false_ne_true]
    cases hframe : l.fitsFrame with
    | true =>
      rw [if_pos rfl]
      refine (takeFrame_cases hg).mono fun r g' hr => ?_
      simpa [Strands, hheap, hframe] using hr
    | false =>
      rw [if_neg Bool.false_ne_true]
      exact .inr ⟨fun h => by simp [Strands, hframe] at h, fun _ _ => .refl g⟩

/-- No block is answered exactly where the layout was not served for a fault. -/
theorem answered_eq_none {r : Checked Fault Ptr} : answered r = .ok none ↔ ∃ f, r = .error (.fault f) := by
  rcases r with (f | e) | x <;> simp [answered]

/-- A request is refused at the cost of a frame where it strands one, and spares everything where it does not. -/
theorem alloc_cases (hg : Served g) (l : Block) : (alloc l).Ends g fun r g' =>
    (Strands g l ∧ r = .ok none ∧ Short g g') ∨ (¬ Strands g l ∧ (r = .ok none → Spared g g')) := by
  refine ends_alloc.2 ((serve_cases hg l).mono fun r g' hr => ?_)
  rw [answered_eq_none]
  refine hr.imp_right fun h => ⟨h.1, ?_⟩
  rintro ⟨f, hf⟩
  exact h.2 f hf

/-- **A request that gets no block leaves the bitmap and the counts of the pool, the heap and all other memory as they
were, unless it takes a whole frame that the heap cannot show: then that frame is gone.** -/
theorem alloc_spares_iff (hg : Served g) (l : Block) :
    ((alloc l g).result = .ok none → Spared g (alloc l g).state) ↔ ¬ Strands g l := by
  rcases alloc_cases hg l with ⟨hstrands, hnone, hshort⟩ | ⟨hkept, hspared⟩
  · exact iff_of_false (fun h => hshort.not_spared (h hnone)) (not_not_intro hstrands)
  · exact iff_of_true hspared hkept

/-! ## A pool without a heap -/

/-- Four frames, and no heap yet. -/
def poolOnly : Ground := ⟨Heap.Session.fourFrames, none⟩

theorem served_poolOnly : Served poolOnly := by
  rintro h ⟨rfl⟩
  exact ⟨trivial, Frame.Session.fourFrames, ⟨#[0]⟩, _, [], rfl, rfl⟩

/-- An object that is asked for before the heap is started costs nothing. -/
theorem spared_poolOnly : Served poolOnly ∧
    ((alloc ⟨64, 8⟩ poolOnly).result = .ok none → Spared poolOnly (alloc ⟨64, 8⟩ poolOnly).state) :=
  ⟨served_poolOnly, (alloc_spares_iff served_poolOnly ⟨64, 8⟩).2 fun h => Bool.noConfusion h.1⟩

/-- Asking for a page before the heap is started strands a frame. -/
theorem strands_poolOnly : Strands poolOnly ⟨4096, 8⟩ := ⟨rfl, rfl, _, 1, rfl, by decide, nofun⟩

/-- Not every request that gets no block spares the pool. -/
theorem not_spared_poolOnly : ¬ ∀ g, Served g → ∀ l : Block, (alloc l g).result = .ok none →
    Spared g (alloc l g).state := by
  intro hspares
  rcases alloc_cases served_poolOnly ⟨4096, 8⟩ with ⟨-, hnone, hshort⟩ | ⟨hkept, -⟩
  · exact hshort.not_spared (hspares _ served_poolOnly _ hnone)
  · exact hkept strands_poolOnly

end Allocator

end Keel
