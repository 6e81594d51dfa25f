import Keel.Proofs.Heap.Accounts
import Keel.Proofs.Heap.Partial
import Keel.Proofs.Heap.Refusals
import Keel.Proofs.Heap.Supply

/-!
# What a heap answers to a request

A request that no slab can serve is one for a frame, and it fails where no frame is free, or where the mapper shows the
lowest free one nowhere usable. Each failure is told from the others by the state before it, whatever the mapper
(`Denied`), and it changes nothing but the count of failed requests or the hint of the pool (`Rebooks`):
- the pool either has no frame (`carve_none`), or gets its frame back (`carve_bad`), and the bitmap that was written on
  the way is the old one again (`carve_denied`);
- if the frame is visible as a page, the fresh slab has a cell and no count overflows (`allocate_shown`);
- so a cache answers by its slabs and by the next frame alone (`Slab.allocate_deals`), and so does the heap
  (`Heap.allocate_deals`).

`dispenses_run` reads the answers off what clients and the pool know, in every session.
-/

namespace Keel

open Keel.Frame (Pool)
open Keel.Memory (Alters)
open Keel.Slab (Estate View)

attribute [local irreducible] Memory.word

variable {rs : List Region} {p q : Pool} {B : Set Ptr} {mp : Mapper} {c k : Nat}

/-! ## The pool -/

namespace Frame.Pool

/-- A request for a frame of the pool `p` that becomes a slab under `mp` is denied with `e`, and leaves the pool `q`: no
frame is free, which the pool counts or cannot count, or the lowest free one is visible nowhere usable. -/
def Denied (p : Pool) (mp : Mapper) (e : Failure Fault) (q : Pool) : Prop :=
  (p.scan = none ∧ ¬p.Saturated ∧ e = .fault .tooMany ∧ q = { p with failures := p.failures + 1 }) ∨
  (p.scan = none ∧ p.Saturated ∧ e = .halt .addOverflow ∧ q = p) ∨
  ∃ i, p.scan = some i ∧ ¬mp.Shows (p.base + i) ∧ e = .fault .badAlloc ∧ q = { p with hint := i }

/-- Of a pool that denies a request only the hint changes, or the count of failed requests grows by one. -/
theorem Denied.rebooked {e : Failure Fault} (h : p.Denied mp e q) : ∃ n k, q = { p with failures := n, hint := k } ∧
    (n = p.failures ∨ n = p.failures + 1 ∧ e = .fault .tooMany) := by
  rcases h with ⟨-, -, he, hq⟩ | ⟨-, -, -, hq⟩ | ⟨i, -, -, -, hq⟩
  · exact ⟨_, _, hq, .inr ⟨rfl, he⟩⟩
  · exact ⟨_, _, hq, .inl rfl⟩
  · exact ⟨_, _, hq, .inl rfl⟩

/-- A frame that is handed out and given back leaves the pool as it was, but for the hint. -/
theorem Sound.after_return (h : p.Sound rs) {i : Nat} (hs : p.scan = some i) :
    p.after [.alloc, .release ⟨Align.frameStart (p.base + i)⟩] = { p with hint := i } := (h.undoes hs).2

end Frame.Pool

/-! ## Arenas -/

namespace Arena

variable {s t : Arena}

/-- `t` is `s`, byte for byte, with the pool `q`. -/
structure Rebooks (s t : Arena) (q : Pool) : Prop where
  pool : t.pool? = some q
  alters : Alters ∅ s.memory t.memory
  poison : t.poison = s.poison

theorem Keeps.rebooks (hs : s.Keeps p B) (ht : s.Becomes t q B ∅) (hplace : SamePlace s t) (hb : q.bitmap = p.bitmap) :
    s.Rebooks t q where
  pool := ht.keeps.pool?
  alters := hs.alters_empty ht.keeps hplace (by simpa using ht.alters) hb
  poison := ht.poison

end Arena

/-! ## Caches -/

namespace Slab

open Keel.Action (Steps steps_fail steps_lift steps_note steps_pure)

/-- Carving a slab leaves the bitmap where it is. -/
theorem steps_carve (mp : Mapper) (c : Nat) : Steps Arena.SamePlace (carve mp c) := by
  have hcut : ∀ pa, Steps Arena.SamePlace (do
      let capacity ← Action.lift (capacityFor c)
      Arena.write (format (mp.toVirt pa).raw c capacity)
      Action.note (carvedLine capacity c (mp.toVirt pa) pa)
      return (mp.toVirt pa).raw) := fun pa =>
    (steps_lift _).bind fun _ => (Arena.steps_write _).bind fun _ => (steps_note _).bind fun _ => steps_pure _
  unfold carve
  refine Steps.ite ((steps_fail _).bind fun _ => ?_) ?_
  all_goals
    refine (Arena.steps_onPool _).bind fun pa => Steps.ite ?_ (hcut pa)
    exact (steps_note _).bind fun _ => (Arena.steps_onPool _).bind fun _ => (steps_fail _).bind fun _ => hcut pa

/-- Where no frame becomes a slab, the pool says why, and no byte has changed. -/
theorem carve_denied {s : Arena} (h : s.Keeps p B) (hs : p.Sound rs) (hc : CellSize c)
    (hno : ∀ i, p.scan = some i → ¬mp.Shows (p.base + i)) : (carve mp c).Ends s fun r t =>
      ∃ e q, r = .error e ∧ p.Denied mp e q ∧ s.Rebooks t q := by
  have hplace := steps_carve mp c s
  cases hscan : p.scan with
  | none =>
    refine (hplace.and (carve_none h hs hc hscan)).mono ?_
    intro r t hends
    obtain ⟨hplace, hr, ht⟩ := hends
    rcases Pool.alloc_of_scan_none hs hscan with ⟨hlt, -, hq⟩ | ⟨hsat, -, hq⟩
    · rcases hr with ⟨-, rfl⟩ | ⟨hsat, -⟩
      · rw [show p.after [.alloc] = _ from hq] at ht
        exact ⟨_, _, rfl, .inl ⟨hscan, Nat.not_le.2 hlt, rfl, rfl⟩, h.rebooks ht hplace rfl⟩
      · exact absurd hlt (Nat.not_lt.2 hsat)
    · rcases hr with ⟨hlt, -⟩ | ⟨-, rfl⟩
      · exact absurd hsat hlt
      · rw [show p.after [.alloc] = _ from hq] at ht
        exact ⟨_, _, rfl, .inr (.inl ⟨hscan, hsat, rfl, rfl⟩), h.rebooks ht hplace rfl⟩
  | some i =>
    refine (hplace.and (carve_bad h hs hc hscan (hno i hscan))).mono ?_
    intro r t hends
    obtain ⟨hplace, rfl, ht⟩ := hends
    rw [hs.after_return hscan] at ht
    exact ⟨_, _, rfl, .inr (.inr ⟨i, hscan, hno i hscan, rfl, rfl⟩), h.rebooks ht hplace rfl⟩

variable {E : Estate} {s : CacheSite} {vs : List View}

/-- If every slab is full and the next frame is visible as a page, a fresh slab serves the request. -/
theorem allocate_shown (h : Stands E p c s vs) (hfull : ∀ v ∈ vs, v.free = []) (hscan : p.scan = some k)
    (hshow : mp.Shows (p.base + k)) : (Cache.allocate mp).Ends s fun r _ => ∃ x, r = .ok x := by
  have hlt := h.chain.length_le h.distinct
  refine allocate_full h hfull ((carve_formats h.supplies.keeps h.supplies.sound h.cell hscan hshow).mono ?_)
  intro r a hends
  obtain ⟨rfl, hh⟩ := hends
  have hnext := hh.setNext h.cell (head vs)
  rw [allCells_eq h.cell] at hnext
  rw [Action.goes_ok, Action.ends_bind, Cache.ends_inArena, Arena.ends_setWord, Action.goes_ok, Action.ends_bind,
    Cache.ends_update, Action.goes_ok, Action.ends_bind, Action.ends_lift, Count.add_eq_ok.2 ⟨by omega, rfl⟩,
    Action.goes_ok, Action.ends_bind, Cache.ends_update, Action.goes_ok, Action.ends_bind, Cache.ends_inArena]
  refine (pop_cons hnext h.cell).mono ?_
  intro r t hends
  obtain ⟨rfl, -⟩ := hends
  rw [Action.goes_ok, Action.ends_bind, Action.ends_some, Action.goes_ok, Action.ends_bind]
  refine (Cache.ends_countTaken ?_).2 ⟨_, rfl⟩
  exact h.inUse_lt

/-- How a request ends that the slabs `vs`, the pool `p` and the mapper decide: it is served, by a free cell or the next
frame, or it is denied, and then the pool `q` that is left is such that `same q`. -/
def Deals (p : Pool) (vs : List View) (mp : Mapper) (r : Checked Fault Ptr) (same : Pool → Prop) : Prop :=
  (((∃ v ∈ vs, v.free ≠ []) ∨ ∃ i, p.scan = some i ∧ mp.Shows (p.base + i)) ∧ ∃ x, r = .ok x) ∨
    ((∀ v ∈ vs, v.free = []) ∧ ∃ e q, r = .error e ∧ p.Denied mp e q ∧ same q)

/-- **A cache in order** deals by its slabs. -/
theorem allocate_deals (h : Stands E p c s vs) (mp : Mapper) : (Cache.allocate mp).Ends s fun r t =>
    Deals p vs mp r fun q => t.cache = s.cache ∧ s.arena.Rebooks t.arena q := by
  rcases full_or_first vs with hfull | ⟨xs, page, i, is, ys, rfl, hxs⟩
  · by_cases hshow : ∃ i, p.scan = some i ∧ mp.Shows (p.base + i)
    · obtain ⟨i, hscan, hi⟩ := hshow
      exact (allocate_shown h hfull hscan hi).mono fun r t hr => .inl ⟨.inr ⟨i, hscan, hi⟩, hr⟩
    · have hno : ∀ i, p.scan = some i → ¬mp.Shows (p.base + i) := fun i hs hi => hshow ⟨i, hs, hi⟩
      refine allocate_full h hfull ((carve_denied h.supplies.keeps h.supplies.sound h.cell hno).mono ?_)
      intro r a hends
      obtain ⟨e, q, rfl, hdenied, ha⟩ := hends
      exact .inr ⟨hfull, e, q, rfl, hdenied, rfl, ha⟩
  · refine (allocate_first h hxs).mono ?_
    intro r t hends
    exact .inl ⟨.inl ⟨⟨page, i :: is⟩, by simp, by simp⟩, _, hends.1⟩

end Slab

/-! ## The heap -/

namespace Heap

variable {E : Estate} {s : HeapSite} {V : SizeClass → List View} {i : SizeClass} {size : Nat}

/-- A heap that sees its frames through another mapper. -/
def through (s : HeapSite) (m : Mapper) : HeapSite := { s with heap := { s.heap with mapper := m } }

/-- What is left of `s` after a request that fails with `e`: every cache and every byte, and the pool but for its hint and
the count of failed requests, which grows by one where no frame is free. -/
structure Intact (s t : HeapSite) (e : Failure Fault) : Prop where
  heap : t.heap = s.heap
  arena : ∀ p ∈ s.arena.pool?, ∃ n k, s.arena.Rebooks t.arena { p with failures := n, hint := k } ∧
    (n = p.failures ∨ n = p.failures + 1 ∧ e = .fault .tooMany)

theorem Intact.refl (s : HeapSite) (e : Failure Fault) : Intact s s e :=
  ⟨rfl, fun _ hp => ⟨_, _, ⟨hp, Alters.refl _ _, rfl⟩, .inl rfl⟩⟩

theorem Intact.of_denied {t : HeapSite} {e : Failure Fault} {m : Mapper} (hp : s.arena.pool? = some p)
    (hdenied : p.Denied m e q) (hheap : t.heap = s.heap) (ha : s.arena.Rebooks t.arena q) : Intact s t e := by
  refine ⟨hheap, fun p' hp' => ?_⟩
  obtain ⟨n, k, rfl, hn⟩ := hdenied.rebooked
  cases hp.symm.trans hp'
  exact ⟨n, k, ha, hn⟩

/-- A request is dealt with by the slabs of its class. -/
theorem allocate_deals (h : Stands E p s V) (m : Mapper) (hi : classFor size = .ok i) :
    (Heap.allocate size).Ends (through s m) fun r t =>
      Slab.Deals p (V i) m r fun q => t.heap = (through s m).heap ∧ s.arena.Rebooks t.arena q := by
  unfold Heap.allocate
  rw [Action.ends_bind, Action.ends_lift, hi, Action.goes_ok, Action.ends_bind, Action.ends_get, Action.goes_ok]
  refine ends_onCache.2 ((Slab.allocate_deals (h.caches i) m).mono ?_)
  intro r c hdeals
  refine hdeals.imp_right ?_
  rintro ⟨hfull, e, q, hr, hdenied, hcache, ha⟩
  obtain ⟨u, k⟩ := c
  obtain rfl : k = ((cachePart i).get s).cache := hcache
  have hheap := congrArg HeapSite.heap (set_get (through s m) i)
  exact ⟨hfull, e, q, hr, hdenied, hheap, ha⟩

namespace Session

variable {E : Estate} {s : Session} {V : SizeClass → List View}

/-- Whether a request asks for an object of a class without a free cell. -/
def Exhausts (s : Session) (size : Nat) : Prop := ∃ i, classFor size = .ok i ∧ s.Full i

/-- Whether `f` is the lowest free frame. -/
def NextFree (s : Session) (f : Nat) : Prop := IsLeast {f | s.IsFree f} f

/-- Whether the pool can count no further failed request. -/
def Saturated (s : Session) : Prop := ∃ p ∈ s.site.arena.pool?, p.Saturated

/-- What a heap answers to a request of `size` bytes if it sees its frames through the mapper `m`. -/
structure Dispenses (s : Session) (m : Mapper) (size : Nat) : Prop where
  badArgs : (Heap.allocate size (through s.site m)).result = .error (.fault .badArgs) ↔ size = 0
  noSuch : (Heap.allocate size (through s.site m)).result = .error (.fault .noSuch) ↔ Layout.maxHeapObject < size
  tooMany : (Heap.allocate size (through s.site m)).result = .error (.fault .tooMany) ↔
    s.Exhausts size ∧ (∀ f, ¬s.IsFree f) ∧ ¬s.Saturated
  badAlloc : (Heap.allocate size (through s.site m)).result = .error (.fault .badAlloc) ↔
    s.Exhausts size ∧ ∃ f, s.NextFree f ∧ ¬m.Shows f
  /-- A request that finds no free frame halts where the pool could not count it. -/
  halts : ∀ h, (Heap.allocate size (through s.site m)).result = .error (.halt h) ↔
    h = .addOverflow ∧ s.Exhausts size ∧ (∀ f, ¬s.IsFree f) ∧ s.Saturated
  ok : (∃ x, (Heap.allocate size (through s.site m)).result = .ok x) ↔
    size ≠ 0 ∧ size ≤ Layout.maxHeapObject ∧ (s.Exhausts size → ∃ f, s.NextFree f ∧ m.Shows f)
  intact : ∀ e, (Heap.allocate size (through s.site m)).result = .error e →
    Intact (through s.site m) (Heap.allocate size (through s.site m)).state e

theorem exhausts_iff (hi : classFor size = .ok i) : s.Exhausts size ↔ s.Full i := by simp [Exhausts, hi]

theorem saturated_iff (hV : Stands E p s.site V) : s.Saturated ↔ p.Saturated := by
  simp [Saturated, hV.supplies.keeps.pool?]

/-- The lowest free frame is the one that a scan finds. -/
theorem nextFree_iff (hV : Stands E p s.site V) (hscan : p.scan = some k) {f : Nat} : s.NextFree f ↔ f = p.base + k := by
  have hleast : s.NextFree (p.base + k) := by
    obtain ⟨hfree, hle⟩ := Pool.free_of_scan hscan
    exact ⟨(isFree_iff hV).2 hfree, fun g hg => hle g ((isFree_iff hV).1 hg)⟩
  constructor
  · intro hf
    exact hf.unique hleast
  · rintro rfl
    exact hleast

/-- A size without a class is refused at once. -/
theorem dispenses_of_error {e : Failure Fault} (hi : classFor size = .error e) (m : Mapper) : s.Dispenses m size := by
  have hends : (Heap.allocate size).Ends (through s.site m) fun r t => r = .error e ∧ t = through s.site m := by
    unfold Heap.allocate
    rw [Action.ends_bind, Action.ends_lift, hi]
    exact ⟨rfl, rfl⟩
  obtain ⟨hr, ht⟩ := hends
  have hex : ¬s.Exhausts size := by simp [Exhausts, hi]
  have hintact : ∀ e', (Heap.allocate size (through s.site m)).result = .error e' →
      Intact (through s.site m) (Heap.allocate size (through s.site m)).state e' := by
    intro e' _
    rw [ht]
    exact .refl _ e'
  rcases classFor_eq_error hi with ⟨rfl, rfl⟩ | ⟨hlt, rfl⟩
  · constructor
    case intact => exact hintact
    all_goals simp [hr, hex]
  · have h0 : size ≠ 0 := Nat.ne_of_gt (Nat.lt_of_le_of_lt (Nat.zero_le _) hlt)
    constructor
    case intact => exact hintact
    all_goals simp [hr, hex, h0, hlt]

/-- **A heap in order dispenses** what it can, whatever its mapper shows. -/
theorem dispenses_of_kept (h : s.Kept E) (m : Mapper) (size : Nat) : s.Dispenses m size := by
  obtain ⟨p, V, hV, hlive⟩ := h
  cases hi : classFor size with
  | error e => exact dispenses_of_error hi m
  | ok i =>
    obtain ⟨h0, hmin⟩ := classFor_eq_ok hi
    have hle : size ≤ Layout.maxHeapObject := (hmin ⟨7, by decide⟩).2 (Nat.le_of_lt_succ i.isLt)
    have hlt : ¬Layout.maxHeapObject < size := Nat.not_lt.2 hle
    have hsat := saturated_iff hV
    rcases allocate_deals hV m hi with ⟨hserved, x, hr⟩ | ⟨hfull, e, q, hr, hdenied, hheap, ha⟩
    · rcases hserved with ⟨v, hv, hne⟩ | ⟨k, hscan, hshow⟩
      · have hex : ¬s.Exhausts size := by
          rw [exhausts_iff hi, full_iff hV hlive]
          exact fun hfull => hne (hfull v hv)
        constructor
        all_goals simp [hr, h0, hle, hlt, hex]
      · have hfree : s.IsFree (p.base + k) := (isFree_iff hV).2 (Pool.free_of_scan hscan).1
        have hsome : ¬∀ f, ¬s.IsFree f := fun hnone => hnone _ hfree
        constructor
        all_goals simp [hr, h0, hle, hlt, hsome, nextFree_iff hV hscan, hshow]
    · have hex : s.Exhausts size := by rwa [exhausts_iff hi, full_iff hV hlive]
      have hintact : ∀ e', (Heap.allocate size (through s.site m)).result = .error e' →
          Intact (through s.site m) (Heap.allocate size (through s.site m)).state e' := by
        intro e' he
        cases hr.symm.trans he
        exact .of_denied hV.supplies.keeps.pool? hdenied hheap ha
      have hnone : p.scan = none → (∀ f, ¬s.IsFree f) ∧ ∀ f, ¬s.NextFree f := by
        intro hscan
        have hno : ∀ f, ¬s.IsFree f := fun f hf => hV.supplies.sound.scan_none.1 hscan f ((isFree_iff hV).1 hf)
        exact ⟨hno, fun f hf => hno f hf.1⟩
      rcases hdenied with ⟨hscan, hcount, rfl, -⟩ | ⟨hscan, hcount, rfl, -⟩ | ⟨k, hscan, hshow, rfl, -⟩
      · obtain ⟨hno, hnext⟩ := hnone hscan
        constructor
        case intact => exact hintact
        all_goals simp [hr, h0, hle, hlt, hex, hno, hnext, hsat, hcount]
      · obtain ⟨hno, hnext⟩ := hnone hscan
        constructor
        case intact => exact hintact
        all_goals simp [hr, h0, hle, hlt, hex, hno, hnext, hsat, hcount, eq_comm]
      · have hfree : s.IsFree (p.base + k) := (isFree_iff hV).2 (Pool.free_of_scan hscan).1
        have hsome : ¬∀ f, ¬s.IsFree f := fun hno => hno _ hfree
        constructor
        case intact => exact hintact
        all_goals simp [hr, h0, hle, hlt, hex, hsome, nextFree_iff hV hscan, hshow]

/-! ## Runs -/

/-- **Every request** to a heap, whatever has happened to it before, of any size and with any mapper: it is served if a slab
of its class has a free cell or the lowest free frame is visible as a page, and else it is told why and nothing has
changed. -/
theorem dispenses_run {rs : List Region} {mapper : Mapper} {a : Arena} (h : Founded rs mapper a) (es : List Event)
    (hes : (start a mapper).LetAll es) (m : Mapper) (size : Nat) :
    Dispenses (es.foldl happen (start a mapper)) m size := by
  obtain ⟨E, hkept⟩ := kept_through h es hes
  exact dispenses_of_kept hkept m size

/-- Every address stands for itself, but the frame at 0x2000 is visible past the start of a page. -/
def skewed : Mapper := ⟨fun pa => if pa.raw = 0x2000 then ⟨0x2008⟩ else ⟨pa.raw⟩, fun va => ⟨va.raw⟩⟩

theorem founded_skewed : Founded Frame.Session.fourFrames skewed fourFrames where
  pool := opens_fourFrames.pool
  home := opens_fourFrames.home
  apart := by
    rintro h ⟨rfl⟩ p - f - -
    exact Set.disjoint_empty _
  back := by
    rintro r - - f - - - ⟨hal, -⟩
    by_cases hf : Align.frameStart f = 0x2000
    · simp [skewed, Mapper.page, hf] at hal
    · simp [skewed, hf]

/-- Others take the first frame, and the next one is the one that cannot be used: through the mapper that shows it so there
is no object, and through another there is. -/
theorem dispenses_skewed :
    Dispenses (List.foldl happen (start fourFrames skewed) [.pool .alloc]) skewed 2000 ∧
    (Heap.allocate 2000 (through (List.foldl happen (start fourFrames skewed) [.pool .alloc]).site skewed)).result =
      .error (.fault .badAlloc) ∧
    (Heap.allocate 2000 (through (List.foldl happen (start fourFrames skewed) [.pool .alloc]).site .identity)).result =
      .ok 0x2030 :=
  ⟨dispenses_run founded_skewed [.pool .alloc] ⟨trivial, trivial⟩ skewed 2000, by decide +kernel, by decide +kernel⟩

end Session

end Heap

end Keel
