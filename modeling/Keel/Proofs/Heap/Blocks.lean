import Keel.Proofs.Heap.Accounts
import Keel.Proofs.Heap.Leases
import Keel.Proofs.Quiet

/-!
# Blocks and where they come from

The allocator decides twice where a block belongs, from its layout when it is asked for and from the same layout
when it comes back. In every run over a pool and a heap with slabs in use, in which clients give back what they hold
and write into it, the two agree. Whoever asks gets a block as it was asked for that meets nobody else's, or none
exactly if a page cannot hold the layout or nothing is left (`alloc_ends`); a block that comes back goes where it comes
from, and nothing is logged (`Balances.returns`); and when all have come back, a shrink leaves as many frames free as
there were (`Balances.restores`). `upholds_run` puts this together.
-/

namespace Keel.Allocator

open Keel.Frame (Pool)
open Keel.Heap (objectsOf)
open Keel.Layout (Block)
open Keel.Memory (block pageAt)
open Keel.Slab (Estate View objects containing cellAt cellCount)

attribute [local irreducible] Memory.word

/-! ## Where blocks come from -/

namespace Lease

/-- The frame of a block that is one. -/
def frame (b : Lease) (h : Heap.Session) : Nat := Align.frameOf (h.site.heap.mapper.toPhys ⟨b.start⟩).raw

/-- Where a block comes from: it is a cell of a slab of its class, or the page of a frame. -/
def ComesFrom (b : Lease) (h : Heap.Session) : Prop :=
  match b.layout.class? with
  | some i => h.SlabOf i (containing b.start) ∧
      ∃ k < cellCount (classSize i), b.start = cellAt (containing b.start) (classSize i) k
  | none => (∃ p ∈ h.site.arena.pool?, p.Usable (b.frame h)) ∧ h.site.heap.mapper.page (b.frame h) = b.start

/-- Whether a block is where it comes from: its cell is on the list of its slab, or its frame is free. -/
def IsBack (b : Lease) (h : Heap.Session) : Prop :=
  match b.layout.class? with
  | some _ => h.IsListed b.start
  | none => h.IsFree (b.frame h)

end Lease

namespace Session

/-- Whether every slab of a heap has an object. -/
def Busy (h : Heap.Session) : Prop :=
  ∀ i page, h.SlabOf i page → (Slab.Header.read h.memory page).isEmpty = false

/-! ## What is owed -/

/-- The heap of a session, as one without clients of its own. -/
def heap? (s : Session) : Option Heap.Session := s.ground.heap.map fun h => ⟨⟨s.ground.arena, h⟩, ∅⟩

/-- The number of free frames. -/
def freeFrames (s : Session) : Option Nat := s.ground.arena.pool?.map fun p => p.freeFrames

/-- Whether every slab of a class is full. -/
def Full (s : Session) (i : SizeClass) : Prop :=
  ∀ h ∈ s.heap?, ∀ page, h.SlabOf i page → (Slab.Header.read h.memory page).isFull = true

/-- Whether there is no block of a layout: a page cannot hold or align it, or no frame is free and, if the heap serves
the layout, every slab of its class is full. -/
def Lacks (s : Session) (l : Block) : Prop :=
  Layout.pageSize < l.size ∨ Layout.pageSize < l.align ∨ s.freeFrames = some 0 ∧ ∀ i ∈ l.class?, s.Full i

/-- The pool can count no further failed request. -/
def Saturated (s : Session) : Prop := ∃ p ∈ s.ground.arena.pool?, p.Saturated

/-- What a client may rely on who holds a block. -/
structure Holds (s : Session) (b : Lease) : Prop where
  nonnull : b.start ≠ 0
  aligned : b.start.toNat % b.layout.align = 0
  room : b.layout.size ≤ b.layout.room ∧ b.start.toNat + b.layout.room ≤ 2 ^ 64
  taken : ∃ h ∈ s.heap?, b.ComesFrom h ∧ ¬b.IsBack h

/-- What a session owes a client that asks for a layout. -/
structure Grants (s : Session) (l : Block) : Prop where
  /-- There is no block exactly if the layout lacks one; only where that can no longer be counted, the machine halts. -/
  null : ¬s.Saturated → ((alloc l s.ground).result = .ok none ↔ s.Lacks l)
  block : ∀ x, (alloc l s.ground).result = .ok (some x) → ¬s.Lacks l ∧ (s.step (.alloc l)).Holds ⟨x, l⟩ ∧
    ∀ b ∈ s.live, Disjoint (Lease.bytes ⟨x, l⟩) b.bytes
  halts : ∀ e, (alloc l s.ground).result = .error e → e = .halt .addOverflow ∧ s.Saturated ∧ s.Lacks l

/-- The store that has nothing to do with blocks of a layout stays as it is: the pool for an object, the heap for a
frame. -/
def Beside (l : Block) (g g' : Ground) : Prop :=
  match l.class? with
  | some _ => g'.arena.pool? = g.arena.pool?
  | none => g'.heap = g.heap

/-- What a session owes a client that gives a block back. -/
structure Returns (s : Session) (b : Lease) : Prop where
  result : (dealloc b.start b.layout s.ground).result = .ok ()
  log : (dealloc b.start b.layout s.ground).log = []
  back : ∃ h ∈ (s.step (.dealloc b)).heap?, b.ComesFrom h ∧ b.IsBack h
  beside : Beside b.layout s.ground (s.step (.dealloc b)).ground

/-- What a session owes its clients that was begun over the heap `h`. -/
structure Upholds (h : Heap.Session) (s : Session) : Prop where
  holds : ∀ b ∈ s.live, s.Holds b
  apart : ∀ b ∈ s.live, ∀ c ∈ s.live, b ≠ c → Disjoint b.bytes c.bytes
  /-- What others hold is nobody else's. -/
  others : ∀ b ∈ s.live, (∀ o ∈ h.live, Disjoint b.bytes o.bytes) ∧
    ∀ f, h.Lent f → Disjoint b.bytes (pageAt (h.site.heap.mapper.page f))
  grants : ∀ l, s.Permits (.alloc l) → s.Grants l
  returns : ∀ b, s.Permits (.dealloc b) → s.Returns b
  shrinks : ∃ n, (Ground.onHeap Heap.shrink s.ground).result = .ok n
  /-- When all blocks have come back, a shrink leaves as many frames free as there were at the start. -/
  restores : s.live = ∅ → (s.step .shrink).freeFrames = (ofHeap h).freeFrames

variable {E : Estate} {p₀ p q : Pool} {V₀ V W : SizeClass → List View} {s : Session} {g : Ground} {b c : Lease}
  {l : Block} {i j : SizeClass} {x : Ptr} {f k : Nat} {ws : List View} {v w : View} {h : Heap.Session}

/-! ## Services in order -/

theorem heap?_eq (hs : Ground.Stands E p s.ground V) :
    ∃ h : Heap.Session, s.heap? = some h ∧ h.site.arena = s.ground.arena ∧ Heap.Stands E p h.site V := by
  obtain ⟨heap, hheap, hh⟩ := hs
  exact ⟨_, by rw [heap?, hheap, Option.map_some], rfl, hh⟩

theorem pool?_eq (hs : Ground.Stands E p g V) : g.arena.pool? = some p := by
  obtain ⟨heap, -, hh⟩ := hs
  exact hh.supplies.keeps.pool?

/-- The pool has no free frame. -/
theorem freeFrames_eq_zero (hs : Ground.Stands E p s.ground V) : s.freeFrames = some 0 ↔ ∀ f, ¬p.Free f := by
  obtain ⟨heap, -, hh⟩ := id hs
  rw [freeFrames, pool?_eq hs, Option.map_some, Option.some.injEq, ← hh.supplies.sound.scan_free]
  exact hh.supplies.sound.scan_none

/-- The slabs of a class are full if they have no free cell. -/
theorem full_iff (hs : Ground.Stands E p s.ground V) : s.Full i ↔ ∀ v ∈ V i, v.free = [] := by
  obtain ⟨h, hheap, -, hV⟩ := heap?_eq hs
  have hheader : ∀ v ∈ V i, (Slab.Header.read h.memory v.page).isFull = true ↔ v.free = [] := fun v hv => by
    obtain ⟨next, hh⟩ := (hV.chain i).holds hv
    exact hh.isFull_iff (Heap.cellSize_classSize i)
  constructor
  · intro hfull v hv
    exact (hheader v hv).1 (hfull h hheap v.page ((Heap.Session.slabOf_iff hV).2 ⟨v, hv, rfl⟩))
  · intro hfull h' hh' page hpage
    obtain rfl := Option.some.inj (hheap.symm.trans hh')
    obtain ⟨v, hv, rfl⟩ := (Heap.Session.slabOf_iff hV).1 hpage
    exact (hheader v hv).2 (hfull v hv)

/-- What the heap serves lacks a block if no object of its class is left. -/
theorem lacks_object (hs : Ground.Stands E p s.ground V) (hc : l.class? = some i) :
    s.Lacks l ↔ ¬Heap.Supplied p V i := by
  obtain ⟨hsize, halign⟩ := Block.fitsHeap_iff.1 (Block.class?_eq_some.1 hc).1
  have hpage : Layout.pageSize = 4096 := rfl
  have hfull : (∀ j ∈ l.class?, s.Full j) ↔ s.Full i := by simp [hc]
  rw [Lacks, or_iff_right (by omega), or_iff_right (by omega), hfull, freeFrames_eq_zero hs, full_iff hs, Heap.Supplied,
    not_or, not_exists, and_comm]
  simp only [not_exists, not_and, not_not]

/-- What gets a frame lacks one if none is free. -/
theorem lacks_frame (hs : Ground.Stands E p s.ground V) (hc : l.class? = none) (hfits : l.fitsFrame = true) :
    s.Lacks l ↔ ∀ f, ¬p.Free f := by
  obtain ⟨hsize, halign⟩ := Block.fitsFrame_iff.1 hfits
  have hpage : Layout.pageSize = 4096 := rfl
  have hclass : ∀ i ∈ l.class?, s.Full i := by simp [hc]
  rw [Lacks, or_iff_right (by omega), or_iff_right (by omega), freeFrames_eq_zero hs, and_iff_left hclass]

/-- What fits no frame lacks a block. -/
theorem lacks_misfit (hfits : ¬l.fitsFrame = true) : s.Lacks l := by
  rw [Block.fitsFrame_iff, not_and_or, Nat.not_le, Nat.not_le] at hfits
  exact hfits.elim .inl fun halign => .inr (.inl halign)

/-! ## Cells and frames -/

/-- A block at a cell of a slab of its class comes from there, and is back if the cell is free. -/
theorem comesFrom_cell (hV : Heap.Stands E p h.site V) (hc : b.layout.class? = some i) (hv : v ∈ V i)
    (hk : k < cellCount (classSize i)) (hx : b.start = cellAt v.page (classSize i) k) :
    b.ComesFrom h ∧ (b.IsBack h ↔ k ∈ v.free) := by
  have hcell := Heap.cellSize_classSize i
  obtain ⟨next, hh⟩ := (hV.chain i).holds hv
  have hpage : containing b.start = v.page := by rw [hx, Slab.containing_cellAt hh.aligned hk hcell]
  have hlisted := Heap.Session.isListed_iff (s := h) hV hv hpage
  simp only [Lease.ComesFrom, Lease.IsBack, hc]
  refine ⟨⟨(Heap.Session.slabOf_iff hV).2 ⟨v, hv, hpage.symm⟩, k, hk, by rw [hpage, hx]⟩, hlisted.trans ⟨?_, ?_⟩⟩
  · rintro ⟨j, hj, he⟩
    obtain ⟨-, rfl⟩ := Slab.cellAt_page_inj hcell hh.aligned hh.aligned (hh.bound j hj) hk (he.symm.trans hx)
    exact hj
  · intro hfree
    exact ⟨k, hfree, hx⟩

/-- A block at the page of a frame comes from there, and is back if the frame is free. -/
theorem comesFrom_frame (hV : Heap.Stands E p h.site V) (hc : b.layout.class? = none) (hf : f ∈ E.frames)
    (hshow : E.mapper.Shows f) (hpage : E.mapper.page f = b.start) : b.ComesFrom h ∧ (b.IsBack h ↔ p.Free f) := by
  have hcirc := hV.supplies.circulates
  have hback : E.mapper.toPhys ⟨E.mapper.page f⟩ = ⟨Align.frameStart f⟩ := hcirc.back f hf hshow
  have hframe : b.frame h = f := by
    rw [Lease.frame, hV.mapper, ← hpage, hback]
    exact Align.frameOf_frameStart (hcirc.small f hf)
  simp only [Lease.ComesFrom, Lease.IsBack, hc, hframe, hV.mapper]
  exact ⟨⟨⟨p, hV.supplies.keeps.pool?, (hV.supplies.usable f hf).2⟩, hpage⟩, Heap.Session.isFree_iff hV⟩

/-- A power of two divides the larger ones. -/
theorem mod_align {n : Nat} (hl : l.Valid) (hle : l.align ≤ 2 ^ k) (hn : n % 2 ^ k = 0) : n % l.align = 0 := by
  obtain ⟨m, hm⟩ := hl
  rw [hm] at hle ⊢
  have hdvd : 2 ^ m ∣ 2 ^ k := Nat.pow_dvd_pow 2 ((Nat.pow_le_pow_iff_right (by decide)).1 hle)
  exact Nat.mod_eq_zero_of_dvd (hdvd.trans (Nat.dvd_of_mod_eq_zero hn))

/-- **Blocks that clients hold** are as they were asked for, and taken from where they come from. -/
theorem Balances.holds (hE : Heap.Session.Whole E) (hB : Balances E p₀ V₀ s p V) (hb : b ∈ s.live) : s.Holds b := by
  obtain ⟨h, hheap, -, hV⟩ := heap?_eq hB.stands
  have hfits := hB.fits b hb
  have hroom := Block.size_le_room hfits
  cases hc : b.layout.class? with
  | some i =>
    have hcell := Heap.cellSize_classSize i
    obtain ⟨v, hv, k, hk, hnot, hx, -, -⟩ := (hV.chain i).of_objects hcell (hB.mem_objects hb hc)
    obtain ⟨hfrom, hback⟩ := comesFrom_cell hV hc hv hk hx
    have hal := (hV.chain i).aligned hv
    have hend := Slab.cellOffset_add_le hk
    have hmin := hcell.min
    have hnat : b.start.toNat = v.page.toNat + Slab.cellOffset (classSize i) k := by
      rw [hx, Slab.cellAt_toNat hal (by omega)]
    have hlt := v.page.toNat_lt
    have halign := (Block.fitsHeap_iff.1 (Block.class?_eq_some.1 hc).1).2
    refine ⟨?_, ?_, ⟨hroom, ?_⟩, h, hheap, hfrom, fun hb => hnot (hback.1 hb)⟩
    · rw [hx]
      exact Slab.cellAt_ne_zero hal (by omega)
    · refine mod_align (k := 4) hfits.1 halign ?_
      rw [hx]
      exact Slab.cellAt_mod hal hk hcell
    · rw [Block.room_some hc]
      omega
  | none =>
    obtain ⟨f, hf, hpage, hnot⟩ := hB.lent _ ⟨b, hb, hc, rfl⟩
    obtain ⟨hal, hnull⟩ := hE.shows f hf
    obtain ⟨hfrom, hback⟩ := comesFrom_frame hV hc hf (hE.shows f hf) hpage
    have halign := (Block.fitsFrame_iff.1 (hfits.2.resolve_left (Block.class?_eq_none.1 hc))).2
    have hlt := b.start.toNat_lt
    rw [hpage] at hal hnull
    refine ⟨hnull, mod_align (k := 12) hfits.1 halign hal, ⟨hroom, ?_⟩, h, hheap, hfrom, fun hfree => ?_⟩
    · rw [Block.room_none hc]
      omega
    · exact hnot (.inl (hback.1 hfree))

/-! ## Asking for a block -/

/-- What is answered for what a store has answered. -/
def answered : Checked Fault Ptr → Checked Fault (Option Ptr)
  | .ok x => .ok (some x)
  | .error (.fault _) => .ok none
  | .error (.halt e) => .error (.halt e)

theorem ends_alloc {Q : Checked Fault (Option Ptr) → Ground → Prop} :
    (alloc l).Ends g Q ↔ (serve l).Ends g fun r t => Q (answered r) t := by
  unfold alloc
  rw [Action.ends_bind, Action.ends_attempt]
  constructor
  · exact fun h => h.mono fun r t hr => by rcases r with (e | e) | x <;> exact hr
  · exact fun h => h.mono fun r t hr => by rcases r with (e | e) | x <;> exact hr

/-- The heap serves a layout. -/
theorem serve_object (hE : Heap.Session.Whole E) (hs : Ground.Stands E p g V) (hc : l.class? = some i) :
    (serve l).Ends g fun r g' => ∃ q ws, Ground.Shifts E g g' p q V (Function.update V i ws) ∧
      ((Heap.Supplied p V i ∧ ∃ x, r = .ok x ∧ x ∉ objectsOf V i ∧
          objects (classSize i) ws = insert x (objectsOf V i)) ∨
        (¬Heap.Supplied p V i ∧ ws = V i ∧
          (r = .error (.fault .tooMany) ∨ r = .error (.halt .addOverflow) ∧ p.Saturated))) := by
  obtain ⟨a, _⟩ := g
  obtain ⟨heap, rfl, hh⟩ := hs
  obtain ⟨hfits, hi⟩ := Block.class?_eq_some.1 hc
  unfold serve
  rw [Action.ends_ite, if_pos hfits]
  obtain ⟨qs, ws, hturn, hr⟩ := Heap.allocate_exact hE.shows hh hi
  exact ⟨_, ws, Ground.shifts_of_turns hh hturn, hr⟩

/-- **A request for a block**: one comes if there is one, and nobody holds it. -/
theorem alloc_ends (hE : Heap.Session.Whole E) (hB : Balances E p₀ V₀ s p V) (hl : l.Valid) :
    (alloc l).Ends s.ground fun r g' => ∃ q W,
      (∃ x, r = .ok (some x) ∧ ¬s.Lacks l ∧ Balances E p₀ V₀ ⟨g', insert ⟨x, l⟩ s.live⟩ q W ∧
        ∀ b ∈ s.live, b.start ≠ x) ∨
      (s.Lacks l ∧ Balances E p₀ V₀ ⟨g', s.live⟩ q W ∧
        (r = .ok none ∨ r = .error (.halt .addOverflow) ∧ s.Saturated)) := by
  have hstands := hB.stands
  have hsat : p.Saturated → s.Saturated := fun hp => ⟨p, pool?_eq hstands, hp⟩
  rw [ends_alloc]
  cases hc : l.class? with
  | some i =>
    refine (serve_object hE hstands hc).mono ?_
    rintro r g' ⟨q, ws, hs, ⟨hsup, x, rfl, hnew, hws⟩ | ⟨hsup, rfl, hr⟩⟩
    · obtain ⟨hB', hfresh⟩ := hB.grant_object hE ⟨hl, .inl (Block.class?_eq_some.1 hc).1⟩ hc hs hnew hws
      refine ⟨q, _, .inl ⟨x, rfl, ?_, hB', hfresh⟩⟩
      rw [lacks_object hstands hc, not_not]
      exact hsup
    · rw [Function.update_eq_self] at hs
      refine ⟨q, V, .inr ⟨(lacks_object hstands hc).2 hsup, hB.shift hs fun _ => rfl, ?_⟩⟩
      rcases hr with rfl | ⟨rfl, hp⟩
      · exact .inl rfl
      · exact .inr ⟨rfl, hsat hp⟩
  | none =>
    unfold serve
    rw [Action.ends_ite, if_neg (Block.class?_eq_none.1 hc), Action.ends_ite]
    split
    · rename_i hfits
      obtain ⟨heap, -, hh⟩ := id hstands
      have hmap := hh.supplies.sound.sameMap_after [.alloc]
      refine (takeFrame_ends hE.shows hstands).mono ?_
      rintro r g' ⟨-, hs, ⟨f, hf, rfl, hafter⟩ | ⟨hnone, hsame, hr⟩⟩
      · obtain ⟨hB', hfresh⟩ := hB.grant_frame hE ⟨hl, .inr hfits⟩ hc hf hs hmap hafter
        refine ⟨_, V, .inl ⟨_, rfl, ?_, hB', hfresh⟩⟩
        rw [lacks_frame hstands hc hfits]
        exact fun hno => hno f hf
      · have hshift : Ground.Shifts E s.ground g' p (p.after [.alloc]) V V :=
          ⟨hs, hmap, fun e _ => or_congr_left (hsame e)⟩
        refine ⟨_, V, .inr ⟨(lacks_frame hstands hc hfits).2 hnone, hB.shift hshift fun _ => rfl, ?_⟩⟩
        rcases hr with rfl | ⟨rfl, hp⟩
        · exact .inl rfl
        · exact .inr ⟨rfl, hsat hp⟩
    · rename_i hfits
      exact ⟨p, V, .inr ⟨lacks_misfit hfits, hB, .inl rfl⟩⟩

/-! ## Giving a block back -/

/-- Gives a block to the store that it comes from. -/
def handBack (b : Lease) : Action Ground Unit := if b.layout.fitsHeap then Ground.free b.start else giveFrame b.start

/-- What a store takes back without a word is taken back without a word. -/
theorem dealloc_of_handBack {g' : Ground} {log : List Line} (h0 : b.start ≠ 0)
    (hr : handBack b g = ⟨.ok (), g', log⟩) : dealloc b.start b.layout g = ⟨.ok (), g', []⟩ := by
  have hquiet : Action.Quiet (handBack b) := (Ground.quiet_free _).ite (quiet_giveFrame _)
  have hlog : log = [] := by
    have hq := hquiet g () (by rw [hr])
    rwa [hr] at hq
  subst hlog
  have hattempt : Action.attempt (handBack b) g = ⟨.ok (.ok ()), g', []⟩ := by rw [Action.attempt, hr]
  unfold dealloc
  rw [if_neg h0]
  exact Action.bind_ok hattempt

/-- An object goes back on the list of its slab. -/
theorem handBack_object (hB : Balances E p₀ V₀ s p V) (hb : b ∈ s.live) (hc : b.layout.class? = some i) :
    (handBack b).Ends s.ground fun r g' => r = .ok () ∧ Beside b.layout s.ground g' ∧
      ∃ q W, Balances E p₀ V₀ ⟨g', s.live \ {b}⟩ q W ∧
        ∃ h ∈ heap? ⟨g', s.live \ {b}⟩, b.ComesFrom h ∧ b.IsBack h := by
  obtain ⟨heap, hheap, hh⟩ := hB.stands
  have hcell := Heap.cellSize_classSize i
  have hx := hB.mem_objects hb hc
  obtain ⟨v, hv, k, hk, -, hcellAt, -, -⟩ := (hh.chain i).of_objects hcell hx
  unfold handBack
  rw [if_pos (Block.class?_eq_some.1 hc).1, Ground.free, Ground.ends_onHeap hheap]
  refine (Heap.free_ends hh b.start).mono ?_
  rintro r ⟨a', heap'⟩ (⟨j, hj, rfl, ws, hturn, hws⟩ | ⟨hno, -⟩)
  · obtain rfl := hh.class_eq_of_objects hx hj
    have hshift := Ground.shifts_of_turns hh hturn
    have hground : s.ground = ⟨s.ground.arena, some heap⟩ := by rw [← hheap]
    rw [← hground] at hshift
    have hB' := hB.return_object hb hc hshift hws
    have hbeside : Beside b.layout s.ground ⟨a', some heap'⟩ := by
      rw [Beside, hc]
      exact (pool?_eq hB'.stands).trans (pool?_eq hB.stands).symm
    refine ⟨rfl, hbeside, _, _, hB', ?_⟩
    obtain ⟨w, hw, hwp⟩ := Heap.slab_stays hh hturn hv
    have hW := hturn.stands
    have hw' : w ∈ Function.update V i ws i := by rwa [Function.update_self]
    have hcell' : b.start = cellAt w.page (classSize i) k := by rw [hwp, hcellAt]
    obtain ⟨hfrom, hback⟩ := comesFrom_cell (h := ⟨⟨a', heap'⟩, ∅⟩) hW hc hw' hk hcell'
    refine ⟨_, rfl, hfrom, hback.2 ?_⟩
    by_contra hnot
    have hmem : b.start ∈ objects (classSize i) ws := ⟨w, hw, k, hk, hnot, hcell'⟩
    rw [hws] at hmem
    exact hmem.2 rfl
  · exact absurd hx (hno i)

/-- A frame is free again. -/
theorem handBack_frame (hE : Heap.Session.Whole E) (hB : Balances E p₀ V₀ s p V) (hb : b ∈ s.live) (hc : b.layout.class? = none) :
    (handBack b).Ends s.ground fun r g' => r = .ok () ∧ Beside b.layout s.ground g' ∧
      ∃ q W, Balances E p₀ V₀ ⟨g', s.live \ {b}⟩ q W ∧
        ∃ h ∈ heap? ⟨g', s.live \ {b}⟩, b.ComesFrom h ∧ b.IsBack h := by
  obtain ⟨heap, -, hh⟩ := id hB.stands
  obtain ⟨f, hf, hpage, hnot⟩ := hB.lent _ ⟨b, hb, hc, rfl⟩
  unfold handBack
  rw [if_neg (Block.class?_eq_none.1 hc), ← hpage]
  refine (giveFrame_ends hB.stands hf (hE.shows f hf) hnot).mono ?_
  rintro r g' ⟨rfl, hheap, hs, hafter⟩
  have hB' := hB.return_frame hb hc hf (hE.shows f hf) hpage hs (hh.supplies.sound.sameMap_after _) hafter
  obtain ⟨h, hh', -, hV⟩ := heap?_eq hB'.stands
  obtain ⟨hfrom, hback⟩ := comesFrom_frame hV hc hf (hE.shows f hf) hpage
  exact ⟨rfl, by rwa [Beside, hc], _, V, hB', h, hh', hfrom, hback.2 ((hafter f).2 (.inr rfl))⟩

/-- **A block that comes back** goes where it comes from, and nothing is logged. -/
theorem Balances.returns (hE : Heap.Session.Whole E) (hB : Balances E p₀ V₀ s p V) (hb : b ∈ s.live) :
    s.Returns b ∧ ∃ q W, Balances E p₀ V₀ (s.step (.dealloc b)) q W := by
  have hends : (handBack b).Ends s.ground fun r g' => r = .ok () ∧ Beside b.layout s.ground g' ∧
      ∃ q W, Balances E p₀ V₀ ⟨g', s.live \ {b}⟩ q W ∧
        ∃ h ∈ heap? ⟨g', s.live \ {b}⟩, b.ComesFrom h ∧ b.IsBack h := by
    cases hc : b.layout.class? with
    | some i => exact handBack_object hB hb hc
    | none => exact handBack_frame hE hB hb hc
  obtain ⟨r, g', log, hr, rfl, hbeside, q, W, hB', hback⟩ := hends.trace
  have hd := dealloc_of_handBack (hB.holds hE hb).nonnull hr
  have hstep : s.step (.dealloc b) = ⟨g', s.live \ {b}⟩ := by rw [Session.step, hd]
  refine ⟨⟨by rw [hd], by rw [hd], ?_, ?_⟩, q, W, ?_⟩ <;> rwa [hstep]

/-! ## One request -/

/-- A shrink succeeds, and leaves no slab without an object. -/
theorem Balances.shrink (hB : Balances E p₀ V₀ s p V) :
    (∃ n, (Ground.onHeap Heap.shrink s.ground).result = .ok n) ∧
      ∃ q, Balances E p₀ V₀ (s.step .shrink) q (Heap.shrunk (List.finRange classCount) V) := by
  obtain ⟨heap, hheap, hh⟩ := hB.stands
  have hends : (Ground.onHeap Heap.shrink).Ends s.ground fun r g' => (∃ n, r = .ok n) ∧
      ∃ q, Balances E p₀ V₀ ⟨g', s.live⟩ q (Heap.shrunk (List.finRange classCount) V) := by
    rw [Ground.ends_onHeap hheap]
    refine (Heap.shrink_ends hh).mono ?_
    rintro r ⟨a', heap'⟩ ⟨rfl, qs, hturn, -⟩
    have hshift := Ground.shifts_of_turns hh hturn
    have hground : s.ground = ⟨s.ground.arena, some heap⟩ := by rw [← hheap]
    rw [← hground] at hshift
    exact ⟨⟨_, rfl⟩, _, hB.shift hshift fun i => Heap.objectsOf_shrunk hh _ i⟩
  exact hends

/-- Whatever is permitted keeps the books. -/
theorem Balances.step (hE : Heap.Session.Whole E) (hB : Balances E p₀ V₀ s p V) (q : Request) (hq : s.Permits q) :
    ∃ p' W, Balances E p₀ V₀ (s.step q) p' W := by
  cases q with
  | alloc l =>
    obtain ⟨r, g', log, hr, p', W, ⟨x, rfl, -, hB', -⟩ | ⟨-, hB', rfl | ⟨rfl, -⟩⟩⟩ := (alloc_ends hE hB hq).trace
    · exact ⟨p', W, by simpa only [Session.step, hr] using hB'⟩
    · exact ⟨p', W, by simpa only [Session.step, hr] using hB'⟩
    · exact ⟨p', W, by simpa only [Session.step, hr] using hB'⟩
  | dealloc b => exact (hB.returns hE hq).2
  | shrink =>
    obtain ⟨-, p', hB'⟩ := hB.shrink
    exact ⟨p', _, hB'⟩
  | write a bytes =>
    obtain ⟨b, hb, hsub⟩ := hq
    exact ⟨p, V, hB.write hE hb hsub⟩

/-- A session grants what it should as long as its books balance. -/
theorem Balances.grants (hE : Heap.Session.Whole E) (hB : Balances E p₀ V₀ s p V) (hl : l.Valid) : s.Grants l := by
  obtain ⟨r, g', log, hr, p', W, ⟨x, rfl, hlacks, hB', hfresh⟩ | ⟨hlacks, -, hend⟩⟩ := (alloc_ends hE hB hl).trace
  · have hstep : s.step (.alloc l) = ⟨g', insert ⟨x, l⟩ s.live⟩ := by simp only [Session.step, hr]
    refine ⟨fun _ => ?_, fun y hy => ?_, fun e he => ?_⟩
    · rw [hr]
      exact iff_of_false nofun hlacks
    · rw [hr] at hy
      cases hy
      have hnew : ⟨x, l⟩ ∈ (⟨g', insert ⟨x, l⟩ s.live⟩ : Session).live := Set.mem_insert _ _
      rw [hstep]
      refine ⟨hlacks, hB'.holds hE hnew, fun b hb => ?_⟩
      exact hB'.disjoint hE hnew (Set.mem_insert_of_mem _ hb) fun he => hfresh b hb (congrArg Lease.start he).symm
    · rw [hr] at he
      cases he
  · refine ⟨fun hcount => ?_, fun y hy => ?_, fun e he => ?_⟩
    · rcases hend with rfl | ⟨rfl, hsat⟩
      · rw [hr]
        exact iff_of_true rfl hlacks
      · exact absurd hsat hcount
    · rcases hend with rfl | ⟨rfl, -⟩ <;> rw [hr] at hy <;> cases hy
    · rw [hr] at he
      rcases hend with rfl | ⟨rfl, hsat⟩
      · cases he
      · cases he
        exact ⟨rfl, hsat, hlacks⟩

/-! ## All blocks are back -/

/-- The frames that are free when no block is held and no slab idle are those that were free at the start. -/
theorem free_of_balances {t : HeapSite} (h₀ : Heap.Stands E p₀ t V₀) (hB : Balances E p₀ V₀ s p V)
    (hnone : s.live = ∅) (hbusy₀ : ∀ i, ∀ v ∈ V₀ i, v.idle (classSize i) = false)
    (hbusy : ∀ i, ∀ v ∈ V i, v.idle (classSize i) = false) (f : Nat) : p.Free f ↔ p₀.Free f := by
  obtain ⟨heap, -, hh⟩ := hB.stands
  have hstarts := starts_of_live hnone
  have hobjects : ∀ i, objectsOf V i = objectsOf V₀ i := fun i => by rw [hB.held, hstarts, Set.union_empty]
  have howns : ∀ f ∈ E.frames, E.Owns p V f ↔ E.Owns p₀ V₀ f := fun f hf => by
    have hiff := hB.frames f hf
    rw [hstarts] at hiff
    simpa using hiff
  constructor
  · intro hf
    have hmem := hh.supplies.free f hf
    rcases (howns f hmem).1 (.inl hf) with hf₀ | ⟨i, v, hv, hpage⟩
    · exact hf₀
    · obtain ⟨w, hw, hwp⟩ := Heap.slab_of_objects h₀ hh (hobjects i).ge hv (hbusy₀ i v hv)
      exact absurd (hwp.trans hpage) (hh.page_ne hf hw)
  · intro hf
    have hmem := h₀.supplies.free f hf
    rcases (howns f hmem).2 (.inl hf) with hfree | ⟨i, v, hv, hpage⟩
    · exact hfree
    · obtain ⟨w, hw, hwp⟩ := Heap.slab_of_objects hh h₀ (hobjects i).le hv (hbusy i v hv)
      exact absurd (hwp.trans hpage) (h₀.page_ne hf hw)

/-- **When all blocks are back**, a shrink leaves as many frames free as there were at the start. -/
theorem Balances.restores {t : HeapSite} (h₀ : Heap.Stands E p₀ t V₀) (hB : Balances E p₀ V₀ s p V)
    (hnone : s.live = ∅) (hbusy₀ : ∀ i, ∀ v ∈ V₀ i, v.idle (classSize i) = false) :
    (s.step .shrink).freeFrames = some p₀.freeFrames := by
  obtain ⟨-, q, hB'⟩ := hB.shrink
  obtain ⟨heap, -, hh⟩ := hB'.stands
  have hbusy : ∀ i, ∀ v ∈ Heap.shrunk (List.finRange classCount) V i, v.idle (classSize i) = false := fun i v hv => by
    rw [Heap.shrunk, if_pos (List.mem_finRange i)] at hv
    simpa using (List.mem_filter.1 hv).2
  have hfree := free_of_balances h₀ hB' hnone hbusy₀ hbusy
  rw [freeFrames, pool?_eq hB'.stands, Option.map_some]
  exact congrArg some (hB'.map.freeFrames_eq h₀.supplies.sound hh.supplies.sound hfree)

/-! ## Runs -/

theorem balances_run {qs : List Request} (hE : Heap.Session.Whole E) (hB : Balances E p₀ V₀ s p V)
    (hqs : s.Permitted qs) : ∃ q W, Balances E p₀ V₀ (s.run qs) q W := by
  unfold run
  induction qs generalizing s p V with
  | nil => exact ⟨p, V, hB⟩
  | cons q qs ih =>
    obtain ⟨p', W, hB'⟩ := hB.step hE q hqs.1
    exact ih hB' hqs.2

/-- The books of a session balance at the start. -/
theorem balances_ofHeap (hV : Heap.Stands E p h.site V) : Balances E p V (ofHeap h) p V := by
  have hstarts := starts_of_live (s := ofHeap h) rfl
  refine {
    stands := ⟨_, rfl, hV⟩
    map := .refl p
    fits := fun b hb => absurd hb (Set.notMem_empty b)
    unique := Set.injOn_empty _
    held := fun i => by rw [hstarts, Set.union_empty]
    apart := fun i => by rw [hstarts]; exact Set.disjoint_empty _
    lent := fun x hx => by rw [hstarts] at hx; exact absurd hx (Set.notMem_empty x)
    frames := fun f _ => by rw [hstarts]; exact or_iff_left (Set.notMem_empty _) }

/-- In a busy heap no slab is idle. -/
theorem idle_of_busy (hV : Heap.Stands E p h.site V) (hbusy : Busy h) (hv : v ∈ V i) :
    v.idle (classSize i) = false := by
  obtain ⟨next, hh⟩ := (hV.chain i).holds hv
  have hempty := hbusy i v.page ((Heap.Session.slabOf_iff hV).2 ⟨v, hv, rfl⟩)
  rw [Heap.Session.memory, hh.header (Heap.cellSize_classSize i)] at hempty
  exact hempty

/-- A session upholds what it owes as long as its books balance. -/
theorem upholds_of_balances (hE : Heap.Session.Whole E) (hV : Heap.Stands E p₀ h.site V₀)
    (hlive : ∀ o, o ∈ h.live ↔ o.start ∈ objectsOf V₀ o.sizeClass) (hbusy : Busy h)
    (hB : Balances E p₀ V₀ s p V) : Upholds h s where
  holds := fun b hb => hB.holds hE hb
  apart := fun b hb c hc hne => hB.disjoint hE hb hc hne
  others := fun b hb => by
    refine ⟨fun o ho => hB.disjoint_object hE hb ((hlive o).1 ho), fun f hf => ?_⟩
    obtain ⟨hmem, hnot⟩ := (Heap.Session.lent_iff hE hV).1 hf
    rw [hV.mapper]
    exact hB.disjoint_lent hE hb hmem hnot
  grants := fun l hl => hB.grants hE hl
  returns := fun b hb => (hB.returns hE hb).1
  shrinks := hB.shrink.1
  restores := fun hnone => by
    rw [hB.restores hV hnone fun i v hv => idle_of_busy hV hbusy hv, freeFrames,
      pool?_eq (balances_ofHeap hV).stands, Option.map_some]

/-- **Every run of the allocator** over a heap and a pool of which others hold what they will, from a state in which no
slab is empty: blocks are as they were asked for and meet nobody else's, there is none exactly where a page cannot hold
the layout or nothing is left, each goes back where it comes from without a word, and in the end no frame is lost. -/
theorem upholds_run {rs : List Region} {mapper : Mapper} {a : Arena} (ho : Heap.Session.Opens rs mapper a)
    (es : List Heap.Session.Event) (qs : List Request) (hes : (Heap.Session.start a mapper).Allowed es)
    (hbusy : Busy (es.foldl Heap.Session.happen (Heap.Session.start a mapper)))
    (hqs : (ofHeap (es.foldl Heap.Session.happen (Heap.Session.start a mapper))).Permitted qs) :
    Upholds (es.foldl Heap.Session.happen (Heap.Session.start a mapper))
      ((ofHeap (es.foldl Heap.Session.happen (Heap.Session.start a mapper))).run qs) := by
  obtain ⟨E, hE, hkept⟩ := Heap.Session.whole_start ho
  obtain ⟨p, V, hV, hlive⟩ := Heap.Session.kept_foldl_happen hE hkept hes
  obtain ⟨q, W, hB⟩ := balances_run hE (balances_ofHeap hV) hqs
  exact upholds_of_balances hE hV hlive hbusy hB

open Heap.Session (fourFrames)

/-- A heap without slabs is busy. -/
theorem busy_of_slabCount (hV : Heap.Stands E p h.site V)
    (hnone : ∀ i, ((Heap.cachePart i).get h.site).cache.slabCount = 0) : Busy h := by
  intro i page hpage
  obtain ⟨v, hv, -⟩ := (Heap.Session.slabOf_iff hV).1 hpage
  have hcount := (hV.caches i).count
  rw [hnone i] at hcount
  rw [List.length_eq_zero_iff.1 hcount.symm] at hv
  cases hv

/-- The pool of four frames after others have taken one. -/
def oneLent : Heap.Session := (Heap.Session.start fourFrames .identity).happen (.pool .alloc)

theorem live_alloc (hr : (alloc l s.ground).result = .ok (some x)) :
    (s.step (.alloc l)).live = insert ⟨x, l⟩ s.live := by
  simp only [step, hr]

theorem live_write (s : Session) (a : Ptr) (bytes : List UInt8) : (s.step (.write a bytes)).live = s.live := rfl

theorem alloc_oneLent : (alloc ⟨100, 8⟩ (ofHeap oneLent).ground).result = .ok (some 0x2f30) ∧
    (alloc ⟨3000, 64⟩ ((ofHeap oneLent).step (.alloc ⟨100, 8⟩)).ground).result = .ok (some 0x3000) := by
  decide +kernel

theorem busy_oneLent : Busy oneLent := by
  obtain ⟨E, hE, hkept⟩ := Heap.Session.whole_start Heap.Session.opens_fourFrames
  obtain ⟨p, V, hV, -⟩ := Heap.Session.kept_happen hE hkept (.pool .alloc) trivial
  refine busy_of_slabCount (h := oneLent) hV fun i => ?_
  show ((Heap.cachePart i).get (Heap.Session.start fourFrames .identity).site).cache.slabCount = 0
  simp [Heap.cachePart, Heap.Session.start, Heap.empty, Slab.Cache.empty]

/-- Others hold a frame; a cell and a frame are asked for, a slab's mark is written into the frame, and the cell comes
back. -/
theorem upholds_oneLent : Upholds oneLent ((ofHeap oneLent).run [.alloc ⟨100, 8⟩, .alloc ⟨3000, 64⟩,
    .write 0x3000 (Memory.wordBytes Layout.slabMagic), .dealloc ⟨0x2f30, ⟨100, 8⟩⟩, .shrink]) := by
  obtain ⟨hcell, hframe⟩ := alloc_oneLent
  have hlive := live_alloc hframe
  rw [live_alloc hcell] at hlive
  have hheld : ⟨0x3000, ⟨3000, 64⟩⟩ ∈ (((ofHeap oneLent).step (.alloc ⟨100, 8⟩)).step (.alloc ⟨3000, 64⟩)).live := by
    rw [hlive]
    exact Set.mem_insert _ _
  have hback : ⟨0x2f30, ⟨100, 8⟩⟩ ∈ ((((ofHeap oneLent).step (.alloc ⟨100, 8⟩)).step (.alloc ⟨3000, 64⟩)).step
      (.write 0x3000 (Memory.wordBytes Layout.slabMagic))).live := by
    rw [live_write, hlive]
    exact Set.mem_insert_of_mem _ (Set.mem_insert _ _)
  refine upholds_run Heap.Session.opens_fourFrames [.pool .alloc] _ ⟨trivial, trivial⟩ busy_oneLent
    ⟨⟨3, rfl⟩, ⟨6, rfl⟩, ⟨_, hheld, ?_⟩, hback, trivial, trivial⟩
  rw [Lease.bytes, Memory.length_wordBytes]
  exact Memory.block_mono (by decide)

end Session

end Keel.Allocator
