import Keel.Kernel.Bringup
import Keel.Proofs.Frame.Placement
import Keel.Proofs.Ground

/-!
# What bring-up leaves behind

`Online` says what `startMemory` has done where it succeeds (`startMemory_ends`): a pool whose bitmap lies where it was
placed, an empty heap, and no change to memory but the bitmap. The free frames are exactly those of usable regions that
are not frame zero, not the bitmap's and not touched by a boot module.
-/

namespace Keel

open Keel.Memory (block)
open Keel.Frame (Pool Request Avoids)
open Keel.Frame.Pool (Touched)

variable {α : Type} {rs : List Region} {ms : List BootModule} {mapper : Mapper} {p : Pool} {B : Set Ptr} {f : Nat}

namespace Kernel

variable {k : Kernel}

@[simp] theorem ends_onGround {x : Action Ground α} {Q : Checked Fault α → Kernel → Prop} :
    (onGround x).Ends k Q ↔ x.Ends k.ground fun r g => Q r { k with ground := g } := Iff.rfl

@[simp] theorem ends_onPool {x : Action Pool α} {Q : Checked Fault α → Kernel → Prop} : (onPool x).Ends k Q ↔
    (Arena.onPool x).Ends k.ground.arena fun r a => Q r { k with ground := { k.ground with arena := a } } := Iff.rfl

/-- The outcome of an action in which corruption stops the machine. -/
def escalated : Checked Fault α → Checked Fault α
  | .error (.fault .corrupted) => .error (.halt .corruptCore)
  | r => r

theorem escalated_eq_ok {r : Checked Fault α} {a : α} : escalated r = .ok a ↔ r = .ok a := by
  rcases r with (f | h) | b
  · cases f <;> exact ⟨nofun, nofun⟩
  · exact Iff.rfl
  · exact Iff.rfl

@[simp] theorem ends_escalate {x : Action Kernel α} {Q : Checked Fault α → Kernel → Prop} :
    (escalate x).Ends k Q ↔ x.Ends k fun r k' => Q (escalated r) k' := by
  unfold escalate
  rw [Action.ends_bind, Action.ends_attempt]
  refine iff_of_eq (congrArg (x.Ends k) (funext fun r => funext fun k' => ?_))
  rcases r with (f | h) | a
  · cases f <;> rfl
  · rfl
  · rfl

/-- The frames of the boot modules are taken out of use, and nothing else changes. -/
theorem reserveModules_ends (ms : List BootModule) (h : k.ground.arena.Keeps p B) (hs : p.Sound rs) :
    (reserveModules ms).Ends k fun r k' => r = .ok () ∧ ∃ a qs, k' = { k with ground := { k.ground with arena := a } } ∧
      k.ground.arena.Becomes a (p.after qs) B ∅ ∧
      ∀ f, (p.after qs).Free f ↔ p.Free f ∧ ∀ m ∈ ms, ¬Touched m.addr m.size f := by
  induction ms generalizing k p with
  | nil => exact ⟨rfl, k.ground.arena, [], rfl, h.becomes, fun f => (and_iff_left fun m => nofun).symm⟩
  | cons m ms ih =>
    rw [reserveModules, Action.ends_ite]
    split
    · rename_i h0
      have hreserve := Arena.reserve_ends h hs m.addr m.size ∅
      have hfree : ∀ f, (Request.on p (.reserve m.addr m.size)).Free f ↔ p.Free f ∧ ¬Touched m.addr m.size f :=
        fun f => hs.free_reserve m.addr m.size
      have hrest : ∀ a, k.ground.arena.Becomes a (p.after [.reserve m.addr m.size]) B ∅ →
          (reserveModules ms).Ends { k with ground := { k.ground with arena := a } } fun r k' => r = .ok () ∧
            ∃ a qs, k' = { k with ground := { k.ground with arena := a } } ∧ k.ground.arena.Becomes a (p.after qs) B ∅ ∧
              ∀ f, (p.after qs).Free f ↔ p.Free f ∧ ∀ m' ∈ m :: ms, ¬Touched m'.addr m'.size f := by
        intro a ha
        refine (ih ha.keeps (hs.on (.reserve m.addr m.size)).1).mono ?_
        intro r k' hends
        obtain ⟨hr, a', qs, rfl, hb, hf⟩ := hends
        refine ⟨hr, a', .reserve m.addr m.size :: qs, rfl, ha.trans hb, fun f => ?_⟩
        rw [List.forall_mem_cons, ← and_assoc, ← hfree]
        exact hf f
      rw [Action.ends_bind, Action.ends_attempt, ends_onPool]
      refine hreserve.mono ?_
      intro r a hends
      obtain ⟨hr, ha⟩ := hends
      have hrest := hrest a ha
      rcases Pool.reserve_ends hs m.addr m.size with ⟨hok, -⟩ | ⟨-, -, herr | herr⟩
      · rw [hr, hok]
        exact hrest
      · rw [hr, herr, Action.attempted_fault, Action.goes_ok, Action.ends_bind, Action.ends_note, Action.goes_ok]
        exact hrest
      · rw [hr, herr, Action.attempted_fault, Action.goes_ok, Action.ends_bind, Action.ends_note, Action.goes_ok]
        exact hrest
    · rename_i h0
      refine (ih h hs).mono ?_
      intro r k' hends
      obtain ⟨hr, a, qs, hk, hb, hf⟩ := hends
      refine ⟨hr, a, qs, hk, hb, fun f => (hf f).trans (and_congr_right fun _ => ?_)⟩
      rw [List.forall_mem_cons]
      exact (and_iff_right fun ht => h0 ht.1).symm

/-- Frames of boot modules are reserved one after another. -/
theorem steps_reserveModules {R : Kernel → Kernel → Prop} [IsPreorder Kernel R]
    (hreserve : ∀ base length, Action.Steps R (onPool (Pool.reserve base length))) (ms : List BootModule) :
    Action.Steps R (reserveModules ms) := by
  induction ms with
  | nil => exact Action.steps_pure _
  | cons m ms ih =>
    rw [reserveModules]
    refine Action.Steps.ite ((hreserve m.addr m.size).attempt.bind fun r => ?_) ih
    cases r with
    | ok _ => exact ih
    | error f => exact (Action.steps_note _).bind fun _ => ih

/-- The bitmap of a kernel stays where it is. -/
def SamePlace : Kernel → Kernel → Prop := Order.Preimage (fun k => k.ground.arena) Arena.SamePlace

instance : IsPreorder Kernel SamePlace := Order.Preimage.instIsPreorder

/-- Whatever is done to the pool, its bitmap stays where it is. -/
theorem samePlace_onPool (x : Action Pool α) : Action.Steps SamePlace (onPool x) := fun k =>
  Arena.steps_onPool x k.ground.arena

/-! ## The number of words -/

/-- A map needs some words, and they fit memory. -/
theorem wordsFor_ok {words : Nat} (h : Frame.wordsFor rs = .ok words) : 0 < words ∧ 8 * words < 2 ^ 50 := by
  cases hspan : Frame.span rs with
  | error e => simp [Frame.wordsFor, hspan, bind, Except.bind] at h
  | ok a =>
    obtain ⟨lo, hi⟩ := a
    obtain ⟨hlt, hlimit, -⟩ := Frame.span_ok hspan
    obtain rfl : Frame.Bitmap.wordsFor (hi - lo) = words :=
      Except.ok.inj ((Frame.wordsFor_of_span hspan).symm.trans h)
    unfold Frame.Bitmap.wordsFor
    omega

/-- Without a number of words there is no span, and where there is one, the ends of all regions fit. -/
theorem wordsFor_cases (rs : List Region) : (∃ f, Frame.wordsFor rs = .error (.fault f)) ∨
    ∃ words, Frame.wordsFor rs = .ok words ∧ ∀ r ∈ Region.nonEmpty rs, r.EndFits := by
  cases hspan : Frame.span rs with
  | error e =>
    have hsettles := Frame.settles_span rs
    rw [hspan] at hsettles
    obtain ⟨f, rfl⟩ := hsettles.exists_fault
    exact .inl ⟨f, by rw [Frame.wordsFor, hspan, Checked.error_bind]⟩
  | ok a => exact .inr ⟨_, Frame.wordsFor_of_span hspan, (Frame.span_eq_ok.1 ⟨a, hspan⟩).2⟩

/-! ## Memory -/

/-- The number of frames that hold a bitmap. -/
def bitmapFrames (words : Nat) : Nat := (words * 8 + 4095) / 4096

theorem bitmapFrames_pos {words : Nat} (h : 0 < words) : 0 < bitmapFrames words := by
  unfold bitmapFrames
  omega

/-- The frames that the bytes of a bitmap touch are its own. -/
theorem touched_bitmap {words first : Nat} (hf : first < 2 ^ 52) (hw : 8 * words < 2 ^ 50)
    (hr : p.Reservable ⟨Align.frameStart first⟩ (UInt64.ofNat (words * 8))) :
    Touched ⟨Align.frameStart first⟩ (UInt64.ofNat (words * 8)) f ↔ first ≤ f ∧ f < first + bitmapFrames words := by
  have hstart : (⟨Align.frameStart first⟩ : PhysAddr).raw.toNat = first * 4096 := Align.toNat_frameStart hf
  have hbytes : (UInt64.ofNat (words * 8)).toNat = words * 8 := by rw [UInt64.toNat_ofNat', Nat.mod_eq_of_lt (by omega)]
  rw [Touched, and_iff_right hr.ne_zero, and_iff_right hr.fits, Pool.firstTouched, Pool.stopTouched, hstart, hbytes,
    bitmapFrames]
  omega

/-- The frames that stay free when those of the bitmap are taken. -/
theorem free_besides_bitmap {words first : Nat} (hs : p.Sound rs) (hfree : ∀ f, p.Free f ↔ p.Usable f ∧ f ≠ 0)
    (hpos : 0 < words) (hw : 8 * words < 2 ^ 50)
    (hin : ∃ r ∈ rs, r.kind = .usable ∧ r.base.raw.toNat ≤ first * 4096 ∧ (first + bitmapFrames words) * 4096 ≤ r.stop)
    (hr : p.Reservable ⟨Align.frameStart first⟩ (UInt64.ofNat (words * 8))) (f : Nat) :
    (Request.on p (.reserve ⟨Align.frameStart first⟩ (UInt64.ofNat (words * 8)))).Free f ↔
      (p.Usable f ∧ f ≠ 0) ∧ ¬(first ≤ f ∧ f < first + bitmapFrames words) := by
  have hfirst : first < 2 ^ 52 := by
    obtain ⟨r, hr, hk, h1, h2⟩ := hin
    have hend : first * 4096 + 4096 ≤ r.stop := by
      have := bitmapFrames_pos hpos
      rw [Nat.add_mul] at h2
      omega
    exact (hs.charts.usable hr hk ⟨h1, hend⟩).lt hs.charts
  rw [hs.free_reserve, hfree, touched_bitmap hfirst hw hr]

/-- The bytes of a bitmap in frames of a usable region can be reserved. -/
theorem reservable_bitmap {words first : Nat} (hs : p.Sound rs) (hpos : 0 < words) (hw : 8 * words < 2 ^ 50)
    (hin : ∃ r ∈ rs, r.kind = .usable ∧ r.base.raw.toNat ≤ first * 4096 ∧ (first + bitmapFrames words) * 4096 ≤ r.stop) :
    p.Reservable ⟨Align.frameStart first⟩ (UInt64.ofNat (words * 8)) := by
  obtain ⟨r, hr, hk, hlo, hhi⟩ := hin
  have hframes := bitmapFrames_pos hpos
  have hcover : words * 8 ≤ bitmapFrames words * 4096 := by
    unfold bitmapFrames
    omega
  -- the frames of the bitmap are tracked, so their numbers are small
  have hinside : ∀ f, first ≤ f → f < first + bitmapFrames words → p.base ≤ f ∧ f < p.base + p.frames := by
    intro f h1 h2
    have hlow := Nat.mul_le_mul_right 4096 h1
    have hhigh := Nat.mul_le_mul_right 4096 (Nat.succ_le_of_lt h2)
    rw [Nat.succ_mul] at hhigh
    have hregion : r.base.raw.toNat ≤ f * 4096 ∧ f * 4096 + 4096 ≤ r.stop := by omega
    exact (hs.charts.usable hr hk hregion).inside hs.charts
  have hfirst := hinside first (Nat.le_refl _) (by omega)
  have hlast := hinside (first + bitmapFrames words - 1) (by omega) (by omega)
  have hlimit := hs.charts.limit
  have hstart : (⟨Align.frameStart first⟩ : PhysAddr).raw.toNat = first * 4096 := Align.toNat_frameStart (by omega)
  have hbytes : (UInt64.ofNat (words * 8)).toNat = words * 8 := by rw [UInt64.toNat_ofNat', Nat.mod_eq_of_lt (by omega)]
  refine ⟨fun h0 => ?_, ?_, ?_, ?_⟩
  · rw [h0] at hbytes
    have hzero : (0 : UInt64).toNat = 0 := rfl
    omega
  · rw [hstart, hbytes]
    omega
  · rw [Pool.stopTouched, hstart, hbytes]
    omega
  · rw [Pool.firstTouched, hstart]
    omega

/-- There is a line for as many free frames as have addresses. -/
theorem memoryOnlineLine_eq_ok (bitmap : PhysAddr) (words : Nat) {s : Frame.PoolStats} (h : s.free < 2 ^ 52) :
    ∃ line, memoryOnlineLine (ε := Fault) bitmap words s = .ok line := by
  unfold memoryOnlineLine Frame.PoolStats.freeBytes
  rw [Pool.mul_pageSize h]
  exact ⟨_, rfl⟩

/-- What bring-up has made of the memory services `g`: the pool `p`, whose bitmap of `words` words lies from frame `first`
on, and an empty heap. -/
structure Online (rs : List Region) (ms : List BootModule) (mapper : Mapper) (words first : Nat) (p : Pool)
    (g g' : Ground) : Prop where
  sized : Frame.wordsFor rs = .ok words
  placed : Frame.PlacedAt rs words ms first
  pos : 1 ≤ first
  avoids : Avoids (ms.filterMap BootModule.frames?) first (bitmapFrames words)
  inside : ∃ r ∈ rs, r.kind = .usable ∧ r.base.raw.toNat ≤ first * 4096 ∧ (first + bitmapFrames words) * 4096 ≤ r.stop
  sound : p.Sound rs
  /-- Free are the frames of usable regions that are not frame zero, not the bitmap's, and touched by no module. -/
  free : ∀ f, p.Free f ↔ (p.Usable f ∧ f ≠ 0) ∧ ¬(first ≤ f ∧ f < first + bitmapFrames words) ∧
    ∀ m ∈ ms, ¬Touched m.addr m.size f
  becomes : g.arena.Becomes g'.arena p (block (mapper.page first) (8 * words)) ∅
  place : g'.arena.place = some (some (mapper.page first, words))
  unstarted : g.heap = none
  heap : g'.heap = some (Heap.empty mapper)

/-- Kernels that differ in nothing that is read of them. -/
structure Alike (k k' : Kernel) : Prop where
  ground : k.ground.Alike k'.ground
  rest : k' = { k with ground := k'.ground }

theorem Alike.refl (k : Kernel) : k.Alike k := ⟨.refl _, rfl⟩

/-- Why memory does not come up: a pool is up already, none opens over the map, or there is no place for its bitmap. -/
def Declines (rs : List Region) (ms : List BootModule) (k : Kernel) : Prop :=
  k.ground.arena.pool ≠ none ∨ (∀ size, ¬Frame.Opens rs size) ∨ ∃ words, Frame.wordsFor rs = .ok words ∧
    ((Frame.place rs words ms : Action Kernel PhysAddr) k).result = .error (.fault .tooMany)

/-- **Memory comes up** with the bitmap in frames of its own, and with no frame free that something else is in, or
everything stays as it is, unless a heap was started before the pool. -/
theorem startMemory_cases (rs : List Region) (ms : List BootModule) (mapper : Mapper) (k : Kernel) :
    (startMemory rs ms mapper).Ends k fun r k' =>
      (∃ words first p, r = .ok p.stats ∧ Online rs ms mapper words first p k.ground k'.ground ∧
        k' = { k with ground := k'.ground, stage := k.stage.later .memory }) ∨
      (∃ f, r = .error (.fault f)) ∧
        (k.Declines rs ms ∧ k.Alike k' ∨ k.ground.arena.pool = none ∧ k.ground.heap ≠ none) := by
  unfold startMemory
  rw [Action.ends_bind, Action.ends_get, Action.goes_ok]
  dsimp only
  rw [Action.ends_ite]
  split
  · rename_i hpool
    refine .inr ⟨⟨_, rfl⟩, .inl ⟨.inl fun hnone => ?_, .refl k⟩⟩
    rw [Ground.poolStarted, hnone] at hpool
    cases hpool
  rename_i hpool
  have hpool : k.ground.arena.pool = none := by simpa [Ground.poolStarted] using hpool
  rw [Action.ends_bind, Action.ends_lift]
  rcases wordsFor_cases rs with ⟨f, hwords⟩ | ⟨words, hwords, hfits⟩
  · rw [hwords]
    refine .inr ⟨⟨f, rfl⟩, .inl ⟨.inr (.inl fun size h => ?_), .refl k⟩⟩
    obtain ⟨words, hok, -⟩ := h.roomy
    cases hwords.symm.trans hok
  obtain ⟨hpos, hlt⟩ := wordsFor_ok hwords
  rw [hwords, Action.goes_ok]
  refine (Frame.place_ends ms hpos (by omega) hfits).result.bind fun r k₀ h => ?_
  obtain ⟨hplace, rfl, rfl | ⟨first, rfl, hplaced, hfirst, havoids, hinside⟩⟩ := h
  · exact .inr ⟨⟨_, rfl⟩, .inl ⟨.inr (.inr ⟨words, hwords, hplace.symm⟩), .refl k₀⟩⟩
  rw [Action.goes_ok, Action.ends_bind, ends_onGround]
  refine (Ground.startPool_ends (by omega)).mono fun r g h => ?_
  rcases h with ⟨stats, p, rfl, hs, hfree, hb, hplace, hg⟩ | ⟨hcause, f, rfl, halike⟩
  rotate_left
  · refine .inr ⟨⟨f, rfl⟩, .inl ⟨.inr (.inl fun size h => ?_), halike, rfl⟩⟩
    exact hcause.elim (absurd hpool) fun hno => hno { h with roomy := ⟨words, hwords, Nat.le_refl _⟩ }
  have hbytes : Count.mul (ε := Fault) words 8 = .ok (words * 8) := Count.mul_eq_ok.2 ⟨by omega, rfl⟩
  rw [Action.goes_ok, Action.ends_bind, Action.ends_lift, hbytes, Action.goes_ok, Action.ends_bind, ends_onPool]
  refine ((Arena.reserve_ends hb.keeps hs _ _ ∅).and (Arena.steps_onPool _ _)).mono fun r a h => ?_
  obtain ⟨⟨rfl, ha⟩, hplace₀⟩ := h
  have hres := reservable_bitmap hs hpos hlt hinside
  rcases Pool.reserve_ends hs ⟨Align.frameStart first⟩ (UInt64.ofNat (words * 8)) with ⟨hok, -⟩ | ⟨-, hno, -⟩
  rotate_left
  · exact absurd hres hno
  obtain ⟨hs', hmap⟩ := hs.on (.reserve ⟨Align.frameStart first⟩ (UInt64.ofNat (words * 8)))
  have hfree' := free_besides_bitmap hs hfree hpos hlt hinside hres
  change g.arena.Becomes a (Request.on p (.reserve ⟨Align.frameStart first⟩ (UInt64.ofNat (words * 8)))) _ ∅ at ha
  rw [hok, Action.goes_ok]
  generalize Request.on p (.reserve ⟨Align.frameStart first⟩ (UInt64.ofNat (words * 8))) = p' at ha hs' hmap hfree'
  refine ((reserveModules_ends ms ha.keeps hs').and
    (steps_reserveModules (fun _ _ => samePlace_onPool _) ms _)).bind fun r k₁ h => ?_
  obtain ⟨⟨rfl, a₁, qs, rfl, hb₁, hfree₁⟩, hplace₁⟩ := h
  rw [Action.goes_ok, Action.ends_bind, ends_escalate, ends_onGround]
  refine (Ground.startHeap_ends mapper).mono fun r g₁ hheap => ?_
  rcases hheap with ⟨rfl, -, hnone, rfl⟩ | ⟨hcause, -, f, hf, rfl⟩
  · rw [show escalated (.ok () : Checked Fault Unit) = .ok () from rfl, Action.goes_ok, Action.ends_bind, ends_onPool]
    refine ((Arena.onPool_ends hb₁.keeps rfl).and (Arena.steps_onPool _ a₁)).mono fun r a₂ h => ?_
    obtain ⟨⟨rfl, hk, halters, hpoison⟩, hplace₂⟩ := h
    have hfew : (p'.after qs).stats.free < 2 ^ 52 := by
      have htotal := (hs'.after qs).total
      have hlt := (hs'.after qs).total_lt
      show (p'.after qs).freeFrames < 2 ^ 52
      omega
    change Action.Goes _ _ (.ok (p'.after qs).stats) _
    rw [Action.goes_ok, Action.ends_bind, advance, Action.ends_modify, Action.goes_ok]
    refine Action.Ends.lift_bind (fun line _ => ?_) fun e he => ?_
    rotate_left
    · obtain ⟨line, hline⟩ := memoryOnlineLine_eq_ok ⟨Align.frameStart first⟩ words hfew
      cases he.symm.trans hline
    rw [Action.ends_bind, Action.ends_note, Action.goes_ok, Action.ends_pure]
    refine .inl ⟨words, first, p'.after qs, rfl, {
      sized := hwords
      placed := hplaced
      pos := hfirst
      avoids := havoids
      inside := hinside
      sound := hs'.after qs
      free := fun f => ?_
      becomes := ((hb.trans ha).trans hb₁).trans ⟨hk, halters.mono Set.subset_union_right, hpoison⟩
      place := ((hplace₂.trans hplace₁).trans hplace₀).trans hplace
      unstarted := by rwa [hg] at hnone
      heap := rfl }, rfl⟩
    rw [hfree₁, hfree', and_assoc, (hmap.trans (hs'.sameMap_after qs)).usable_iff]
  · have hfault : escalated (.error (.fault f) : Checked Fault Unit) = .error (.fault f) := by
      cases f <;> first | rfl | exact absurd rfl hf
    rw [hfault, Action.goes_error]
    refine .inr ⟨⟨f, rfl⟩, .inr ⟨hpool, fun hnone => ?_⟩⟩
    rcases hcause with hnopool | hheap
    · obtain ⟨_, hsome, -⟩ := hb₁.keeps
      exact absurd (hsome.symm.trans hnopool) (Option.some_ne_none _)
    · refine hheap ?_
      rw [hg]
      exact hnone

/-- Where memory has come up, it has come up in order. -/
theorem startMemory_ends (rs : List Region) (ms : List BootModule) (mapper : Mapper) (k : Kernel) :
    (startMemory rs ms mapper).Ends k fun r k' => ∀ stats, r = .ok stats →
      ∃ words first p, Online rs ms mapper words first p k.ground k'.ground := by
  refine (startMemory_cases rs ms mapper k).mono fun r k' h stats hr => ?_
  rcases h with ⟨words, first, p, -, o, -⟩ | ⟨⟨f, rfl⟩, -⟩
  · exact ⟨words, first, p, o⟩
  · cases hr

end Kernel

end Keel
