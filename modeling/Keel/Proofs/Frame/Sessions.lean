import Mathlib.Data.Set.Insert
import Mathlib.Order.Interval.Set.Defs
import Keel.Proofs.Frame.Creation

/-!
# Sessions with a pool

A session is a fresh pool and a list of requests to it, with any arguments, together with what its clients have been told:
the frames they hold, and those they have reserved. `Session.Kept` is the invariant of a session (`kept_run`): the
books are sound, and no frame that somebody holds or has reserved is free. So the frame handed out next is the lowest
free one, whole in one usable region, and nobody else's (`serves_run`).
-/

namespace Keel.Frame

variable {rs : List Region} {b : Bitmap} {l : Ledger}

/-- A pool and what its clients know. -/
structure Session where
  pool : Pool
  /-- The frames handed out and not given back since. -/
  held : Set Nat
  /-- The frames touched by a range that was reserved, and not given back since. -/
  reserved : Set Nat
  /-- How many requests for a frame have failed. -/
  refused : Nat

namespace Session

open Pool (firstTouched stopTouched)

variable {s : Session} {f : Nat}

/-- The session with a fresh pool. -/
def start (p : Pool) : Session := ⟨p, ∅, ∅, 0⟩

/-- One request, and what its answer tells the client. -/
def step (s : Session) : Request → Session
  | .alloc =>
    match Pool.alloc s.pool with
    | ⟨.ok pa, p, _⟩ => { s with pool := p, held := insert (Align.frameOf pa.raw) s.held }
    | ⟨.error (.fault _), p, _⟩ => { s with pool := p, refused := s.refused + 1 }
    | ⟨.error (.halt _), p, _⟩ => { s with pool := p }
  | .release pa =>
    match Pool.release pa s.pool with
    | ⟨.ok (), p, _⟩ =>
      { s with pool := p, held := s.held \ {Align.frameOf pa.raw}, reserved := s.reserved \ {Align.frameOf pa.raw} }
    | ⟨.error _, p, _⟩ => { s with pool := p }
  | .reserve base length =>
    match Pool.reserve base length s.pool with
    | ⟨.ok _, p, _⟩ =>
      { s with pool := p, reserved := s.reserved ∪ Set.Ico (firstTouched base) (stopTouched base length) }
    | ⟨.error _, p, _⟩ => { s with pool := p }

/-- The session after a list of requests. -/
def run (s : Session) (qs : List Request) : Session := qs.foldl step s

/-- What holds of a session at all times. -/
structure Kept (s : Session) (rs : List Region) : Prop where
  sound : s.pool.Sound rs
  held : ∀ f ∈ s.held, ¬s.pool.Free f
  reserved : ∀ f ∈ s.reserved, ¬s.pool.Free f
  refused : s.pool.failures = s.refused

/-! ## One request -/

theorem kept_alloc (h : s.Kept rs) : (s.step .alloc).Kept rs := by
  obtain ⟨r, q, log, ht, ha⟩ := (Pool.alloc_ends h.sound).trace
  simp only [step, ht]
  rcases ha with ⟨i, hs, hr, hsound, hmarks, hfail⟩ | ⟨-, -, hr, hq⟩ | ⟨-, -, hr, hq⟩
  · subst hr
    have hi := (Pool.free_of_scan hs).1
    have hframe : Align.frameOf (Align.frameStart (s.pool.base + i)) = s.pool.base + i :=
      Align.frameOf_frameStart ((hi.clear h.sound).2.lt h.sound.charts)
    refine ⟨hsound, fun f hf => ?_, fun f hf hfree => h.reserved f hf (hmarks.free_iff.1 hfree).1, ?_⟩
    · intro hfree
      obtain ⟨hfree, hne⟩ := hmarks.free_iff.1 hfree
      rcases Set.mem_insert_iff.1 hf with rfl | hf
      · rw [hframe, Nat.add_sub_cancel_left] at hne
        exact hne (Finset.mem_singleton_self i)
      · exact h.held f hf hfree
    · exact hfail.trans h.refused
  · subst hr hq
    exact ⟨h.sound.failures _, h.held, h.reserved, congrArg (· + 1) h.refused⟩
  · subst hr hq
    exact ⟨h.sound, h.held, h.reserved, h.refused⟩

theorem kept_release (h : s.Kept rs) (pa : PhysAddr) : (s.step (.release pa)).Kept rs := by
  obtain ⟨r, q, log, ht, ha⟩ := (Pool.release_ends h.sound pa).trace
  simp only [step, ht]
  rcases ha with ⟨hr, hrel, hsound, hclears, -, -, hfail⟩ | ⟨hq, -, hr⟩
  · subst hr
    obtain ⟨h1, h2⟩ := hrel.usable.inside h.sound.charts
    have hfree : ∀ f, q.Free f ↔ s.pool.Free f ∨ f = Align.frameOf pa.raw := fun f => by
      rw [hclears.free_iff (by omega), Nat.add_sub_cancel' h1]
    refine ⟨hsound, fun f hf hq => ?_, fun f hf hq => ?_, hfail.trans h.refused⟩
    · obtain ⟨hf, hne⟩ := hf
      exact ((hfree f).1 hq).elim (h.held f hf) hne
    · obtain ⟨hf, hne⟩ := hf
      exact ((hfree f).1 hq).elim (h.reserved f hf) hne
  · subst hq
    rcases hr with rfl | rfl
    · exact ⟨h.sound, h.held, h.reserved, h.refused⟩
    · exact ⟨h.sound, h.held, h.reserved, h.refused⟩

theorem kept_reserve (h : s.Kept rs) (base : PhysAddr) (length : UInt64) :
    (s.step (.reserve base length)).Kept rs := by
  obtain ⟨r, q, log, ht, ha⟩ := (Pool.reserve_ends h.sound base length).trace
  simp only [step, ht]
  rcases ha with ⟨hr, -, hsound, hmarks, -, -, hfail⟩ | ⟨hq, -, hr⟩
  · subst hr
    refine ⟨hsound, fun f hf hq => h.held f hf (hmarks.free_iff.1 hq).1, fun f hf hq => ?_, hfail.trans h.refused⟩
    obtain ⟨hfree, hne⟩ := hmarks.free_iff.1 hq
    rcases hf with hf | ⟨h1, h2⟩
    · exact h.reserved f hf hfree
    · refine hne (Finset.mem_filter.2 ?_)
      obtain ⟨h3, h4, -⟩ := hfree
      rw [Finset.mem_range, Nat.add_sub_cancel' h3]
      exact ⟨by omega, h1, h2⟩
  · subst hq
    rcases hr with rfl | rfl
    · exact ⟨h.sound, h.held, h.reserved, h.refused⟩
    · exact ⟨h.sound, h.held, h.reserved, h.refused⟩

/-- Every request keeps the invariant. -/
theorem kept_step (h : s.Kept rs) (q : Request) : (s.step q).Kept rs := by
  cases q with
  | alloc => exact kept_alloc h
  | release pa => exact kept_release h pa
  | reserve base length => exact kept_reserve h base length

/-! ## Runs -/

/-- A session asks its pool what its requests say. -/
theorem pool_run (s : Session) (qs : List Request) : (s.run qs).pool = s.pool.after qs := by
  unfold run Pool.after
  induction qs generalizing s with
  | nil => rfl
  | cons q qs ih =>
    rw [List.foldl_cons, List.foldl_cons, ih]
    congr 1
    cases q with
    | alloc => rw [step, Request.on]; split <;> rename_i ht <;> rw [ht]
    | release pa => rw [step, Request.on]; split <;> rename_i ht <;> rw [ht]
    | reserve base length => rw [step, Request.on]; split <;> rename_i ht <;> rw [ht]

theorem kept_foldl {qs : List Request} (h : s.Kept rs) : (s.run qs).Kept rs := by
  unfold run
  induction qs generalizing s with
  | nil => exact h
  | cons q qs ih => exact ih (kept_step h q)

/-- A fresh pool has its invariant. -/
theorem kept_start (hc : (Pool.create rs b).result = .ok l) :
    (start (l.withBitmap (Pool.create rs b).state)).Kept rs := by
  obtain ⟨r, c, log, ht, h⟩ := (Pool.create_ends rs b).trace
  rw [ht] at hc ⊢
  rcases h with ⟨-, l', hl, hfresh, -⟩ | ⟨-, -, e, he⟩
  · obtain rfl : l = l' := Except.ok.inj (hc.symm.trans hl)
    exact ⟨hfresh.sound, fun _ => nofun, fun _ => nofun, hfresh.failures⟩
  · cases hc.symm.trans he

/-- **Every session** keeps the books sound and the frames of its clients out of the free ones. -/
theorem kept_run (hc : (Pool.create rs b).result = .ok l) (qs : List Request) :
    ((start (l.withBitmap (Pool.create rs b).state)).run qs).Kept rs := kept_foldl (kept_start hc)

/-! ## The next frame -/

/-- What a session owes the next client that asks for a frame. -/
structure Serves (s : Session) (rs : List Region) : Prop where
  /-- While there are free frames, the one that a scan from bit zero on finds first is handed out. Its address is not
  null and a multiple of the page size, its bytes are those of one usable region, and nobody holds or has reserved it. -/
  served : 0 < s.pool.freeFrames → ∃ i pa, s.pool.scan = some i ∧ (Pool.alloc s.pool).result = .ok pa ∧
    pa.raw.toNat = (s.pool.base + i) * 4096 ∧ pa.isNull = false ∧ pa.raw.toNat % 4096 = 0 ∧
    (∃ r ∈ rs, r.kind = .usable ∧ r.base.raw.toNat ≤ pa.raw.toNat ∧ pa.raw.toNat + 4096 ≤ r.stop) ∧
    Align.frameOf pa.raw ∉ s.held ∧ Align.frameOf pa.raw ∉ s.reserved
  /-- While fewer than `2 ^ 64` requests fail, this one fails exactly if there is no free frame. -/
  refuses : s.refused + 1 < 2 ^ 64 →
    ((Pool.alloc s.pool).result = .error (.fault .tooMany) ↔ s.pool.freeFrames = 0)
  /-- A request that fails changes the count of failed requests and nothing else. -/
  counts : s.refused + 1 < 2 ^ 64 → s.pool.freeFrames = 0 →
    (Pool.alloc s.pool).state = { s.pool with failures := s.pool.failures + 1 }

theorem serves_of_kept (h : s.Kept rs) : s.Serves rs := by
  obtain ⟨r, q, log, ht, ha⟩ := (Pool.alloc_ends h.sound).trace
  rcases ha with ⟨i, hs, hr, -⟩ | ⟨hs, hlt, hr, hq⟩ | ⟨hs, hge, hr, hq⟩
  · have hpos : s.pool.freeFrames ≠ 0 := fun h0 => by
      rw [h.sound.scan_free.2 h0] at hs
      cases hs
    subst hr
    refine ⟨fun _ => ⟨i, _, hs, by rw [ht], ?_⟩, fun _ => ?_, fun _ h0 => absurd h0 hpos⟩
    · have hfree := (Pool.free_of_scan hs).1
      obtain ⟨h0, hu⟩ := hfree.clear h.sound
      have hlt := hu.lt h.sound.charts
      have haddr : (⟨Align.frameStart (s.pool.base + i)⟩ : PhysAddr).raw.toNat = (s.pool.base + i) * 4096 :=
        Align.toNat_frameStart hlt
      have hframe : Align.frameOf (⟨Align.frameStart (s.pool.base + i)⟩ : PhysAddr).raw = s.pool.base + i :=
        Align.frameOf_frameStart hlt
      generalize (⟨Align.frameStart (s.pool.base + i)⟩ : PhysAddr) = pa at haddr hframe ⊢
      obtain ⟨r, hr, hkind, h1, h2⟩ := hu.region h.sound.charts
      refine ⟨haddr, ?_, by omega, ⟨r, hr, hkind, by omega, by omega⟩, ?_, ?_⟩
      · refine Pool.isNull_eq_false.2 fun hz => h0 ?_
        rw [hz] at haddr
        have : (0 : UInt64).toNat = 0 := rfl
        omega
      · rw [hframe]
        exact fun hm => h.held _ hm hfree
      · rw [hframe]
        exact fun hm => h.reserved _ hm hfree
    · rw [ht]
      exact ⟨nofun, fun h0 => absurd h0 hpos⟩
  · have h0 := h.sound.scan_free.1 hs
    subst hr hq
    exact ⟨fun hpos => by omega, fun _ => by rw [ht]; exact ⟨fun _ => h0, fun _ => rfl⟩, fun _ _ => by rw [ht]⟩
  · have h0 := h.sound.scan_free.1 hs
    rw [h.refused] at hge
    exact ⟨fun hpos => by omega, fun hlt => by omega, fun hlt => by omega⟩

/-- **No frame is handed out twice**: whatever was asked of a pool before, the next frame is the lowest free one, lies in
one usable region and is nobody's; a request fails exactly if no frame is free. -/
theorem serves_run (hc : (Pool.create rs b).result = .ok l) (qs : List Request) :
    ((start (l.withBitmap (Pool.create rs b).state)).run qs).Serves rs := serves_of_kept (kept_run hc qs)

/-- A map of four frames, of which the lowest is frame zero. -/
def fourFrames : List Region := [.usable ⟨0⟩ 0x4000]

theorem serves_fourFrames : ∃ l, (Pool.create fourFrames ⟨#[0]⟩).result = .ok l ∧
    ((start (l.withBitmap (Pool.create fourFrames ⟨#[0]⟩).state)).run [.alloc, .reserve ⟨0x2000⟩ 1]).Serves fourFrames :=
  ⟨_, rfl, serves_run rfl _⟩

end Session

end Keel.Frame
