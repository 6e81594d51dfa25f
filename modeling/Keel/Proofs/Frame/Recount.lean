import Mathlib.Algebra.BigOperators.Group.List.Basic
import Mathlib.Algebra.Ring.Nat
import Keel.Proofs.Frame.Sessions

/-!
# Counting again

What the counters of a pool say can be counted again from its bitmap, for the whole pool and region by region. A clear
bit belongs to one usable region only, so the free frames of the regions add up to those of the pool (`sum_clear_runs`).
`Pool.Balanced` puts together all that the representation promises, and every session keeps it (`balanced_run`).
-/

namespace Keel.Frame

variable {rs : List Region} {b : Bitmap} {l : Ledger}

namespace Pool

variable {p : Pool} {e : Extent} {i : Nat}

/-! ## Region by region -/

/-- The frames of an extent are as many as its run has bits. -/
theorem Sound.card_run (h : p.Sound rs) (he : e ∈ p.extents) : (p.toLedger.run e).card = e.stop - e.first := by
  have := h.charts.inside he
  rw [Ledger.run, Nat.card_Ico]
  simp only [Ledger.indexRun]
  omega

/-- A clear bit is in the run of one extent only. -/
theorem Sound.runs_disjoint (h : p.Sound rs) : p.extents.Pairwise fun a b =>
    Disjoint (p.bitmap.clearIn (p.toLedger.run a)) (p.bitmap.clearIn (p.toLedger.run b)) := by
  refine h.charts.apart.imp_of_mem fun {a b} ha hb hab => Finset.disjoint_left.2 fun i hia hib => ?_
  obtain ⟨hra, hclear⟩ := Bitmap.mem_clearIn.1 hia
  obtain ⟨hi, hca⟩ := Ledger.mem_run.1 hra
  obtain ⟨-, hcb⟩ := Ledger.mem_run.1 (Bitmap.mem_clearIn.1 hib).1
  obtain ⟨e, he, hu, hc⟩ := (h.clear i hi hclear).2
  obtain rfl := h.charts.eq_of_contains he hu hc ha hca
  rw [h.charts.not_contains_of_apart he hu hc hb hab] at hcb
  cases hcb

/-- Where no clear bit is in two runs, the clear bits of the runs add up to those of all extents. -/
theorem sum_clear_runs (l : Ledger) (b : Bitmap) {es : List Extent}
    (h : es.Pairwise fun e e' => Disjoint (b.clearIn (l.run e)) (b.clearIn (l.run e'))) :
    (es.map fun e => (b.clearIn (l.run e)).card).sum = (b.clearIn (l.coveredBy es)).card := by
  induction es with
  | nil => simp [Ledger.coveredBy_nil, Bitmap.clearIn]
  | cons e es ih =>
    obtain ⟨hhead, htail⟩ := List.pairwise_cons.1 h
    have hunion : b.clearIn (l.run e ∪ l.coveredBy es) = b.clearIn (l.run e) ∪ b.clearIn (l.coveredBy es) :=
      Finset.filter_union _ _ _
    have hdisj : Disjoint (b.clearIn (l.run e)) (b.clearIn (l.coveredBy es)) := by
      refine Finset.disjoint_left.2 fun i hi hrest => ?_
      obtain ⟨hcov, hclear⟩ := Bitmap.mem_clearIn.1 hrest
      obtain ⟨hlt, e', he', hc⟩ := Ledger.mem_coveredBy.1 hcov
      exact Finset.disjoint_left.1 (hhead e' he') hi (Bitmap.mem_clearIn.2 ⟨Ledger.mem_run.2 ⟨hlt, hc⟩, hclear⟩)
    rw [List.map_cons, List.sum_cons, ih htail, Ledger.coveredBy_cons, hunion, Finset.card_union_of_disjoint hdisj]

theorem Sound.clearIn_covered (h : p.Sound rs) :
    p.bitmap.clearIn p.toLedger.covered = p.bitmap.clearIn (Finset.range p.frames) := by
  ext i
  constructor
  · intro hi
    obtain ⟨hcov, hclear⟩ := Bitmap.mem_clearIn.1 hi
    exact Bitmap.mem_clearIn.2 ⟨Finset.mem_range.2 (Ledger.mem_coveredBy.1 hcov).1, hclear⟩
  · intro hi
    exact Bitmap.mem_clearIn.2 ⟨h.clear_mem_covered hi, (Bitmap.mem_clearIn.1 hi).2⟩

/-- The summary of an extent counts the set bits of its run. -/
theorem Sound.summary (h : p.Sound rs) (he : e ∈ p.extents) :
    p.summary e = .ok ⟨e.region, e.stop - e.first, (p.bitmap.setIn (p.toLedger.run e)).card⟩ := by
  have hframes : e.frames (ε := Fault) = .ok (e.stop - e.first) :=
    Count.sub_eq_ok.2 ⟨(h.charts.inside he).2.1, rfl⟩
  have hcount := Bitmap.countRun_ok (ε := Fault) (k := 0)
    (Ledger.run_exists (l := p.toLedger) (e := e) (b := p.bitmap) fun i hi => h.bit_exists hi)
  rw [Nat.zero_add] at hcount
  unfold Pool.summary
  rw [hframes]
  simp only [bind, Except.bind]
  rw [hcount]
  rfl

/-- The summaries of all extents. -/
theorem Sound.summaries (h : p.Sound rs) : p.summaries = .ok (p.extents.map fun e =>
    ⟨e.region, e.stop - e.first, (p.bitmap.setIn (p.toLedger.run e)).card⟩) := by
  have hall : ∀ es : List Extent, (∀ e ∈ es, e ∈ p.extents) → es.mapM p.summary =
      .ok (es.map fun e => ⟨e.region, e.stop - e.first, (p.bitmap.setIn (p.toLedger.run e)).card⟩) := by
    intro es hes
    induction es with
    | nil => rfl
    | cons e es ih =>
      rw [List.mapM_cons, h.summary (hes e (by simp)), ih fun e he => hes e (by simp [he])]
      rfl
  exact hall _ fun e he => he

/-- The free frames of an extent are those that its summary does not count. -/
theorem Sound.card_clear_run (h : p.Sound rs) (he : e ∈ p.extents) :
    e.stop - e.first - (p.bitmap.setIn (p.toLedger.run e)).card = (p.bitmap.clearIn (p.toLedger.run e)).card := by
  have := p.bitmap.card_clearIn_add_card_setIn (p.toLedger.run e)
  rw [h.card_run he] at this
  omega

/-- No frame of a region that is not usable is free. -/
theorem Sound.clear_run_unusable (h : p.Sound rs) (he : e ∈ p.extents) (hu : ¬e.isUsable = true) :
    p.bitmap.clearIn (p.toLedger.run e) = ∅ := by
  refine Finset.eq_empty_of_forall_notMem fun i hi => ?_
  obtain ⟨hrun, hclear⟩ := Bitmap.mem_clearIn.1 hi
  obtain ⟨hi, hc⟩ := Ledger.mem_run.1 hrun
  obtain ⟨e', he', hu', hc'⟩ := (h.clear i hi hclear).2
  obtain rfl := h.charts.eq_of_contains he' hu' hc' he hc
  exact hu hu'

/-! ## The whole pool -/

/-- What the representation of a pool over the regions `rs` promises. -/
structure Balanced (p : Pool) (rs : List Region) : Prop where
  total : p.usedFrames + p.freeFrames = p.totalFrames
  /-- The counters count the bits of the frames that some region covers. -/
  free : p.freeFrames = (p.bitmap.clearIn p.toLedger.covered).card
  used : p.usedFrames = (p.bitmap.setIn p.toLedger.covered).card
  /-- A clear bit is a frame, not frame zero, with all its bytes in one usable region and none in any other region. -/
  clear : ∀ i < p.frames, p.bitmap.isSet i = false → p.base + i ≠ 0 ∧
    ∃ xs r ys, Region.nonEmpty rs = xs ++ r :: ys ∧ r.kind = .usable ∧
      r.base.raw.toNat ≤ (p.base + i) * 4096 ∧ (p.base + i + 1) * 4096 ≤ r.stop ∧
      ∀ r' ∈ xs ++ ys, r'.stop ≤ (p.base + i) * 4096 ∨ (p.base + i + 1) * 4096 ≤ r'.base.raw.toNat
  /-- No bit below the hint is clear. -/
  below : ∀ i < p.hint, p.bitmap.isSet i = true
  /-- No bit of the last word past the frames is clear. -/
  tail : ∀ i, p.frames ≤ i → i < 64 * Bitmap.wordsFor p.frames → p.bitmap.isSet i = true
  /-- The summaries, one for each region that has bytes, agree with the counters. -/
  summaries : ∃ ss, p.summaries = .ok ss ∧ ss.map RegionSummary.region = Region.nonEmpty rs ∧
    (∀ s ∈ ss, s.allocated ≤ s.frames) ∧ (∀ s ∈ ss, s.region.kind ≠ .usable → s.allocated = s.frames) ∧
    (ss.map fun s => s.frames - s.allocated).sum = p.freeFrames

/-- A clear bit, told by the regions of the map. -/
theorem Sound.clear_region (h : p.Sound rs) (hi : i < p.frames) (hc : p.bitmap.isSet i = false) :
    ∃ xs r ys, Region.nonEmpty rs = xs ++ r :: ys ∧ r.kind = .usable ∧
      r.base.raw.toNat ≤ (p.base + i) * 4096 ∧ (p.base + i + 1) * 4096 ≤ r.stop ∧
      ∀ r' ∈ xs ++ ys, r'.stop ≤ (p.base + i) * 4096 ∨ (p.base + i + 1) * 4096 ≤ r'.base.raw.toNat := by
  obtain ⟨e, he, hu, hcont⟩ := (h.clear i hi hc).2
  obtain ⟨hlo, hhi⟩ := h.charts.whole he hu hcont
  obtain ⟨xs, ys, hs⟩ := List.append_of_mem he
  refine ⟨xs.map Extent.region, e.region, ys.map Extent.region, ?_, Extent.isUsable_iff.1 hu, hlo, hhi, ?_⟩
  · rw [← h.charts.regions, hs, List.map_append, List.map_cons]
  · intro r' hr'
    rw [← List.map_append] at hr'
    obtain ⟨e', he', rfl⟩ := List.mem_map.1 hr'
    exact (h.charts.sole hs hu hcont e' he').2

theorem Sound.balanced (h : p.Sound rs) : p.Balanced rs where
  total := h.total
  free := by rw [h.clearIn_covered, h.free]
  used := by
    have := p.bitmap.card_clearIn_add_card_setIn p.toLedger.covered
    rw [h.clearIn_covered, ← h.free, ← h.covered, ← h.total] at this
    omega
  clear := fun i hi hc => ⟨(h.clear i hi hc).1, h.clear_region hi hc⟩
  below := h.below
  tail := h.tail
  summaries := by
    refine ⟨_, h.summaries, ?_, fun s hs => ?_, fun s hs hk => ?_, ?_⟩
    · rw [List.map_map, ← h.charts.regions]
      rfl
    · obtain ⟨e, he, rfl⟩ := List.mem_map.1 hs
      have := p.bitmap.card_clearIn_add_card_setIn (p.toLedger.run e)
      rw [h.card_run he] at this
      show (p.bitmap.setIn (p.toLedger.run e)).card ≤ e.stop - e.first
      omega
    · obtain ⟨e, he, rfl⟩ := List.mem_map.1 hs
      have := p.bitmap.card_clearIn_add_card_setIn (p.toLedger.run e)
      rwa [h.clear_run_unusable he (mt Extent.isUsable_iff.1 hk), Finset.card_empty, Nat.zero_add,
        h.card_run he] at this
    · rw [List.map_map, h.free, ← h.clearIn_covered, Ledger.covered, ← sum_clear_runs _ _ h.runs_disjoint]
      exact congrArg List.sum (List.map_congr_left fun e he => h.card_clear_run he)

end Pool

/-- **The books of a pool balance** after every session, whatever was asked and whatever failed. -/
theorem balanced_run (hc : (Pool.create rs b).result = .ok l) (qs : List Request) :
    ((Session.start (l.withBitmap (Pool.create rs b).state)).run qs).pool.Balanced rs :=
  (Session.kept_run hc qs).sound.balanced

/-- A map with a hole, a region that begins and ends inside a frame, and a usable region around it. -/
def unevenMap : List Region := [.usable ⟨0x800⟩ 0x2800, ⟨⟨0x3000⟩, 0x900, .reserved⟩, .usable ⟨0x4000⟩ 0x3000]

theorem balanced_unevenMap : ∃ l, (Pool.create unevenMap ⟨#[0]⟩).result = .ok l ∧
    ((Session.start (l.withBitmap (Pool.create unevenMap ⟨#[0]⟩).state)).run
      [.alloc, .release ⟨0x1001⟩, .reserve ⟨0x4fff⟩ 2, .release ⟨0x1000⟩]).pool.Balanced unevenMap :=
  ⟨_, rfl, balanced_run rfl _⟩

end Keel.Frame
