import Keel.Proofs.Frame.Operations

/-!
# A fresh pool

A fresh pool counts the frames of all regions, takes those of the unusable ones back out, and leaves frame zero alone.
Each pass over the extents is a union of runs (`releaseExtents_ends`, `takeUnusable_ends`), so in the end the clear bits
are the frames of usable regions without frame zero, and the books are sound (`create_ends`). A pool that cannot be
opened leaves its bitmap as it was.
-/

namespace Keel.Frame

/-! ## Counting over unions -/

namespace Bitmap

variable {b b' : Bitmap} {A B : Finset Nat}

/-- Set bits of a union, counted one part after the other. -/
theorem card_setIn_union (h : ∀ j, b'.isSet j = (!decide (j ∈ A) && b.isSet j)) :
    (b.setIn (A ∪ B)).card = (b.setIn A).card + (b'.setIn B).card := by
  have hdisj : Disjoint (b.setIn A) (b'.setIn B) := by
    rw [Finset.disjoint_left]
    intro j hA hB
    have hB := (mem_setIn.1 hB).2
    simp [h, (mem_setIn.1 hA).1] at hB
  rw [← Finset.card_union_of_disjoint hdisj]
  congr 1
  ext j
  simp only [mem_setIn, Finset.mem_union, h, Bool.and_eq_true, Bool.not_eq_true', decide_eq_false_iff_not]
  tauto

/-- Clear bits of a union, counted one part after the other. -/
theorem card_clearIn_union (h : ∀ j, b'.isSet j = (decide (j ∈ A) || b.isSet j)) :
    (b.clearIn (A ∪ B)).card = (b.clearIn A).card + (b'.clearIn B).card := by
  have hdisj : Disjoint (b.clearIn A) (b'.clearIn B) := by
    rw [Finset.disjoint_left]
    intro j hA hB
    have hB := (mem_clearIn.1 hB).2
    simp [h, (mem_clearIn.1 hA).1] at hB
  rw [← Finset.card_union_of_disjoint hdisj]
  congr 1
  ext j
  simp only [mem_clearIn, Finset.mem_union, h, Bool.or_eq_false_iff, decide_eq_false_iff_not]
  tauto

end Bitmap

/-! ## Passes over the extents -/

section Passes

variable {l : Ledger} {e : Extent} {es : List Extent} {b : Bitmap} {acc j : Nat}

/-- The bits of the frames of an extent, as the run that a pass goes through. -/
def Ledger.run (l : Ledger) (e : Extent) : Finset Nat :=
  Finset.Ico (l.indexRun e.first e.stop).1 ((l.indexRun e.first e.stop).1 + (l.indexRun e.first e.stop).2)

theorem Ledger.mem_run : j ∈ l.run e ↔ j < l.frames ∧ e.contains (l.base + j) = true := by
  rw [Ledger.run, Ledger.mem_indexRun, Extent.contains_iff]

theorem Ledger.coveredBy_cons : l.coveredBy (e :: es) = l.run e ∪ l.coveredBy es := by
  ext i
  simp only [Ledger.mem_coveredBy, Ledger.mem_run, Finset.mem_union, List.mem_cons, exists_eq_or_imp]
  tauto

theorem Ledger.coveredBy_nil : l.coveredBy [] = ∅ := by
  ext i
  simp [Ledger.mem_coveredBy]

theorem Ledger.run_exists (hb : ∀ i < l.frames, i / 64 < b.words.size) :
    ∀ j, (l.indexRun e.first e.stop).1 ≤ j → j < (l.indexRun e.first e.stop).1 + (l.indexRun e.first e.stop).2 →
      j / 64 < b.words.size :=
  fun j h1 h2 => hb j (Ledger.mem_run.1 (Finset.mem_Ico.2 ⟨h1, h2⟩ : j ∈ l.run e)).1

theorem onBitmap_ends {α : Type} {f : Bitmap → Checked Fault (α × Bitmap)} {b' : Bitmap} {a : α}
    {Q : Checked Fault α → Bitmap → Prop} (h : f b = .ok (a, b')) : (onBitmap f).Ends b Q ↔ Q (.ok a) b' := by
  simp only [onBitmap, Action.ends_bind, Action.ends_get, Action.goes_ok, Action.ends_lift, h, Action.ends_set,
    Action.ends_pure]

/-- The run of one extent is cleared. -/
theorem Ledger.unmarkRun_ends (l : Ledger) (e : Extent) (hb : ∀ i < l.frames, i / 64 < b.words.size) :
    (onBitmap fun b => b.unmarkRun (l.indexRun e.first e.stop).1 (l.indexRun e.first e.stop).2 0).Ends b fun r b' =>
      r = .ok (b.setIn (l.run e)).card ∧ b'.words.size = b.words.size ∧
        ∀ j, b'.isSet j = (!decide (j ∈ l.run e) && b.isSet j) := by
  obtain ⟨b', hrun, hsize, hset⟩ := Bitmap.unmarkRun_ok (ε := Fault) (k := 0) (Ledger.run_exists (e := e) hb)
  rw [onBitmap_ends (f := fun b => b.unmarkRun _ _ 0) hrun, Nat.zero_add]
  refine ⟨rfl, hsize, fun j => ?_⟩
  rw [hset, Ledger.run]
  simp only [Finset.mem_Ico]

/-- The run of one extent is set. -/
theorem Ledger.markRun_ends (l : Ledger) (e : Extent) (hb : ∀ i < l.frames, i / 64 < b.words.size) :
    (onBitmap fun b => b.markRun (l.indexRun e.first e.stop).1 (l.indexRun e.first e.stop).2 0).Ends b fun r b' =>
      r = .ok (b.clearIn (l.run e)).card ∧ b'.words.size = b.words.size ∧
        ∀ j, b'.isSet j = (decide (j ∈ l.run e) || b.isSet j) := by
  obtain ⟨b', hrun, hsize, hset⟩ := Bitmap.markRun_ok (ε := Fault) (k := 0) (Ledger.run_exists (e := e) hb)
  rw [onBitmap_ends (f := fun b => b.markRun _ _ 0) hrun, Nat.zero_add]
  refine ⟨rfl, hsize, fun j => ?_⟩
  rw [hset, Ledger.run]
  simp only [Finset.mem_Ico]

private theorem decide_mem_union (A B : Finset Nat) (j : Nat) :
    decide (j ∈ A ∪ B) = (decide (j ∈ A) || decide (j ∈ B)) := by
  rw [Bool.eq_iff_iff, Bool.or_eq_true, decide_eq_true_eq, decide_eq_true_eq, decide_eq_true_eq, Finset.mem_union]

theorem releaseExtents_ends (hb : ∀ i < l.frames, i / 64 < b.words.size)
    (hacc : acc + (b.setIn (l.coveredBy es)).card < 2 ^ 64) : (releaseExtents l es acc).Ends b fun r b' =>
      r = .ok (acc + (b.setIn (l.coveredBy es)).card) ∧ b'.words.size = b.words.size ∧
        ∀ j, b'.isSet j = (!decide (j ∈ l.coveredBy es) && b.isSet j) := by
  induction es generalizing b acc with
  | nil =>
    rw [releaseExtents, Action.ends_pure, Ledger.coveredBy_nil]
    exact ⟨by simp [Bitmap.setIn], rfl, fun j => by simp⟩
  | cons e es ih =>
    rw [releaseExtents]
    refine (Ledger.unmarkRun_ends l e hb).bind ?_
    intro r b₁ hends
    obtain ⟨rfl, hsize, hset⟩ := hends
    have hcount := Bitmap.card_setIn_union (B := l.coveredBy es) hset
    rw [← Ledger.coveredBy_cons] at hcount
    rw [hcount] at hacc ⊢
    have hadd : Count.add (ε := Fault) acc (b.setIn (l.run e)).card = .ok (acc + (b.setIn (l.run e)).card) :=
      Count.add_eq_ok.2 ⟨by omega, rfl⟩
    rw [Action.goes_ok, Action.ends_bind, hadd, Action.ends_lift, Action.goes_ok]
    have hb₁ : ∀ i < l.frames, i / 64 < b₁.words.size := fun i hi => by rw [hsize]; exact hb i hi
    refine (ih hb₁ (by omega)).mono ?_
    intro r b' hends
    obtain ⟨rfl, hsize', hset'⟩ := hends
    refine ⟨by rw [Nat.add_assoc], hsize'.trans hsize, fun j => ?_⟩
    rw [hset', hset, Ledger.coveredBy_cons, decide_mem_union, ← Bool.and_assoc, ← Bool.not_or, Bool.or_comm]

/-- The extents of regions that are not usable. -/
def unusable (es : List Extent) : List Extent := es.filter fun e => !e.isUsable

theorem takeUnusable_ends (hb : ∀ i < l.frames, i / 64 < b.words.size)
    (hacc : acc + (b.clearIn (l.coveredBy (unusable es))).card < 2 ^ 64) : (takeUnusable l es acc).Ends b fun r b' =>
      r = .ok (acc + (b.clearIn (l.coveredBy (unusable es))).card) ∧ b'.words.size = b.words.size ∧
        ∀ j, b'.isSet j = (decide (j ∈ l.coveredBy (unusable es)) || b.isSet j) := by
  induction es generalizing b acc with
  | nil =>
    rw [takeUnusable, Action.ends_pure, unusable, List.filter_nil, Ledger.coveredBy_nil]
    exact ⟨by simp [Bitmap.clearIn], rfl, fun j => by simp⟩
  | cons e es ih =>
    rw [takeUnusable, Action.ends_ite]
    split
    · rename_i hu
      have hskip : unusable (e :: es) = unusable es := by simp [unusable, hu]
      rw [hskip] at hacc ⊢
      exact ih hb hacc
    · rename_i hu
      have hkeep : unusable (e :: es) = e :: unusable es := by simp [unusable, hu]
      rw [hkeep] at hacc ⊢
      refine (Ledger.markRun_ends l e hb).bind ?_
      intro r b₁ hends
      obtain ⟨rfl, hsize, hset⟩ := hends
      have hcount := Bitmap.card_clearIn_union (B := l.coveredBy (unusable es)) hset
      rw [← Ledger.coveredBy_cons] at hcount
      rw [hcount] at hacc ⊢
      have hadd : Count.add (ε := Fault) acc (b.clearIn (l.run e)).card = .ok (acc + (b.clearIn (l.run e)).card) :=
        Count.add_eq_ok.2 ⟨by omega, rfl⟩
      rw [Action.goes_ok, Action.ends_bind, hadd, Action.ends_lift, Action.goes_ok]
      have hb₁ : ∀ i < l.frames, i / 64 < b₁.words.size := fun i hi => by rw [hsize]; exact hb i hi
      refine (ih hb₁ (by omega)).mono ?_
      intro r b' hends
      obtain ⟨rfl, hsize', hset'⟩ := hends
      refine ⟨by rw [Nat.add_assoc], hsize'.trans hsize, fun j => ?_⟩
      rw [hset', hset, Ledger.coveredBy_cons, decide_mem_union, ← Bool.or_assoc, Bool.or_comm (decide _) (decide _)]

end Passes

/-! ## Opening the books -/

namespace Ledger

variable {l : Ledger} {rs : List Region} {j : Nat}

/-- The frames of usable regions are those covered by no other region. -/
theorem mem_covered_sdiff (h : l.Charts rs) : j ∈ l.covered \ l.coveredBy (unusable l.extents) ↔
    j < l.frames ∧ l.Usable (l.base + j) := by
  rw [Finset.mem_sdiff, covered, mem_coveredBy, mem_coveredBy]
  constructor
  · rintro ⟨⟨hj, e, he, hc⟩, hnot⟩
    refine ⟨hj, e, he, ?_, hc⟩
    by_contra hu
    exact hnot ⟨hj, e, List.mem_filter.2 ⟨he, by simp [hu]⟩, hc⟩
  · rintro ⟨hj, e, he, hu, hc⟩
    refine ⟨⟨hj, e, he, hc⟩, ?_⟩
    rintro ⟨-, e', he', hc'⟩
    obtain ⟨he', hu'⟩ := List.mem_filter.1 he'
    rw [h.eq_of_contains he hu hc he' hc', hu] at hu'
    cases hu'

theorem coveredBy_unusable_subset : l.coveredBy (unusable l.extents) ⊆ l.covered := by
  intro j hj
  obtain ⟨hj, e, he, hc⟩ := mem_coveredBy.1 hj
  exact mem_coveredBy.2 ⟨hj, e, (List.mem_filter.1 he).1, hc⟩

end Ledger

/-- The books before anything is counted. -/
def blankLedger (first frames : Nat) (es : List Extent) : Ledger := ⟨first, frames, es, 0, 0, 0, 0, 0⟩

/-- The ledger of a map that passes the checks. -/
theorem charts_of_checks {rs : List Region} {lo hi : Nat} (hspan : span rs = .ok (lo, hi))
    (hapart : (Region.nonEmpty rs).Pairwise Region.Apart) :
    ∃ es, (Region.nonEmpty rs).mapM Extent.ofRegion? = some es ∧ (blankLedger lo (hi - lo) es).Charts rs := by
  obtain ⟨hlt, hlimit, hspans⟩ := span_ok hspan
  obtain ⟨es, hes, hmap, hround⟩ := Extent.mapM_ofRegion? fun r hr => by
    obtain ⟨-, t, ht⟩ := hspans r hr
    exact Extent.of_touched ht
  refine ⟨es, hes, ?_⟩
  have hall : lo + (hi - lo) = hi := Nat.add_sub_cancel' (Nat.le_of_lt hlt)
  refine ⟨hmap, hround, ?_, fun e he => ?_, ?_⟩
  · rw [← hmap, List.pairwise_map] at hapart
    exact hapart
  · have hr : e.region ∈ Region.nonEmpty rs := by
      rw [← hmap]
      exact List.mem_map_of_mem he
    show Spans lo (lo + (hi - lo)) e.region
    rw [hall]
    exact (hspans _ hr).1
  · show lo + (hi - lo) < 2 ^ 52
    rw [hall]
    exact hlimit

/-- When a pool opens over the regions `rs` with a bitmap of `size` words. -/
structure Opens (rs : List Region) (size : Nat) : Prop where
  some : 1 ≤ (Region.nonEmpty rs).length
  few : (Region.nonEmpty rs).length ≤ 64
  disjoint : (Region.nonEmpty rs).Pairwise fun a b => Disjoint a.bytes b.bytes
  fits : ∀ r ∈ Region.nonEmpty rs, r.EndFits
  roomy : ∃ words, wordsFor rs = .ok words ∧ words ≤ size

namespace Pool

/-- What a fresh pool over a bitmap `b` is like: its books are sound, and the free frames are those of usable regions,
frame zero apart. -/
structure Fresh (p : Pool) (rs : List Region) (b : Bitmap) : Prop where
  sound : p.Sound rs
  free : ∀ f, p.Free f ↔ p.Usable f ∧ f ≠ 0
  size : p.bitmap.words.size = b.words.size
  /-- The bits of the words that are not needed are as they were. -/
  past : ∀ i, 64 * Bitmap.wordsFor p.frames ≤ i → p.bitmap.isSet i = b.isSet i
  hint : p.hint = 0
  failures : p.failures = 0

/-- The books of a pool whose clear bits are the frames of usable regions, frame zero apart. -/
theorem fresh_of_clear {rs : List Region} {b b' : Bitmap} {l : Ledger} {used : Nat} (h : l.Charts rs)
    (hhint : l.hint = 0) (hfail : l.failures = 0)
    (hsized : Bitmap.wordsFor l.frames ≤ b.words.size) (hsize : b'.words.size = b.words.size)
    (htail : ∀ i, l.frames ≤ i → i < 64 * Bitmap.wordsFor l.frames → b'.isSet i = true)
    (hpast : ∀ i, 64 * Bitmap.wordsFor l.frames ≤ i → b'.isSet i = b.isSet i)
    (hclear : ∀ i < l.frames, b'.isSet i = false ↔ l.Usable (l.base + i) ∧ l.base + i ≠ 0)
    (hused : used + (b'.clearIn (Finset.range l.frames)).card = l.covered.card) :
    Fresh (Ledger.withBitmap { l with
      totalFrames := l.covered.card, usedFrames := used, freeFrames := l.covered.card - used } b') rs b where
  sound := {
    charts := ⟨h.regions, h.rounded, h.apart, h.spans, h.limit⟩
    sized := by rw [show (Ledger.withBitmap _ b').bitmap = b' from rfl, hsize]; exact hsized
    tail := htail
    clear := fun i hi hc => ((hclear i hi).1 hc).symm
    below := fun i hi => by
      have hi : i < l.hint := hi
      omega
    hint_le := by
      show l.hint ≤ l.frames
      omega
    free := by
      show l.covered.card - used = (b'.clearIn (Finset.range l.frames)).card
      omega
    total := by
      show used + (l.covered.card - used) = l.covered.card
      omega
    covered := rfl }
  free := fun f => by
    constructor
    · rintro ⟨h1, h2, h3⟩
      have h1 : l.base ≤ f := h1
      have h2 : f < l.base + l.frames := h2
      have := (hclear (f - l.base) (by omega)).1 h3
      rwa [Nat.add_sub_cancel' h1] at this
    · rintro ⟨hu, h0⟩
      have hu : l.Usable f := hu
      obtain ⟨h1, h2⟩ := hu.inside h
      refine ⟨h1, h2, (hclear (f - l.base) (by omega)).2 ?_⟩
      rw [Nat.add_sub_cancel' h1]
      exact ⟨hu, h0⟩
  size := hsize
  past := hpast
  hint := hhint
  failures := hfail

/-- What is left of the covered frames when those of unusable regions have been taken back out. -/
theorem take_frameZero {rs : List Region} {l : Ledger} {b : Bitmap} (h : l.Charts rs)
    (hset : ∀ j < l.frames, b.isSet j = false ↔ j ∈ l.covered \ l.coveredBy (unusable l.extents))
    (hb : ∀ i < l.frames, i / 64 < b.words.size) (hpos : 0 < l.frames)
    (hlt : (l.coveredBy (unusable l.extents)).card + 1 < 2 ^ 64) :
    Action.Ends (if l.base = 0 then do
        let fresh ← onBitmap fun b => b.mark 0
        if fresh then Action.lift (Count.add (l.coveredBy (unusable l.extents)).card 1)
        else pure (l.coveredBy (unusable l.extents)).card
      else pure (l.coveredBy (unusable l.extents)).card) b fun r b' => ∃ used, r = .ok used ∧
        b'.words.size = b.words.size ∧ (∀ j, l.frames ≤ j → b'.isSet j = b.isSet j) ∧
        (∀ i < l.frames, b'.isSet i = false ↔ l.Usable (l.base + i) ∧ l.base + i ≠ 0) ∧
        used + (b'.clearIn (Finset.range l.frames)).card = l.covered.card := by
  have hcard := Finset.card_sdiff_of_subset (Ledger.coveredBy_unusable_subset (l := l))
  have hle := Finset.card_le_card (Ledger.coveredBy_unusable_subset (l := l))
  have hin : ∀ j ∈ l.covered \ l.coveredBy (unusable l.extents), j < l.frames := fun j hj =>
    ((Ledger.mem_covered_sdiff h).1 hj).1
  have hclear : b.clearIn (Finset.range l.frames) = l.covered \ l.coveredBy (unusable l.extents) := by
    ext j
    rw [Bitmap.mem_clearIn, Finset.mem_range]
    exact ⟨fun ⟨hj, hc⟩ => (hset j hj).1 hc, fun hj => ⟨hin j hj, (hset j (hin j hj)).2 hj⟩⟩
  have husable : ∀ j < l.frames, b.isSet j = false ↔ l.Usable (l.base + j) := fun j hj => by
    rw [hset j hj, Ledger.mem_covered_sdiff h]
    exact and_iff_right hj
  rw [← hclear] at hcard
  rw [Action.ends_ite]
  split
  · rename_i h0
    obtain ⟨b', hm, hsize, hbits⟩ := Bitmap.mark_ok (ε := Fault) (b := b) (i := 0) (hb 0 hpos)
    have hbits' : ∀ j, b'.isSet j = (decide (j ∈ ({0} : Finset Nat)) || b.isSet j) := fun j => by
      rw [hbits, beq_eq_decide]
      simp only [Finset.mem_singleton]
    have hnew : ∀ i < l.frames, b'.isSet i = false ↔ l.Usable (l.base + i) ∧ l.base + i ≠ 0 := fun i hi => by
      rw [hbits, Bool.or_eq_false_iff, beq_eq_false_iff_ne, husable i hi, h0, Nat.zero_add]
      exact and_comm
    have hpast : ∀ j, l.frames ≤ j → b'.isSet j = b.isSet j := fun j hj => by
      rw [hbits, beq_eq_false_iff_ne.2 (by omega), Bool.false_or]
    have hcount := Bitmap.card_clearIn_union (B := Finset.range l.frames) hbits'
    have hzero : {0} ∪ Finset.range l.frames = Finset.range l.frames :=
      Finset.union_eq_right.2 (Finset.singleton_subset_iff.2 (Finset.mem_range.2 hpos))
    rw [hzero, Bitmap.card_clearIn_singleton] at hcount
    rw [Action.ends_bind, onBitmap_ends (f := fun b => b.mark 0) hm, Action.goes_ok, Action.ends_ite]
    split
    · rename_i hfresh
      rw [Bool.not_eq_true'] at hfresh
      have hadd : Count.add (ε := Fault) (l.coveredBy (unusable l.extents)).card 1 =
          .ok ((l.coveredBy (unusable l.extents)).card + 1) := Count.add_eq_ok.2 ⟨hlt, rfl⟩
      rw [if_pos hfresh] at hcount
      rw [Action.ends_lift, hadd]
      exact ⟨_, rfl, hsize, hpast, hnew, by omega⟩
    · rename_i hfresh
      rw [Bool.not_eq_true', Bool.not_eq_false] at hfresh
      rw [if_neg (by simp [hfresh])] at hcount
      rw [Action.ends_pure]
      exact ⟨_, rfl, hsize, hpast, hnew, by omega⟩
  · rename_i h0
    rw [Action.ends_pure]
    refine ⟨_, rfl, rfl, fun _ _ => rfl, fun i hi => ?_, by omega⟩
    rw [husable i hi]
    exact ⟨fun hu => ⟨hu, by omega⟩, And.left⟩

/-- All bits of the words that are needed are set at first. -/
theorem isSet_filled {frames j : Nat} {b : Bitmap} (hsized : Bitmap.wordsFor frames ≤ b.words.size)
    (hj : j < 64 * Bitmap.wordsFor frames) : (b.fillWords (Bitmap.wordsFor frames)).isSet j = true := by
  rw [Bitmap.isSet_fillWords, decide_eq_true (by omega : j / 64 < b.words.size),
    decide_eq_true (by omega : j / 64 < Bitmap.wordsFor frames)]
  rfl

/-- The bits of the words that are not needed are left alone. -/
theorem isSet_past {n j : Nat} {b : Bitmap} (hj : 64 * n ≤ j) : (b.fillWords n).isSet j = b.isSet j := by
  rw [Bitmap.isSet_fillWords, decide_eq_false (by omega : ¬j / 64 < n), Bool.false_or]
  by_cases hsize : j / 64 < b.words.size
  · rw [decide_eq_true hsize, Bool.true_and]
  · rw [decide_eq_false hsize, Bool.false_and, Bitmap.isSet_of_size_le (Nat.le_of_not_lt hsize)]

/-- Bytes are counted for as many frames as have addresses. -/
theorem mul_pageSize {n : Nat} (h : n < 2 ^ 52) : Count.mul (ε := Fault) n Layout.pageSize = .ok (n * Layout.pageSize) :=
  Count.mul_eq_ok.2 ⟨by simp only [Layout.pageSize]; omega, rfl⟩

/-- There is a line for the books of as many frames as have addresses. -/
theorem tracking_eq_ok {l : Ledger} (h : l.freeFrames < 2 ^ 52) : ∃ line, PoolLine.tracking (ε := Fault) l = .ok line := by
  unfold PoolLine.tracking PoolStats.freeBytes
  rw [show l.stats.free = l.freeFrames from rfl, mul_pageSize h]
  exact ⟨_, rfl⟩

/-- Counting the frames and taking back out what is not free. -/
def openBooks (first frames : Nat) (es : List Extent) : Action Bitmap Ledger := do
  let total ← releaseExtents (blankLedger first frames es) es 0
  let used ← takeUnusable (blankLedger first frames es) es 0
  let used ← if first = 0 then do
      let fresh ← onBitmap fun b => b.mark 0
      if fresh then Action.lift (Count.add used 1) else pure used
    else pure used
  let free ← Action.lift (Count.sub total used)
  let l : Ledger := { blankLedger first frames es with totalFrames := total, usedFrames := used, freeFrames := free }
  Action.note (← Action.lift (PoolLine.tracking l))
  return l

private theorem bind_branches {σ α β : Type} (c : Prop) [Decidable c] (x : Action σ Bool) (y z : Action σ α)
    (k : α → Action σ β) : (if c then x >>= fun d => if d = true then y >>= k else z >>= k else z >>= k) =
      (if c then x >>= fun d => if d = true then y else z else z) >>= k := by
  split
  · rw [bind_assoc]
    congr 1
    funext d
    split <;> rfl
  · rfl

theorem openBooks_ends {rs : List Region} {first frames : Nat} {es : List Extent} {b : Bitmap}
    (h : (blankLedger first frames es).Charts rs) (hpos : 0 < frames) (hsized : Bitmap.wordsFor frames ≤ b.words.size) :
    (openBooks first frames es).Ends (b.fillWords (Bitmap.wordsFor frames)) fun r b' =>
      ∃ l, r = .ok l ∧ Fresh (l.withBitmap b') rs b ∧ l.base = first ∧ l.frames = frames := by
  have hlimit : first + frames < 2 ^ 52 := h.limit
  have hfill : ∀ j < frames, (b.fillWords (Bitmap.wordsFor frames)).isSet j = true := fun j hj =>
    isSet_filled hsized (Bitmap.lt_wordsFor hj)
  have hexists : ∀ {c : Bitmap}, c.words.size = b.words.size → ∀ i < frames, i / 64 < c.words.size :=
    fun hc i hi => by
      have := Bitmap.lt_wordsFor hi
      omega
  have hacc : (blankLedger first frames es).covered.card ≤ frames := Ledger.card_coveredBy_le _ _
  have hacc₁ : ((blankLedger first frames es).coveredBy (unusable es)).card ≤ frames := Ledger.card_coveredBy_le _ _
  -- all bits are set at first, so clearing the covered ones counts them all
  have hall : (b.fillWords (Bitmap.wordsFor frames)).setIn ((blankLedger first frames es).coveredBy es) =
      (blankLedger first frames es).covered :=
    Finset.filter_true_of_mem fun j hj => hfill j (Ledger.mem_coveredBy.1 hj).1
  unfold openBooks
  refine (releaseExtents_ends (hexists (Bitmap.size_fillWords _ _)) (by rw [hall]; omega)).bind ?_
  rw [hall, Nat.zero_add]
  intro r b₁ hends
  obtain ⟨rfl, hsize₁, hset₁⟩ := hends
  have hsize₁ := hsize₁.trans (Bitmap.size_fillWords _ _)
  have hall₁ : b₁.clearIn ((blankLedger first frames es).coveredBy (unusable es)) =
      (blankLedger first frames es).coveredBy (unusable es) :=
    Finset.filter_true_of_mem fun j hj => by
      have hj : j ∈ (blankLedger first frames es).coveredBy es := Ledger.coveredBy_unusable_subset hj
      rw [hset₁, decide_eq_true hj]
      rfl
  rw [Action.goes_ok]
  refine (takeUnusable_ends (hexists hsize₁) (by rw [hall₁]; omega)).bind ?_
  rw [hall₁, Nat.zero_add]
  intro r b₂ hends
  obtain ⟨rfl, hsize₂, hset₂⟩ := hends
  have hsize₂ := hsize₂.trans hsize₁
  have hset : ∀ j < frames, b₂.isSet j = false ↔
      j ∈ (blankLedger first frames es).covered \ (blankLedger first frames es).coveredBy (unusable es) := by
    intro j hj
    rw [hset₂, hset₁, hfill j hj, Bool.and_true, Finset.mem_sdiff, Bool.or_eq_false_iff,
      Bool.not_eq_false', decide_eq_true_eq, decide_eq_false_iff_not, and_comm]
    rfl
  rw [Action.goes_ok, bind_branches]
  refine (take_frameZero h hset (hexists hsize₂) hpos ?_).bind ?_
  · show ((blankLedger first frames es).coveredBy (unusable es)).card + 1 < 2 ^ 64
    omega
  intro r b₃ hends
  obtain ⟨used, rfl, hsize₃, hpast, hclear, hcount⟩ := hends
  have hsub : Count.sub (ε := Fault) (blankLedger first frames es).covered.card used =
      .ok ((blankLedger first frames es).covered.card - used) := Count.sub_eq_ok.2 ⟨by omega, rfl⟩
  rw [Action.goes_ok, Action.ends_bind, hsub, Action.ends_lift, Action.goes_ok]
  refine Action.Ends.lift_bind (fun line _ => ?_) fun e he => ?_
  rotate_left
  · -- the free frames have numbers below the limit, so their bytes can be told
    obtain ⟨line, hline⟩ := tracking_eq_ok (l := { blankLedger first frames es with
      totalFrames := (blankLedger first frames es).covered.card, usedFrames := used,
      freeFrames := (blankLedger first frames es).covered.card - used }) (by dsimp only; omega)
    cases he.symm.trans hline
  rw [Action.ends_bind, Action.ends_note, Action.goes_ok, Action.ends_pure]
  have hout : ∀ i, frames ≤ i → b₃.isSet i = (b.fillWords (Bitmap.wordsFor frames)).isSet i := fun i hi => by
    have h₁ : i ∉ (blankLedger first frames es).coveredBy es := fun hm =>
      absurd (Ledger.mem_coveredBy.1 hm).1 (Nat.not_lt.2 hi)
    have h₂ : i ∉ (blankLedger first frames es).coveredBy (unusable es) := fun hm =>
      h₁ (Ledger.coveredBy_unusable_subset hm)
    rw [hpast i hi, hset₂, hset₁, decide_eq_false h₁, decide_eq_false h₂, Bool.false_or, Bool.not_false, Bool.true_and]
  refine ⟨_, rfl, fresh_of_clear h rfl rfl hsized (hsize₃.trans hsize₂) (fun i h1 h2 => ?_) (fun i hi => ?_) hclear hcount,
    rfl, rfl⟩
  · exact (hout i h1).trans (isSet_filled hsized h2)
  · exact (hout i (Nat.le_trans (Bitmap.le_wordsFor frames) hi)).trans (isSet_past hi)

/-- **A pool that is opened is fresh**; where none can be opened, the bitmap stays as it was. -/
theorem create_ends (rs : List Region) (b : Bitmap) : (create rs).Ends b fun r b' =>
    (Opens rs b.words.size ∧ ∃ l, r = .ok l ∧ Fresh (l.withBitmap b') rs b ∧ span rs = .ok (l.base, l.base + l.frames)) ∨
      (¬Opens rs b.words.size ∧ b' = b ∧ ∃ f, r = .error (.fault f)) := by
  unfold create
  dsimp only
  rw [Action.ends_ite]
  split
  · rename_i hmany
    exact .inr ⟨fun h => absurd h.few (Nat.not_le.2 hmany), rfl, _, rfl⟩
  rename_i hfew
  refine (checkAllApart_ends (Region.nonEmpty rs) b).bind ?_
  rintro (e | ⟨⟩) t ⟨ht, hsettles, hiff⟩ <;> subst t
  · obtain ⟨f, rfl⟩ := hsettles.exists_fault
    refine .inr ⟨fun h => ?_, rfl, f, rfl⟩
    cases hiff.2 ⟨fun a ha => (h.fits a ha).1, Region.pairwise_apart_iff.2 h.disjoint⟩
  obtain ⟨-, hapart⟩ := hiff.1 rfl
  rw [Action.goes_ok]
  refine Action.Ends.lift_bind (fun a hspan => ?_) fun e hspan => ?_
  · obtain ⟨first, stop⟩ := a
    obtain ⟨es, hes, hcharts⟩ := charts_of_checks hspan hapart
    obtain ⟨hlt, hlimit, -⟩ := span_ok hspan
    obtain ⟨hne, hfits⟩ := span_eq_ok.1 ⟨_, hspan⟩
    have hsub : Count.sub (ε := Fault) stop first = .ok (stop - first) :=
      Count.sub_eq_ok.2 ⟨Nat.le_of_lt hlt, rfl⟩
    have hwords : wordsFor rs = .ok (Bitmap.wordsFor (stop - first)) := wordsFor_of_span hspan
    simp only [Action.ends_lift, Action.goes_ok, hsub, Action.ends_bind, Action.ends_get, Action.ends_ite]
    split
    · rename_i hshort
      refine .inr ⟨fun h => ?_, rfl, _, rfl⟩
      obtain ⟨words, hw, hle⟩ := h.roomy
      obtain rfl : Bitmap.wordsFor (stop - first) = words := Except.ok.inj (hwords.symm.trans hw)
      exact absurd hshort (Nat.not_lt.2 hle)
    rename_i hshort
    have hsized : Bitmap.wordsFor (stop - first) ≤ b.words.size := Nat.le_of_not_lt hshort
    have hopens : Opens rs b.words.size :=
      ⟨List.length_pos_iff.2 hne, Nat.le_of_not_lt hfew, Region.pairwise_apart_iff.1 hapart, hfits, _, hwords, hsized⟩
    have hopen := (openBooks_ends hcharts (Nat.sub_pos_of_lt hlt) hsized).mono (Q := fun r b' =>
      (Opens rs b.words.size ∧
          ∃ l, r = .ok l ∧ Fresh (l.withBitmap b') rs b ∧ span rs = .ok (l.base, l.base + l.frames)) ∨
        (¬Opens rs b.words.size ∧ b' = b ∧ ∃ f, r = .error (.fault f))) fun r b' h => by
      obtain ⟨l, hr, hfresh, hbase, hframes⟩ := h
      refine .inl ⟨hopens, l, hr, hfresh, ?_⟩
      rw [hspan, hbase, hframes, Nat.add_sub_cancel' (Nat.le_of_lt hlt)]
    rw [openBooks, Action.ends_bind] at hopen
    simp only [Action.ends_modify, Action.goes_ok, hes, Action.ends_some, Action.ends_bind]
    exact hopen
  · have hsettles := settles_span rs
    rw [hspan] at hsettles
    obtain ⟨f, rfl⟩ := hsettles.exists_fault
    refine .inr ⟨fun h => ?_, rfl, f, rfl⟩
    obtain ⟨a, ha⟩ := span_eq_ok.2 ⟨List.ne_nil_of_length_pos h.some, h.fits⟩
    cases hspan.symm.trans ha

/-- A pool that was opened is sound and tracks frames. -/
theorem sound_create {b : Bitmap} {l : Ledger} (hc : (create rs b).result = .ok l) :
    (l.withBitmap (create rs b).state).Sound rs ∧ 0 < l.frames := by
  obtain ⟨r, b', log, ht, ⟨-, l', hr, hfresh, hspan⟩ | ⟨-, -, e, hr⟩⟩ := (create_ends rs b).trace
  · rw [ht] at hc ⊢
    obtain rfl : l' = l := Except.ok.inj (hr.symm.trans hc)
    have hlt := (span_ok hspan).1
    exact ⟨hfresh.sound, by omega⟩
  · rw [ht] at hc
    cases hr.symm.trans hc

end Pool

end Keel.Frame
