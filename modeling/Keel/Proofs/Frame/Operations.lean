import Keel.Proofs.Frame.Books

/-!
# What pool operations do

A sound pool stays sound under every operation, and each operation does what its arguments say:
- `alloc_of_scan`, `alloc_of_scan_none`: the frame handed out is the one that a plain scan from bit zero finds, and none
  is handed out exactly if the scan finds none (`lowestFree?_eq_scan`);
- `release_ends`: the frame given back becomes free, or nothing changes;
- `reserve_ends`: all frames touched become taken, or nothing changes.
-/

namespace Keel.Frame

variable {rs : List Region}

theorem Ledger.Usable.lt {l : Ledger} {f : Nat} (hf : l.Usable f) (h : l.Charts rs) : f < 2 ^ 52 :=
  Nat.lt_trans (hf.inside h).2 h.limit

namespace Pool

variable {p q : Pool} {i f : Nat}

/-! ## Free frames -/

/-- Whether a frame is tracked and free. -/
def Free (p : Pool) (f : Nat) : Prop := p.base ≤ f ∧ f < p.base + p.frames ∧ p.bitmap.isSet (f - p.base) = false

theorem Free.clear (hf : p.Free f) (h : p.Sound rs) : f ≠ 0 ∧ p.Usable f := by
  obtain ⟨h1, h2, h3⟩ := hf
  have := h.clear (f - p.base) (by omega) h3
  rwa [Nat.add_sub_cancel' h1] at this

theorem free_iff_mem : p.Free f ↔ p.base ≤ f ∧ f - p.base ∈ p.bitmap.clearIn (Finset.range p.frames) := by
  rw [Bitmap.mem_clearIn, Finset.mem_range, Free]
  constructor
  · rintro ⟨h1, h2, h3⟩
    exact ⟨h1, by omega, h3⟩
  · rintro ⟨h1, h2, h3⟩
    exact ⟨h1, by omega, h3⟩

/-- There is a free frame exactly if the books say so. -/
theorem Sound.freeFrames_pos (h : p.Sound rs) : 0 < p.freeFrames ↔ ∃ f, p.Free f := by
  rw [h.free, Finset.card_pos]
  constructor
  · rintro ⟨i, hi⟩
    exact ⟨p.base + i, free_iff_mem.2 ⟨Nat.le_add_right _ _, by rwa [Nat.add_sub_cancel_left]⟩⟩
  · rintro ⟨f, hf⟩
    exact ⟨_, (free_iff_mem.1 hf).2⟩

/-- `q` tracks the same frames of the same regions as `p`. -/
structure SameMap (p q : Pool) : Prop where
  base : q.base = p.base
  frames : q.frames = p.frames
  extents : q.extents = p.extents
  total : q.totalFrames = p.totalFrames
  size : q.bitmap.words.size = p.bitmap.words.size

/-- `q` is `p` with the bits of `S` set. -/
structure Marks (p q : Pool) (S : Finset Nat) : Prop extends SameMap p q where
  bits : ∀ j, q.bitmap.isSet j = (decide (j ∈ S) || p.bitmap.isSet j)

/-- `q` is `p` with bit `i` cleared. -/
structure Clears (p q : Pool) (i : Nat) : Prop extends SameMap p q where
  bits : ∀ j, q.bitmap.isSet j = (j != i && p.bitmap.isSet j)

theorem SameMap.refl (p : Pool) : SameMap p p := ⟨rfl, rfl, rfl, rfl, rfl⟩

theorem SameMap.trans {p' : Pool} (h : SameMap p q) (h' : SameMap q p') : SameMap p p' :=
  ⟨h'.base.trans h.base, h'.frames.trans h.frames, h'.extents.trans h.extents, h'.total.trans h.total,
    h'.size.trans h.size⟩

theorem SameMap.usable_iff (h : SameMap p q) : q.Usable f ↔ p.Usable f := by
  unfold Ledger.Usable
  rw [h.extents]

theorem Marks.free_iff {S : Finset Nat} (h : Marks p q S) : q.Free f ↔ p.Free f ∧ f - p.base ∉ S := by
  unfold Free
  rw [h.base, h.frames, h.bits, Bool.or_eq_false_iff, decide_eq_false_iff_not]
  tauto

theorem Clears.free_iff (h : Clears p q i) (hi : i < p.frames) : q.Free f ↔ p.Free f ∨ f = p.base + i := by
  unfold Free
  rw [h.base, h.frames, h.bits, Bool.and_eq_false_iff, bne_eq_false_iff_eq]
  constructor
  · rintro ⟨h1, h2, h3 | h3⟩
    · right; omega
    · exact .inl ⟨h1, h2, h3⟩
  · rintro (⟨h1, h2, h3⟩ | h3)
    · exact ⟨h1, h2, .inr h3⟩
    · exact ⟨by omega, by omega, .inl (by omega)⟩

/-! ## Finding a frame -/

/-- The lowest clear bit, looked for from bit zero on, one bit after the other. -/
def scan (p : Pool) : Option Nat := (List.range p.frames).find? fun i => !p.bitmap.isSet i

theorem scan_eq_some : p.scan = some i ↔
    i < p.frames ∧ p.bitmap.isSet i = false ∧ ∀ j < i, p.bitmap.isSet j = true := by
  unfold scan
  rw [List.find?_range_eq_some]
  simp only [Bool.not_eq_true', List.mem_range, Bool.not_not]
  tauto

theorem scan_eq_none : p.scan = none ↔ ∀ i < p.frames, p.bitmap.isSet i = true := by
  unfold scan
  rw [List.find?_eq_none]
  simp

/-- **Neither the hint nor the search by words changes what is found.** -/
theorem Sound.lowestFree?_eq_scan (h : p.Sound rs) : p.lowestFree? = p.scan := by
  unfold lowestFree?
  have hsized := h.sized
  have hbelow : ∀ j, j / 64 < p.hint / 64 → p.bitmap.isSet j = true := fun j hj => h.below j (by omega)
  cases hc : p.bitmap.firstClear? (p.hint / 64) (Bitmap.wordsFor p.frames) with
  | none =>
    rw [Option.filter_none, eq_comm, scan_eq_none]
    intro i hi
    have hw := Bitmap.lt_wordsFor hi
    by_cases hh : p.hint / 64 ≤ i / 64
    · exact Bitmap.firstClear?_eq_none.1 hc i hh (by omega) (by omega)
    · exact hbelow i (by omega)
  | some i =>
    obtain ⟨h1, h2, h3, hclear, hset⟩ := Bitmap.firstClear?_eq_some hc
    have hall : ∀ j < i, p.bitmap.isSet j = true := fun j hj => by
      by_cases hh : p.hint / 64 ≤ j / 64
      · exact hset j hj hh
      · exact hbelow j (by omega)
    -- a clear bit past the frames would be one of the tail
    have hi : i < p.frames := by
      by_contra hge
      have := h.tail i (by omega) (by omega)
      simp [this] at hclear
    rw [Option.filter_some_pos (by simpa using hi), eq_comm, scan_eq_some]
    exact ⟨hi, hclear, hall⟩

theorem Sound.scan_free (h : p.Sound rs) : p.scan = none ↔ p.freeFrames = 0 := by
  rw [scan_eq_none, h.free, Finset.card_eq_zero, Bitmap.clearIn, Finset.filter_eq_empty_iff]
  simp

/-- A scan finds the lowest free frame. -/
theorem free_of_scan (hs : p.scan = some i) : p.Free (p.base + i) ∧ ∀ g, p.Free g → p.base + i ≤ g := by
  obtain ⟨hi, hclear, hset⟩ := scan_eq_some.1 hs
  refine ⟨⟨Nat.le_add_right _ _, by omega, by rwa [Nat.add_sub_cancel_left]⟩, fun g hg => ?_⟩
  obtain ⟨h1, -, h3⟩ := hg
  by_contra hlt
  rw [hset (g - p.base) (by omega)] at h3
  cases h3

/-! ## Handing out a frame -/

theorem Sound.frameAddress (h : p.Sound rs) (hi : i < p.frames) :
    p.frameAddress i = .ok ⟨Align.frameStart (p.base + i)⟩ := by
  have hl := h.charts.limit
  have h1 : Count.add (ε := Fault) p.base i = .ok (p.base + i) := Count.add_eq_ok.2 ⟨by omega, rfl⟩
  have h2 : Count.mul (ε := Fault) (p.base + i) Layout.pageSize = .ok ((p.base + i) * Layout.pageSize) :=
    Count.mul_eq_ok.2 ⟨by simp only [Layout.pageSize]; omega, rfl⟩
  unfold Pool.frameAddress
  rw [h1]
  simp only [bind, Except.bind]
  rw [h2]
  rfl

/-- The pool `p` with another bitmap and one frame, that of bit `i`, moved from the free ones to the used ones. -/
def handed (p : Pool) (b : Bitmap) (i : Nat) : Pool :=
  { p with bitmap := b, usedFrames := p.usedFrames + 1, freeFrames := p.freeFrames - 1, hint := i + 1 }

/-- The frame that a scan finds is handed out, and nothing but the bitmap, the two counts and the hint changes. -/
theorem alloc_hands (h : p.Sound rs) (hs : p.scan = some i) : alloc.Ends p fun r q =>
    r = .ok ⟨Align.frameStart (p.base + i)⟩ ∧ q.Sound rs ∧ Marks p q {i} ∧ 0 < p.freeFrames ∧
      q = p.handed q.bitmap i := by
  obtain ⟨hi, hclear, hset⟩ := scan_eq_some.1 hs
  obtain ⟨b, hb, hsize, hbits⟩ := Bitmap.mark_ok (ε := Fault) (h.bit_exists hi)
  have hbits' : ∀ j, b.isSet j = (decide (j ∈ ({i} : Finset Nat)) || p.bitmap.isSet j) := fun j => by
    rw [hbits]
    simp [Bool.beq_eq_decide_eq]
  have hone : (p.bitmap.clearIn {i}).card = 1 := by
    rw [Bitmap.card_clearIn_singleton, if_pos hclear]
  obtain ⟨hle, hsound⟩ := h.mark (S := {i}) (k := i + 1) (by simpa using hi) hsize hbits' hi fun j hj => by
    rw [hbits]
    by_cases hj' : j = i
    · simp [hj']
    · rw [hset j (by omega), Bool.or_true]
  rw [hone] at hle hsound
  have htotal := h.total
  have hlt := h.total_lt
  have hused : Count.add (ε := Fault) p.usedFrames 1 = .ok (p.usedFrames + 1) := Count.add_eq_ok.2 ⟨by omega, rfl⟩
  have hfree : Count.sub (ε := Fault) p.freeFrames 1 = .ok (p.freeFrames - 1) := Count.sub_eq_ok.2 ⟨hle, rfl⟩
  have haddr := hsound.frameAddress hi
  unfold alloc
  rw [Action.ends_bind, Action.ends_get, Action.goes_ok, h.lowestFree?_eq_scan, hs]
  simp only [onBits, Action.ends_bind, Action.ends_get, Action.goes_ok, Action.ends_lift, hb, Action.ends_set,
    Action.ends_pure, hused, Action.ends_modify, hfree]
  exact ⟨haddr, hsound, ⟨⟨rfl, rfl, rfl, rfl, hsize⟩, hbits'⟩, hle, rfl⟩

/-- The frame that a scan finds is handed out, and becomes taken. -/
theorem alloc_of_scan (h : p.Sound rs) (hs : p.scan = some i) : alloc.Ends p fun r q =>
    r = .ok ⟨Align.frameStart (p.base + i)⟩ ∧ q.Sound rs ∧ Marks p q {i} ∧
      q.usedFrames = p.usedFrames + 1 ∧ q.freeFrames + 1 = p.freeFrames ∧ q.failures = p.failures := by
  refine (alloc_hands h hs).mono fun r q hq => ?_
  obtain ⟨hok, hsound, hmarks, hpos, hhanded⟩ := hq
  refine ⟨hok, hsound, hmarks, congrArg (·.usedFrames) hhanded, ?_, congrArg (·.failures) hhanded⟩
  rw [hhanded]
  exact Nat.sub_add_cancel hpos

/-- Where a scan finds nothing, the request fails and only the count of failed requests changes. -/
theorem alloc_of_scan_none (h : p.Sound rs) (hs : p.scan = none) : alloc.Ends p fun r q =>
    (p.failures + 1 < 2 ^ 64 ∧ r = .error (.fault .tooMany) ∧ q = { p with failures := p.failures + 1 }) ∨
      (2 ^ 64 ≤ p.failures + 1 ∧ r = .error (.halt .addOverflow) ∧ q = p) := by
  unfold alloc
  rw [Action.ends_bind, Action.ends_get, Action.goes_ok, h.lowestFree?_eq_scan, hs]
  simp only [Action.ends_bind, Action.ends_lift]
  by_cases hf : p.failures + 1 < 2 ^ 64
  · have hadd : Count.add (ε := Fault) p.failures 1 = .ok (p.failures + 1) := Count.add_eq_ok.2 ⟨hf, rfl⟩
    rw [hadd, Action.goes_ok]
    exact .inl ⟨hf, rfl, rfl⟩
  · have hadd : Count.add (ε := Fault) p.failures 1 = .error (.halt .addOverflow) := by rw [Count.add, if_neg hf]
    rw [hadd, Action.goes_error]
    exact .inr ⟨Nat.le_of_not_lt hf, rfl, rfl⟩

/-- A request for a frame: the scan finds one, or it does not and the request fails. -/
theorem alloc_ends (h : p.Sound rs) : alloc.Ends p fun r q =>
    (∃ i, p.scan = some i ∧ r = .ok ⟨Align.frameStart (p.base + i)⟩ ∧ q.Sound rs ∧ Marks p q {i} ∧
      q.failures = p.failures) ∨
    (p.scan = none ∧ p.failures + 1 < 2 ^ 64 ∧ r = .error (.fault .tooMany) ∧
      q = { p with failures := p.failures + 1 }) ∨
    (p.scan = none ∧ 2 ^ 64 ≤ p.failures + 1 ∧ r = .error (.halt .addOverflow) ∧ q = p) := by
  cases hs : p.scan with
  | none =>
    refine (alloc_of_scan_none h hs).mono fun r q hr => .inr ?_
    rcases hr with hr | hr
    · exact .inl ⟨rfl, hr⟩
    · exact .inr ⟨rfl, hr⟩
  | some i =>
    refine (alloc_of_scan h hs).mono fun r q hr => .inl ?_
    obtain ⟨hr, hsound, hmarks, -, -, hfail⟩ := hr
    exact ⟨i, rfl, hr, hsound, hmarks, hfail⟩

/-- The count of failed requests is no part of the books. -/
theorem Sound.failures (h : p.Sound rs) (n : Nat) : Sound { p with failures := n } rs :=
  ⟨⟨h.charts.regions, h.charts.rounded, h.charts.apart, h.charts.spans, h.charts.limit⟩, h.sized, h.tail, h.clear,
    h.below, h.hint_le, h.free, h.total, h.covered⟩

/-! ## Giving a frame back -/

/-- The addresses that name a frame: the start of a frame of a usable region, frame zero apart. -/
structure Names (p : Pool) (pa : PhysAddr) : Prop where
  ne_zero : pa.raw ≠ 0
  aligned : pa.raw.toNat % 4096 = 0
  usable : p.Usable (Align.frameOf pa.raw)

/-- What can be given back: the start of a taken frame of a usable region, frame zero apart. -/
structure Releasable (p : Pool) (pa : PhysAddr) : Prop where
  ne_zero : pa.raw ≠ 0
  aligned : pa.raw.toNat % 4096 = 0
  usable : p.Usable (Align.frameOf pa.raw)
  taken : p.bitmap.isSet (Align.frameOf pa.raw - p.base) = true

theorem Releasable.frame_ne_zero {pa : PhysAddr} (h : Releasable p pa) : Align.frameOf pa.raw ≠ 0 := by
  intro hz
  have hal := h.aligned
  rw [Align.frameOf_eq] at hz
  apply h.ne_zero
  rw [← UInt64.toNat_inj, UInt64.toNat_zero]
  omega

theorem releasable_iff {pa : PhysAddr} :
    Releasable p pa ↔ Names p pa ∧ p.bitmap.isSet (Align.frameOf pa.raw - p.base) = true :=
  ⟨fun h => ⟨⟨h.ne_zero, h.aligned, h.usable⟩, h.taken⟩, fun h => ⟨h.1.ne_zero, h.1.aligned, h.1.usable, h.2⟩⟩

theorem isNull_eq_false {pa : PhysAddr} : pa.isNull = false ↔ pa.raw ≠ 0 := by
  simp [Address.isNull]

/-- The pool `p` with another bitmap and one frame, that of bit `i`, moved from the used ones to the free ones. -/
def given (p : Pool) (b : Bitmap) (i : Nat) : Pool :=
  { p with bitmap := b, usedFrames := p.usedFrames - 1, freeFrames := p.freeFrames + 1, hint := min p.hint i }

/-- The start of such a frame is taken back, and nothing but the bitmap, the two counts and the hint changes. -/
theorem release_gives {pa : PhysAddr} (h : p.Sound rs) (hr : Releasable p pa) : (release pa).Ends p fun r q =>
    r = .ok () ∧ q.Sound rs ∧ Clears p q (Align.frameOf pa.raw - p.base) ∧ 0 < p.usedFrames ∧
      q = p.given q.bitmap (Align.frameOf pa.raw - p.base) := by
  have hne := hr.frame_ne_zero
  obtain ⟨h0, hal, hu, ht⟩ := hr
  obtain ⟨hix, hi, hf⟩ := hu.index h.charts
  obtain ⟨b, hb, hsize, hbits⟩ := Bitmap.unmark_ok (ε := Fault) (h.bit_exists hi)
  obtain ⟨hpos, hsound⟩ := h.unmark hi (by rw [hf]; exact hne) (by rw [hf]; exact hu) ht hsize hbits
  have hlt := h.total_lt
  have htotal := h.total
  have hused : Count.sub (ε := Fault) p.usedFrames 1 = .ok (p.usedFrames - 1) := Count.sub_eq_ok.2 ⟨hpos, rfl⟩
  have hfree : Count.add (ε := Fault) p.freeFrames 1 = .ok (p.freeFrames + 1) := Count.add_eq_ok.2 ⟨by omega, rfl⟩
  unfold release
  simp only [isNull_eq_false.2 h0, Align.isMultiple_page.2 hal, (Ledger.any_owner_iff h.charts).2 hu, hix, onBits, hb, ht,
    hused, hfree, Bool.not_true, Bool.or_false, Bool.false_eq_true, ↓reduceIte, Option.filter_some_pos, Action.ends_bind,
    Action.ends_get, Action.ends_lift, Action.ends_set, Action.ends_pure, Action.ends_modify, Action.goes_ok]
  exact ⟨trivial, hsound, ⟨⟨rfl, rfl, rfl, rfl, hsize⟩, hbits⟩, hpos, rfl⟩

theorem release_of_releasable {pa : PhysAddr} (h : p.Sound rs) (hr : Releasable p pa) : (release pa).Ends p fun r q =>
    r = .ok () ∧ q.Sound rs ∧ Clears p q (Align.frameOf pa.raw - p.base) ∧
      q.usedFrames + 1 = p.usedFrames ∧ q.freeFrames = p.freeFrames + 1 ∧ q.failures = p.failures := by
  refine (release_gives h hr).mono fun r q hq => ?_
  obtain ⟨hok, hsound, hclears, hpos, hgiven⟩ := hq
  refine ⟨hok, hsound, hclears, ?_, congrArg (·.freeFrames) hgiven, congrArg (·.failures) hgiven⟩
  rw [hgiven]
  exact Nat.sub_add_cancel hpos

/-- A frame that is free already is refused as given back twice. -/
theorem release_of_clear {pa : PhysAddr} (h : p.Sound rs) (hn : Names p pa)
    (hc : p.bitmap.isSet (Align.frameOf pa.raw - p.base) = false) :
    (release pa).Ends p fun r q => q = p ∧ r = .error (.fault .dangling) := by
  obtain ⟨h0, hal, hu⟩ := hn
  obtain ⟨hix, hi, -⟩ := hu.index h.charts
  have hb := Bitmap.unmark_of_clear (ε := Fault) (h.bit_exists hi) hc
  unfold release
  simp only [isNull_eq_false.2 h0, Align.isMultiple_page.2 hal, (Ledger.any_owner_iff h.charts).2 hu, hix, onBits, hb,
    Bool.not_true, Bool.not_false, Bool.or_false, Bool.false_eq_true, ↓reduceIte, Option.filter_some_pos,
    Action.ends_bind, Action.ends_get, Action.ends_lift, Action.ends_set, Action.ends_pure, Action.ends_note,
    Action.ends_fail, Action.goes_ok, Action.goes_error]
  exact ⟨trivial, trivial⟩

/-- An address that names no frame is refused as a bad argument. -/
theorem release_of_unnamed {pa : PhysAddr} (h : p.Sound rs) (hn : ¬Names p pa) :
    (release pa).Ends p fun r q => q = p ∧ r = .error (.fault .badArgs) := by
  unfold release
  rw [Action.ends_ite]
  split
  · exact ⟨rfl, rfl⟩
  · rename_i hok
    simp only [Bool.or_eq_true, Bool.not_eq_true', not_or, Bool.not_eq_true, Bool.not_eq_false] at hok
    obtain ⟨hnull, hal⟩ := hok
    have ha : (p.owner? (Align.frameOf pa.raw)).any Extent.isUsable = false := by
      rw [← Bool.not_eq_true, Ledger.any_owner_iff h.charts]
      exact fun hu => hn ⟨isNull_eq_false.1 hnull, Align.isMultiple_page.1 hal, hu⟩
    have hnone : (p.index? (Align.frameOf pa.raw)).filter (fun _ => false) = none := by
      cases p.index? (Align.frameOf pa.raw) <;> simp
    simp only [ha, hnone, Action.ends_bind, Action.ends_get, Action.ends_note, Action.goes_ok, Action.ends_fail]
    exact ⟨trivial, trivial⟩

/-- Any other address is refused: it is not the start of a frame, the frame is not usable, or it is free. -/
theorem release_refused {pa : PhysAddr} (h : p.Sound rs) (hr : ¬Releasable p pa) : (release pa).Ends p fun r q =>
    q = p ∧ (r = .error (.fault .badArgs) ∨ r = .error (.fault .dangling)) := by
  by_cases hn : Names p pa
  · have hc : p.bitmap.isSet (Align.frameOf pa.raw - p.base) = false :=
      Bool.not_eq_true _ ▸ fun ht => hr (releasable_iff.2 ⟨hn, ht⟩)
    exact (release_of_clear h hn hc).mono fun r q hq => ⟨hq.1, .inr hq.2⟩
  · exact (release_of_unnamed h hn).mono fun r q hq => ⟨hq.1, .inl hq.2⟩

/-- A frame is given back exactly if it can be; otherwise nothing changes. -/
theorem release_ends (h : p.Sound rs) (pa : PhysAddr) : (release pa).Ends p fun r q =>
    (r = .ok () ∧ Releasable p pa ∧ q.Sound rs ∧ Clears p q (Align.frameOf pa.raw - p.base) ∧
      q.usedFrames + 1 = p.usedFrames ∧ q.freeFrames = p.freeFrames + 1 ∧ q.failures = p.failures) ∨
    (q = p ∧ ¬Releasable p pa ∧ (r = .error (.fault .badArgs) ∨ r = .error (.fault .dangling))) := by
  by_cases hr : Releasable p pa
  · refine (release_of_releasable h hr).mono fun r q hq => .inl ?_
    obtain ⟨hok, hrest⟩ := hq
    exact ⟨hok, hr, hrest⟩
  · refine (release_refused h hr).mono fun r q hq => .inr ?_
    obtain ⟨hsame, hrefused⟩ := hq
    exact ⟨hsame, hr, hrefused⟩

/-! ## Taking a range of bytes out of use -/

/-- The first frame that a range of bytes touches. -/
def firstTouched (base : PhysAddr) : Nat := base.raw.toNat / 4096

/-- The frame after the last one that a range of bytes touches. -/
def stopTouched (base : PhysAddr) (length : UInt64) : Nat := (base.raw.toNat + length.toNat + 4095) / 4096

/-- What can be reserved: a range with bytes whose end, rounded up to a page, fits a word, and that touches a tracked
frame. -/
structure Reservable (p : Pool) (base : PhysAddr) (length : UInt64) : Prop where
  ne_zero : length ≠ 0
  fits : base.raw.toNat + length.toNat + 4095 < 2 ^ 64
  meets : p.base < stopTouched base length ∧ firstTouched base < p.base + p.frames

/-- The bits of the frames that a range of bytes touches. -/
def touchedBits (p : Pool) (base : PhysAddr) (length : UInt64) : Finset Nat :=
  (Finset.range p.frames).filter fun i => firstTouched base ≤ p.base + i ∧ p.base + i < stopTouched base length

/-- The run of indices that the frames of a range have is marked, and the bits that were clear are counted. -/
theorem markTouched (h : ∀ i < p.frames, i / 64 < p.bitmap.words.size) (base : PhysAddr) (length : UInt64) :
    ∃ b, p.bitmap.markRun (ε := Fault) (p.indexRun (firstTouched base) (stopTouched base length)).1
        (p.indexRun (firstTouched base) (stopTouched base length)).2 0 =
        .ok ((p.bitmap.clearIn (p.touchedBits base length)).card, b) ∧
      b.words.size = p.bitmap.words.size ∧
      ∀ j, b.isSet j = (decide (j ∈ p.touchedBits base length) || p.bitmap.isSet j) := by
  have hbits : ∀ j, j ∈ Finset.Ico (p.indexRun (firstTouched base) (stopTouched base length)).1
      ((p.indexRun (firstTouched base) (stopTouched base length)).1 +
        (p.indexRun (firstTouched base) (stopTouched base length)).2) ↔ j ∈ p.touchedBits base length := by
    intro j
    rw [Ledger.mem_indexRun, touchedBits, Finset.mem_filter, Finset.mem_range]
  generalize p.indexRun (firstTouched base) (stopTouched base length) = run at hbits ⊢
  obtain ⟨i, n⟩ := run
  have hS : Finset.Ico i (i + n) = p.touchedBits base length := Finset.ext hbits
  have hexists : ∀ j, i ≤ j → j < i + n → j / 64 < p.bitmap.words.size := by
    intro j h1 h2
    have hj := (hbits j).1 (Finset.mem_Ico.2 ⟨h1, h2⟩)
    exact h j (Finset.mem_range.1 (Finset.mem_filter.1 hj).1)
  obtain ⟨b, hb, hsize, hset⟩ := Bitmap.markRun_ok (ε := Fault) (k := 0) hexists
  rw [hS, Nat.zero_add] at hb
  refine ⟨b, hb, hsize, fun j => ?_⟩
  rw [hset, ← hS]
  simp only [Finset.mem_Ico]

/-- The pool `p` with another bitmap, and `n` frames moved from the free ones to the used ones. -/
def moved (p : Pool) (b : Bitmap) (n : Nat) : Pool :=
  { p with bitmap := b, usedFrames := p.usedFrames + n, freeFrames := p.freeFrames - n }

/-- The frames of such a range are taken out of use, unless more of them have a clear bit than are counted as free: then
the count runs below zero. -/
theorem reserve_counts {base : PhysAddr} {length : UInt64} (hr : Reservable p base length)
    (hbits : ∀ i < p.frames, i / 64 < p.bitmap.words.size) (hlimit : p.base + p.frames < 2 ^ 64)
    (hcount : p.usedFrames + (p.bitmap.clearIn (p.touchedBits base length)).card < 2 ^ 64) :
    ∃ b, b.words.size = p.bitmap.words.size ∧
      (∀ j, b.isSet j = (decide (j ∈ p.touchedBits base length) || p.bitmap.isSet j)) ∧
      (reserve base length).Ends p fun r q =>
        if (p.bitmap.clearIn (p.touchedBits base length)).card ≤ p.freeFrames then
          r = .ok (p.bitmap.clearIn (p.touchedBits base length)).card ∧
            q = p.moved b (p.bitmap.clearIn (p.touchedBits base length)).card
        else r = .error (.halt .subOverflow) := by
  obtain ⟨h0, hfits, hmeets⟩ := hr
  obtain ⟨b, hb, hsize, hset⟩ := markTouched hbits base length
  refine ⟨b, hsize, hset, ?_⟩
  generalize (p.bitmap.clearIn (p.touchedBits base length)).card = n at hb hcount ⊢
  have hspan : Count.add (ε := Fault) p.base p.frames = .ok (p.base + p.frames) := Count.add_eq_ok.2 ⟨hlimit, rfl⟩
  have hused : Count.add (ε := Fault) p.usedFrames n = .ok (p.usedFrames + n) := Count.add_eq_ok.2 ⟨hcount, rfl⟩
  unfold reserve
  cases hend : base.add? length with
  | none => exact absurd (Address.add?_eq_none.1 hend) (by omega)
  | some stop =>
    have hstop := Address.add?_eq_some.1 hend
    cases hceil : Align.pageCeil? stop.raw with
    | none => exact absurd (Align.pageCeil?_eq_none.1 hceil) (by omega)
    | some c =>
      have hlast : Align.frameOf c = stopTouched base length := by
        rw [Align.frameOf_of_pageCeil? hceil, stopTouched, hstop]
      have hfirst : Align.frameOf (Align.pageFloor base.raw) = firstTouched base := Align.frameOf_pageFloor _
      have hmiss : ¬(decide (stopTouched base length ≤ p.base) ||
          decide (p.base + p.frames ≤ firstTouched base)) = true := by
        simp only [Bool.or_eq_true, decide_eq_true_eq]
        omega
      simp only [h0, hceil, hlast, hfirst, hspan, hmiss, onBits, hb, hused, Bool.false_eq_true, ↓reduceIte,
        Action.ends_bind, Action.ends_some, Action.ends_get, Action.ends_lift, Action.ends_set, Action.ends_pure,
        Action.ends_modify, Action.goes_ok]
      by_cases hle : n ≤ p.freeFrames
      · have hfree : Count.sub (ε := Fault) p.freeFrames n = .ok (p.freeFrames - n) := Count.sub_eq_ok.2 ⟨hle, rfl⟩
        simp only [hfree, if_pos hle, Action.ends_bind, Action.ends_modify, Action.ends_note, Action.ends_pure,
          Action.goes_ok]
        exact ⟨trivial, rfl⟩
      · have hfree : Count.sub (ε := Fault) p.freeFrames n = .error (.halt .subOverflow) := if_neg hle
        simp only [hfree, if_neg hle, Action.goes_error]

/-- The frames of such a range are taken out of use, and nothing but the bitmap and the two counts changes. -/
theorem reserve_moves {base : PhysAddr} {length : UInt64} (h : p.Sound rs) (hr : Reservable p base length) :
    (reserve base length).Ends p fun r q =>
      r = .ok (p.bitmap.clearIn (p.touchedBits base length)).card ∧ q.Sound rs ∧ Marks p q (p.touchedBits base length) ∧
        (p.bitmap.clearIn (p.touchedBits base length)).card ≤ p.freeFrames ∧
        q = p.moved q.bitmap (p.bitmap.clearIn (p.touchedBits base length)).card := by
  have hsub : p.touchedBits base length ⊆ Finset.range p.frames := Finset.filter_subset _ _
  have htotal := h.total
  have hlt := h.total_lt
  have hlimit := h.charts.limit
  have hbits : ∀ i < p.frames, i / 64 < p.bitmap.words.size := fun _ => h.bit_exists
  have hle : (p.bitmap.clearIn (p.touchedBits base length)).card ≤ p.freeFrames := by
    rw [h.free]
    exact Finset.card_le_card (Finset.filter_subset_filter _ hsub)
  obtain ⟨b, hsize, hset, hends⟩ := reserve_counts hr hbits (by omega) (by omega)
  have hbelow : ∀ j < p.hint, b.isSet j = true := fun j hj => by rw [hset, h.below j hj, Bool.or_true]
  obtain ⟨-, hsound⟩ := h.mark hsub hsize hset h.hint_le hbelow
  refine hends.mono fun r q hq => ?_
  rw [if_pos hle] at hq
  obtain ⟨rfl, rfl⟩ := hq
  exact ⟨rfl, hsound, ⟨⟨rfl, rfl, rfl, rfl, hsize⟩, hset⟩, hle, rfl⟩

/-- Where more of the frames have a clear bit than are counted as free, the machine stops. -/
theorem reserve_overdrawn {base : PhysAddr} {length : UInt64} (hr : Reservable p base length)
    (hbits : ∀ i < p.frames, i / 64 < p.bitmap.words.size) (hlimit : p.base + p.frames < 2 ^ 64)
    (hcount : p.usedFrames + (p.bitmap.clearIn (p.touchedBits base length)).card < 2 ^ 64)
    (hfree : p.freeFrames < (p.bitmap.clearIn (p.touchedBits base length)).card) :
    (reserve base length).Ends p fun r _ => r = .error (.halt .subOverflow) := by
  obtain ⟨b, -, -, hends⟩ := reserve_counts hr hbits hlimit hcount
  refine hends.mono fun r q hq => ?_
  rwa [if_neg (Nat.not_le.2 hfree)] at hq

theorem reserve_of_reservable {base : PhysAddr} {length : UInt64} (h : p.Sound rs) (hr : Reservable p base length) :
    (reserve base length).Ends p fun r q =>
      r = .ok (p.bitmap.clearIn (p.touchedBits base length)).card ∧ q.Sound rs ∧ Marks p q (p.touchedBits base length) ∧
        q.usedFrames = p.usedFrames + (p.bitmap.clearIn (p.touchedBits base length)).card ∧
        q.freeFrames + (p.bitmap.clearIn (p.touchedBits base length)).card = p.freeFrames ∧ q.failures = p.failures := by
  refine (reserve_moves h hr).mono fun r q hq => ?_
  obtain ⟨hok, hsound, hmarks, hle, hmoved⟩ := hq
  refine ⟨hok, hsound, hmarks, congrArg (·.usedFrames) hmoved, ?_, congrArg (·.failures) hmoved⟩
  rw [hmoved]
  exact Nat.sub_add_cancel hle

/-- Any other range is refused: it is empty, its end does not fit, or it lies off the map. -/
theorem reserve_refused {base : PhysAddr} {length : UInt64} (h : p.Sound rs) (hr : ¬Reservable p base length) :
    (reserve base length).Ends p fun r q => q = p ∧ (r = .error (.fault .badArgs) ∨ r = .error (.fault .overflow)) := by
  have hlimit := h.charts.limit
  have hspan : Count.add (ε := Fault) p.base p.frames = .ok (p.base + p.frames) := Count.add_eq_ok.2 ⟨by omega, rfl⟩
  unfold reserve
  rw [Action.ends_ite]
  split
  · exact ⟨rfl, .inl rfl⟩
  rename_i h0
  rw [Action.ends_bind]
  cases hend : base.add? length with
  | none => exact ⟨rfl, .inr rfl⟩
  | some stop =>
    have hstop := Address.add?_eq_some.1 hend
    rw [Action.ends_some, Action.goes_ok, Action.ends_bind]
    cases hceil : Align.pageCeil? stop.raw with
    | none => exact ⟨rfl, .inr rfl⟩
    | some c =>
      have hfits := (Align.pageCeil?_eq_some.1 hceil).1
      rw [Action.ends_some, Action.goes_ok, Action.ends_bind, Action.ends_get, Action.goes_ok, Action.ends_bind, hspan,
        Action.ends_lift, Action.goes_ok, Action.ends_ite, Align.frameOf_of_pageCeil? hceil,
        Align.frameOf_pageFloor, ← hstop]
      split
      · exact ⟨rfl, .inl rfl⟩
      · rename_i hmeets
        simp only [Bool.or_eq_true, decide_eq_true_eq, not_or, Nat.not_le] at hmeets
        exact absurd ⟨h0, by omega, hmeets⟩ hr

/-- A range is reserved exactly if it can be; otherwise nothing changes. -/
theorem reserve_ends (h : p.Sound rs) (base : PhysAddr) (length : UInt64) : (reserve base length).Ends p fun r q =>
    (r = .ok (p.bitmap.clearIn (p.touchedBits base length)).card ∧ Reservable p base length ∧ q.Sound rs ∧
      Marks p q (p.touchedBits base length) ∧
      q.usedFrames = p.usedFrames + (p.bitmap.clearIn (p.touchedBits base length)).card ∧
      q.freeFrames + (p.bitmap.clearIn (p.touchedBits base length)).card = p.freeFrames ∧ q.failures = p.failures) ∨
    (q = p ∧ ¬Reservable p base length ∧ (r = .error (.fault .badArgs) ∨ r = .error (.fault .overflow))) := by
  by_cases hr : Reservable p base length
  · refine (reserve_of_reservable h hr).mono fun r q hq => .inl ?_
    obtain ⟨hok, hrest⟩ := hq
    exact ⟨hok, hr, hrest⟩
  · refine (reserve_refused h hr).mono fun r q hq => .inr ?_
    obtain ⟨hsame, hrefused⟩ := hq
    exact ⟨hsame, hr, hrefused⟩

end Pool

/-! ## Requests -/

/-- A request to a pool. -/
inductive Request
  | alloc
  | release (pa : PhysAddr)
  | reserve (base : PhysAddr) (length : UInt64)

/-- The pool that a request leaves behind. -/
def Request.on (p : Pool) : Request → Pool
  | .alloc => (Pool.alloc p).state
  | .release pa => (Pool.release pa p).state
  | .reserve base length => (Pool.reserve base length p).state

namespace Pool

variable {p : Pool} {i f : Nat}

/-- The pool after some requests. -/
def after (p : Pool) (qs : List Request) : Pool := qs.foldl Request.on p

theorem after_append (p : Pool) (qs qs' : List Request) : p.after (qs ++ qs') = (p.after qs).after qs' :=
  List.foldl_append

/-- A pool keeps its map and the size of its bitmap under every request. -/
theorem Sound.on (h : p.Sound rs) (q : Request) : (q.on p).Sound rs ∧ SameMap p (q.on p) := by
  have hsame := SameMap.refl p
  cases q with
  | alloc =>
    rcases alloc_ends h with ⟨i, -, -, hsound, hmarks, -⟩ | ⟨-, -, -, hq⟩ | ⟨-, -, -, hq⟩
    · exact ⟨hsound, hmarks.toSameMap⟩
    · rw [Request.on, hq]
      exact ⟨h.failures _, ⟨rfl, rfl, rfl, rfl, rfl⟩⟩
    · rw [Request.on, hq]
      exact ⟨h, hsame⟩
  | release pa =>
    rcases release_ends h pa with ⟨-, -, hsound, hclears, -⟩ | ⟨hq, -⟩
    · exact ⟨hsound, hclears.toSameMap⟩
    · rw [Request.on, hq]
      exact ⟨h, hsame⟩
  | reserve base length =>
    rcases reserve_ends h base length with ⟨-, -, hsound, hmarks, -⟩ | ⟨hq, -⟩
    · exact ⟨hsound, hmarks.toSameMap⟩
    · rw [Request.on, hq]
      exact ⟨h, hsame⟩

theorem Sound.after (h : p.Sound rs) (qs : List Request) : (p.after qs).Sound rs := by
  unfold Pool.after
  induction qs generalizing p with
  | nil => exact h
  | cons q qs ih => exact ih (h.on q).1

theorem Sound.sameMap_after (h : p.Sound rs) (qs : List Request) : SameMap p (p.after qs) := by
  unfold Pool.after
  induction qs generalizing p with
  | nil => exact .refl p
  | cons q qs ih => exact (h.on q).2.trans (ih (h.on q).1)

/-- After a frame has been handed out, the others are as free as before. -/
theorem Sound.free_alloc (h : p.Sound rs) (hs : p.scan = some i) :
    (alloc p).result = .ok ⟨Align.frameStart (p.base + i)⟩ ∧ ∀ f, (Request.on p .alloc).Free f ↔ p.Free f ∧ f ≠ p.base + i := by
  obtain ⟨hr, -, hmarks, -⟩ := alloc_of_scan h hs
  refine ⟨hr, fun f => ?_⟩
  rw [Request.on, hmarks.free_iff, Finset.mem_singleton]
  constructor
  · rintro ⟨hf, hne⟩
    exact ⟨hf, by have := hf.1; omega⟩
  · rintro ⟨hf, hne⟩
    exact ⟨hf, by have := hf.1; omega⟩

/-- The pool can count no further failed request. -/
def Saturated (p : Pool) : Prop := 2 ^ 64 ≤ p.failures + 1

/-- A request for a frame that fails leaves the same frames free, and only for want of a count it halts. -/
theorem Sound.free_alloc_none (h : p.Sound rs) (hs : p.scan = none) :
    ((alloc p).result = .error (.fault .tooMany) ∨
      (alloc p).result = .error (.halt .addOverflow) ∧ (Request.on p .alloc).Saturated) ∧
      ∀ f, (Request.on p .alloc).Free f ↔ p.Free f := by
  rcases alloc_of_scan_none h hs with ⟨-, hr, hq⟩ | ⟨hfull, hr, hq⟩
  · refine ⟨.inl hr, fun f => ?_⟩
    rw [Request.on, hq]
    rfl
  · refine ⟨.inr ⟨hr, ?_⟩, fun f => ?_⟩
    · rw [Request.on, hq]
      exact hfull
    · rw [Request.on, hq]

/-- A pool that can count no further failed request cannot do so after one. -/
theorem Sound.saturated_alloc (h : p.Sound rs) (hs : p.scan = none) (hfull : p.Saturated) :
    (p.after [.alloc]).Saturated := by
  show (alloc p).state.Saturated
  rcases alloc_of_scan_none h hs with ⟨hlt, -⟩ | ⟨-, -, hq⟩
  · exact absurd hlt (Nat.not_lt.2 hfull)
  · rw [hq]
    exact hfull

/-- A request for a frame frees none. -/
theorem Sound.free_of_alloc (h : p.Sound rs) (hf : (Request.on p .alloc).Free f) : p.Free f := by
  cases hs : p.scan with
  | none => exact ((h.free_alloc_none hs).2 f).1 hf
  | some i => exact (((h.free_alloc hs).2 f).1 hf).1

/-- A frame that is handed out was free, and is the one that no longer is. -/
theorem Sound.free_of_alloc_eq_ok {pa : PhysAddr} (h : p.Sound rs) (hr : (alloc p).result = .ok pa) :
    p.Free (Align.frameOf pa.raw) ∧
      ∀ f, (Request.on p .alloc).Free f ↔ p.Free f ∧ f ≠ Align.frameOf pa.raw := by
  cases hs : p.scan with
  | none =>
    rcases (h.free_alloc_none hs).1 with he | ⟨he, -⟩
    · cases he.symm.trans hr
    · cases he.symm.trans hr
  | some i =>
    obtain ⟨hok, hafter⟩ := h.free_alloc hs
    obtain rfl := Except.ok.inj (hok.symm.trans hr)
    have hi := (free_of_scan hs).1
    have hframe := Align.frameOf_frameStart ((hi.clear h).2.lt h.charts)
    rw [hframe]
    exact ⟨hi, hafter⟩

/-- A taken frame of a usable region, frame zero apart, can be given back, and is free then. -/
theorem Sound.free_release (h : p.Sound rs) (hu : p.Usable f) (h0 : f ≠ 0) (hf : ¬p.Free f) :
    (release ⟨Align.frameStart f⟩ p).result = .ok () ∧
      ∀ g, (Request.on p (.release ⟨Align.frameStart f⟩)).Free g ↔ p.Free g ∨ g = f := by
  have hlt := hu.lt h.charts
  have haddr := Align.toNat_frameStart hlt
  have hframe := Align.frameOf_frameStart hlt
  obtain ⟨h1, h2⟩ := hu.inside h.charts
  have hrel : Releasable p ⟨Align.frameStart f⟩ := by
    refine ⟨fun hz => ?_, by show (Align.frameStart f).toNat % 4096 = 0; omega, by rwa [hframe], ?_⟩
    · have hz : Align.frameStart f = 0 := hz
      rw [hz, UInt64.toNat_zero] at haddr
      omega
    · rw [hframe]
      by_contra hc
      exact hf ⟨h1, h2, by simpa using hc⟩
  rcases release_ends h ⟨Align.frameStart f⟩ with ⟨hr, -, -, hclears, -⟩ | ⟨-, hno, -⟩
  · refine ⟨hr, fun g => ?_⟩
    rw [hframe] at hclears
    rw [Request.on, hclears.free_iff (by omega), Nat.add_sub_cancel' h1]
  · exact absurd hrel hno

/-- A frame that is taken back is one of the free ones and none of the used ones. -/
theorem Sound.counts_release {pa : PhysAddr} (h : p.Sound rs) (hr : (release pa p).result = .ok ()) :
    (p.after [.release pa]).usedFrames + 1 = p.usedFrames ∧ (p.after [.release pa]).freeFrames = p.freeFrames + 1 ∧
      (p.after [.release pa]).failures = p.failures := by
  rcases release_ends h pa with ⟨-, -, -, -, hcounts⟩ | ⟨-, -, hrefused⟩
  · exact hcounts
  · rcases hrefused with hrefused | hrefused <;> cases hrefused.symm.trans hr

/-- Whether a range of bytes that can be rounded to pages touches a frame. -/
def Touched (base : PhysAddr) (length : UInt64) (f : Nat) : Prop :=
  length ≠ 0 ∧ base.raw.toNat + length.toNat + 4095 < 2 ^ 64 ∧ firstTouched base ≤ f ∧ f < stopTouched base length

/-- Whatever is answered, the frames that a range of bytes touches are taken afterwards, and the others as before. -/
theorem Sound.free_reserve (h : p.Sound rs) (base : PhysAddr) (length : UInt64) :
    (Request.on p (.reserve base length)).Free f ↔ p.Free f ∧ ¬Touched base length f := by
  rcases reserve_ends h base length with ⟨-, hres, -, hmarks, -⟩ | ⟨hq, hno, -⟩
  · rw [Request.on, hmarks.free_iff]
    refine and_congr_right fun hf => not_congr ?_
    obtain ⟨h1, h2, -⟩ := hf
    rw [touchedBits, Finset.mem_filter, Finset.mem_range, Nat.add_sub_cancel' h1, Touched]
    constructor
    · rintro ⟨-, ht⟩
      exact ⟨hres.ne_zero, hres.fits, ht⟩
    · rintro ⟨-, -, ht⟩
      exact ⟨by omega, ht⟩
  · rw [Request.on, hq]
    refine (and_iff_left_of_imp fun hf ht => hno ?_).symm
    obtain ⟨h1, h2, -⟩ := hf
    obtain ⟨h0, hfits, h3, h4⟩ := ht
    exact ⟨h0, hfits, by omega, by omega⟩

/-- No request makes a frame free but the one that gives it back with success. -/
theorem Sound.free_on {q : Request} (h : p.Sound rs) (hf : (q.on p).Free f) : p.Free f ∨
    ∃ pa, q = .release pa ∧ (release pa p).result = .ok () ∧ f = Align.frameOf pa.raw := by
  cases q with
  | alloc => exact .inl (h.free_of_alloc hf)
  | release pa =>
    rcases release_ends h pa with ⟨hr, hrel, -, hclears, -⟩ | ⟨hq, -, -⟩
    · obtain ⟨h1, h2⟩ := hrel.usable.inside h.charts
      refine ((hclears.free_iff (by omega)).1 hf).imp_right fun hf => ⟨pa, rfl, hr, ?_⟩
      rwa [Nat.add_sub_cancel' h1] at hf
    · rw [Request.on, hq] at hf
      exact .inl hf
  | reserve base length => exact .inl ((h.free_reserve base length).1 hf).1

/-- A frame that is handed out and given back is free again. -/
theorem Sound.free_return (h : p.Sound rs) (hs : p.scan = some i) : ∃ q, q = Request.on p .alloc ∧
    (release ⟨Align.frameStart (p.base + i)⟩ q).result = .ok () ∧
    ∀ f, (p.after [.alloc, .release ⟨Align.frameStart (p.base + i)⟩]).Free f ↔ p.Free f := by
  obtain ⟨-, hfree⟩ := h.free_alloc hs
  have hi := (free_of_scan hs).1
  obtain ⟨h0, hu⟩ := hi.clear h
  have hq := h.on .alloc
  have hback := hq.1.free_release (hq.2.usable_iff.2 hu) h0 fun hf => ((hfree _).1 hf).2 rfl
  refine ⟨_, rfl, hback.1, fun f => (hback.2 f).trans ?_⟩
  rw [hfree]
  constructor
  · rintro (⟨hf, -⟩ | rfl)
    · exact hf
    · exact hi
  · intro hf
    by_cases he : f = p.base + i
    · exact .inr he
    · exact .inl ⟨hf, he⟩

end Pool

end Keel.Frame
