import Keel.Proofs.Frame.Exactness

/-!
# Frames given back

What becomes of an address that is given back, for every address. It names a frame if it is where a frame starts that
one usable region holds whole, frame zero apart (`StartsFrame`, `names_iff`).
- such a frame is taken back if it is taken (`release_gives`), and refused if it is free (`release_of_clear`);
- every other address is refused for what it is (`release_of_unnamed`), so there are three outcomes in all
  (`Sound.sorts`);
- giving back what was just handed out undoes the request but for the hint (`Sound.undoes`), which then is at the frame
  that is found next.

`returns_after` says so for every state of a pool.
-/

namespace Keel.Frame

variable {rs : List Region} {b : Bitmap} {l : Ledger} {pa : PhysAddr}

/-- Where a frame starts that lies whole in one usable region. Address zero is none. -/
def StartsFrame (rs : List Region) (pa : PhysAddr) : Prop :=
  pa.isNull = false ∧ pa.raw.toNat % 4096 = 0 ∧
    ∃ r ∈ rs, r.kind = .usable ∧ pa.raw.toNat / 4096 ∈ framesOf r

namespace Pool

variable {p q : Pool} {i : Nat}

theorem names_iff (h : p.toLedger.Charts rs) : Names p pa ↔ StartsFrame rs pa := by
  have hframe : p.Usable (Align.frameOf pa.raw) ↔ ∃ r ∈ rs, r.kind = .usable ∧ pa.raw.toNat / 4096 ∈ framesOf r := by
    rw [h.usable_iff, Align.frameOf_eq]
    apply exists_congr
    intro r
    apply and_congr_right
    intro hr
    apply and_congr_right
    intro hu
    simp [framesOf, hu]
  constructor
  · intro hn
    exact ⟨isNull_eq_false.2 hn.ne_zero, hn.aligned, hframe.1 hn.usable⟩
  · rintro ⟨h0, hal, hu⟩
    exact ⟨isNull_eq_false.1 h0, hal, hframe.2 hu⟩

/-! ## Three outcomes -/

/-- The bit of the frame at an address. -/
def bitOf (p : Pool) (pa : PhysAddr) : Nat := pa.raw.toNat / 4096 - p.base

/-- What a pool over the regions `rs` does with an address that is given back. -/
structure Sorts (rs : List Region) (p : Pool) (pa : PhysAddr) : Prop where
  accepts : (release pa p).result = .ok () ↔ StartsFrame rs pa ∧ p.bitmap.isSet (p.bitOf pa) = true
  dangles : (release pa p).result = .error (.fault .dangling) ↔
    StartsFrame rs pa ∧ p.bitmap.isSet (p.bitOf pa) = false
  refuses : (release pa p).result = .error (.fault .badArgs) ↔ ¬StartsFrame rs pa
  /-- What is accepted clears the one bit; a frame is free that was used, and the rest of the books but the hint stays. -/
  gives : (release pa p).result = .ok () → 0 < p.usedFrames ∧
    (release pa p).state = p.given (release pa p).state.bitmap (p.bitOf pa) ∧
    (release pa p).state.bitmap.words.size = p.bitmap.words.size ∧
    ∀ j, (release pa p).state.bitmap.isSet j = (j != p.bitOf pa && p.bitmap.isSet j)
  /-- What is not accepted changes nothing. -/
  spares : ∀ e, (release pa p).result = .error e → (release pa p).state = p

/-- **Every address is sorted** by what it names and by the bit of that. -/
theorem Sound.sorts (h : p.Sound rs) (pa : PhysAddr) : Sorts rs p pa := by
  have hnames : Names p pa ↔ StartsFrame rs pa := names_iff h.charts
  have hbit : Align.frameOf pa.raw - p.base = p.bitOf pa := by rw [Align.frameOf_eq, bitOf]
  by_cases hn : Names p pa
  · have hstart := hnames.1 hn
    cases ht : p.bitmap.isSet (p.bitOf pa) with
    | true =>
      obtain ⟨hok, -, hclears, hpos, hgiven⟩ := release_gives h (releasable_iff.2 ⟨hn, hbit ▸ ht⟩)
      rw [hbit] at hclears hgiven
      constructor
      case gives => exact fun _ => ⟨hpos, hgiven, hclears.size, hclears.bits⟩
      all_goals simp [hok, hstart, ht]
    | false =>
      obtain ⟨hsame, hdangling⟩ := release_of_clear h hn (hbit ▸ ht)
      constructor
      case spares => exact fun _ _ => hsame
      all_goals simp [hdangling, hstart, ht]
  · have hstart := hnames.not.1 hn
    obtain ⟨hsame, hrefused⟩ := release_of_unnamed h hn
    constructor
    case spares => exact fun _ _ => hsame
    all_goals simp [hrefused, hstart]

/-! ## Undone -/

/-- The hint may be moved to the frame that is found next. -/
theorem Sound.rehint (h : p.Sound rs) (hs : p.scan = some i) : Sound { p with hint := i } rs :=
  ⟨⟨h.charts.regions, h.charts.rounded, h.charts.apart, h.charts.spans, h.charts.limit⟩, h.sized, h.tail, h.clear,
    (scan_eq_some.1 hs).2.2, Nat.le_of_lt (scan_eq_some.1 hs).1, h.free, h.total, h.covered⟩

/-- A bit that is set and cleared again. -/
theorem bitmap_eq_of_marks_clears {p' : Pool} (hs : p.scan = some i) (hm : Marks p q {i}) (hc : Clears q p' i) :
    p'.bitmap = p.bitmap := by
  apply Bitmap.ext_isSet (hc.size.trans hm.size)
  intro j
  rw [hc.bits, hm.bits]
  by_cases hj : j = i
  · simp [hj, (scan_eq_some.1 hs).2.1]
  · simp [hj]

theorem given_handed (hpos : 0 < p.freeFrames) (b b' : Bitmap) (i : Nat) :
    (p.handed b i).given b' i = { p with bitmap := b', hint := i } := by
  simp [given, handed, Nat.sub_add_cancel hpos]

/-- What was just handed out can be given back, and then all is as before but for the hint. -/
theorem Sound.undoes (h : p.Sound rs) (hs : p.scan = some i) :
    (release ⟨Align.frameStart (p.base + i)⟩).Ends (alloc p).state fun r q => r = .ok () ∧ q = { p with hint := i } := by
  have hfree := (free_of_scan hs).1
  obtain ⟨h0, hu⟩ := hfree.clear h
  have hframe := Align.frameOf_frameStart (hu.lt h.charts)
  have haddr := Align.toNat_frameStart (hu.lt h.charts)
  obtain ⟨-, hsound, hmarks, hpos, hhanded⟩ := alloc_hands h hs
  have hbit : (alloc p).state.bitmap.isSet i = true := by simp [hmarks.bits]
  have hrel : Releasable (alloc p).state ⟨Align.frameStart (p.base + i)⟩ := by
    apply releasable_iff.2
    rw [hframe, hmarks.base, Nat.add_sub_cancel_left]
    refine ⟨⟨?_, by simp [haddr], ?_⟩, hbit⟩
    · intro hz
      have hz : Align.frameStart (p.base + i) = 0 := hz
      rw [hz, UInt64.toNat_zero] at haddr
      omega
    · rw [hframe]
      exact hmarks.toSameMap.usable_iff.2 hu
  refine (release_gives hsound hrel).mono ?_
  intro r q hends
  obtain ⟨hok, -, hclears, -, hgiven⟩ := hends
  rw [hframe, hmarks.base, Nat.add_sub_cancel_left] at hclears hgiven
  have hbitmap := bitmap_eq_of_marks_clears hs hmarks hclears
  refine ⟨hok, ?_⟩
  rw [hgiven, hhanded, given_handed hpos, hbitmap]

/-- What a pool has to say of a frame that it hands out: once it is given back, all but the hint is as before, and it
is the frame that is handed out next. -/
def Undoes (p : Pool) : Prop := ∀ pa, (alloc p).result = .ok pa →
  (release pa (alloc p).state).result = .ok () ∧
    (release pa (alloc p).state).state = { p with hint := p.bitOf pa } ∧
    (alloc (release pa (alloc p).state).state).result = .ok pa

theorem Sound.undoes_alloc (h : p.Sound rs) : p.Undoes := by
  intro pa hpa
  cases hs : p.scan with
  | none =>
    rcases (h.free_alloc_none hs).1 with he | ⟨he, -⟩
    · cases he.symm.trans hpa
    · cases he.symm.trans hpa
  | some i =>
    obtain rfl := Except.ok.inj ((alloc_hands h hs).1.symm.trans hpa)
    obtain ⟨hok, hback⟩ := h.undoes hs
    have hfree := (free_of_scan hs).1
    have hbit : p.bitOf ⟨Align.frameStart (p.base + i)⟩ = i := by
      rw [bitOf, ← Align.frameOf_eq, Align.frameOf_frameStart ((hfree.clear h).2.lt h.charts),
        Nat.add_sub_cancel_left]
    rw [hback, hbit]
    -- the hint takes no part in the scan
    exact ⟨hok, rfl, (alloc_hands (h.rehint hs) hs).1⟩

/-- What a pool over the regions `rs` does with the frames that are given back. -/
structure Returns (rs : List Region) (p : Pool) : Prop where
  sorts : ∀ pa, Sorts rs p pa
  undoes : p.Undoes

/-- **Giving back is exact** for every address, and it undoes a request, whatever a pool was asked before. -/
theorem returns_after (hc : (create rs b).result = .ok l) (qs : List Request) :
    Returns rs ((l.withBitmap (create rs b).state).after qs) := by
  have hsound := (sound_create hc).1.after qs
  exact ⟨hsound.sorts, hsound.undoes_alloc⟩

/-- Two usable regions that hold one frame in parts, a reserved one in between, and a hole. -/
def edgedMap : List Region := [.usable ⟨0x800⟩ 0x2900, ⟨⟨0x3100⟩, 0x100, .reserved⟩, .usable ⟨0x3200⟩ 0x1e00,
  .usable ⟨0x7000⟩ 0x1000]

/-- The frame in parts, and one that was given back already. -/
theorem returns_edgedMap : ∃ l, (create edgedMap ⟨#[0]⟩).result = .ok l ∧
    Returns edgedMap ((l.withBitmap (create edgedMap ⟨#[0]⟩).state).after [.alloc, .alloc, .release ⟨0x1000⟩]) ∧
    (release ⟨0x3000⟩ ((l.withBitmap (create edgedMap ⟨#[0]⟩).state).after
      [.alloc, .alloc, .release ⟨0x1000⟩])).result = .error (.fault .badArgs) ∧
    (release ⟨0x1000⟩ ((l.withBitmap (create edgedMap ⟨#[0]⟩).state).after
      [.alloc, .alloc, .release ⟨0x1000⟩])).result = .error (.fault .dangling) :=
  ⟨_, rfl, returns_after rfl _, rfl, rfl⟩

end Pool

end Keel.Frame
