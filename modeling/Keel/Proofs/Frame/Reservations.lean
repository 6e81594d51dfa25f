import Keel.Proofs.Frame.Exactness

/-!
# Reserved ranges

What taking a range of bytes out of use does, said in bytes and frames. A frame is touched if it has a byte of the range
(`touchedFrames`), which makes the touched frames one run (`touchedFrames_eq`).
- a range is refused exactly if it has no bytes, its end or the end of its last page does not fit a word, or no touched
  frame is tracked (`not_reservable_iff`);
- the answer is the number of touched frames that were free (`card_clear_touched`), and only the bitmap and the two
  counts change (`reserve_moves`);
- a range that is taken stays taken (`reserve_again`), and a touched frame is free again only after somebody has given
  it back: no other request frees a frame (`Sound.free_on`), so neither does a run of them (`Sound.given_back`).

`reserves_after` puts these together for every state of a pool.
-/

namespace Keel.Frame

open Pool (firstTouched stopTouched)

variable {rs : List Region} {b : Bitmap} {l : Ledger} {base : PhysAddr} {length : UInt64} {f : Nat}

/-- The frames with a byte of a range of bytes. -/
def touchedFrames (base : PhysAddr) (length : UInt64) : Set Nat :=
  {f | (frameBytes f ∩ Set.Ico base.raw.toNat (base.raw.toNat + length.toNat)).Nonempty}

theorem touchedFrames_eq (h : length ≠ 0) :
    touchedFrames base length = Set.Ico (firstTouched base) (stopTouched base length) := by
  have hlength : length.toNat ≠ 0 := fun hz => h (UInt64.toNat_inj.1 hz)
  ext f
  simp only [touchedFrames, Set.mem_ofPred_eq, frameBytes_meets, Set.mem_Ico, firstTouched, stopTouched]
  omega

namespace Pool

variable {p q : Pool} {i : Nat}

/-- The frames that have a bit. -/
def tracked (p : Pool) : Set Nat := Set.Ico p.base (p.base + p.frames)

/-- The ranges that cannot be reserved: those without bytes, those whose end, or the end of whose last page, does not
fit a word, and those that touch no tracked frame. -/
def Unreservable (p : Pool) (base : PhysAddr) (length : UInt64) : Prop :=
  length = 0 ∨ 2 ^ 64 ≤ base.raw.toNat + length.toNat ∨
    2 ^ 64 ≤ (base.raw.toNat + length.toNat + 4095) / 4096 * 4096 ∨ Disjoint (touchedFrames base length) p.tracked

/-- What is refused is what is not reserved, in a pool that tracks any frames. -/
theorem not_reservable_iff (hpos : 0 < p.frames) : ¬Reservable p base length ↔ Unreservable p base length := by
  by_cases h0 : length = 0
  · exact iff_of_true (fun h => h.ne_zero h0) (.inl h0)
  have hlength : length.toNat ≠ 0 := fun hz => h0 (UInt64.toNat_inj.1 hz)
  have hrun : firstTouched base < stopTouched base length := by
    unfold firstTouched stopTouched
    omega
  have hmiss : Disjoint (touchedFrames base length) p.tracked ↔
      ¬(p.base < stopTouched base length ∧ firstTouched base < p.base + p.frames) := by
    rw [touchedFrames_eq h0, tracked, Set.Ico_disjoint_Ico]
    omega
  have hround : (2 ^ 64 ≤ base.raw.toNat + length.toNat ∨
      2 ^ 64 ≤ (base.raw.toNat + length.toNat + 4095) / 4096 * 4096) ↔
      ¬base.raw.toNat + length.toNat + 4095 < 2 ^ 64 := by
    omega
  rw [Unreservable, hmiss, ← or_assoc (a := 2 ^ 64 ≤ _), hround]
  constructor
  · intro hno
    by_cases hfits : base.raw.toNat + length.toNat + 4095 < 2 ^ 64
    · exact .inr (.inr fun hmeets => hno ⟨h0, hfits, hmeets⟩)
    · exact .inr (.inl hfits)
  · rintro hno ⟨-, hfits, hmeets⟩
    rcases hno with hzero | hbig | hoff
    · exact h0 hzero
    · exact hbig hfits
    · exact hoff hmeets

/-- The bits of a range are those of the tracked frames that it touches. -/
theorem mem_touchedBits (h : length ≠ 0) :
    i ∈ p.touchedBits base length ↔ i < p.frames ∧ p.base + i ∈ touchedFrames base length := by
  simp [touchedBits, touchedFrames_eq h]

/-- The clear bits among them are those of the free frames that are touched. -/
theorem card_clear_touched (h : length ≠ 0) :
    (p.bitmap.clearIn (p.touchedBits base length)).card = {f ∈ touchedFrames base length | p.Free f}.ncard := by
  have hfree : {f ∈ touchedFrames base length | p.Free f} =
      ↑((p.bitmap.clearIn (p.touchedBits base length)).image fun i => p.base + i) := by
    ext f
    simp only [Set.mem_ofPred_eq, Finset.coe_image, Set.mem_image, Finset.mem_coe, Bitmap.mem_clearIn,
      mem_touchedBits h]
    constructor
    · rintro ⟨ht, hlo, hhi, hclear⟩
      have hsum : p.base + (f - p.base) = f := Nat.add_sub_cancel' hlo
      exact ⟨f - p.base, ⟨⟨by omega, by rwa [hsum]⟩, hclear⟩, hsum⟩
    · rintro ⟨i, ⟨⟨hi, ht⟩, hclear⟩, rfl⟩
      exact ⟨ht, by omega, by omega, by rwa [Nat.add_sub_cancel_left]⟩
  rw [hfree, Set.ncard_coe_finset, Finset.card_image_of_injective _ (add_right_injective p.base)]

/-! ## Once more -/

/-- A pool whose books move no frame is the same pool. -/
theorem moved_self (p : Pool) : p.moved p.bitmap 0 = p := rfl

/-- A range all of whose bits are set can be reserved again, and that changes nothing. -/
theorem reserve_again (h : p.Sound rs) (hr : Reservable p base length)
    (hset : ∀ j ∈ p.touchedBits base length, p.bitmap.isSet j = true) :
    (reserve base length).Ends p fun r q => r = .ok 0 ∧ q = p := by
  have hnone : p.bitmap.clearIn (p.touchedBits base length) = ∅ := by
    apply Finset.filter_eq_empty_iff.2
    simpa using hset
  refine (reserve_moves h hr).mono ?_
  intro r q hends
  rw [hnone, Finset.card_empty] at hends
  obtain ⟨hok, -, hmarks, -, hmoved⟩ := hends
  have hbitmap : q.bitmap = p.bitmap := by
    apply Bitmap.ext_isSet hmarks.size
    intro j
    rw [hmarks.bits]
    by_cases hj : j ∈ p.touchedBits base length
    · simp [hj, hset j hj]
    · simp [hj]
  refine ⟨hok, ?_⟩
  rw [hmoved, hbitmap, moved_self]

theorem Reservable.congr (hr : Reservable p base length) (h : SameMap p q) : Reservable q base length := by
  refine ⟨hr.ne_zero, hr.fits, ?_⟩
  rw [h.base, h.frames]
  exact hr.meets

/-! ## Until it is given back -/

/-- One of the requests gave the frame `f` back, and was told so. -/
def GivesBack (p : Pool) (qs : List Request) (f : Nat) : Prop :=
  ∃ xs pa ys, qs = xs ++ .release pa :: ys ∧ pa.raw.toNat = f * 4096 ∧ (release pa (p.after xs)).result = .ok ()

theorem GivesBack.cons {r : Request} {qs : List Request} (h : GivesBack (r.on p) qs f) : GivesBack p (r :: qs) f := by
  obtain ⟨xs, pa, ys, rfl, hpa, hok⟩ := h
  exact ⟨r :: xs, pa, ys, rfl, hpa, hok⟩

/-- The address of a frame that was taken back is where the frame starts. -/
theorem Sound.toNat_of_release {pa : PhysAddr} (h : p.Sound rs) (hok : (release pa p).result = .ok ()) :
    pa.raw.toNat = Align.frameOf pa.raw * 4096 := by
  rcases release_ends h pa with ⟨-, hrel, -⟩ | ⟨-, -, hrefused | hrefused⟩
  · have := hrel.aligned
    rw [Align.frameOf_eq]
    omega
  · cases hok.symm.trans hrefused
  · cases hok.symm.trans hrefused

/-- A taken frame that is free after some requests was given back by one of them. -/
theorem Sound.given_back {qs : List Request} (h : p.Sound rs) (hf : ¬p.Free f) (ha : (p.after qs).Free f) :
    GivesBack p qs f := by
  induction qs generalizing p with
  | nil => exact absurd ha hf
  | cons r qs ih =>
    by_cases hr : (r.on p).Free f
    · rcases h.free_on hr with hfree | ⟨pa, rfl, hok, rfl⟩
      · exact absurd hfree hf
      · exact ⟨[], pa, qs, rfl, h.toNat_of_release hok, hok⟩
    · exact (ih (h.on r).1 hr ha).cons

/-! ## What a reservation does -/

/-- What a pool does with a request to take a range of bytes out of use. -/
structure Reserves (p : Pool) (base : PhysAddr) (length : UInt64) : Prop where
  refuses : (∃ e, (reserve base length p).result = .error e) ↔ p.Unreservable base length
  /-- Where it refuses, it says so and stays as it was. -/
  spares : ∀ e, (reserve base length p).result = .error e →
    (∃ f, e = .fault f) ∧ (reserve base length p).state = p
  /-- The answer is the number of touched frames that were free. -/
  counts : ∀ n, (reserve base length p).result = .ok n → n = {f ∈ touchedFrames base length | p.Free f}.ncard
  /-- Set afterwards are the bits of the touched frames, and those that were set before. -/
  marks : ∀ n, (reserve base length p).result = .ok n →
    (reserve base length p).state.bitmap.words.size = p.bitmap.words.size ∧
      ∀ j, (reserve base length p).state.bitmap.isSet j = true ↔
        (j < p.frames ∧ p.base + j ∈ touchedFrames base length) ∨ p.bitmap.isSet j = true
  /-- That many frames are no longer free but used; the rest of the books is as it was. -/
  moves : ∀ n, (reserve base length p).result = .ok n →
    n ≤ p.freeFrames ∧ (reserve base length p).state = p.moved (reserve base length p).state.bitmap n
  /-- The same request once more finds nothing to do. -/
  again : ∀ n, (reserve base length p).result = .ok n →
    (reserve base length (reserve base length p).state).result = .ok 0 ∧
      (reserve base length (reserve base length p).state).state = (reserve base length p).state
  /-- A touched frame is handed out only after it was given back. -/
  holds : ∀ n, (reserve base length p).result = .ok n → ∀ qs pa,
    (alloc ((reserve base length p).state.after qs)).result = .ok pa →
    Align.frameOf pa.raw ∈ touchedFrames base length →
    GivesBack (reserve base length p).state qs (Align.frameOf pa.raw)

/-- A range that can be reserved. -/
theorem reserves_of_reservable (h : p.Sound rs) (hpos : 0 < p.frames) (hr : Reservable p base length) :
    Reserves p base length := by
  obtain ⟨r, q, log, ht, hok, hsound, hmarks, hle, hmoved⟩ := (reserve_moves h hr).trace
  have h0 := hr.ne_zero
  have hset : ∀ j, q.bitmap.isSet j = true ↔
      (j < p.frames ∧ p.base + j ∈ touchedFrames base length) ∨ p.bitmap.isSet j = true := by
    intro j
    simp [hmarks.bits, mem_touchedBits h0]
  have hagain : (reserve base length).Ends q fun r q' => r = .ok 0 ∧ q' = q := by
    apply reserve_again hsound (hr.congr hmarks.toSameMap)
    intro j hj
    rw [mem_touchedBits h0, hmarks.frames, hmarks.base] at hj
    exact (hset j).2 (.inl hj)
  constructor
  case refuses =>
    rw [ht, hok]
    exact iff_of_false nofun fun hno => (not_reservable_iff hpos).2 hno hr
  all_goals
    rw [ht, hok]
    intro n hn
    cases hn
  case counts => exact card_clear_touched h0
  case marks => exact ⟨hmarks.size, hset⟩
  case moves => exact ⟨hle, hmoved⟩
  case again => exact hagain
  case holds =>
    intro qs pa halloc htouched
    have hfree := ((hsound.after qs).free_of_alloc_eq_ok halloc).1
    apply hsound.given_back ?_ hfree
    intro hq
    obtain ⟨⟨hlo, hhi, -⟩, hout⟩ := hmarks.free_iff.1 hq
    apply hout
    rw [mem_touchedBits h0, Nat.add_sub_cancel' hlo]
    exact ⟨by omega, htouched⟩

/-- A range that cannot be reserved. -/
theorem reserves_of_not_reservable (h : p.Sound rs) (hpos : 0 < p.frames) (hr : ¬Reservable p base length) :
    Reserves p base length := by
  obtain ⟨r, q, log, ht, rfl, hrefused⟩ := (reserve_refused h hr).trace
  obtain ⟨f, rfl⟩ : ∃ f, r = .error (.fault f) := by
    rcases hrefused with hbad | hbig
    · exact ⟨_, hbad⟩
    · exact ⟨_, hbig⟩
  constructor
  case refuses =>
    rw [ht]
    exact iff_of_true ⟨_, rfl⟩ ((not_reservable_iff hpos).1 hr)
  case spares =>
    rw [ht]
    intro e he
    cases he
    exact ⟨⟨f, rfl⟩, rfl⟩
  all_goals
    rw [ht]
    exact nofun

theorem Sound.reserves (h : p.Sound rs) (hpos : 0 < p.frames) (base : PhysAddr) (length : UInt64) :
    Reserves p base length := by
  by_cases hr : Reservable p base length
  · exact reserves_of_reservable h hpos hr
  · exact reserves_of_not_reservable h hpos hr

/-- **Reservations are exact and can be repeated**, whatever a pool was asked before. -/
theorem reserves_after (hc : (create rs b).result = .ok l) (qs : List Request) (base : PhysAddr) (length : UInt64) :
    Reserves ((l.withBitmap (create rs b).state).after qs) base length := by
  obtain ⟨hsound, hpos⟩ := sound_create hc
  apply (hsound.after qs).reserves
  rw [(hsound.sameMap_after qs).frames]
  exact hpos

/-- A map with a hole, a reserved region that shares no frame with its neighbours, and regions cut at odd bytes. -/
def holedMap : List Region :=
  [.usable ⟨0x1800⟩ 0x3000, ⟨⟨0x5010⟩, 0x20, .reserved⟩, .usable ⟨0x7ff0⟩ 0x3010]

/-- From one byte below the first frame of the upper region to one byte into its second. -/
theorem reserves_holedMap : ∃ l, (create holedMap ⟨#[0]⟩).result = .ok l ∧
    Reserves ((l.withBitmap (create holedMap ⟨#[0]⟩).state).after [.alloc, .reserve ⟨0x4fff⟩ 2]) ⟨0x7fff⟩ 0x1002 ∧
    (reserve ⟨0x7fff⟩ 0x1002
      ((l.withBitmap (create holedMap ⟨#[0]⟩).state).after [.alloc, .reserve ⟨0x4fff⟩ 2])).result = .ok 2 :=
  ⟨_, rfl, reserves_after rfl _ _ _, rfl⟩

end Pool

end Keel.Frame
