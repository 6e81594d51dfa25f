import Mathlib.Data.Set.Card
import Keel.Proofs.Frame.Creation

/-!
# The maps a pool opens over

A pool opens exactly if its map has some regions and not too many, no two of these share a byte, all of them end where
frames have numbers, and the bitmap is large enough (`Opens`). What it then looks like is said here in bytes and frames
only (`Opened`): a frame is free if one usable region holds it whole (`frameBytes_subset`), and it is counted if a
region covers it (`Charts.card_covered`). `create_exact` puts both together.
-/

namespace Keel.Frame

/-- The bytes of a frame. -/
def frameBytes (f : Nat) : Set Nat := Set.Ico (f * 4096) ((f + 1) * 4096)

/-- The frames a region covers: those it holds whole if it is usable, and those it has a byte of if it is not. -/
def framesOf (r : Region) : Set Nat :=
  {f | if r.kind = .usable then frameBytes f ⊆ r.bytes else (frameBytes f ∩ r.bytes).Nonempty}

theorem frameBytes_subset {r : Region} {f : Nat} :
    frameBytes f ⊆ r.bytes ↔ r.base.raw.toNat ≤ f * 4096 ∧ (f + 1) * 4096 ≤ r.stop := by
  rw [frameBytes, Region.bytes, Set.Ico_subset_Ico_iff (by omega)]

theorem frameBytes_meets {a b f : Nat} :
    (frameBytes f ∩ Set.Ico a b).Nonempty ↔ a < (f + 1) * 4096 ∧ f * 4096 < b ∧ a < b := by
  rw [frameBytes, Set.Ico_inter_Ico, Set.nonempty_Ico]
  omega

/-- A frame lies in a usable region exactly if the books have it as usable. -/
theorem Ledger.Charts.usable_iff {l : Ledger} {rs : List Region} {f : Nat} (h : l.Charts rs) :
    l.Usable f ↔ ∃ r ∈ rs, r.kind = .usable ∧ frameBytes f ⊆ r.bytes := by
  constructor
  · intro hu
    obtain ⟨r, hr, hk, hlo, hhi⟩ := hu.region h
    exact ⟨r, hr, hk, frameBytes_subset.2 ⟨hlo, by omega⟩⟩
  · rintro ⟨r, hr, hk, hsub⟩
    obtain ⟨hlo, hhi⟩ := frameBytes_subset.1 hsub
    exact h.usable hr hk ⟨hlo, by omega⟩

/-- The extent of a region with bytes has the frames the region covers. -/
theorem Extent.mem_framesOf {r : Region} {e : Extent} (h : Extent.ofRegion? r = some e) (hr : 0 < r.length.toNat)
    {f : Nat} : e.contains f = true ↔ f ∈ framesOf r := by
  have hlt : r.base.raw.toNat < r.stop := Nat.lt_add_of_pos_right hr
  rw [Extent.contains_iff, framesOf, Set.mem_ofPred_eq]
  split
  · rename_i hu
    rw [Extent.of_usable h hu, frameBytes_subset]
    dsimp only
    omega
  · rename_i hu
    rw [Extent.of_not_usable h hu, Region.bytes, frameBytes_meets]
    dsimp only
    omega

/-! ## Opening a pool -/

/-- What the books `l` and the bitmap `b'` of a pool say that was opened over the regions `rs` with the bitmap `b`. -/
structure Opened (rs : List Region) (b : Bitmap) (l : Ledger) (b' : Bitmap) : Prop where
  /-- The tracked frames are the smallest range with a frame of every region. -/
  span : span rs = .ok (l.base, l.base + l.frames)
  /-- Clear are the frames that one usable region holds whole, frame zero apart. -/
  clear : ∀ f, l.base ≤ f → f < l.base + l.frames →
    (b'.isSet (f - l.base) = false ↔ f ≠ 0 ∧ ∃ r ∈ rs, r.kind = .usable ∧ frameBytes f ⊆ r.bytes)
  total : l.totalFrames = {f | ∃ r ∈ Region.nonEmpty rs, f ∈ framesOf r}.ncard
  free : ∀ words, wordsFor rs = .ok words → l.freeFrames = (b'.clearIn (Finset.range (64 * words))).card
  size : b'.words.size = b.words.size
  past : ∀ words, wordsFor rs = .ok words → ∀ k, words ≤ k → b'.words[k]? = b.words[k]?

namespace Ledger

variable {l : Ledger} {rs : List Region}

/-- The covered frames are those of the regions with bytes. -/
theorem Charts.exists_contains (h : l.Charts rs) {f : Nat} :
    (∃ e ∈ l.extents, e.contains f = true) ↔ ∃ r ∈ Region.nonEmpty rs, f ∈ framesOf r := by
  constructor
  · rintro ⟨e, he, hf⟩
    have hr := h.region_mem he
    exact ⟨e.region, hr, (Extent.mem_framesOf (h.rounded e he) (Region.length_pos_of_nonEmpty hr)).1 hf⟩
  · rintro ⟨r, hr, hf⟩
    have hlen := Region.length_pos_of_nonEmpty hr
    rw [← h.regions] at hr
    obtain ⟨e, he, rfl⟩ := List.mem_map.1 hr
    exact ⟨e, he, (Extent.mem_framesOf (h.rounded e he) hlen).2 hf⟩

/-- The number of covered frames is the size of the union of what the regions cover. -/
theorem Charts.card_covered (h : l.Charts rs) :
    l.covered.card = {f | ∃ r ∈ Region.nonEmpty rs, f ∈ framesOf r}.ncard := by
  have hunion : {f | ∃ r ∈ Region.nonEmpty rs, f ∈ framesOf r} = ↑(l.covered.image fun i => l.base + i) := by
    ext f
    rw [Set.mem_ofPred_eq, ← h.exists_contains, Finset.coe_image, Set.mem_image]
    constructor
    · rintro ⟨e, he, hf⟩
      have := h.inside he
      have := Extent.contains_iff.1 hf
      have hsum : l.base + (f - l.base) = f := by omega
      exact ⟨f - l.base, mem_coveredBy.2 ⟨by omega, e, he, by rwa [hsum]⟩, hsum⟩
    · rintro ⟨i, hi, rfl⟩
      exact (mem_coveredBy.1 hi).2
  rw [hunion, Set.ncard_coe_finset, Finset.card_image_of_injective _ (add_right_injective l.base)]

end Ledger

/-- A fresh pool, said in bytes and frames. -/
theorem Pool.Fresh.opened {rs : List Region} {b b' : Bitmap} {l : Ledger} (h : Fresh (l.withBitmap b') rs b)
    (hspan : span rs = .ok (l.base, l.base + l.frames)) : Opened rs b l b' := by
  have hcharts : l.Charts rs := h.sound.charts
  have hwords : wordsFor rs = .ok (Bitmap.wordsFor l.frames) := by
    rw [wordsFor_of_span hspan, Nat.add_sub_cancel_left]
  refine ⟨hspan, fun f h1 h2 => ?_, h.sound.covered.trans hcharts.card_covered, ?_, h.size, ?_⟩
  · have hfree : b'.isSet (f - l.base) = false ↔ l.Usable f ∧ f ≠ 0 :=
      ⟨fun hc => (h.free f).1 ⟨h1, h2, hc⟩, fun hu => ((h.free f).2 hu).2.2⟩
    rw [hfree, and_comm, hcharts.usable_iff]
  · intro words hw
    obtain rfl : Bitmap.wordsFor l.frames = words := Except.ok.inj (hwords.symm.trans hw)
    -- the bits past the last frame are set, so they do not count
    have hclear : b'.clearIn (Finset.range (64 * Bitmap.wordsFor l.frames)) = b'.clearIn (Finset.range l.frames) := by
      ext i
      rw [Bitmap.mem_clearIn, Bitmap.mem_clearIn, Finset.mem_range, Finset.mem_range]
      refine and_congr_left fun hc => ⟨fun hi => ?_, fun hi => Nat.lt_of_lt_of_le hi (Bitmap.le_wordsFor _)⟩
      by_contra hn
      have htail : b'.isSet i = true := h.sound.tail i (Nat.le_of_not_lt hn) hi
      rw [hc] at htail
      cases htail
    rw [hclear]
    exact h.sound.free
  · intro words hw k hk
    obtain rfl : Bitmap.wordsFor l.frames = words := Except.ok.inj (hwords.symm.trans hw)
    refine Bitmap.getElem?_words_of_isSet h.size fun i hi => h.past i ?_
    show 64 * Bitmap.wordsFor l.frames ≤ i
    omega

namespace Pool

/-- **Opening a pool is exact**: it succeeds for exactly the maps and bitmaps it should, leaves the books and the bitmap
as they should be where it does, and the bitmap as it was where it does not. -/
theorem create_exact (rs : List Region) (b : Bitmap) : (create rs).Ends b fun r b' =>
    ((∃ l, r = .ok l) ↔ Opens rs b.words.size) ∧ (∀ l, r = .ok l → Opened rs b l b') ∧
      ∀ e, r = .error e → b' = b ∧ ∃ f, e = .fault f := by
  refine (create_ends rs b).mono ?_
  rintro r b' (⟨hopens, l, rfl, hfresh, hspan⟩ | ⟨hnot, rfl, f, rfl⟩)
  · refine ⟨iff_of_true ⟨l, rfl⟩ hopens, fun l' hl => ?_, nofun⟩
    obtain rfl : l = l' := Except.ok.inj hl
    exact hfresh.opened hspan
  · exact ⟨iff_of_false nofun hnot, nofun, fun e he => ⟨rfl, f, (Except.error.inj he).symm⟩⟩

/-- A usable and a reserved region that share a frame, and a region without bytes. -/
def sharedFrame : List Region := [.usable ⟨0⟩ 0x2800, ⟨⟨0x2800⟩, 0x1000, .reserved⟩, .usable ⟨0xfff8⟩ 0]

theorem create_sharedFrame : ∃ l, (create sharedFrame ⟨#[0, 7]⟩).result = .ok l ∧
    Opened sharedFrame ⟨#[0, 7]⟩ l (create sharedFrame ⟨#[0, 7]⟩).state :=
  ⟨_, rfl, (create_exact sharedFrame ⟨#[0, 7]⟩).2.1 _ rfl⟩

end Pool

end Keel.Frame
