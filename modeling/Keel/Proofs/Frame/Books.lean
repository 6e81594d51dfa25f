import Keel.Proofs.Frame.Regions
import Keel.Proofs.Frame.Runs

/-!
# The books of a pool

`Pool.Sound` is what holds of a pool over a memory map in every state: the clear bits are frames of usable regions, the
hint and the tail of the last word are right, and the counters count bits. Setting a set of bits keeps it
(`Sound.mark`), and so does clearing one bit of a usable frame (`Sound.unmark`); every operation does one of the two.
-/

namespace Keel.Frame

variable {rs : List Region}

/-! ## Covered frames -/

/-- The bits of the frames that some of the extents cover. -/
def Ledger.coveredBy (l : Ledger) (es : List Extent) : Finset Nat :=
  (Finset.range l.frames).filter fun i => es.any fun e => e.contains (l.base + i)

/-- The bits of the frames that some region covers. -/
def Ledger.covered (l : Ledger) : Finset Nat := l.coveredBy l.extents

/-- Whether a frame is one of a usable region. -/
def Ledger.Usable (l : Ledger) (f : Nat) : Prop := ∃ e ∈ l.extents, e.isUsable = true ∧ e.contains f = true

namespace Ledger

variable {l : Ledger} {es : List Extent} {i f : Nat}

theorem mem_coveredBy : i ∈ l.coveredBy es ↔ i < l.frames ∧ ∃ e ∈ es, e.contains (l.base + i) = true := by
  simp [coveredBy]

theorem card_coveredBy_le (l : Ledger) (es : List Extent) : (l.coveredBy es).card ≤ l.frames := by
  rw [← Finset.card_range l.frames]
  exact Finset.card_filter_le _ _

theorem Usable.inside (hf : l.Usable f) (h : l.Charts rs) : l.base ≤ f ∧ f < l.base + l.frames := by
  obtain ⟨e, he, -, hc⟩ := hf
  have := h.inside he
  have := Extent.contains_iff.1 hc
  omega

theorem Usable.mem_covered (hf : l.Usable (l.base + i)) (hi : i < l.frames) : i ∈ l.covered := by
  obtain ⟨e, he, -, hc⟩ := hf
  exact mem_coveredBy.2 ⟨hi, e, he, hc⟩

/-- A frame of a usable extent lies whole in a usable region of the map. -/
theorem Usable.region (hf : l.Usable f) (h : l.Charts rs) :
    ∃ r ∈ rs, r.kind = .usable ∧ r.base.raw.toNat ≤ f * 4096 ∧ f * 4096 + 4096 ≤ r.stop := by
  obtain ⟨e, he, hu, hc⟩ := hf
  have hwhole := h.whole he hu hc
  exact ⟨e.region, Region.mem_of_nonEmpty (h.region_mem he), Extent.isUsable_iff.1 hu, by omega, by omega⟩

/-- A frame that lies whole in a usable region of the map is one of a usable extent. -/
theorem Charts.usable {r : Region} (h : l.Charts rs) (hr : r ∈ rs) (hk : r.kind = .usable)
    (hf : r.base.raw.toNat ≤ f * 4096 ∧ f * 4096 + 4096 ≤ r.stop) : l.Usable f := by
  have hmem : r ∈ Region.nonEmpty rs := by
    refine List.mem_filter.2 ⟨hr, ?_⟩
    simp only [Region.isEmpty, Bool.not_eq_true', beq_eq_false_iff_ne, ne_eq, ← UInt64.toNat_inj]
    unfold Region.stop at hf
    show r.length.toNat ≠ 0
    omega
  rw [← h.regions] at hmem
  obtain ⟨e, he, rfl⟩ := List.mem_map.1 hmem
  have hu := Extent.isUsable_iff.2 hk
  have := h.usable_eq he hu
  exact ⟨e, he, hu, Extent.contains_iff.2 (by omega)⟩

/-- The owner of a frame is usable exactly if some usable extent has the frame. -/
theorem any_owner_iff (h : l.Charts rs) : (l.owner? f).any Extent.isUsable = true ↔ l.Usable f := by
  constructor
  · intro ha
    cases ho : l.owner? f with
    | none => simp [ho] at ha
    | some e =>
      simp only [ho, Option.any_some] at ha
      exact ⟨e, List.mem_of_find?_eq_some ho, ha, List.find?_some (p := fun e : Extent => e.contains f) ho⟩
  · rintro ⟨e, he, hu, hc⟩
    rw [h.owner? he hu hc, Option.any_some, hu]

theorem index?_eq_some : l.index? f = some i ↔ i < l.frames ∧ f = l.base + i := by
  unfold index?
  split
  · rename_i h
    simp only [Bool.and_eq_true, decide_eq_true_eq] at h
    simp only [Option.some.injEq]
    omega
  · rename_i h
    simp only [Bool.and_eq_true, decide_eq_true_eq] at h
    simp only [reduceCtorEq, false_iff]
    omega

/-- The index of a frame of a usable extent. -/
theorem Usable.index (hf : l.Usable f) (h : l.Charts rs) :
    l.index? f = some (f - l.base) ∧ f - l.base < l.frames ∧ l.base + (f - l.base) = f := by
  obtain ⟨hlo, hhi⟩ := hf.inside h
  exact ⟨index?_eq_some.2 ⟨by omega, by omega⟩, by omega, by omega⟩

end Ledger

/-- A word is known by its bits. -/
theorem Bitmap.getElem?_words_of_isSet {b b' : Bitmap} {k : Nat} (hs : b'.words.size = b.words.size)
    (h : ∀ i, i / 64 = k → b'.isSet i = b.isSet i) : b'.words[k]? = b.words[k]? := by
  by_cases hk : k < b.words.size
  · have hw : b.words[k]? = some b.words[k] := Array.getElem?_eq_getElem hk
    have hk' : k < b'.words.size := by omega
    have hw' : b'.words[k]? = some b'.words[k] := Array.getElem?_eq_getElem hk'
    rw [hw, hw', Option.some.injEq, ← UInt64.toBitVec_inj]
    refine BitVec.eq_of_getLsbD_eq fun i hi => ?_
    have hdiv : (k * 64 + i) / 64 = k := by omega
    have hbit := h (k * 64 + i) hdiv
    rwa [isSet_eq_getLsbD (by rw [hdiv]; exact hw'), isSet_eq_getLsbD (by rw [hdiv]; exact hw),
      show (k * 64 + i) % 64 = i by omega] at hbit
  · rw [Array.getElem?_eq_none (by omega), Array.getElem?_eq_none (by omega)]

/-- Bitmaps with the same bits are the same. -/
theorem Bitmap.ext_isSet {b b' : Bitmap} (hs : b'.words.size = b.words.size) (h : ∀ i, b'.isSet i = b.isSet i) :
    b' = b := by
  obtain ⟨ws⟩ := b
  obtain ⟨ws'⟩ := b'
  congr 1
  exact Array.ext_getElem? fun k => getElem?_words_of_isSet hs fun i _ => h i

/-- Clearing a bit that is clear changes nothing. -/
theorem Bitmap.unmark_of_clear {ε : Type} {b : Bitmap} {i : Nat} (h : i / 64 < b.words.size) (hc : b.isSet i = false) :
    b.unmark (ε := ε) i = .ok (false, b) := by
  obtain ⟨b', hb, hsize, hset⟩ := unmark_ok (ε := ε) h
  obtain rfl : b' = b := ext_isSet hsize fun j => by
    rw [hset]
    by_cases hj : j = i
    · rw [hj, hc, Bool.and_false]
    · rw [bne_iff_ne.2 hj, Bool.true_and]
  rw [hb, hc]

/-! ## The invariant -/

namespace Pool

/-- What holds of a pool over the regions `rs` at all times. -/
structure Sound (p : Pool) (rs : List Region) : Prop where
  charts : p.toLedger.Charts rs
  sized : Bitmap.wordsFor p.frames ≤ p.bitmap.words.size
  /-- The bits of the last word past the frames are set. -/
  tail : ∀ i, p.frames ≤ i → i < 64 * Bitmap.wordsFor p.frames → p.bitmap.isSet i = true
  /-- A clear bit is a frame of a usable region, frame zero apart. -/
  clear : ∀ i < p.frames, p.bitmap.isSet i = false → p.base + i ≠ 0 ∧ p.Usable (p.base + i)
  below : ∀ i < p.hint, p.bitmap.isSet i = true
  hint_le : p.hint ≤ p.frames
  free : p.freeFrames = (p.bitmap.clearIn (Finset.range p.frames)).card
  total : p.usedFrames + p.freeFrames = p.totalFrames
  covered : p.totalFrames = p.toLedger.covered.card

variable {p : Pool} {i : Nat}

theorem Sound.bit_exists (h : p.Sound rs) (hi : i < p.frames) : i / 64 < p.bitmap.words.size := by
  have := h.sized
  have := Bitmap.lt_wordsFor hi
  omega

theorem Sound.clear_mem_covered (h : p.Sound rs) (hi : i ∈ p.bitmap.clearIn (Finset.range p.frames)) :
    i ∈ p.toLedger.covered := by
  obtain ⟨hi, hc⟩ := Bitmap.mem_clearIn.1 hi
  have hi := Finset.mem_range.1 hi
  exact (h.clear i hi hc).2.mem_covered hi

theorem Sound.total_lt (h : p.Sound rs) : p.totalFrames < 2 ^ 52 := by
  have hle : p.toLedger.covered.card ≤ p.frames := p.toLedger.card_coveredBy_le _
  have := h.covered
  have := h.charts.limit
  omega

/-- **Setting bits** keeps the books sound if they count the bits that were clear. -/
theorem Sound.mark (h : p.Sound rs) {S : Finset Nat} {b : Bitmap} {k : Nat} (hS : S ⊆ Finset.range p.frames)
    (hsize : b.words.size = p.bitmap.words.size) (hset : ∀ j, b.isSet j = (decide (j ∈ S) || p.bitmap.isSet j))
    (hhint : k ≤ p.frames) (hbelow : ∀ j < k, b.isSet j = true) :
    (p.bitmap.clearIn S).card ≤ p.freeFrames ∧
      Sound { p with
        bitmap := b, hint := k, usedFrames := p.usedFrames + (p.bitmap.clearIn S).card,
        freeFrames := p.freeFrames - (p.bitmap.clearIn S).card } rs := by
  have hsub : p.bitmap.clearIn S ⊆ p.bitmap.clearIn (Finset.range p.frames) := Finset.filter_subset_filter _ hS
  have hle : (p.bitmap.clearIn S).card ≤ p.freeFrames := by
    rw [h.free]
    exact Finset.card_le_card hsub
  have hrest : b.clearIn (Finset.range p.frames) =
      p.bitmap.clearIn (Finset.range p.frames) \ p.bitmap.clearIn S := by
    ext j
    simp only [Bitmap.mem_clearIn, Finset.mem_sdiff, hset, Bool.or_eq_false_iff, decide_eq_false_iff_not]
    tauto
  have hold : ∀ j, p.bitmap.isSet j = true → b.isSet j = true := fun j hj => by rw [hset, hj, Bool.or_true]
  refine ⟨hle, ?_⟩
  exact {
    charts := ⟨h.charts.regions, h.charts.rounded, h.charts.apart, h.charts.spans, h.charts.limit⟩
    sized := hsize ▸ h.sized
    tail := fun j h1 h2 => hold j (h.tail j h1 h2)
    clear := fun j hj hc => by
      rw [hset, Bool.or_eq_false_iff] at hc
      exact h.clear j hj hc.2
    below := hbelow
    hint_le := hhint
    free := by
      show p.freeFrames - (p.bitmap.clearIn S).card = (b.clearIn (Finset.range p.frames)).card
      rw [hrest, Finset.card_sdiff_of_subset hsub, ← h.free]
    total := by
      have := h.total
      show p.usedFrames + (p.bitmap.clearIn S).card + (p.freeFrames - (p.bitmap.clearIn S).card) = p.totalFrames
      omega
    covered := h.covered }

/-- **Clearing the bit** of a taken frame of a usable region keeps the books sound. -/
theorem Sound.unmark (h : p.Sound rs) {b : Bitmap} (hi : i < p.frames) (h0 : p.base + i ≠ 0)
    (hu : p.Usable (p.base + i)) (hb : p.bitmap.isSet i = true) (hsize : b.words.size = p.bitmap.words.size)
    (hset : ∀ j, b.isSet j = (j != i && p.bitmap.isSet j)) :
    0 < p.usedFrames ∧
      Sound { p with
        bitmap := b, hint := min p.hint i, usedFrames := p.usedFrames - 1, freeFrames := p.freeFrames + 1 } rs := by
  have hclear : b.clearIn (Finset.range p.frames) = insert i (p.bitmap.clearIn (Finset.range p.frames)) := by
    ext j
    simp only [Bitmap.mem_clearIn, Finset.mem_insert, Finset.mem_range, hset, Bool.and_eq_false_iff, bne_eq_false_iff_eq]
    constructor
    · rintro ⟨hj, rfl | hc⟩
      · exact .inl rfl
      · exact .inr ⟨hj, hc⟩
    · rintro (rfl | ⟨hj, hc⟩)
      · exact ⟨hi, .inl rfl⟩
      · exact ⟨hj, .inr hc⟩
  have hni : i ∉ p.bitmap.clearIn (Finset.range p.frames) := fun hm => by
    rw [(Bitmap.mem_clearIn.1 hm).2] at hb
    cases hb
  have hpos : 0 < p.usedFrames := by
    have hlt : (p.bitmap.clearIn (Finset.range p.frames)).card < p.toLedger.covered.card :=
      Finset.card_lt_card ((Finset.ssubset_iff_of_subset fun j hj => h.clear_mem_covered hj).2
        ⟨i, hu.mem_covered hi, hni⟩)
    have := h.free
    have := h.total
    have := h.covered
    omega
  refine ⟨hpos, ?_⟩
  exact {
    charts := ⟨h.charts.regions, h.charts.rounded, h.charts.apart, h.charts.spans, h.charts.limit⟩
    sized := hsize ▸ h.sized
    tail := fun j h1 h2 => by
      have h1 : p.frames ≤ j := h1
      rw [hset, h.tail j h1 h2, Bool.and_true, bne_iff_ne]
      omega
    clear := fun j hj hc => by
      rw [hset, Bool.and_eq_false_iff, bne_eq_false_iff_eq] at hc
      rcases hc with rfl | hc
      · exact ⟨h0, hu⟩
      · exact h.clear j hj hc
    below := fun j hj => by
      have hj : j < min p.hint i := hj
      rw [hset, h.below j (by omega), Bool.and_true, bne_iff_ne]
      omega
    hint_le := by
      have := h.hint_le
      show min p.hint i ≤ p.frames
      omega
    free := by
      show p.freeFrames + 1 = (b.clearIn (Finset.range p.frames)).card
      rw [hclear, Finset.card_insert_of_notMem hni, ← h.free]
    total := by
      have := h.total
      show p.usedFrames - 1 + (p.freeFrames + 1) = p.totalFrames
      omega
    covered := h.covered }

end Pool

end Keel.Frame
