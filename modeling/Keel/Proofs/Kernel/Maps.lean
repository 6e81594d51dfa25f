import Keel.Proofs.Kernel.Sessions

/-!
# Memory as the mapper shows it

Bring-up is promised a mapper that shows every frame of memory as a page of its own, and those of the bitmap in a row
(`Maps`). The frames that boot modules touch, the frames of the bitmap, and the frames that are free when memory has come
up are apart, so their pages are apart as well: slabs are made from the last (`estate`), which the mapper shows apart from
the bitmap (`Online.visible`), and no byte of a boot image is in either (`Online.image_apart`). Without the row this fails:
of a mapper that shows two frames in each other's place (`covers_swapped`), a bitmap of two frames ends in a frame that is
not its own (`word_swapped`).
-/

namespace Keel.Kernel

open Keel.Memory (Alters block pageAt)
open Keel.Frame (Pool)
open Keel.Frame.Pool (Touched)
open Keel.Slab (Estate Supplies)
open Session (Visible)

attribute [local irreducible] Memory.word

variable {rs : List Region} {ms : List BootModule} {mapper : Mapper} {words first : Nat} {p : Pool} {g g' : Ground}
  {f : Nat} {b : BootModule} {i : Nat}

/-! ## Memory and its map -/

/-- The frames of memory: the whole frames of usable regions, and those that boot modules touch. -/
def ram (rs : List Region) (ms : List BootModule) : Set Nat :=
  {f | (∃ r ∈ rs, r.kind = .usable ∧ r.base.raw.toNat ≤ f * 4096 ∧ f * 4096 + 4096 ≤ r.stop) ∨
    ∃ m ∈ ms, Touched m.addr m.size f}

/-- What bring-up is promised of its mapper: the frames of memory are visible as pages of their own, and those of the
bitmap in a row, since the bitmap is one block of words. -/
structure Maps (rs : List Region) (ms : List BootModule) (mapper : Mapper) : Prop where
  covers : mapper.Covers (ram rs ms)
  row : ∀ words first, Frame.wordsFor rs = .ok words → Frame.PlacedAt rs words ms first → ∀ j,
    j + 1 < bitmapFrames words → mapper.page (first + (j + 1)) = mapper.page (first + j) + 4096

/-- A direct map whose offset is a number of pages is as promised. -/
theorem maps_direct {offset : UInt64} (ho : offset.toNat % 4096 = 0) (rs : List Region) (ms : List BootModule) :
    Maps rs ms (.direct offset) :=
  ⟨Mapper.covers_direct ho _, fun _ first _ _ j _ => Mapper.page_succ_direct offset (first + j)⟩

/-! ## Frames apart -/

/-- What slabs are made from: the frames that are free when memory has come up. -/
def estate (rs : List Region) (mapper : Mapper) (words first : Nat) (p : Pool) : Estate :=
  ⟨rs, mapper, {f | p.Free f}, block (mapper.page first) (8 * words)⟩

namespace Online

theorem free_ram (o : Online rs ms mapper words first p g g') (hf : p.Free f) : f ∈ ram rs ms ∧ f < 2 ^ 52 := by
  obtain ⟨-, hu⟩ := hf.clear o.sound
  exact ⟨.inl (hu.region o.sound.charts), hu.lt o.sound.charts⟩

theorem bitmap_ram (o : Online rs ms mapper words first p g g') (hlo : first ≤ f) (hhi : f < first + bitmapFrames words) :
    f ∈ ram rs ms ∧ f < 2 ^ 52 := by
  obtain ⟨r, hr, hk, h1, h2⟩ := o.inside
  have hregion : r.base.raw.toNat ≤ f * 4096 ∧ f * 4096 + 4096 ≤ r.stop := by
    have hmul := Nat.mul_le_mul_right 4096 (Nat.succ_le_of_lt hhi)
    rw [Nat.succ_mul] at hmul
    omega
  exact ⟨.inl ⟨r, hr, hk, hregion⟩, (o.sound.charts.usable hr hk hregion).lt o.sound.charts⟩

/-- The bitmap is what memory holds from its first page on. -/
theorem bitmap_eq (o : Online rs ms mapper words first p g g') :
    p.bitmap = ⟨g'.arena.memory.wordsAt (mapper.page first) words⟩ := (o.becomes.keeps.resident o.place).2

/-- The frames of the bitmap are visible in a row. -/
theorem page_bitmap (o : Online rs ms mapper words first p g g') (hm : Maps rs ms mapper) :
    ∀ j < bitmapFrames words, mapper.page (first + j) = mapper.page first + UInt64.ofNat (4096 * j) := by
  intro j hj
  induction j with
  | zero => exact (UInt64.add_zero _).symm
  | succ j ih =>
    rw [hm.row words first o.sized o.placed j hj, ih (Nat.lt_of_succ_lt hj),
      show (4096 : UInt64) = UInt64.ofNat 4096 from rfl, Memory.add_ofNat_add, Nat.mul_succ]

/-- The bytes of the bitmap are visible in the pages of its frames. -/
theorem bitmap_subset (o : Online rs ms mapper words first p g g') (hm : Maps rs ms mapper) {a : Ptr}
    (ha : a ∈ block (mapper.page first) (8 * words)) :
    ∃ f, first ≤ f ∧ f < first + bitmapFrames words ∧ a ∈ pageAt (mapper.page f) := by
  obtain ⟨i, hi, rfl⟩ := ha
  have hj : i / 4096 < bitmapFrames words := by
    unfold bitmapFrames
    omega
  refine ⟨first + i / 4096, Nat.le_add_right _ _, Nat.add_lt_add_left hj first, i % 4096, ?_, ?_⟩
  · exact Nat.mod_lt _ (by decide)
  · rw [o.page_bitmap hm _ hj, Memory.add_ofNat_add, Nat.div_add_mod]

/-- The frames of the estate are visible apart from the bitmap. -/
theorem visible (o : Online rs ms mapper words first p g g') (hm : Maps rs ms mapper) :
    Visible (estate rs mapper words first p) where
  covers := hm.covers.mono fun _ hf => (o.free_ram hf).1
  apart := by
    rw [Set.disjoint_left]
    rintro a ⟨f, hf, ha⟩ hb
    obtain ⟨e, hlo, hhi, hb⟩ := o.bitmap_subset hm hb
    obtain ⟨-, hout, -⟩ := (o.free f).1 hf
    have hne : f ≠ e := by
      rintro rfl
      exact hout ⟨hlo, hhi⟩
    obtain ⟨hf, hf'⟩ := o.free_ram hf
    obtain ⟨he, he'⟩ := o.bitmap_ram hlo hhi
    exact Set.disjoint_left.1 (hm.covers.disjoint hf he hf' he' hne) ha hb

/-- A heap over the frames of the estate is in order when memory has come up. -/
theorem stands (o : Online rs ms mapper words first p g g') (hm : Maps rs ms mapper) :
    Ground.Stands (estate rs mapper words first p) p g' fun _ => [] := by
  have hv := o.visible hm
  have hsup : Supplies (estate rs mapper words first p) g'.arena p := {
    keeps := o.becomes.keeps
    sound := o.sound
    circulates := {
      small := fun f hf => (o.free_ram hf).2
      back := fun f hf _ => hv.covers.back f hf
      apart := fun f hf _ => hv.apart.mono_left (Estate.page_subset hf) }
    usable := fun f hf => hf.clear o.sound
    free := fun f hf => hf }
  exact ⟨_, o.heap, Heap.stands_empty hsup⟩

/-- No byte of a boot image is visible in a page of the estate or in the bitmap. -/
theorem image_apart (o : Online rs ms mapper words first p g g') (hm : Maps rs ms mapper) (hb : b ∈ ms)
    (hfits : b.addr.raw.toNat + b.size.toNat + 4095 < 2 ^ 64) (hi : i < b.size.toNat) :
    (mapper.toVirt ⟨b.addr.raw + UInt64.ofNat i⟩).raw ∉
      (estate rs mapper words first p).reach ∪ (estate rs mapper words first p).bitmap := by
  have hraw : (⟨b.addr.raw + UInt64.ofNat i⟩ : PhysAddr).raw.toNat = b.addr.raw.toNat + i :=
    Align.toNat_add_ofNat (by omega)
  have hsize : b.size ≠ 0 := fun hz => by
    rw [hz] at hi
    exact Nat.not_lt_zero i hi
  generalize (⟨b.addr.raw + UInt64.ofNat i⟩ : PhysAddr) = pa at hraw
  have ht : Touched b.addr b.size (pa.raw.toNat / 4096) := by
    refine ⟨hsize, hfits, ?_, ?_⟩
    · unfold Pool.firstTouched
      omega
    · unfold Pool.stopTouched
      omega
  have hram : pa.raw.toNat / 4096 ∈ ram rs ms := .inr ⟨b, hb, ht⟩
  have hlt : pa.raw.toNat / 4096 < 2 ^ 52 := by omega
  have hbyte := hm.covers.mem_pageAt hram
  have happart : ∀ f, f ∈ ram rs ms ∧ f < 2 ^ 52 → f ≠ pa.raw.toNat / 4096 →
      (mapper.toVirt pa).raw ∉ pageAt (mapper.page f) := fun f hf hne ha =>
    Set.disjoint_left.1 (hm.covers.disjoint hf.1 hram hf.2 hlt hne) ha hbyte
  rintro (⟨f, hf, ha⟩ | ha)
  · refine happart f (o.free_ram hf) ?_ ha
    rintro rfl
    exact ((o.free _).1 hf).2.2 b hb ht
  · obtain ⟨f, hlo, hhi, ha⟩ := o.bitmap_subset hm ha
    refine happart f (o.bitmap_ram hlo hhi) ?_ ha
    rintro rfl
    have hframes := Frame.frames?_eq_some.2 ⟨hsize, hfits, rfl⟩
    have := o.avoids _ (List.mem_filterMap.2 ⟨b, hb, hframes⟩)
    dsimp only at this
    omega

end Online

/-! ## Frames out of order -/

/-- A map whose bitmap has 513 words, and so takes two frames. -/
def wideRegions : List Region := [.usable ⟨0x1000⟩ 0x3000, .usable ⟨0x8002000⟩ 0x1000]

/-- Addresses with frames two and three in each other's place. -/
def crossed (a : UInt64) : UInt64 :=
  if a.toNat / 4096 = 2 then a + 4096 else if a.toNat / 4096 = 3 then a - 4096 else a

/-- A direct map, but for two frames that are visible in each other's place. -/
def swapped : Mapper :=
  ⟨fun pa => ⟨0x400000000000 + crossed pa.raw⟩, fun va => ⟨crossed (va.raw - 0x400000000000)⟩⟩

theorem toNat_crossed (a : UInt64) : (crossed a).toNat =
    if a.toNat / 4096 = 2 then a.toNat + 4096 else if a.toNat / 4096 = 3 then a.toNat - 4096 else a.toNat := by
  have hpage : (4096 : UInt64).toNat = 4096 := rfl
  unfold crossed
  split
  · rw [UInt64.toNat_add, hpage, Nat.mod_eq_of_lt (by omega)]
  · split
    · rw [UInt64.toNat_sub_of_le, hpage]
      rw [UInt64.le_iff_toNat_le, hpage]
      omega
    · rfl

theorem crossed_crossed (a : UInt64) : crossed (crossed a) = a := by
  rw [← UInt64.toNat_inj, toNat_crossed, toNat_crossed]
  split_ifs <;> omega

/-- The bytes of a page stay together. -/
theorem crossed_add {a : UInt64} (ha : a.toNat % 4096 = 0) (hi : i < 4096) :
    crossed (a + UInt64.ofNat i) = crossed a + UInt64.ofNat i := by
  have hlt := a.toNat_lt
  have hlt' := (crossed a).toNat_lt
  have hsum : (a + UInt64.ofNat i).toNat = a.toNat + i := Align.toNat_add_ofNat (by omega)
  have hcrossed := toNat_crossed a
  have hsum' : (crossed a + UInt64.ofNat i).toNat = (crossed a).toNat + i := by
    refine Align.toNat_add_ofNat ?_
    rw [hcrossed]
    split_ifs <;> omega
  rw [← UInt64.toNat_inj, hsum', toNat_crossed, hsum, hcrossed]
  split_ifs <;> omega

/-- Every frame is visible as a page of its own. -/
theorem covers_swapped (F : Set Nat) : swapped.Covers F where
  aligned := fun f _ => by
    have hpage : swapped.page f = 0x400000000000 + crossed (UInt64.ofNat (f * 4096)) := rfl
    have hbase : (0x400000000000 : UInt64).toNat = 0x400000000000 := rfl
    rw [hpage, UInt64.toNat_add, toNat_crossed, UInt64.toNat_ofNat', hbase]
    split_ifs <;> omega
  bytes := fun f _ i hi => by
    have hstart : (Align.frameStart f).toNat % 4096 = 0 := by
      show (UInt64.ofNat (f * 4096)).toNat % 4096 = 0
      rw [UInt64.toNat_ofNat']
      omega
    show 0x400000000000 + crossed (Align.frameStart f + UInt64.ofNat i) = 0x400000000000 + crossed (Align.frameStart f) + _
    rw [crossed_add hstart hi, UInt64.add_assoc]
  back := fun f _ => by
    show (⟨crossed (0x400000000000 + crossed (Align.frameStart f) - 0x400000000000)⟩ : PhysAddr) = _
    rw [UInt64.add_comm, UInt64.add_sub_cancel, crossed_crossed]

/-- The second page after the bitmap's first is that of frame three. -/
theorem page_swapped : swapped.page 1 + UInt64.ofNat (8 * 512) = swapped.page 3 := by decide

theorem opens_wideRegions : Frame.Opens wideRegions 513 where
  some := by decide
  few := by decide
  disjoint := by
    rw [← Region.pairwise_apart_iff]
    unfold Region.Apart
    decide
  fits := by
    unfold Region.EndFits
    decide
  roomy := ⟨513, by decide, Nat.le_refl _⟩

/-- Memory comes up over that map, with the bitmap in its first two frames. -/
theorem startMemory_swapped (hplaced : Frame.PlacedAt wideRegions 513 ms 1) (memory : Memory) (poison : Bool) :
    (startMemory wideRegions ms swapped).Ends (.boot memory poison) fun r k => ∃ p, r = .ok p.stats ∧
      Online wideRegions ms swapped 513 1 p (boot memory poison).ground k.ground ∧
      k = { boot memory poison with ground := k.ground, stage := .memory } := by
  have hwords : Frame.wordsFor wideRegions = .ok 513 := by decide
  refine (startMemory_cases wideRegions ms swapped (.boot memory poison)).mono ?_
  intro r k hends
  rcases hends with ⟨words, first, p, rfl, o, hk⟩ | ⟨-, ⟨hno, -⟩ | ⟨-, hheap⟩⟩
  · obtain rfl : 513 = words := Except.ok.inj (hwords.symm.trans o.sized)
    obtain rfl : 1 = first := Option.some.inj (Except.ok.inj (hplaced.symm.trans o.placed))
    exact ⟨p, rfl, o, hk⟩
  · rcases hno with hpool | hopens | ⟨words, hok, hplace⟩
    · exact absurd rfl hpool
    · exact absurd opens_wideRegions (hopens 513)
    · obtain rfl : 513 = words := Except.ok.inj (hwords.symm.trans hok)
      have hbytes : Count.mul (ε := Fault) 513 8 = .ok (513 * 8) := rfl
      have hends : (Frame.place wideRegions 513 ms : Action Kernel PhysAddr).Ends (.boot memory poison) fun r _ =>
          r = .ok ⟨0x1000⟩ := by
        unfold Frame.place
        rw [Action.ends_bind, hbytes, Action.ends_lift, Action.goes_ok, Action.ends_bind, hplaced, Action.ends_lift,
          Action.goes_ok]
        rfl
      cases hplace.symm.trans hends
  · exact absurd rfl hheap

/-- Where the bits of that map lie: those of its last frames are in the last word. -/
theorem index_wideRegions (o : Online wideRegions ms swapped 513 1 p g g') :
    p.base ≤ 1 ∧ 0x8003 ≤ p.base + p.frames ∧ p.frames ≤ 513 * 64 := by
  have hspans : ∀ r ∈ Region.nonEmpty wideRegions, Frame.Spans p.base (p.base + p.frames) r := by
    intro r hr
    rw [← o.sound.charts.regions] at hr
    obtain ⟨e, he, rfl⟩ := List.mem_map.1 hr
    exact o.sound.charts.spans e he
  obtain ⟨hlo, -⟩ := hspans (.usable ⟨0x1000⟩ 0x3000) (by decide)
  obtain ⟨-, hhi⟩ := hspans (.usable ⟨0x8002000⟩ 0x1000) (by decide)
  have hsize : p.bitmap.words.size = 513 := by
    rw [o.bitmap_eq, Memory.wordsAt, Array.size_ofFn]
  have hsized := o.sound.sized
  have hframes := Frame.Bitmap.le_wordsFor p.frames
  rw [hsize] at hsized
  exact ⟨hlo, hhi, by omega⟩

/-- A bit of the last word is read from the page of frame three. -/
theorem isSet_swapped (m : Memory) (h512 : i / 64 = 512) : Frame.Bitmap.isSet ⟨m.wordsAt (swapped.page 1) 513⟩ i =
    (m.word (swapped.page 3) &&& Frame.Bitmap.mask i != 0) := by
  have hword : (m.wordsAt (swapped.page 1) 513)[512]? = some (m.word (swapped.page 3)) := by
    rw [Memory.wordsAt, Array.getElem?_ofFn, dif_pos (by decide), page_swapped]
  rw [Frame.Bitmap.isSet, h512, hword]
  rfl

/-- The frames of that map that can be used. -/
theorem usable_wideRegions (o : Online wideRegions ms swapped 513 1 p g g') :
    p.Usable f ↔ f = 1 ∨ f = 2 ∨ f = 3 ∨ f = 0x8002 := by
  constructor
  · intro hf
    obtain ⟨r, hr, -, hlo, hhi⟩ := hf.region o.sound.charts
    have hcases : r = .usable ⟨0x1000⟩ 0x3000 ∨ r = .usable ⟨0x8002000⟩ 0x1000 := by simpa [wideRegions] using hr
    rcases hcases with rfl | rfl
    · change 0x1000 ≤ f * 4096 at hlo
      change f * 4096 + 4096 ≤ 0x4000 at hhi
      omega
    · change 0x8002000 ≤ f * 4096 at hlo
      change f * 4096 + 4096 ≤ 0x8003000 at hhi
      omega
  · have hfirst : ∀ f, 0x1000 ≤ f * 4096 ∧ f * 4096 + 4096 ≤ 0x4000 → p.Usable f := fun f hf =>
      o.sound.charts.usable (r := .usable ⟨0x1000⟩ 0x3000) (by decide) rfl hf
    rintro (rfl | rfl | rfl | rfl)
    · exact hfirst 1 (by decide)
    · exact hfirst 2 (by decide)
    · exact hfirst 3 (by decide)
    · exact o.sound.charts.usable (r := .usable ⟨0x8002000⟩ 0x1000) (by decide) rfl ⟨by decide, by decide⟩

/-- **The last word of the bitmap lies in frame three**, and is not zero. -/
theorem word_swapped (o : Online wideRegions ms swapped 513 1 p g g') : g'.arena.memory.word (swapped.page 3) ≠ 0 := by
  obtain ⟨hbase, hstop, -⟩ := index_wideRegions o
  intro hzero
  have hclear : p.bitmap.isSet (0x8001 - p.base) = false := by
    rw [o.bitmap_eq, isSet_swapped _ (by omega), hzero]
    simp
  have hfree : p.Free 0x8001 := ⟨by omega, by omega, hclear⟩
  have husable := (usable_wideRegions o).1 ((o.free _).1 hfree).1.1
  omega

end Keel.Kernel
