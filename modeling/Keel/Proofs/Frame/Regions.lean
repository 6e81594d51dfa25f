import Mathlib.Data.Set.Card
import Mathlib.Order.CompletePartialOrder
import Mathlib.Order.Interval.Set.Disjoint
import Keel.Frame.Pool
import Keel.Proofs.Checked
import Keel.Proofs.Ends
import Keel.Proofs.Pages

/-!
# The frames of regions

The rounding of regions to frames, on natural numbers. `Ledger.Charts` says that a ledger lists the frames of a memory
map: its regions share no byte, and each has its frames inside the span.
- a usable extent has whole frames of its region only (`Charts.whole`), and every extent has only frames that its region
  touches (`Charts.meets`);
- so a frame of a usable extent is in no other extent (`Charts.sole`), and the region that owns it is usable
  (`Charts.owner?`).
-/

namespace Keel

namespace Region

/-- The number of the first byte past the region. -/
def stop (r : Region) : Nat := r.base.raw.toNat + r.length.toNat

/-- The bytes of a region. -/
def bytes (r : Region) : Set Nat := Set.Ico r.base.raw.toNat r.stop

/-- Two regions that share no byte. -/
def Apart (a b : Region) : Prop := a.stop ≤ b.base.raw.toNat ∨ b.stop ≤ a.base.raw.toNat

theorem Apart.symm {a b : Region} (h : Apart a b) : Apart b a := Or.symm h

theorem end?_eq_some {r : Region} {w : UInt64} : r.end? = some w ↔ w.toNat = r.stop := by
  rw [end?, Word.add?_eq_some, stop, eq_comm]

/-- The end of the region and the end of its last frame fit a word. -/
def EndFits (r : Region) : Prop := r.stop < 2 ^ 64 ∧ (r.stop + 4095) / 4096 * 4096 < 2 ^ 64

theorem endFits_iff {r : Region} : r.EndFits ↔ r.stop + 4095 < 2 ^ 64 := by
  unfold EndFits
  omega

theorem end?_eq_none {r : Region} : r.end? = none ↔ 2 ^ 64 ≤ r.stop := by
  rw [end?, Word.add?, stop]
  split
  · rename_i h
    exact ⟨fun hs => absurd hs (Option.some_ne_none _), fun hle => absurd h (Nat.not_lt.2 hle)⟩
  · rename_i h
    exact ⟨fun _ => Nat.le_of_not_lt h, fun _ => rfl⟩

theorem length_pos_of_nonEmpty {rs : List Region} {r : Region} (h : r ∈ nonEmpty rs) : 0 < r.length.toNat := by
  have hr := (List.mem_filter.1 h).2
  simp only [isEmpty, Bool.not_eq_true', beq_eq_false_iff_ne, ne_eq, ← UInt64.toNat_inj] at hr
  exact Nat.pos_of_ne_zero hr

/-- Regions with bytes share none exactly if one ends before the other begins. -/
theorem apart_iff_disjoint {a b : Region} (ha : 0 < a.length.toNat) (hb : 0 < b.length.toNat) :
    Apart a b ↔ Disjoint a.bytes b.bytes := by
  have hlt : ∀ {r : Region}, 0 < r.length.toNat → r.base.raw.toNat < r.stop := fun h => Nat.lt_add_of_pos_right h
  rw [bytes, bytes, Set.Ico_disjoint_Ico, Apart]
  have := hlt ha
  have := hlt hb
  omega

theorem pairwise_apart_iff {rs : List Region} : (nonEmpty rs).Pairwise Apart ↔
    (nonEmpty rs).Pairwise fun a b => Disjoint a.bytes b.bytes :=
  List.Pairwise.iff_of_mem fun ha hb => apart_iff_disjoint (length_pos_of_nonEmpty ha) (length_pos_of_nonEmpty hb)

theorem mem_of_nonEmpty {rs : List Region} {r : Region} (h : r ∈ nonEmpty rs) : r ∈ rs := (List.mem_filter.1 h).1

end Region

namespace Frame

/-! ## One region -/

/-- The frames of a usable region. -/
theorem Extent.of_usable {r : Region} {e : Extent} (h : Extent.ofRegion? r = some e) (hu : r.kind = .usable) :
    e = ⟨r, (r.base.raw.toNat + 4095) / 4096, max (r.stop / 4096) ((r.base.raw.toNat + 4095) / 4096)⟩ := by
  unfold Extent.ofRegion? at h
  rw [hu] at h
  simp only [Option.bind_eq_bind, Option.bind_eq_some_iff, Option.pure_def, Option.some.injEq] at h
  obtain ⟨stop, hs, lo, hlo, rfl⟩ := h
  have hmax : Align.frameOf (max (Align.pageFloor stop) lo) = max (r.stop / 4096) ((r.base.raw.toNat + 4095) / 4096) := by
    have hf := Align.toNat_pageFloor stop
    have hl := (Align.pageCeil?_eq_some.1 hlo).2
    rw [Region.end?_eq_some.1 hs] at hf
    rw [show max (Align.pageFloor stop) lo = if Align.pageFloor stop ≤ lo then lo else Align.pageFloor stop from rfl]
    split
    all_goals
      rename_i hle
      rw [UInt64.le_iff_toNat_le] at hle
      rw [Align.frameOf_eq]
      omega
  rw [hmax, Align.frameOf_of_pageCeil? hlo]

/-- The frames of a region that is not usable. -/
theorem Extent.of_not_usable {r : Region} {e : Extent} (h : Extent.ofRegion? r = some e) (hu : r.kind ≠ .usable) :
    e = ⟨r, r.base.raw.toNat / 4096, (r.stop + 4095) / 4096⟩ := by
  have hrest : ∃ stop, r.end? = some stop ∧ ∃ hi, Align.pageCeil? stop = some hi ∧
      (⟨r, Align.frameOf (Align.pageFloor r.base.raw), Align.frameOf hi⟩ : Extent) = e := by
    unfold Extent.ofRegion? at h
    cases hk : r.kind with
    | usable => exact absurd hk hu
    | reserved | kernel | bad =>
      simpa only [hk, Option.bind_eq_bind, Option.bind_eq_some_iff, Option.pure_def, Option.some.injEq] using h
  obtain ⟨stop, hs, hi, hhi, rfl⟩ := hrest
  rw [Align.frameOf_pageFloor, Align.frameOf_of_pageCeil? hhi, Region.end?_eq_some.1 hs]

theorem Extent.region_of_ofRegion? {r : Region} {e : Extent} (h : Extent.ofRegion? r = some e) : e.region = r := by
  by_cases hu : r.kind = .usable
  · rw [Extent.of_usable h hu]
  · rw [Extent.of_not_usable h hu]

theorem Extent.isUsable_iff {e : Extent} : e.isUsable = true ↔ e.region.kind = .usable := by
  simp [Extent.isUsable]

theorem touched?_eq_some {r : Region} {t : Nat × Nat} (h : touched? r = some t) :
    t = (r.base.raw.toNat / 4096, (r.stop + 4095) / 4096) ∧ (r.stop + 4095) / 4096 < 2 ^ 52 := by
  unfold touched? at h
  simp only [Option.bind_eq_bind, Option.bind_eq_some_iff, Option.pure_def, Option.some.injEq] at h
  obtain ⟨stop, hs, hi, hhi, rfl⟩ := h
  have hlt := (Align.pageCeil?_eq_some.1 hhi).1
  rw [Region.end?_eq_some.1 hs] at hlt
  rw [Align.frameOf_pageFloor, Align.frameOf_of_pageCeil? hhi, Region.end?_eq_some.1 hs]
  exact ⟨rfl, by omega⟩

/-! ## The span of all regions -/

/-- A range of frames that holds the frames of a region. -/
def Spans (lo hi : Nat) (r : Region) : Prop := lo ≤ r.base.raw.toNat / 4096 ∧ (r.stop + 4095) / 4096 ≤ hi

theorem spanFrom_ok {rs : List Region} : ∀ {acc out : Option (Nat × Nat)}, spanFrom acc rs = .ok out →
    (∀ a, acc = some a → a.1 ≤ a.2 ∧ a.2 < 2 ^ 52) →
    (∀ a, acc = some a → ∃ b, out = some b ∧ b.1 ≤ a.1 ∧ a.2 ≤ b.2) ∧
    ∀ b, out = some b → b.1 ≤ b.2 ∧ b.2 < 2 ^ 52 ∧ ∀ r ∈ rs, Spans b.1 b.2 r := by
  induction rs with
  | nil =>
    intro acc out h ha
    simp only [spanFrom, Except.ok.injEq] at h
    subst h
    exact ⟨fun a e => ⟨a, e, Nat.le_refl _, Nat.le_refl _⟩, fun b e => ⟨(ha b e).1, (ha b e).2, nofun⟩⟩
  | cons r rs ih =>
    intro acc out h ha
    rw [spanFrom] at h
    cases ht : touched? r with
    | none => simp [ht] at h
    | some t =>
      obtain ⟨rfl, hlt⟩ := touched?_eq_some ht
      simp only [ht] at h
      have hle : r.base.raw.toNat / 4096 ≤ (r.stop + 4095) / 4096 := by
        have : r.base.raw.toNat ≤ r.stop := Nat.le_add_right _ _
        omega
      cases acc with
      | none =>
        obtain ⟨hacc, hout⟩ := ih h (by rintro a ⟨⟩; exact ⟨hle, hlt⟩)
        refine ⟨nofun, fun b hb => ⟨(hout b hb).1, (hout b hb).2.1, ?_⟩⟩
        obtain ⟨b', hb', h1, h2⟩ := hacc _ rfl
        obtain rfl : b = b' := Option.some.inj (hb.symm.trans hb')
        exact List.forall_mem_cons.2 ⟨⟨h1, h2⟩, (hout b hb).2.2⟩
      | some a =>
        obtain ⟨ha1, ha2⟩ := ha a rfl
        obtain ⟨hacc, hout⟩ := ih h (by rintro b ⟨⟩; simp only [Option.elim]; omega)
        obtain ⟨b', hb', h1, h2⟩ := hacc _ rfl
        simp only [Option.elim] at h1 h2
        refine ⟨?_, fun b hb => ⟨(hout b hb).1, (hout b hb).2.1, ?_⟩⟩
        · rintro _ ⟨⟩
          exact ⟨b', hb', by omega, by omega⟩
        · obtain rfl : b = b' := Option.some.inj (hb.symm.trans hb')
          exact List.forall_mem_cons.2 ⟨⟨by omega, by omega⟩, (hout b hb).2.2⟩

theorem touched?_of_spanFrom {rs : List Region} {acc out : Option (Nat × Nat)} (h : spanFrom acc rs = .ok out) :
    ∀ r ∈ rs, ∃ t, touched? r = some t := by
  induction rs generalizing acc with
  | nil => exact nofun
  | cons r rs ih =>
    rw [spanFrom] at h
    cases ht : touched? r with
    | none => simp [ht] at h
    | some t =>
      simp only [ht] at h
      exact List.forall_mem_cons.2 ⟨⟨t, ht⟩, ih h⟩

/-- A region whose touched frames have numbers has an extent. -/
theorem Extent.of_touched {r : Region} {t : Nat × Nat} (h : touched? r = some t) :
    ∃ e, Extent.ofRegion? r = some e := by
  unfold touched? at h
  simp only [Option.bind_eq_bind, Option.bind_eq_some_iff] at h
  obtain ⟨stop, hs, hi, hhi, -⟩ := h
  unfold Extent.ofRegion?
  rw [hs]
  cases hk : r.kind with
  | usable =>
    have hle : r.base.raw.toNat ≤ r.stop := Nat.le_add_right _ _
    have hlt := (Align.pageCeil?_eq_some.1 hhi).1
    have hstop := Region.end?_eq_some.1 hs
    obtain ⟨lo, hlo⟩ : ∃ lo, Align.pageCeil? r.base.raw = some lo :=
      ⟨UInt64.ofNat ((r.base.raw.toNat + 4095) / 4096 * 4096), Align.pageCeil?_eq_some.2 ⟨by omega, by
        rw [UInt64.toNat_ofNat', Nat.mod_eq_of_lt (by omega)]⟩⟩
    simp [hlo]
  | reserved | kernel | bad => simp [hhi]

/-- The extents of regions that all have one, in their order. -/
theorem Extent.mapM_ofRegion? {rs : List Region} (h : ∀ r ∈ rs, ∃ e, Extent.ofRegion? r = some e) :
    ∃ es, rs.mapM Extent.ofRegion? = some es ∧ es.map Extent.region = rs ∧
      ∀ e ∈ es, Extent.ofRegion? e.region = some e := by
  induction rs with
  | nil => exact ⟨[], rfl, rfl, nofun⟩
  | cons r rs ih =>
    obtain ⟨e, he⟩ := h r (by simp)
    obtain ⟨es, hes, hmap, hall⟩ := ih fun r hr => h r (by simp [hr])
    refine ⟨e :: es, by simp [he, hes], by simp [Extent.region_of_ofRegion? he, hmap], ?_⟩
    exact List.forall_mem_cons.2 ⟨by rw [Extent.region_of_ofRegion? he, he], hall⟩

/-- The span holds the frames of every region that has bytes, and there is one. -/
theorem span_ok {rs : List Region} {lo hi : Nat} (h : span rs = .ok (lo, hi)) :
    lo < hi ∧ hi < 2 ^ 52 ∧ ∀ r ∈ Region.nonEmpty rs, Spans lo hi r ∧ ∃ t, touched? r = some t := by
  unfold span at h
  cases hs : spanFrom none (Region.nonEmpty rs) with
  | error e => simp [hs, bind, Except.bind] at h
  | ok out =>
    cases out with
    | none => simp [hs, bind, Except.bind, orFault] at h
    | some b =>
      simp only [hs, bind, Except.bind, orFault, Except.ok.injEq] at h
      subst h
      obtain ⟨-, hlt, hr⟩ := (spanFrom_ok hs nofun).2 _ rfl
      refine ⟨?_, hlt, fun r hmem => ⟨hr r hmem, touched?_of_spanFrom hs r hmem⟩⟩
      obtain ⟨r, hmem⟩ : ∃ r, r ∈ Region.nonEmpty rs := by
        refine List.exists_mem_of_ne_nil _ fun hnil => ?_
        simp [hnil, spanFrom] at hs
      have hlen := Region.length_pos_of_nonEmpty hmem
      have := hr r hmem
      unfold Spans Region.stop at this
      omega

theorem touched?_eq_none {r : Region} : touched? r = none ↔ ¬r.EndFits := by
  rw [Region.endFits_iff]
  unfold touched?
  cases hs : r.end? with
  | none =>
    have := Region.end?_eq_none.1 hs
    exact ⟨fun _ => by omega, fun _ => rfl⟩
  | some stop =>
    rw [Option.bind_eq_bind, Option.bind_some, ← Region.end?_eq_some.1 hs]
    cases hc : Align.pageCeil? stop with
    | none =>
      have := Align.pageCeil?_eq_none.1 hc
      exact ⟨fun _ => by omega, fun _ => rfl⟩
    | some hi =>
      have := (Align.pageCeil?_eq_some.1 hc).1
      exact ⟨nofun, fun hn => absurd this hn⟩

/-- The span is found where the end of every region fits; it is there if anything came in. -/
theorem spanFrom_of_fits {rs : List Region} (h : ∀ r ∈ rs, r.EndFits) (acc : Option (Nat × Nat)) :
    ∃ out, spanFrom acc rs = .ok out ∧ (out = none → acc = none ∧ rs = []) := by
  induction rs generalizing acc with
  | nil => exact ⟨acc, rfl, fun hn => ⟨hn, rfl⟩⟩
  | cons r rs ih =>
    obtain ⟨hr, hrs⟩ := List.forall_mem_cons.1 h
    cases ht : touched? r with
    | none => exact absurd hr (touched?_eq_none.1 ht)
    | some t =>
      obtain ⟨out, hout, hnone⟩ := ih hrs (some (acc.elim t fun a => (min a.1 t.1, max a.2 t.2)))
      exact ⟨out, by rw [spanFrom, ht]; exact hout, fun hn => absurd (hnone hn).1 (Option.some_ne_none _)⟩

/-- **There is a span** exactly if some region has bytes and the end of every such region fits. -/
theorem span_eq_ok {rs : List Region} :
    (∃ a, span rs = .ok a) ↔ Region.nonEmpty rs ≠ [] ∧ ∀ r ∈ Region.nonEmpty rs, r.EndFits := by
  constructor
  · rintro ⟨⟨lo, hi⟩, h⟩
    constructor
    · intro hnil
      simp [span, hnil, spanFrom, bind, Except.bind, orFault] at h
    · intro r hr
      obtain ⟨-, t, ht⟩ := (span_ok h).2.2 r hr
      refine Classical.byContradiction fun hn => ?_
      rw [touched?_eq_none.2 hn] at ht
      cases ht
  · rintro ⟨hne, hfits⟩
    obtain ⟨out, hout, hnone⟩ := spanFrom_of_fits hfits none
    cases out with
    | none => exact absurd (hnone rfl).2 hne
    | some a => exact ⟨a, by rw [span, hout, Checked.ok_bind, Checked.orFault_some]⟩

theorem settles_spanFrom (rs : List Region) (acc : Option (Nat × Nat)) :
    Checked.Settles (fun _ => True) (spanFrom acc rs) := by
  induction rs generalizing acc with
  | nil => exact Checked.settles_ok acc
  | cons r rs ih =>
    rw [spanFrom]
    cases touched? r with
    | none => exact Checked.settles_fault.2 trivial
    | some t => exact ih _

/-- Looking for the span ends with a span or with a fault. -/
theorem settles_span (rs : List Region) : Checked.Settles (fun _ => True) (span rs) :=
  (settles_spanFrom _ none).bind fun acc _ => Checked.settles_orFault trivial acc

/-- The number of words is that of the span. -/
theorem wordsFor_of_span {rs : List Region} {lo hi : Nat} (h : span rs = .ok (lo, hi)) :
    wordsFor rs = .ok (Bitmap.wordsFor (hi - lo)) := by
  have hsub : Count.sub (ε := Fault) hi lo = .ok (hi - lo) :=
    Count.sub_eq_ok.2 ⟨Nat.le_of_lt (span_ok h).1, rfl⟩
  rw [wordsFor, h, Checked.ok_bind]
  dsimp only
  rw [hsub]
  rfl

/-! ## Regions without common bytes -/

variable {σ : Type}

/-- The check of one region against others passes exactly if all these end inside a word and share no byte with it. -/
theorem checkApart_ends (a : Region) {aStop : UInt64} (ha : aStop.toNat = a.stop) (bs : List Region) (s : σ) :
    (checkApart a aStop bs).Ends s fun r t => t = s ∧ Checked.Settles (fun _ => True) r ∧
      (r = .ok () ↔ ∀ b ∈ bs, b.stop < 2 ^ 64 ∧ Region.Apart a b) := by
  induction bs with
  | nil => exact ⟨rfl, Checked.settles_ok (), fun _ => nofun, fun _ => rfl⟩
  | cons b bs ih =>
    rw [checkApart, Action.ends_bind]
    cases hb : b.end? with
    | none =>
      have hbig := Region.end?_eq_none.1 hb
      refine ⟨rfl, Checked.settles_fault.2 trivial, nofun, fun h => ?_⟩
      exact absurd (h b (by simp)).1 (Nat.not_lt.2 hbig)
    | some bStop =>
      have hstop := Region.end?_eq_some.1 hb
      have hc : (a.base.raw < bStop && b.base.raw < aStop) = true ↔ ¬Region.Apart a b := by
        rw [Bool.and_eq_true, decide_eq_true_eq, decide_eq_true_eq, UInt64.lt_iff_toNat_lt, UInt64.lt_iff_toNat_lt,
          hstop, ha, Region.Apart]
        omega
      rw [Action.ends_some, Action.goes_ok, Action.ends_ite]
      split
      · rename_i hmeet
        refine ⟨rfl, Checked.settles_fault.2 trivial, nofun, fun h => ?_⟩
        exact absurd (h b (by simp)).2 (hc.1 hmeet)
      · rename_i hmeet
        have hapart : Region.Apart a b := Classical.byContradiction fun hn => hmeet (hc.2 hn)
        have hlt : b.stop < 2 ^ 64 := hstop ▸ bStop.toNat_lt
        refine ih.mono fun r t h => ⟨h.1, h.2.1, h.2.2.trans ?_⟩
        rw [List.forall_mem_cons, and_iff_right ⟨hlt, hapart⟩]

/-- **The check for shared bytes** passes exactly if every region ends inside a word and no two share a byte. -/
theorem checkAllApart_ends (rs : List Region) (s : σ) :
    (checkAllApart rs).Ends s fun r t => t = s ∧ Checked.Settles (fun _ => True) r ∧
      (r = .ok () ↔ (∀ a ∈ rs, a.stop < 2 ^ 64) ∧ rs.Pairwise Region.Apart) := by
  induction rs generalizing s with
  | nil => exact ⟨rfl, Checked.settles_ok (), fun _ => ⟨nofun, .nil⟩, fun _ => rfl⟩
  | cons a rs ih =>
    rw [checkAllApart, Action.ends_bind]
    cases ha : a.end? with
    | none =>
      have hbig := Region.end?_eq_none.1 ha
      refine ⟨rfl, Checked.settles_fault.2 trivial, nofun, fun h => ?_⟩
      exact absurd (h.1 a (by simp)) (Nat.not_lt.2 hbig)
    | some aStop =>
      have hstop := Region.end?_eq_some.1 ha
      have hlt : a.stop < 2 ^ 64 := hstop ▸ aStop.toNat_lt
      rw [Action.ends_some, Action.goes_ok]
      refine (checkApart_ends a hstop rs s).bind ?_
      rintro (e | ⟨⟩) t ⟨rfl, hsettles, hiff⟩
      · refine ⟨rfl, hsettles, nofun, fun h => ?_⟩
        obtain ⟨hends, hpairs⟩ := h
        have := hiff.2 fun b hb => ⟨hends b (by simp [hb]), (List.pairwise_cons.1 hpairs).1 b hb⟩
        cases this
      · rw [Action.goes_ok]
        have hfirst := hiff.1 rfl
        refine (ih t).mono fun r u h => ⟨h.1, h.2.1, h.2.2.trans ?_⟩
        rw [List.forall_mem_cons, List.pairwise_cons, and_iff_right hlt, and_iff_right fun b hb => (hfirst b hb).2]

/-! ## The frames of a memory map -/

/-- The ledger lists the frames of the regions that have bytes; these share no byte, and their frames lie in the span. -/
structure Ledger.Charts (l : Ledger) (rs : List Region) : Prop where
  regions : l.extents.map Extent.region = Region.nonEmpty rs
  rounded : ∀ e ∈ l.extents, Extent.ofRegion? e.region = some e
  apart : l.extents.Pairwise fun a b => Region.Apart a.region b.region
  spans : ∀ e ∈ l.extents, Spans l.base (l.base + l.frames) e.region
  limit : l.base + l.frames < 2 ^ 52

namespace Ledger.Charts

variable {l : Ledger} {rs : List Region} {e : Extent} {f : Nat}

theorem region_mem (h : l.Charts rs) (he : e ∈ l.extents) : e.region ∈ Region.nonEmpty rs := by
  rw [← h.regions]
  exact List.mem_map_of_mem he

theorem usable_eq (h : l.Charts rs) (he : e ∈ l.extents) (hu : e.isUsable = true) :
    e.first = (e.region.base.raw.toNat + 4095) / 4096 ∧
      e.stop = max (e.region.stop / 4096) ((e.region.base.raw.toNat + 4095) / 4096) := by
  have := Extent.of_usable (h.rounded e he) (Extent.isUsable_iff.1 hu)
  exact ⟨congrArg Extent.first this, congrArg Extent.stop this⟩

theorem unusable_eq (h : l.Charts rs) (he : e ∈ l.extents) (hu : ¬e.isUsable = true) :
    e.first = e.region.base.raw.toNat / 4096 ∧ e.stop = (e.region.stop + 4095) / 4096 := by
  have := Extent.of_not_usable (h.rounded e he) (mt Extent.isUsable_iff.2 hu)
  exact ⟨congrArg Extent.first this, congrArg Extent.stop this⟩

/-- The frames of an extent lie in the span. -/
theorem inside (h : l.Charts rs) (he : e ∈ l.extents) :
    l.base ≤ e.first ∧ e.first ≤ e.stop ∧ e.stop ≤ l.base + l.frames := by
  have hs := h.spans e he
  have hle : e.region.base.raw.toNat ≤ e.region.stop := Nat.le_add_right _ _
  unfold Spans at hs
  by_cases hu : e.isUsable = true
  · have := h.usable_eq he hu
    omega
  · have := h.unusable_eq he hu
    omega

/-- A frame of a usable extent has all its bytes in the region. -/
theorem whole (h : l.Charts rs) (he : e ∈ l.extents) (hu : e.isUsable = true) (hf : e.contains f = true) :
    e.region.base.raw.toNat ≤ f * 4096 ∧ (f + 1) * 4096 ≤ e.region.stop := by
  have := h.usable_eq he hu
  have := Extent.contains_iff.1 hf
  omega

/-- Every frame of an extent has a byte of its region. -/
theorem meets (h : l.Charts rs) (he : e ∈ l.extents) (hf : e.contains f = true) :
    e.region.base.raw.toNat < (f + 1) * 4096 ∧ f * 4096 < e.region.stop := by
  by_cases hu : e.isUsable = true
  · have := h.whole he hu hf
    omega
  · have hlen := Region.length_pos_of_nonEmpty (h.region_mem he)
    have := h.unusable_eq he hu
    have := Extent.contains_iff.1 hf
    unfold Region.stop at *
    omega

/-- A frame of a usable extent shares no byte with a region that is apart from its own. -/
theorem apart_of_usable (h : l.Charts rs) (he : e ∈ l.extents) (hu : e.isUsable = true) (hf : e.contains f = true)
    {r : Region} (hr : Region.Apart e.region r) : r.stop ≤ f * 4096 ∨ (f + 1) * 4096 ≤ r.base.raw.toNat := by
  have := h.whole he hu hf
  rcases hr with hr | hr
  · right; omega
  · left; omega

theorem not_contains_of_apart (h : l.Charts rs) (he : e ∈ l.extents) (hu : e.isUsable = true)
    (hf : e.contains f = true) {e' : Extent} (he' : e' ∈ l.extents) (hr : Region.Apart e.region e'.region) :
    e'.contains f = false := by
  cases hc : e'.contains f with
  | false => rfl
  | true =>
    have h1 := h.meets he' hc
    have h2 := h.apart_of_usable he hu hf hr
    omega

/-- A frame of a usable extent is in no other extent, and no other region has a byte of it. -/
theorem sole (h : l.Charts rs) {xs ys : List Extent} (hs : l.extents = xs ++ e :: ys) (hu : e.isUsable = true)
    (hf : e.contains f = true) : ∀ e' ∈ xs ++ ys, e'.contains f = false ∧
      (e'.region.stop ≤ f * 4096 ∨ (f + 1) * 4096 ≤ e'.region.base.raw.toNat) := by
  have hp := h.apart
  rw [hs, List.pairwise_append, List.pairwise_cons] at hp
  obtain ⟨-, ⟨hy, -⟩, hx⟩ := hp
  have he : e ∈ l.extents := by rw [hs]; simp
  intro e' he'
  have hr : Region.Apart e.region e'.region := by
    rcases List.mem_append.1 he' with hm | hm
    · exact (hx e' hm e (by simp)).symm
    · exact hy e' hm
  have hm : e' ∈ l.extents := by
    rw [hs]
    rcases List.mem_append.1 he' with hm | hm <;> simp [hm]
  exact ⟨h.not_contains_of_apart he hu hf hm hr, h.apart_of_usable he hu hf hr⟩

/-- The extents that contain a frame of a usable extent are that extent alone. -/
theorem eq_of_contains (h : l.Charts rs) (he : e ∈ l.extents) (hu : e.isUsable = true) (hf : e.contains f = true)
    {e' : Extent} (he' : e' ∈ l.extents) (hf' : e'.contains f = true) : e' = e := by
  obtain ⟨xs, ys, hs⟩ := List.append_of_mem he
  rw [hs, List.mem_append, List.mem_cons] at he'
  by_cases heq : e' = e
  · exact heq
  · have hm : e' ∈ xs ++ ys := by
      rcases he' with hm | hm | hm
      · simp [hm]
      · exact absurd hm heq
      · simp [hm]
    rw [(h.sole hs hu hf e' hm).1] at hf'
    cases hf'

/-- The region that owns a frame of a usable extent is that extent. -/
theorem owner? (h : l.Charts rs) (he : e ∈ l.extents) (hu : e.isUsable = true) (hf : e.contains f = true) :
    l.owner? f = some e := by
  unfold Ledger.owner?
  cases hfind : l.extents.find? fun e => e.contains f with
  | none => simpa [hf] using List.find?_eq_none.1 hfind e he
  | some e' =>
    have hc := List.find?_some hfind
    rw [h.eq_of_contains he hu hf (List.mem_of_find?_eq_some hfind) hc]

end Ledger.Charts

end Frame

end Keel
