import Keel.Frame.Placement
import Keel.Proofs.Frame.Regions

/-!
# Where the bitmap is placed

Over regions whose ends fit, `place` answers the start of a run of frames that one usable region holds whole, frame zero
apart, and that no boot module touches, or finds no room (`place_ends`). The run has as many frames as the bitmap has
pages (`pagesFor_words`).
-/

namespace Keel.Frame

variable {taken : List FrameRange} {rs : List Region} {ms : List BootModule} {pages stop first f words : Nat}

/-- No taken range meets the `pages` frames from `f` on. -/
def Avoids (taken : List FrameRange) (f pages : Nat) : Prop := ∀ t ∈ taken, t.2 ≤ f ∨ f + pages ≤ t.1

theorem avoids_of_furthest (h : furthest? taken f (f + pages) = none) : Avoids taken f pages := by
  intro t ht
  rw [furthest?, List.max?_eq_none_iff, List.map_eq_nil_iff, List.filter_eq_nil_iff] at h
  have := h t ht
  simp only [Bool.and_eq_true, decide_eq_true_eq] at this
  omega

/-- What is found in a range fits it, and meets nothing taken. -/
theorem fit_ok (hp : 0 < pages) (h : fit taken pages stop first = .ok (some f)) :
    first ≤ f ∧ f + pages ≤ stop ∧ Avoids taken f pages := by
  fun_induction fit taken pages stop first with
  | case1 first hle e hadd => cases h
  | case2 first hle last hadd hnone =>
    obtain ⟨-, rfl⟩ := Count.add_eq_ok.1 hadd
    obtain rfl : first = f := by simpa using h
    exact ⟨Nat.le_refl _, by omega, avoids_of_furthest hnone⟩
  | case3 first hle last hadd past hsome ih =>
    obtain ⟨h1, h2, h3⟩ := ih h
    exact ⟨Nat.le_trans (Nat.le_of_lt (lt_furthest hsome)) h1, h2, h3⟩
  | case4 first hle => cases h

/-- The search in a range ends with an answer. -/
theorem fit_answers (taken : List FrameRange) (hp : 0 < pages) (hstop : stop < 2 ^ 64) (first : Nat) :
    ∃ o, fit taken pages stop first = .ok o := by
  fun_induction fit taken pages stop first with
  | case1 first hle e hadd =>
    have hok : Count.add (ε := Fault) first pages = .ok (first + pages) := Count.add_eq_ok.2 ⟨by omega, rfl⟩
    rw [hok] at hadd
    cases hadd
  | case2 first hle last hadd hnone => exact ⟨_, rfl⟩
  | case3 first hle last hadd past hsome ih => exact ih
  | case4 first hle => exact ⟨_, rfl⟩

/-- What is found in the regions lies whole in one usable region, frame zero apart. -/
theorem placeIn_ok (hp : 0 < pages) (h : placeIn taken pages rs = .ok (some f)) : 1 ≤ f ∧ Avoids taken f pages ∧
    ∃ r ∈ rs, r.kind = .usable ∧ r.base.raw.toNat ≤ f * 4096 ∧ (f + pages) * 4096 ≤ r.stop := by
  induction rs with
  | nil => cases h
  | cons r rs ih =>
    have hrest : placeIn taken pages rs = .ok (some f) → 1 ≤ f ∧ Avoids taken f pages ∧
        ∃ r' ∈ r :: rs, r'.kind = .usable ∧ r'.base.raw.toNat ≤ f * 4096 ∧ (f + pages) * 4096 ≤ r'.stop := by
      intro hf
      obtain ⟨h1, h2, r', hr', h3⟩ := ih hf
      exact ⟨h1, h2, r', List.mem_cons_of_mem r hr', h3⟩
    rw [placeIn] at h
    cases he : Extent.ofRegion? r with
    | none => simp [he, orFault, bind, Except.bind] at h
    | some e =>
      simp only [he, orFault, bind, Except.bind] at h
      split at h
      · exact hrest h
      · rename_i hu
        rw [Bool.not_eq_true', Bool.not_eq_false, Extent.isUsable_iff, Extent.region_of_ofRegion? he] at hu
        cases hfit : fit taken pages e.stop (max e.first 1) with
        | error e' => simp [hfit] at h
        | ok o =>
          cases o with
          | none =>
            simp only [hfit] at h
            exact hrest h
          | some g =>
            simp only [hfit] at h
            obtain rfl : g = f := by simpa [pure, Except.pure] using h
            obtain ⟨h1, h2, h3⟩ := fit_ok hp hfit
            rw [Extent.of_usable he hu] at h1 h2
            dsimp only at h1 h2
            exact ⟨by omega, h3, r, List.mem_cons_self, hu, by omega, by omega⟩

/-- The frames of a region whose end fits. -/
theorem extent_of_fits {r : Region} (h : r.EndFits) : ∃ e, Extent.ofRegion? r = some e ∧ e.stop < 2 ^ 64 := by
  cases ht : touched? r with
  | none => exact absurd h (touched?_eq_none.1 ht)
  | some t =>
    obtain ⟨e, he⟩ := Extent.of_touched ht
    have hfits := Region.endFits_iff.1 h
    have hbase : r.base.raw.toNat ≤ r.stop := Nat.le_add_right _ _
    refine ⟨e, he, ?_⟩
    by_cases hu : r.kind = .usable
    · rw [Extent.of_usable he hu]
      dsimp only
      omega
    · rw [Extent.of_not_usable he hu]
      dsimp only
      omega

/-- The search in regions whose ends fit ends with an answer. -/
theorem placeIn_answers (taken : List FrameRange) (hp : 0 < pages) (h : ∀ r ∈ rs, r.EndFits) :
    ∃ o, placeIn taken pages rs = .ok o := by
  induction rs with
  | nil => exact ⟨none, rfl⟩
  | cons r rs ih =>
    obtain ⟨hr, hrs⟩ := List.forall_mem_cons.1 h
    obtain ⟨e, he, hstop⟩ := extent_of_fits hr
    obtain ⟨o, hfit⟩ := fit_answers taken hp hstop (max e.first 1)
    rw [placeIn, he, Checked.orFault_some, Checked.ok_bind, hfit]
    split
    · exact ih hrs
    · cases o with
      | none => exact ih hrs
      | some first => exact ⟨some first, rfl⟩

/-- A bitmap with words takes the frames it needs to hold them. -/
theorem pagesFor_words (h : 0 < words) : pagesFor (words * 8) = (words * 8 + 4095) / 4096 := by
  simp only [pagesFor, Layout.pageSize]
  omega

/-- The frames that a boot module touches, if it has bytes and its end can be rounded up. -/
theorem frames?_eq_some {m : BootModule} {t : FrameRange} : m.frames? = some t ↔ m.size ≠ 0 ∧
    m.addr.raw.toNat + m.size.toNat + 4095 < 2 ^ 64 ∧
    t = (m.addr.raw.toNat / 4096, (m.addr.raw.toNat + m.size.toNat + 4095) / 4096) := by
  unfold BootModule.frames?
  split
  · rename_i h0
    exact ⟨nofun, fun h => absurd h0 h.1⟩
  rename_i h0
  rw [and_iff_right h0]
  cases hend : m.addr.add? m.size with
  | none =>
    have hbig := Address.add?_eq_none.1 hend
    exact ⟨nofun, fun h => absurd h.1 (by omega)⟩
  | some stop =>
    have hstop := Address.add?_eq_some.1 hend
    rw [Option.bind_eq_bind, Option.bind_some, hstop]
    cases hceil : Align.pageCeil? stop.raw with
    | none =>
      have hbig := Align.pageCeil?_eq_none.1 hceil
      exact ⟨nofun, fun h => absurd h.1 (by omega)⟩
    | some c =>
      have hfits := (Align.pageCeil?_eq_some.1 hceil).1
      rw [Option.bind_eq_bind, Option.bind_some, Align.frameOf_pageFloor, Align.frameOf_of_pageCeil? hceil,
        and_iff_right hfits]
      exact ⟨fun h => (Option.some.inj h).symm, fun h => h ▸ rfl⟩

/-- The bitmap of a map is placed from a frame on. -/
def PlacedAt (rs : List Region) (words : Nat) (ms : List BootModule) (first : Nat) : Prop :=
  placeIn (ms.filterMap BootModule.frames?) (pagesFor (words * 8)) (Region.nonEmpty rs) = .ok (some first)

/-- **The place of a bitmap** is a run of frames of one usable region that no boot module touches. -/
theorem place_ends {σ : Type} {s : σ} (ms : List BootModule) (h : 0 < words) (hw : 8 * words < 2 ^ 64)
    (hfits : ∀ r ∈ Region.nonEmpty rs, r.EndFits) : (place rs words ms).Ends s fun r t => t = s ∧
      (r = .error (.fault .tooMany) ∨ ∃ f, r = .ok ⟨Align.frameStart f⟩ ∧ PlacedAt rs words ms f ∧ 1 ≤ f ∧
        Avoids (ms.filterMap BootModule.frames?) f ((words * 8 + 4095) / 4096) ∧ ∃ r ∈ rs, r.kind = .usable ∧
          r.base.raw.toNat ≤ f * 4096 ∧ (f + (words * 8 + 4095) / 4096) * 4096 ≤ r.stop) := by
  have hbytes : Count.mul (ε := Fault) words 8 = .ok (words * 8) := Count.mul_eq_ok.2 ⟨by omega, rfl⟩
  obtain ⟨o, hplace⟩ := placeIn_answers (ms.filterMap BootModule.frames?)
    (by omega : 0 < (words * 8 + 4095) / 4096) hfits
  unfold place
  rw [Action.ends_bind, hbytes, Action.ends_lift, Action.goes_ok, Action.ends_bind, pagesFor_words h, hplace,
    Action.ends_lift, Action.goes_ok]
  cases o with
  | none => exact ⟨rfl, .inl rfl⟩
  | some f =>
    obtain ⟨h1, h2, r, hr, hk, hlo, hhi⟩ := placeIn_ok (by omega) hplace
    have hstop := (hfits r hr).1
    have hstart : Count.mul (ε := Fault) f Layout.pageSize = .ok (f * 4096) :=
      Count.mul_eq_ok.2 ⟨by
        have hle := Nat.mul_le_mul_right 4096 (Nat.le_add_right f ((words * 8 + 4095) / 4096))
        show f * 4096 < 2 ^ 64
        omega, rfl⟩
    dsimp only
    rw [Action.ends_bind, hstart, Action.ends_lift, Action.goes_ok, Action.ends_pure]
    have hplaced : PlacedAt rs words ms f := by rw [PlacedAt, pagesFor_words h, hplace]
    exact ⟨rfl, .inr ⟨f, rfl, hplaced, h1, h2, r, Region.mem_of_nonEmpty hr, hk, hlo, hhi⟩⟩

end Keel.Frame
