import Keel.Frame.Pool

/-!
# Placing the bitmap

The bitmap of a pool lives in frames the pool tracks. `fit` looks for the lowest run of frames in a range that avoids a
list of taken ranges: where a candidate run meets taken ranges, the search goes on at the furthest end of those, so it
moves up at every step (`lt_furthest`) and never past the last taken range (`furthest_le`). `place` tries the usable
regions in the order of the map.
-/

namespace Keel.Frame

/-- A range of frames `[lo, hi)`. -/
abbrev FrameRange := Nat × Nat

/-- The furthest end of the taken ranges that meet `[first, stop)`. -/
def furthest? (taken : List FrameRange) (first stop : Nat) : Option Nat :=
  ((taken.filter fun t => t.1 < stop && first < t.2).map Prod.snd).max?

/-- The end of the highest taken range. -/
def top (taken : List FrameRange) : Nat := (taken.map Prod.snd).foldr max 0

theorem le_top {taken : List FrameRange} {t : FrameRange} (h : t ∈ taken) : t.2 ≤ top taken := by
  induction taken with
  | nil => cases h
  | cons u us ih =>
    rcases List.mem_cons.1 h with rfl | h
    · exact Nat.le_max_left _ _
    · exact Nat.le_trans (ih h) (Nat.le_max_right _ _)

/-- The furthest end is the end of a taken range that meets the candidate. -/
theorem mem_of_furthest {taken : List FrameRange} {first stop past : Nat} (h : furthest? taken first stop = some past) :
    ∃ t ∈ taken, t.1 < stop ∧ first < t.2 ∧ t.2 = past := by
  have hm := List.max?_mem h
  obtain ⟨t, ht, rfl⟩ := List.mem_map.1 hm
  obtain ⟨ht, hc⟩ := List.mem_filter.1 ht
  simp only [Bool.and_eq_true, decide_eq_true_eq] at hc
  exact ⟨t, ht, hc.1, hc.2, rfl⟩

theorem lt_furthest {taken : List FrameRange} {first stop past : Nat} (h : furthest? taken first stop = some past) :
    first < past := by
  obtain ⟨t, _, _, hlt, rfl⟩ := mem_of_furthest h
  exact hlt

theorem furthest_le {taken : List FrameRange} {first stop past : Nat} (h : furthest? taken first stop = some past) :
    past ≤ top taken := by
  obtain ⟨t, ht, _, _, rfl⟩ := mem_of_furthest h
  exact le_top ht

/-- The lowest start from `first` on of `pages` frames below `stop` that no taken range meets. -/
def fit (taken : List FrameRange) (pages stop first : Nat) : Checked Fault (Option Nat) :=
  if pages ≤ stop - first then
    match Count.add first pages with
    | .error e => .error e
    | .ok last =>
      match _h : furthest? taken first last with
      | none => .ok (some first)
      | some past => fit taken pages stop past
  else .ok none
  termination_by top taken - first
  decreasing_by
    have := lt_furthest _h
    have := furthest_le _h
    omega

/-- The line about a bitmap that fits nowhere. -/
def noRoomLine (bytes : Nat) : Line := ⟨.warn, s!"PMM: no usable region can hold a {bytes} byte bitmap"⟩

/-- The lowest fitting run of the first usable region that has one; frame zero is left alone. -/
def placeIn (taken : List FrameRange) (pages : Nat) : List Region → Checked Fault (Option Nat)
  | [] => .ok none
  | r :: rs => do
    let e ← orFault .overflow (Extent.ofRegion? r)
    if !e.isUsable then placeIn taken pages rs
    else
      match ← fit taken pages e.stop (max e.first 1) with
      | some first => return some first
      | none => placeIn taken pages rs

/-- The number of frames that hold a bitmap of `bytes` bytes, at least one. -/
def pagesFor (bytes : Nat) : Nat := max ((bytes + (Layout.pageSize - 1)) / Layout.pageSize) 1

/-- Where a bitmap of `words` words goes: frames of a usable region that no boot module touches. -/
def place {σ : Type} (rs : List Region) (words : Nat) (modules : List BootModule) : Action σ PhysAddr := do
  let bytes ← Action.lift (Count.mul words 8)
  match ← Action.lift (placeIn (modules.filterMap BootModule.frames?) (pagesFor bytes) (Region.nonEmpty rs)) with
  | some first => do
    let start ← Action.lift (Count.mul first Layout.pageSize)
    return ⟨UInt64.ofNat start⟩
  | none => do
    Action.note (noRoomLine bytes)
    Action.fail .tooMany

end Keel.Frame
