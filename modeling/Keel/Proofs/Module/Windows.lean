import Mathlib.Tactic.SplitIfs
import Keel.Module.Window
import Keel.Proofs.Checked
import Keel.Proofs.Ends
import Keel.Proofs.Pages

/-!
# What a window hands out

A window that is sound (`Window.Sound`) lies inside the address space, and its cursor stands at a page boundary inside
it or at its end. Then an allocation does one of two things (`Window.allocate_ends`): it is refused, for the first
reason it meets (`Window.refusal`), and leaves the window as it was, or it answers the address under the cursor and moves
the cursor past the pages it takes (`Window.advance`). Windows are sound as they are created and stay so
(`Window.Reachable.sound`).
-/

namespace Keel

namespace Align

/-- A length rounded up to whole pages. -/
def roundUp (n : Nat) : Nat := (n + 4095) / 4096 * 4096

theorem le_roundUp (n : Nat) : n ≤ roundUp n := by
  unfold roundUp
  omega

theorem roundUp_mod (n : Nat) : roundUp n % 4096 = 0 := by simp [roundUp]

theorem roundUp_zero : roundUp 0 = 0 := rfl

/-- Rounding a length up as a word, by its value. -/
theorem pageCeil?_cases (v : UInt64) : 2 ^ 64 ≤ v.toNat + 4095 ∧ pageCeil? v = none ∨
    v.toNat + 4095 < 2 ^ 64 ∧ pageCeil? v = some (UInt64.ofNat (roundUp v.toNat)) ∧
      (UInt64.ofNat (roundUp v.toNat)).toNat = roundUp v.toNat := by
  rcases Nat.lt_or_ge (v.toNat + 4095) (2 ^ 64) with h | h
  · have hround : (UInt64.ofNat (roundUp v.toNat)).toNat = roundUp v.toNat := by
      rw [UInt64.toNat_ofNat', Nat.mod_eq_of_lt]
      unfold roundUp
      omega
    exact .inr ⟨h, pageCeil?_eq_some.2 ⟨h, hround⟩, hround⟩
  · exact .inl ⟨h, pageCeil?_eq_none.2 h⟩

end Align

namespace Window

open Keel.Action (lift)
open Keel.Align (roundUp)

variable {w : Window} {size : UInt64}

/-- A window inside the address space whose cursor is at a page boundary not past its end. -/
structure Sound (w : Window) : Prop where
  base_pages : w.base.raw.toNat % 4096 = 0
  size_pages : w.size.toNat % 4096 = 0
  used_pages : w.used.toNat % 4096 = 0
  used_le : w.used.toNat ≤ w.size.toNat
  ends : w.base.raw.toNat + w.size.toNat < 2 ^ 64

/-- The bytes a window has left. -/
def left (w : Window) : Nat := w.size.toNat - w.used.toNat

/-- The address under the cursor. -/
def next (w : Window) : VirtAddr := ⟨w.base.raw + w.used⟩

/-- The window with its cursor past the pages of `size` bytes. -/
def advance (w : Window) (size : UInt64) : Window := { w with used := w.used + UInt64.ofNat (roundUp size.toNat) }

/-- Why a window does not hand `size` bytes out. -/
def refusal (w : Window) (size : UInt64) : Option Fault :=
  if size = 0 then some .badArgs
  else if 2 ^ 64 ≤ size.toNat + 4095 then some .overflow
  else if w.left < roundUp size.toNat then some .tooMany
  else none

theorem refusal_eq_none : w.refusal size = none ↔ size ≠ 0 ∧ size.toNat + 4095 < 2 ^ 64 ∧ roundUp size.toNat ≤ w.left := by
  unfold refusal
  split_ifs with hzero hbig hfull
  · exact iff_of_false nofun fun h => h.1 hzero
  · exact iff_of_false nofun fun h => Nat.not_lt.2 hbig h.2.1
  · exact iff_of_false nofun fun h => Nat.not_le.2 hfull h.2.2
  · exact iff_of_true rfl ⟨hzero, Nat.lt_of_not_le hbig, Nat.le_of_not_lt hfull⟩

/-! ## The numbers of a sound window -/

namespace Sound

theorem remaining {ε : Type} (hw : w.Sound) :
    Window.remaining (ε := ε) w = .ok (w.size - w.used) ∧ (w.size - w.used).toNat = w.left := by
  have hle := UInt64.le_iff_toNat_le.2 hw.used_le
  exact ⟨if_pos hle, UInt64.toNat_sub_of_le _ _ hle⟩

theorem cursor {ε : Type} (hw : w.Sound) : Window.cursor (ε := ε) w = .ok w.next := by
  have := hw.used_le
  have := hw.ends
  have hsum : Word.add? w.base.raw w.used = some (w.base.raw + w.used) := if_pos (by omega)
  simp [Window.cursor, Address.add, Word.add, hsum, next, Except.map]

/-- What there is room for is rounded up without a carry. -/
theorem lt_of_room (hw : w.Sound) (hroom : roundUp size.toNat ≤ w.left) : size.toNat + 4095 < 2 ^ 64 := by
  have := Align.le_roundUp size.toNat
  have := hw.size_pages
  have := w.size.toNat_lt
  unfold left at hroom
  omega

/-- The cursor after an advance for which there is room. -/
theorem toNat_used_advance (hw : w.Sound) (hroom : roundUp size.toNat ≤ w.left) :
    (w.advance size).used.toNat = w.used.toNat + roundUp size.toNat := by
  have := hw.used_le
  have := hw.ends
  unfold left at hroom
  exact Align.toNat_add_ofNat (by omega)

theorem advance (hw : w.Sound) (hroom : roundUp size.toNat ≤ w.left) : (w.advance size).Sound := by
  have hused := hw.toNat_used_advance hroom
  have hround := Align.roundUp_mod size.toNat
  have := hw.used_pages
  have := hw.used_le
  unfold left at hroom
  exact ⟨hw.base_pages, hw.size_pages, by omega, by rw [hused]; show _ ≤ w.size.toNat; omega, hw.ends⟩

end Sound

theorem advance_zero (w : Window) : w.advance 0 = w := by
  simp [advance, Align.roundUp_zero]

/-! ## Allocation -/

/-- An allocation is refused and changes nothing, or it takes the pages under the cursor. -/
theorem allocate_ends (hw : w.Sound) (size : UInt64) : (allocate size).Ends w fun r t =>
    match w.refusal size with
    | some f => r = .error (.fault f) ∧ t = w
    | none => r = .ok w.next ∧ t = w.advance size := by
  by_cases hzero : size = 0
  · have href : w.refusal size = some .badArgs := if_pos hzero
    rw [href]
    simp [allocate, hzero]
  obtain ⟨hbig, hceil⟩ | ⟨hsmall, hceil, hround⟩ := Align.pageCeil?_cases size
  · have href : w.refusal size = some .overflow := by rw [refusal, if_neg hzero, if_pos hbig]
    rw [href]
    simp [allocate, hzero, hceil]
  obtain ⟨hleft, hleftNat⟩ := hw.remaining (ε := Fault)
  have hlt : w.size - w.used < UInt64.ofNat (roundUp size.toNat) ↔ w.left < roundUp size.toNat := by
    rw [UInt64.lt_iff_toNat_lt, hleftNat, hround]
  by_cases hfull : w.left < roundUp size.toNat
  · have href : w.refusal size = some .tooMany := by
      rw [refusal, if_neg hzero, if_neg (Nat.not_le.2 hsmall), if_pos hfull]
    rw [href]
    simp [allocate, hzero, hceil, hleft, hlt, hfull]
  · have href : w.refusal size = none := refusal_eq_none.2 ⟨hzero, hsmall, Nat.le_of_not_lt hfull⟩
    have hfits : w.used.toNat + (UInt64.ofNat (roundUp size.toNat)).toNat < 2 ^ 64 := by
      have := hw.used_le
      have := hw.ends
      unfold left at hfull
      omega
    have hsum : Word.add (ε := Fault) w.used (UInt64.ofNat (roundUp size.toNat)) = .ok (w.advance size).used := by
      rw [Word.add, Word.add?, if_pos hfits]
      rfl
    rw [href]
    simp [allocate, hzero, hceil, hleft, hlt, hfull, hw.cursor, hsum, advance, -bind_pure_comp]

/-- An allocation that nothing speaks against. -/
theorem allocate_of_room (hw : w.Sound) (hpos : size ≠ 0) (hroom : roundUp size.toNat ≤ w.left) :
    (allocate size).Ends w fun r t => r = .ok w.next ∧ t = w.advance size := by
  have h := allocate_ends hw size
  rwa [refusal_eq_none.2 ⟨hpos, hw.lt_of_room hroom, hroom⟩] at h

/-- Whatever is asked of a sound window, it stays sound. -/
theorem Sound.allocate (hw : w.Sound) (size : UInt64) : (Window.allocate size).Ends w fun _ t => t.Sound := by
  refine (allocate_ends hw size).mono fun r t h => ?_
  cases hr : w.refusal size with
  | some f =>
    simp only [hr] at h
    exact h.2 ▸ hw
  | none =>
    simp only [hr] at h
    exact h.2 ▸ hw.advance (refusal_eq_none.1 hr).2.2

theorem sound_create {base : UInt64} (h : create base size = .ok w) : w.Sound := by
  simp only [create, Checked.bind_eq_ok] at h
  obtain ⟨_, hdemand, stop, hstop, hw⟩ := h
  have hpages := Checked.demand_eq_ok.1 hdemand
  have hends := Word.add?_eq_some.1 (Checked.orFault_eq_ok.1 hstop)
  have hlt : base.toNat + size.toNat < 2 ^ 64 := hends ▸ stop.toNat_lt
  simp [Layout.moduleAlign, Layout.pageSize] at hpages
  cases hw
  exact ⟨hpages.1.2, hpages.2, rfl, Nat.zero_le _, hlt⟩

/-- A window that was created and has handed addresses out. -/
inductive Reachable : Window → Prop
  | create {base size : UInt64} {w : Window} (h : Window.create base size = .ok w) : Reachable w
  | allocate {w : Window} (h : Reachable w) (size : UInt64) : Reachable (Window.allocate size w).state

theorem Reachable.sound (h : w.Reachable) : w.Sound := by
  induction h with
  | create h => exact sound_create h
  | allocate _ size ih => exact ih.allocate size

end Window

namespace Windows

open Keel.Action (zoom note)

variable {w : Windows} {size : UInt64}

/-- Two sound windows. -/
structure Sound (w : Windows) : Prop where
  text : w.text.Sound
  data : w.data.Sound

theorem sound_kernel : Windows.kernel.Sound :=
  ⟨⟨by decide, by decide, by decide, by decide, by decide⟩, ⟨by decide, by decide, by decide, by decide, by decide⟩⟩

theorem sound_create {text data : Window} (ht : text.Sound) (hd : data.Sound) (h : create text data = .ok w) :
    w.Sound := by
  simp only [create, Checked.bind_eq_ok] at h
  obtain ⟨_, -, _, -, hw⟩ := h
  cases hw
  exact ⟨ht, hd⟩

/-- An allocation of code ends as one of the window of code does. -/
theorem ends_allocateText {Q : Checked Fault VirtAddr → Windows → Prop} : (allocateText size).Ends w Q ↔
    (Window.allocate size).Ends w.text fun r t => Q r { w with text := t } := by
  simp only [allocateText, Action.ends_bind, Action.ends_zoom]
  refine ⟨fun h => h.mono fun r t hr => ?_, fun h => h.mono fun r t hr => ?_⟩ <;> cases r <;> exact hr

/-- An allocation of data ends as one of the window of data does. -/
theorem ends_allocateData {Q : Checked Fault VirtAddr → Windows → Prop} : (allocateData size).Ends w Q ↔
    (Window.allocate size).Ends w.data fun r t => Q r { w with data := t } := by
  simp only [allocateData, Action.ends_bind, Action.ends_zoom]
  refine ⟨fun h => h.mono fun r t hr => ?_, fun h => h.mono fun r t hr => ?_⟩ <;> cases r <;> exact hr

theorem Sound.allocateText (hw : w.Sound) (size : UInt64) : (Windows.allocateText size).Ends w fun _ t => t.Sound :=
  ends_allocateText.2 ((hw.text.allocate size).mono fun _ _ h => ⟨h, hw.data⟩)

theorem Sound.allocateData (hw : w.Sound) (size : UInt64) : (Windows.allocateData size).Ends w fun _ t => t.Sound :=
  ends_allocateData.2 ((hw.data.allocate size).mono fun _ _ h => ⟨hw.text, h⟩)

end Windows

end Keel
