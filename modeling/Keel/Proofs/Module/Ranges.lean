import Mathlib.Order.CompletePartialOrder
import Mathlib.Order.Interval.Set.Basic
import Mathlib.Data.Set.Lattice
import Keel.Proofs.Module.Elf.Safety

/-!
# Ranges handed out

What the windows hand out is never handed out again. A session is a pair of windows as they are made and a list of
requests to them, allocations of code and of data and loads of any image, together with the ranges handed out so far.
Each of these lies below the cursor of its window (`Grant.Below`), and an allocation starts at the cursor and moves it
past the pages it takes (`Session.Kept.advance`); a load is two allocations (`kept_load`), also where it fails with both
blocks taken. So in every run all ranges, rounded up to whole pages, lie in their windows and do not meet, and no sum of
a base and a length leaves the address space (`ranges_run`).
-/

namespace Keel

open Keel.Align (roundUp)

namespace Align

theorem roundUp_roundUp (n : Nat) : roundUp (roundUp n) = roundUp n := by
  unfold roundUp
  omega

end Align

namespace Window

variable {w : Window} {size : UInt64}

/-- The cursor of a window moves past the pages of `n` bytes, and the window stays where it is. -/
structure Moves (w w' : Window) (n : Nat) : Prop where
  base : w'.base = w.base
  size : w'.size = w.size
  used : w'.used.toNat = w.used.toNat + roundUp n

/-- The numbers of a window are what they should be: nothing overflows where they are added. -/
structure Counts (w : Window) : Prop where
  cursor : ∃ a : VirtAddr, w.cursor (ε := Fault) = .ok a ∧ a.raw.toNat = w.base.raw.toNat + w.used.toNat
  remaining : ∃ n : UInt64, w.remaining (ε := Fault) = .ok n ∧ w.used.toNat + n.toNat = w.size.toNat
  stop : ∃ a : VirtAddr, w.range.stop (ε := Fault) = .ok a ∧ a.raw.toNat = w.base.raw.toNat + w.size.toNat

namespace Sound

/-- The address under the cursor, as a number. -/
theorem toNat_next (hw : w.Sound) : w.next.raw.toNat = w.base.raw.toNat + w.used.toNat := by
  have := hw.used_le
  have := hw.ends
  rw [next, UInt64.toNat_add, Nat.mod_eq_of_lt (by omega)]

theorem next_pages (hw : w.Sound) : w.next.raw.toNat % 4096 = 0 := by
  have := hw.base_pages
  have := hw.used_pages
  rw [hw.toNat_next]
  omega

end Sound

end Window

/-- The end of a range that lies in the address space. -/
theorem AddressRange.stop_of_lt {r : AddressRange} (h : r.start.raw.toNat + r.length.toNat < 2 ^ 64) :
    ∃ a : VirtAddr, r.stop (ε := Fault) = .ok a ∧ a.raw.toNat = r.start.raw.toNat + r.length.toNat := by
  refine ⟨⟨r.start.raw + r.length⟩, ?_, ?_⟩
  · have hsum : Word.add? r.start.raw r.length = some (r.start.raw + r.length) := if_pos h
    simp [AddressRange.stop, Address.add, Word.add, hsum, Except.map]
  · rw [UInt64.toNat_add, Nat.mod_eq_of_lt h]

/-- Two windows overlap if each starts before the other ends. -/
theorem Window.Sound.overlaps {a b : Window} (ha : a.Sound) (hb : b.Sound) : a.overlaps b (ε := Fault) =
    .ok (decide (a.base.raw.toNat < b.base.raw.toNat + b.size.toNat ∧
      b.base.raw.toNat < a.base.raw.toNat + a.size.toNat)) := by
  have hsum : ∀ {w : Window}, w.Sound → Word.add (ε := Fault) w.base.raw w.size = .ok (w.base.raw + w.size) ∧
      (w.base.raw + w.size).toNat = w.base.raw.toNat + w.size.toNat := by
    intro w hw
    have hlt := hw.ends
    refine ⟨?_, by rw [UInt64.toNat_add, Nat.mod_eq_of_lt hlt]⟩
    rw [Word.add, Word.add?, if_pos hlt]
  obtain ⟨ha, hanat⟩ := hsum ha
  obtain ⟨hb, hbnat⟩ := hsum hb
  unfold Window.overlaps
  simp only [hb, Checked.ok_bind, UInt64.lt_iff_toNat_lt, hbnat]
  by_cases hlt : a.base.raw.toNat < b.base.raw.toNat + b.size.toNat
  · simp [hlt, ha, hanat]
  · simp [hlt]

theorem Window.Sound.counts {w : Window} (hw : w.Sound) : w.Counts where
  cursor := ⟨w.next, hw.cursor, hw.toNat_next⟩
  remaining := by
    obtain ⟨hleft, hnat⟩ := hw.remaining (ε := Fault)
    have := hw.used_le
    refine ⟨_, hleft, ?_⟩
    rw [hnat, left]
    omega
  stop := AddressRange.stop_of_lt (r := w.range) hw.ends

namespace Windows

/-! ## Two windows -/

/-- One of the two windows. -/
inductive Side
  | text
  | data
  deriving DecidableEq

variable {v w : Windows} {i j : Side} {size : UInt64}

/-- The window of a side. -/
def window (w : Windows) : Side → Window
  | .text => w.text
  | .data => w.data

/-- Addresses from the window of a side. -/
def allocate : Side → UInt64 → Action Windows VirtAddr
  | .text => allocateText
  | .data => allocateData

/-- The windows after the cursor of one of them has moved. -/
def advance (w : Windows) (size : UInt64) : Side → Windows
  | .text => { w with text := w.text.advance size }
  | .data => { w with data := w.data.advance size }

/-- The windows are those of the kernel, or two windows that were made and share no address. -/
def Accepted (v : Windows) : Prop :=
  v = .kernel ∨ ∃ text data : Window, text.Reachable ∧ data.Reachable ∧ create text data = .ok v

/-- One window ends where the other starts, or before. -/
def Apart (w : Windows) : Prop :=
  w.text.base.raw.toNat + w.text.size.toNat ≤ w.data.base.raw.toNat ∨
    w.data.base.raw.toNat + w.data.size.toNat ≤ w.text.base.raw.toNat

theorem Sound.window (hw : w.Sound) (i : Side) : (w.window i).Sound := by
  cases i with
  | text => exact hw.text
  | data => exact hw.data

theorem Sound.advance (hw : w.Sound) (hroom : roundUp size.toNat ≤ (w.window i).left) : (w.advance size i).Sound := by
  cases i with
  | text => exact ⟨hw.text.advance hroom, hw.data⟩
  | data => exact ⟨hw.text, hw.data.advance hroom⟩

theorem window_advance_self (w : Windows) (size : UInt64) (i : Side) :
    (w.advance size i).window i = (w.window i).advance size := by
  cases i <;> rfl

theorem window_advance_of_ne (w : Windows) (size : UInt64) (h : i ≠ j) : (w.advance size i).window j = w.window j := by
  cases i <;> cases j <;> first | rfl | exact absurd rfl h

theorem advance_zero (w : Windows) (i : Side) : w.advance 0 i = w := by
  cases i with
  | text => simp [advance, Window.advance_zero]
  | data => simp [advance, Window.advance_zero]

/-- An allocation on either side is refused and changes nothing, or it takes the pages under the cursor. -/
theorem allocate_ends (hw : w.Sound) (i : Side) (size : UInt64) : (allocate i size).Ends w fun r t =>
    match (w.window i).refusal size with
    | some f => r = .error (.fault f) ∧ t = w
    | none => r = .ok (w.window i).next ∧ t = w.advance size i := by
  have hwindow := Window.allocate_ends (hw.window i) size
  cases i with
  | text =>
    refine ends_allocateText.2 (hwindow.mono fun r t h => ?_)
    simp only [window] at h ⊢
    split <;> simp_all [advance]
  | data =>
    refine ends_allocateData.2 (hwindow.mono fun r t h => ?_)
    simp only [window] at h ⊢
    split <;> simp_all [advance]

/-- Windows that are made share no address. -/
theorem apart_of_create {text data : Window} (ht : text.Sound) (hd : data.Sound) (h : create text data = .ok w) :
    w.Apart := by
  obtain ⟨b, hoverlaps, h⟩ := Checked.bind_eq_ok.1 h
  obtain ⟨_, hdemand, h⟩ := Checked.bind_eq_ok.1 h
  cases h
  have hfalse : b = false := by simpa using Checked.demand_eq_ok.1 hdemand
  rw [ht.overlaps hd, Except.ok.injEq, hfalse, decide_eq_false_iff_not] at hoverlaps
  unfold Apart
  dsimp only
  omega

theorem Accepted.sound (h : v.Accepted) : v.Sound ∧ v.Apart := by
  rcases h with rfl | ⟨text, data, ht, hd, h⟩
  · exact ⟨sound_kernel, by unfold Apart; decide⟩
  · exact ⟨sound_create ht.sound hd.sound h, apart_of_create ht.sound hd.sound h⟩

/-! ## Sessions -/

/-- What may be asked of the windows. -/
inductive Request
  | allocate (side : Side) (size : UInt64)
  | load (image : Image) (exports : ExportTable)

/-- A range that was handed out, and the side it is from. -/
structure Grant where
  side : Side
  range : AddressRange

/-- The addresses of a grant, rounded up to whole pages. -/
def Grant.pages (g : Grant) : Set Nat :=
  Set.Ico g.range.start.raw.toNat (g.range.start.raw.toNat + roundUp g.range.length.toNat)

/-- Whether a grant has any addresses. -/
def Grant.IsReal (g : Grant) : Prop := g.range.length ≠ 0

/-- Two windows and all that they have handed out. -/
structure Session where
  windows : Windows
  granted : List Grant

/-- A side gives a range: its cursor moves past the pages of the range, and the range, if there is anything in it, starts
where the cursor was. -/
def Gives (w w' : Windows) (i : Side) (r : AddressRange) : Prop :=
  (w.window i).Moves (w'.window i) r.length.toNat ∧
    (r.length ≠ 0 → r.start.raw.toNat = (w.window i).base.raw.toNat + (w.window i).used.toNat)

/-- The addresses that a cursor has moved over. -/
def passed (before after : Window) : AddressRange := ⟨before.next, after.used - before.used⟩

namespace Session

/-- The session before the first request. -/
def start (v : Windows) : Session := ⟨v, []⟩

/-- One request. A load that fails may have moved the cursors; then what they have moved over counts as handed out. -/
def step (s : Session) : Request → Session
  | .allocate i size =>
    let t := allocate i size s.windows
    match t.result with
    | .ok a => ⟨t.state, ⟨i, ⟨a, size⟩⟩ :: s.granted⟩
    | .error _ => ⟨t.state, s.granted⟩
  | .load image exports =>
    let t := Elf.load image exports s.windows
    match t.result with
    | .ok m => ⟨t.state, ⟨.text, m.text⟩ :: ⟨.data, m.data⟩ :: s.granted⟩
    | .error _ => ⟨t.state, ⟨.text, passed s.windows.text t.state.text⟩ ::
        ⟨.data, passed s.windows.data t.state.data⟩ :: s.granted⟩

/-- The session after a list of requests. -/
def run (s : Session) (qs : List Request) : Session := qs.foldl step s

/-- What was handed out lies in its window, page by page, and no two ranges share a page. -/
structure Separate (v : Windows) (s : Session) : Prop where
  window : ∀ i, (s.windows.window i).base = (v.window i).base ∧ (s.windows.window i).size = (v.window i).size
  inside : ∀ g ∈ s.granted, g.IsReal → g.range.start.raw.toNat % 4096 = 0 ∧
    (v.window g.side).base.raw.toNat ≤ g.range.start.raw.toNat ∧
    g.range.start.raw.toNat + roundUp g.range.length.toNat ≤
      (v.window g.side).base.raw.toNat + (v.window g.side).size.toNat
  apart : s.granted.Pairwise fun g h => g.IsReal → h.IsReal → Disjoint g.pages h.pages
  counts : ∀ i, (s.windows.window i).Counts
  stops : ∀ g ∈ s.granted, ∃ a : VirtAddr, g.range.stop (ε := Fault) = .ok a ∧
    a.raw.toNat = g.range.start.raw.toNat + g.range.length.toNat

end Session

namespace Session

/-- What a session owes to the next request: an allocation answers the address under the cursor and moves it past the
pages it takes, or it is refused for the first reason there is and changes nothing; a load is an allocation of each of
its blocks, or it changes nothing, and it does not halt. -/
def Answers (s : Session) : Request → Prop
  | .allocate i size =>
    let w := s.windows.window i
    let t := allocate i size s.windows
    match w.refusal size with
    | some f => t.result = .error (.fault f) ∧ t.state = s.windows
    | none => ∃ a : VirtAddr, t.result = .ok a ∧ a.raw.toNat = w.base.raw.toNat + w.used.toNat ∧
        ∀ j, (s.windows.window j).Moves (t.state.window j) (if j = i then size.toNat else 0)
  | .load image exports =>
    let t := Elf.load image exports s.windows
    (∀ m, t.result = .ok m → s.windows.Gives t.state .text m.text ∧ s.windows.Gives t.state .data m.data) ∧
    (∀ f, t.result = .error f → t.state = s.windows ∨ ∃ l, (Elf.survey image exports s.windows).result = .ok l ∧
      s.windows.text.Moves t.state.text l.layout.text.toNat ∧ s.windows.data.Moves t.state.data l.layout.data.toNat) ∧
    (image.bytes.size < 2 ^ 64 → ∀ h, t.result ≠ .error (.halt h))

/-! ## Below the cursors -/

end Session

/-- A grant lies below the cursor of its window: at whole pages, and rounded up to whole pages. -/
structure Grant.Below (g : Grant) (w : Windows) : Prop where
  aligned : g.range.start.raw.toNat % 4096 = 0
  base_le : (w.window g.side).base.raw.toNat ≤ g.range.start.raw.toNat
  le_cursor : g.range.start.raw.toNat + roundUp g.range.length.toNat ≤
    (w.window g.side).base.raw.toNat + (w.window g.side).used.toNat

namespace Session

variable {s : Session} {r : AddressRange}

/-- The windows are sound and lie where they lay, and what was handed out lies below the cursors and does not meet. -/
structure Kept (v : Windows) (s : Session) : Prop where
  sound : s.windows.Sound
  window : ∀ i, (s.windows.window i).base = (v.window i).base ∧ (s.windows.window i).size = (v.window i).size
  below : ∀ g ∈ s.granted, g.IsReal → g.Below s.windows
  apart : s.granted.Pairwise fun g h => g.IsReal → h.IsReal → Disjoint g.pages h.pages

theorem kept_start (hv : v.Sound) : (start v).Kept v := ⟨hv, fun _ => ⟨rfl, rfl⟩, nofun, .nil⟩

/-- What lies below a cursor lies below it when it has moved. -/
theorem below_advance {g : Grant} (hw : w.Sound) (hroom : roundUp size.toNat ≤ (w.window i).left) (h : g.Below w) :
    g.Below (w.advance size i) := by
  by_cases hi : i = g.side
  · subst hi
    have hused := (hw.window g.side).toNat_used_advance hroom
    obtain ⟨haligned, hbase, hcursor⟩ := h
    refine ⟨haligned, ?_, ?_⟩
    · rw [window_advance_self]
      exact hbase
    · rw [window_advance_self, hused]
      show _ ≤ (w.window g.side).base.raw.toNat + _
      omega
  · obtain ⟨haligned, hbase, hcursor⟩ := h
    rw [← window_advance_of_ne w size hi] at hbase hcursor
    exact ⟨haligned, hbase, hcursor⟩

/-- What lies below a cursor and what starts there do not meet, whichever windows they are from. -/
theorem disjoint_next (hv : v.Apart) (h : s.Kept v) {g g' : Grant} (hg : g.Below s.windows)
    (hstart : g'.range.start = (s.windows.window g'.side).next)
    (hroom : roundUp g'.range.length.toNat ≤ (s.windows.window g'.side).left) : Disjoint g'.pages g.pages := by
  have hsound := h.sound.window
  have hnext := (hsound g'.side).toNat_next
  have hle := (hsound g'.side).used_le
  have hle' := (hsound g.side).used_le
  obtain ⟨-, hbase, hcursor⟩ := hg
  rw [Set.disjoint_left]
  intro a ha ha'
  obtain ⟨hlo, hhi⟩ := Set.mem_Ico.1 ha
  obtain ⟨hlo', hhi'⟩ := Set.mem_Ico.1 ha'
  rw [hstart] at hlo hhi
  by_cases hside : g'.side = g.side
  · rw [hside] at hnext hlo
    omega
  · -- the two windows of the start do not meet, and both are where they were
    obtain ⟨htextBase, htextSize⟩ := h.window .text
    obtain ⟨hdataBase, hdataSize⟩ := h.window .data
    unfold Apart at hv
    unfold Window.left at hroom
    cases hi : g'.side with
    | text =>
      cases hj : g.side with
      | text => exact hside (hi.trans hj.symm)
      | data =>
        simp only [hi, hj, window] at *
        rw [← htextBase, ← htextSize, ← hdataBase, ← hdataSize] at hv
        omega
    | data =>
      cases hj : g.side with
      | data => exact hside (hi.trans hj.symm)
      | text =>
        simp only [hi, hj, window] at *
        rw [← htextBase, ← htextSize, ← hdataBase, ← hdataSize] at hv
        omega

/-- **One allocation**: a range that starts at a cursor, and the cursor moved past its pages. -/
theorem Kept.advance (hv : v.Apart) (h : s.Kept v) (i : Side) (hroom : roundUp size.toNat ≤ (s.windows.window i).left)
    (hlength : roundUp r.length.toNat ≤ roundUp size.toNat)
    (hstart : r.length ≠ 0 → r.start = (s.windows.window i).next) :
    Kept v ⟨s.windows.advance size i, ⟨i, r⟩ :: s.granted⟩ where
  sound := h.sound.advance hroom
  window := fun j => by
    rw [← (h.window j).1, ← (h.window j).2]
    by_cases hij : i = j
    · subst hij
      rw [window_advance_self]
      exact ⟨rfl, rfl⟩
    · rw [window_advance_of_ne _ _ hij]
      exact ⟨rfl, rfl⟩
  below := fun g hg hreal => by
    rcases List.mem_cons.1 hg with rfl | hg
    · have hw := h.sound.window i
      have hnext := hw.toNat_next
      have hused := hw.toNat_used_advance hroom
      have hrange := hstart hreal
      refine ⟨?_, ?_, ?_⟩
      · rw [hrange]
        exact hw.next_pages
      · rw [hrange, hnext, window_advance_self]
        exact Nat.le_add_right _ _
      · rw [hrange, hnext, window_advance_self, hused]
        show _ + roundUp r.length.toNat ≤ (s.windows.window i).base.raw.toNat + _
        omega
    · exact below_advance h.sound hroom (h.below g hg hreal)
  apart := by
    refine List.pairwise_cons.2 ⟨fun g hg hreal hreal' => ?_, h.apart⟩
    exact disjoint_next hv h (h.below g hg hreal') (hstart hreal) (hlength.trans hroom)

/-! ## One request -/

theorem moves_advance (hw : w.Sound) (hroom : roundUp size.toNat ≤ (w.window i).left) (j : Side) :
    (w.window j).Moves ((w.advance size i).window j) (if j = i then size.toNat else 0) := by
  by_cases hij : i = j
  · subst hij
    rw [window_advance_self, if_pos rfl]
    exact ⟨rfl, rfl, (hw.window i).toNat_used_advance hroom⟩
  · rw [window_advance_of_ne w size hij, if_neg (Ne.symm hij)]
    exact ⟨rfl, rfl, rfl⟩

theorem kept_allocate (hv : v.Apart) (h : s.Kept v) (i : Side) (size : UInt64) : (s.step (.allocate i size)).Kept v := by
  obtain ⟨r, t, log, ht, hends⟩ := (allocate_ends h.sound i size).trace
  simp only [step, ht]
  cases hr : (s.windows.window i).refusal size with
  | some f =>
    simp only [hr] at hends
    obtain ⟨rfl, rfl⟩ := hends
    exact h
  | none =>
    simp only [hr] at hends
    obtain ⟨rfl, rfl⟩ := hends
    obtain ⟨-, -, hroom⟩ := Window.refusal_eq_none.1 hr
    exact h.advance hv i hroom le_rfl fun _ => rfl

/-- A load is an allocation of data and one of code, each of nothing or of a block. -/
theorem kept_blocks (hv : v.Apart) (h : s.Kept v) {text data : UInt64} {rt rd : AddressRange}
    (hroomText : roundUp text.toNat ≤ s.windows.text.left) (hroomData : roundUp data.toNat ≤ s.windows.data.left)
    (htext : roundUp rt.length.toNat ≤ roundUp text.toNat) (hdata : roundUp rd.length.toNat ≤ roundUp data.toNat)
    (hstartText : rt.length ≠ 0 → rt.start = s.windows.text.next)
    (hstartData : rd.length ≠ 0 → rd.start = s.windows.data.next) :
    Kept v ⟨⟨s.windows.text.advance text, s.windows.data.advance data⟩, ⟨.text, rt⟩ :: ⟨.data, rd⟩ :: s.granted⟩ :=
  (h.advance hv .data hroomData hdata hstartData).advance hv .text hroomText htext hstartText

theorem length_grant (w : Window) (size : UInt64) : (Elf.grant w size).length = size := by
  unfold Elf.grant
  split
  · rename_i h
    exact h.symm
  · rfl

theorem start_grant (w : Window) (size : UInt64) (h : (Elf.grant w size).length ≠ 0) :
    (Elf.grant w size).start = w.next := by
  rw [length_grant] at h
  rw [Elf.grant, if_neg h]

theorem outcome_eq_ok {l : Elf.Survey} {m : LoadedModule} (h : l.outcome w = .ok m) :
    m.text = Elf.grant w.text l.layout.text ∧ m.data = Elf.grant w.data l.layout.data := by
  unfold Elf.Survey.outcome at h
  cases he : Elf.entryPoint l.object (Elf.grant w.text l.layout.text) l.init with
  | error e =>
    rw [he] at h
    cases h
  | ok entry =>
    rw [he] at h
    cases h
    exact ⟨rfl, rfl⟩

/-- A cursor has passed what it was moved past. -/
theorem length_passed {w : Window} (hw : w.Sound) (hroom : roundUp size.toNat ≤ w.left) :
    roundUp (passed w (w.advance size)).length.toNat = roundUp size.toNat := by
  have hused := hw.toNat_used_advance hroom
  have hle : w.used ≤ (w.advance size).used := by
    rw [UInt64.le_iff_toNat_le]
    omega
  rw [passed, UInt64.toNat_sub_of_le _ _ hle, hused, Nat.add_sub_cancel_left, Align.roundUp_roundUp]

theorem kept_load (hv : v.Apart) (h : s.Kept v) (image : Image) (exports : ExportTable) :
    (s.step (.load image exports)).Kept v := by
  obtain ⟨r, t, log, ht, hends⟩ := (Elf.load_ends h.sound image exports).trace
  simp only [step, ht]
  rcases hends with ⟨l, -, -, hfits, rfl, rfl⟩ | ⟨-, ⟨e, rfl⟩, rfl⟩
  · cases hout : l.outcome s.windows with
    | error e =>
      have htext := length_passed h.sound.text hfits.text
      have hdata := length_passed h.sound.data hfits.data
      exact kept_blocks hv h hfits.text hfits.data htext.le hdata.le (fun _ => rfl) fun _ => rfl
    | ok m =>
      obtain ⟨htext, hdata⟩ := outcome_eq_ok hout
      simp only [htext, hdata]
      refine kept_blocks hv h hfits.text hfits.data ?_ ?_ (start_grant _ _) (start_grant _ _)
      · rw [length_grant]
      · rw [length_grant]
  · have hzero : ∀ w : Window, roundUp (passed w w).length.toNat = 0 := by simp [passed, Align.roundUp_zero]
    have hnone : Kept v ⟨⟨s.windows.text.advance 0, s.windows.data.advance 0⟩,
        ⟨.text, passed s.windows.text s.windows.text⟩ :: ⟨.data, passed s.windows.data s.windows.data⟩ :: s.granted⟩ :=
      kept_blocks hv h (Nat.zero_le _) (Nat.zero_le _) (hzero _).le (hzero _).le (fun _ => rfl) fun _ => rfl
    rw [Window.advance_zero, Window.advance_zero] at hnone
    exact hnone

/-- Whatever is asked, what was handed out stays apart. -/
theorem kept_step (hv : v.Apart) (h : s.Kept v) (q : Request) : (s.step q).Kept v := by
  cases q with
  | allocate i size => exact kept_allocate hv h i size
  | load image exports => exact kept_load hv h image exports

theorem kept_run (hv : v.Apart) (h : s.Kept v) (qs : List Request) : (s.run qs).Kept v := by
  unfold run
  induction qs generalizing s with
  | nil => exact h
  | cons q qs ih => exact ih (kept_step hv h q)

/-! ## Answers -/

theorem Kept.separate (h : s.Kept v) : s.Separate v where
  window := h.window
  inside := fun g hg hreal => by
    have hle := (h.sound.window g.side).used_le
    obtain ⟨haligned, hbase, hcursor⟩ := h.below g hg hreal
    rw [← (h.window g.side).1, ← (h.window g.side).2]
    exact ⟨haligned, hbase, by omega⟩
  apart := h.apart
  counts := fun i => (h.sound.window i).counts
  stops := fun g hg => by
    refine AddressRange.stop_of_lt ?_
    by_cases hreal : g.IsReal
    · have hw := h.sound.window g.side
      have hle := hw.used_le
      have hends := hw.ends
      have hround := Align.le_roundUp g.range.length.toNat
      have hcursor := (h.below g hg hreal).le_cursor
      omega
    · have hzero : g.range.length = 0 := not_not.1 hreal
      have hlt := g.range.start.raw.toNat_lt
      rw [hzero, UInt64.toNat_zero]
      omega

theorem answers_allocate (hw : s.windows.Sound) (i : Side) (size : UInt64) : s.Answers (.allocate i size) := by
  have hends := allocate_ends hw i size
  unfold Action.Ends at hends
  unfold Answers
  dsimp only
  cases hr : (s.windows.window i).refusal size with
  | some f =>
    simp only [hr] at hends
    exact hends
  | none =>
    simp only [hr] at hends
    obtain ⟨-, -, hroom⟩ := Window.refusal_eq_none.1 hr
    obtain ⟨hresult, hstate⟩ := hends
    refine ⟨_, hresult, (hw.window i).toNat_next, fun j => ?_⟩
    rw [hstate]
    exact moves_advance hw hroom j

/-- A block that a load has taken. -/
theorem gives_grant (hw : w.Sound) {w' : Windows} (i : Side) (hroom : roundUp size.toNat ≤ (w.window i).left)
    (h : w'.window i = (w.window i).advance size) : w.Gives w' i (Elf.grant (w.window i) size) := by
  have hwindow := hw.window i
  refine ⟨?_, fun hreal => ?_⟩
  · rw [length_grant, h]
    exact ⟨rfl, rfl, hwindow.toNat_used_advance hroom⟩
  · rw [start_grant _ _ hreal, hwindow.toNat_next]

theorem answers_load (hw : s.windows.Sound) (image : Image) (exports : ExportTable) : s.Answers (.load image exports) := by
  refine ⟨fun m hm => ?_, fun f hf => ?_, fun hsize => (Elf.settles_load hw hsize exports).ne_halt⟩
  · rcases Elf.load_ends hw image exports with ⟨l, -, -, hfits, hr, ht⟩ | ⟨-, ⟨e, hr⟩, -⟩
    · obtain ⟨htext, hdata⟩ := outcome_eq_ok (hr.symm.trans hm)
      rw [ht, htext, hdata]
      exact ⟨gives_grant hw .text hfits.text rfl, gives_grant hw .data hfits.data rfl⟩
    · cases hm.symm.trans hr
  · rcases Elf.load_ends hw image exports with ⟨l, hl, -, hfits, -, ht⟩ | ⟨-, -, ht⟩
    · rw [ht]
      exact .inr ⟨l, hl, ⟨rfl, rfl, hw.text.toNat_used_advance hfits.text⟩,
        ⟨rfl, rfl, hw.data.toNat_used_advance hfits.data⟩⟩
    · exact .inl ht

/-! ## Runs -/

/-- **What the windows hand out** is never handed out again, in every run of allocations and loads: it lies in its window
and page by page apart from all that was handed out before, every cursor moves by just the pages it gives, and no sum of
a base and a length overflows. -/
theorem ranges_run (hv : v.Accepted) (qs : List Request) (q : Request) :
    ((start v).run qs).Separate v ∧ ((start v).run qs).Answers q := by
  obtain ⟨hsound, hapart⟩ := hv.sound
  have hkept := kept_run hapart (kept_start hsound) qs
  refine ⟨hkept.separate, ?_⟩
  cases q with
  | allocate i size => exact answers_allocate hkept.sound i size
  | load image exports => exact answers_load hkept.sound image exports

/-- Code and data are allocated, a load fails and has taken both blocks, and a load of nothing is refused. -/
theorem ranges_kernel : ((start .kernel).run [.allocate .text 100, .load (Elf.objectWithInit (2 ^ 64 - 1)) ⟨[]⟩,
      .allocate .data 5000, .load ⟨"empty", #[]⟩ ⟨[]⟩]).Separate .kernel ∧
    ((start .kernel).run [.allocate .text 100, .load (Elf.objectWithInit (2 ^ 64 - 1)) ⟨[]⟩, .allocate .data 5000,
      .load ⟨"empty", #[]⟩ ⟨[]⟩]).Answers (.load (Elf.objectWithInit 0) ⟨[]⟩) :=
  ranges_run (.inl rfl) _ _

end Session

end Windows

end Keel
