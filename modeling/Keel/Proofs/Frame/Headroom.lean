import Keel.Proofs.Frame.Placement
import Keel.Proofs.Frame.Recount

/-!
# Headroom

Counts are added, subtracted, multiplied and divided with a check, bits are looked up with a check, and where a check
fails the machine halts. With the pool this never happens:
- over any map at all, the words of a bitmap are counted, a bitmap is placed and a pool is opened, or there is a fault
  (`settles_wordsFor`, `settles_place`, `settles_create`): the frames of a region have numbers below `2 ^ 52`
  (`Extent.stop_lt`);
- the numbers of a sound pool leave room for the arithmetic done with them, its reports are all there, and it answers
  every question (`Pool.InRange`, `Sound.inRange`);
- a request to a sound pool ends with an answer or a fault, so long as the pool can count its refusals
  (`Sound.settles`). It can where fewer than `2 ^ 64` are refused (`Sound.unhalted`).

Together: **`unhalting`**.
-/

namespace Keel

theorem Align.frameOf_lt (w : UInt64) : Align.frameOf w < 2 ^ 52 := by
  have := w.toNat_lt
  rw [Align.frameOf_eq]
  omega

namespace Frame

open Checked (Settles settles_ok settles_fault)

variable {rs : List Region} {words pages : Nat}

/-! ## Maps -/

/-- The last frame of an extent has a number whose address is a word. -/
theorem Extent.stop_lt {r : Region} {e : Extent} (h : Extent.ofRegion? r = some e) : e.stop < 2 ^ 52 := by
  unfold Extent.ofRegion? at h
  cases hk : r.kind with
  | usable =>
    simp only [hk, Option.bind_eq_bind, Option.bind_eq_some_iff, Option.pure_def, Option.some.injEq] at h
    obtain ⟨stop, -, lo, -, rfl⟩ := h
    exact Align.frameOf_lt _
  | reserved | kernel | bad =>
    simp only [hk, Option.bind_eq_bind, Option.bind_eq_some_iff, Option.pure_def, Option.some.injEq] at h
    obtain ⟨stop, -, hi, -, rfl⟩ := h
    exact Align.frameOf_lt _

/-- The words of a bitmap are counted, or there is a fault. -/
theorem settles_wordsFor (rs : List Region) : Settles (fun _ => True) (wordsFor rs) := by
  cases hs : span rs with
  | ok a =>
    rw [wordsFor_of_span hs]
    exact settles_ok _
  | error e =>
    have hsettles := settles_span rs
    rw [hs] at hsettles
    rw [wordsFor, hs, Checked.error_bind]
    exact hsettles.error

theorem words_lt (h : wordsFor rs = .ok words) : words < 2 ^ 47 := by
  cases hs : span rs with
  | error e =>
    rw [wordsFor, hs, Checked.error_bind] at h
    cases h
  | ok a =>
    obtain ⟨lo, hi⟩ := a
    have hlt := (span_ok hs).2.1
    obtain rfl := Except.ok.inj ((wordsFor_of_span hs).symm.trans h)
    unfold Bitmap.wordsFor
    omega

theorem pagesFor_pos (bytes : Nat) : 0 < pagesFor bytes := Nat.lt_of_lt_of_le Nat.one_pos (Nat.le_max_right _ _)

/-- The search for a place ends with an answer or a fault, and the address of what it finds is a word. -/
theorem settles_placeIn (taken : List FrameRange) (hp : 0 < pages) (rs : List Region) :
    Settles (fun _ => True) (placeIn taken pages rs) ∧ ∀ f, placeIn taken pages rs = .ok (some f) → f < 2 ^ 52 := by
  induction rs with
  | nil => exact ⟨settles_ok none, fun f hf => by cases hf⟩
  | cons r rs ih =>
    rw [placeIn]
    cases he : Extent.ofRegion? r with
    | none => exact ⟨settles_fault.2 trivial, fun f hf => by cases hf⟩
    | some e =>
      have hstop := Extent.stop_lt he
      rw [Checked.orFault_some, Checked.ok_bind]
      split
      · exact ih
      · obtain ⟨o, hfit⟩ := fit_answers taken hp (Nat.lt_trans hstop (by omega)) (max e.first 1)
        rw [hfit, Checked.ok_bind]
        cases o with
        | none => exact ih
        | some g =>
          refine ⟨settles_ok _, fun f hf => ?_⟩
          obtain rfl : g = f := Option.some.inj (Except.ok.inj hf)
          have := (fit_ok hp hfit).2.1
          omega

/-- A bitmap of as many words as some map needs is placed in any map, or there is a fault. -/
theorem settles_place {σ : Type} (hw : words < 2 ^ 47) (rs : List Region) (ms : List BootModule) (s : σ) :
    Settles (fun _ => True) (place rs words ms s).result := by
  have hends : (place rs words ms).Ends s fun r _ => Settles (fun _ => True) r := by
    have hbytes : Count.mul (ε := Fault) words 8 = .ok (words * 8) := Count.mul_eq_ok.2 ⟨by omega, rfl⟩
    obtain ⟨hsettles, hlt⟩ :=
      settles_placeIn (ms.filterMap BootModule.frames?) (pagesFor_pos (words * 8)) (Region.nonEmpty rs)
    unfold place
    rw [Action.ends_bind, hbytes, Action.ends_lift, Action.goes_ok]
    refine Action.Ends.lift_bind (fun o ho => ?_) fun e he => ?_
    · cases o with
      | none => exact settles_fault.2 trivial
      | some f =>
        have hf := hlt f ho
        have hstart : Count.mul (ε := Fault) f Layout.pageSize = .ok (f * Layout.pageSize) :=
          Count.mul_eq_ok.2 ⟨by simp only [Layout.pageSize]; omega, rfl⟩
        dsimp only
        rw [Action.ends_bind, hstart, Action.ends_lift, Action.goes_ok, Action.ends_pure]
        exact settles_ok _
    · rw [he] at hsettles
      exact hsettles.error
  exact hends

/-- A pool is opened, or there is a fault. -/
theorem settles_create (rs : List Region) (b : Bitmap) : Settles (fun _ => True) (Pool.create rs b).result := by
  rcases Pool.create_ends rs b with ⟨-, l, hr, -⟩ | ⟨-, -, e, hr⟩
  · rw [hr]
    exact settles_ok l
  · rw [hr]
    exact settles_fault.2 trivial

/-! ## Pools -/

namespace Pool

/-- The numbers of a pool leave room for what is done with them, and what it is asked it answers. -/
structure InRange (p : Pool) : Prop where
  /-- The addresses of all frames are words, and so are the bytes of the frames counted. -/
  span : (p.base + p.frames) * Layout.pageSize < 2 ^ 64
  counts : p.usedFrames + p.freeFrames = p.totalFrames
  total : p.totalFrames ≤ p.frames
  failures : p.failures < 2 ^ 64
  /-- There is a place in the table for each region. -/
  table : p.extents.length ≤ Layout.maxRegions
  /-- Each frame has a bit. -/
  words : ∀ i < p.frames, i / 64 < p.bitmap.words.size
  /-- A search begins and ends inside the bitmap. -/
  hint : p.hint ≤ p.frames
  found : ∀ i, p.bitmap.firstClear? (p.hint / 64) (Bitmap.wordsFor p.frames) = some i →
    i < 64 * Bitmap.wordsFor p.frames ∧ 64 * Bitmap.wordsFor p.frames < 2 ^ 53
  isAllocated : ∀ pa, Settles (· = .badArgs) (p.isAllocated pa)
  summaries : ∃ ss, p.summaries = .ok ss
  totalBytes : p.stats.totalBytes (ε := Fault) = .ok (p.totalFrames * Layout.pageSize)
  usedBytes : p.stats.usedBytes (ε := Fault) = .ok (p.usedFrames * Layout.pageSize)
  freeBytes : p.stats.freeBytes (ε := Fault) = .ok (p.freeFrames * Layout.pageSize)
  percent : ∃ n ≤ 100, p.stats.percent (ε := Fault) = .ok n

variable {p : Pool}

/-- Part of a whole, in percent. -/
theorem percent_ok {s : PoolStats} (hle : s.used ≤ s.total) (hlt : s.total < 2 ^ 52) :
    ∃ n ≤ 100, s.percent (ε := Fault) = .ok n := by
  unfold PoolStats.percent
  split
  · exact ⟨0, by omega, rfl⟩
  · rename_i h0
    have hmul : Count.mul (ε := Fault) s.used 100 = .ok (s.used * 100) := Count.mul_eq_ok.2 ⟨by omega, rfl⟩
    refine ⟨s.used * 100 / s.total, ?_, ?_⟩
    · exact Nat.div_le_of_le_mul (Nat.mul_le_mul_right 100 hle)
    · rw [hmul, Checked.ok_bind, Count.div, if_neg h0]

theorem Sound.settles_isAllocated (h : p.Sound rs) (pa : PhysAddr) : Settles (· = .badArgs) (p.isAllocated pa) := by
  unfold Pool.isAllocated
  cases hi : p.index? (Align.frameOf pa.raw) with
  | none => exact settles_fault.2 rfl
  | some i =>
    obtain ⟨hlt, -⟩ := Ledger.index?_eq_some.1 hi
    rw [Checked.orFault_some, Checked.ok_bind, Bitmap.test_of_lt (h.bit_exists hlt)]
    exact settles_ok _

/-- **The numbers of a sound pool** leave room. -/
theorem Sound.inRange (h : p.Sound rs) (hfew : (Region.nonEmpty rs).length ≤ 64) (hfail : p.failures < 2 ^ 64) :
    p.InRange := by
  have hlimit := h.charts.limit
  have htotal := h.total
  have hlt := h.total_lt
  have hcovered : p.totalFrames ≤ p.frames := h.covered.trans_le (p.toLedger.card_coveredBy_le _)
  exact {
    span := by
      simp only [Layout.pageSize]
      omega
    counts := htotal
    total := hcovered
    failures := hfail
    table := by
      rw [← List.length_map (f := Extent.region), h.charts.regions]
      exact hfew
    words := fun i hi => h.bit_exists hi
    hint := h.hint_le
    found := fun i hi => by
      have := (Bitmap.firstClear?_eq_some hi).2.1
      have hwords : 64 * Bitmap.wordsFor p.frames < 2 ^ 53 := by
        unfold Bitmap.wordsFor
        omega
      exact ⟨by omega, hwords⟩
    isAllocated := h.settles_isAllocated
    summaries := ⟨_, h.summaries⟩
    totalBytes := mul_pageSize hlt
    usedBytes := mul_pageSize (show p.usedFrames < 2 ^ 52 by omega)
    freeBytes := mul_pageSize (show p.freeFrames < 2 ^ 52 by omega)
    percent := percent_ok (show p.usedFrames ≤ p.totalFrames by omega) hlt }

end Pool

/-! ## Requests -/

/-- A request ends with an answer or a fault. -/
def Request.Settled (p : Pool) : Request → Prop
  | .alloc => Settles (· = .tooMany) (Pool.alloc p).result
  | .release pa => Settles (fun f => f = .badArgs ∨ f = .dangling) (Pool.release pa p).result
  | .reserve base length => Settles (fun f => f = .badArgs ∨ f = .overflow) (Pool.reserve base length p).result

/-- Whether a request asks for a frame and gets none. -/
def Request.refused (p : Pool) : Request → Bool
  | .alloc => !(Pool.alloc p).result.isOk
  | _ => false

namespace Pool

variable {p : Pool}

/-- How many requests of a run ask for a frame and get none. -/
def refusals : Pool → List Request → Nat
  | _, [] => 0
  | p, q :: qs => (q.refused p).toNat + refusals (q.on p) qs

/-- At every point of a run the numbers are in range, and no request halts. -/
def Unhalted : Pool → List Request → Prop
  | p, [] => p.InRange
  | p, q :: qs => p.InRange ∧ q.Settled p ∧ Unhalted (q.on p) qs

/-- A request ends with an answer or a fault where one more refusal can be counted, and then it is. -/
theorem Sound.settles (h : p.Sound rs) {q : Request} (hroom : p.failures + (q.refused p).toNat < 2 ^ 64) :
    q.Settled p ∧ (q.on p).failures = p.failures + (q.refused p).toNat := by
  cases q with
  | alloc =>
    rw [Request.refused] at hroom ⊢
    rcases alloc_ends h with ⟨i, -, hr, -, -, hfail⟩ | ⟨-, -, hr, hq⟩ | ⟨-, hfull, hr, -⟩
    · rw [hr]
      exact ⟨by rw [Request.Settled, hr]; exact settles_ok _, hfail⟩
    · rw [hr]
      exact ⟨by rw [Request.Settled, hr]; exact settles_fault.2 rfl, congrArg (·.failures) hq⟩
    · rw [hr] at hroom
      exact absurd hroom (Nat.not_lt.2 hfull)
  | release pa =>
    rcases release_ends h pa with ⟨hr, -, -, -, -, -, hfail⟩ | ⟨hq, -, hr | hr⟩
    · exact ⟨by rw [Request.Settled, hr]; exact settles_ok _, hfail⟩
    · exact ⟨by rw [Request.Settled, hr]; exact settles_fault.2 (.inl rfl), congrArg (·.failures) hq⟩
    · exact ⟨by rw [Request.Settled, hr]; exact settles_fault.2 (.inr rfl), congrArg (·.failures) hq⟩
  | reserve base length =>
    rcases reserve_ends h base length with ⟨hr, -, -, -, -, -, hfail⟩ | ⟨hq, -, hr | hr⟩
    · exact ⟨by rw [Request.Settled, hr]; exact settles_ok _, hfail⟩
    · exact ⟨by rw [Request.Settled, hr]; exact settles_fault.2 (.inl rfl), congrArg (·.failures) hq⟩
    · exact ⟨by rw [Request.Settled, hr]; exact settles_fault.2 (.inr rfl), congrArg (·.failures) hq⟩

/-- A run from a sound pool does not halt. -/
theorem Sound.unhalted (h : p.Sound rs) (hfew : (Region.nonEmpty rs).length ≤ 64) {qs : List Request}
    (hroom : p.failures + p.refusals qs < 2 ^ 64) : p.Unhalted qs := by
  induction qs generalizing p with
  | nil => exact h.inRange hfew hroom
  | cons q qs ih =>
    rw [refusals] at hroom
    obtain ⟨hsettled, hfail⟩ := h.settles (q := q) (by omega)
    exact ⟨h.inRange hfew (by omega), hsettled, ih (h.on q).1 (by omega)⟩

end Pool

/-! ## From the map on -/

/-- With a map, boot modules and a bitmap, nothing halts from the count of words to the last request. -/
structure Unhalting (rs : List Region) (ms : List BootModule) (b : Bitmap) : Prop where
  words : Settles (fun _ => True) (wordsFor rs)
  /-- The number of words may be that of another map. -/
  place : ∀ (rs' : List Region) (words : Nat), wordsFor rs' = .ok words → ∀ (σ : Type) (s : σ),
    Settles (fun _ => True) (Frame.place rs words ms s).result
  create : Settles (fun _ => True) (Pool.create rs b).result
  /-- A pool that is opened serves every run in which fewer than `2 ^ 64` requests for a frame are refused. -/
  serve : ∀ l, (Pool.create rs b).result = .ok l → ∀ qs : List Request,
    (l.withBitmap (Pool.create rs b).state).refusals qs < 2 ^ 64 →
      (l.withBitmap (Pool.create rs b).state).Unhalted qs

/-- **The arithmetic of a pool never fails**, whatever the map, the boot modules and the requests. -/
theorem unhalting (rs : List Region) (ms : List BootModule) (b : Bitmap) : Unhalting rs ms b where
  words := settles_wordsFor rs
  place := fun _ _ hwords _ s => settles_place (words_lt hwords) rs ms s
  create := settles_create rs b
  serve := fun l hl qs hroom => by
    rcases Pool.create_ends rs b with ⟨hopens, l', hr, hfresh, -⟩ | ⟨-, -, e, hr⟩
    · obtain rfl : l' = l := Except.ok.inj (hr.symm.trans hl)
      refine hfresh.sound.unhalted hopens.few ?_
      rwa [hfresh.failures, Nat.zero_add]
    · cases hr.symm.trans hl

theorem unhalting_unevenMap : ∃ l, (Pool.create unevenMap ⟨#[0]⟩).result = .ok l ∧
    (l.withBitmap (Pool.create unevenMap ⟨#[0]⟩).state).Unhalted
      [.alloc, .release ⟨0xffffffffffffffff⟩, .reserve ⟨0xffffffffffffffff⟩ 1, .release ⟨0x1000⟩] :=
  ⟨_, rfl, (unhalting unevenMap [] ⟨#[0]⟩).serve _ rfl _ (by decide)⟩

end Frame

end Keel
