import Keel.Frame.Placement
import Keel.Ground
import Keel.Proofs.Within

/-!
# What the frame pool can fail with

Nothing that the frame pool does reports corruption or lacks a service, be it brought up or used: its faults are all
ordinary (`ordinary_create`, `ordinary_alloc`, `ordinary_release`, `ordinary_reserve`). Before it is brought up its services
are lacking, so of the memory services less can be said: starting the pool and starting the heap report no corruption
(`recoverable_startPool`, `recoverable_startHeap`).
-/

namespace Keel

variable {σ α : Type}

open Keel.Action (Ordinary Recoverable Within within_pure within_lift within_fail within_note within_get within_ofOption
  within_fail_bind within_refuse faults_set faults_modify)
open Keel.Checked (faults_ok faults_fault faults_halt faults_orFault faults_add faults_sub faults_mul)

/-! ## Frames -/

namespace Frame

theorem ordinary_spanFrom (rs : List Region) (acc : Option (Nat × Nat)) :
    Checked.Faults Fault.Ordinary (spanFrom acc rs) := by
  induction rs generalizing acc with
  | nil => exact faults_ok acc
  | cons r rs ih =>
    rw [spanFrom]
    split
    · exact faults_fault (by decide)
    · exact ih _

theorem ordinary_span (rs : List Region) : Checked.Faults Fault.Ordinary (span rs) :=
  (ordinary_spanFrom _ _).bind fun acc => faults_orFault (by decide) acc

theorem ordinary_wordsFor (rs : List Region) : Checked.Faults Fault.Ordinary (wordsFor rs) :=
  (ordinary_span rs).bind fun _ => (faults_sub _ _).bind fun _ => faults_ok _

/-! ### Placing the bitmap -/

theorem ordinary_fit (taken : List FrameRange) (pages stop first : Nat) :
    Checked.Faults Fault.Ordinary (fit taken pages stop first) := by
  fun_induction fit taken pages stop first with
  | case1 first _ e he =>
    have hadd := faults_add (F := Fault.Ordinary) first pages
    rw [he] at hadd
    exact hadd.error
  | case2 => exact faults_ok _
  | case3 first _ last hlast past hpast ih => exact ih
  | case4 => exact faults_ok _

theorem ordinary_placeIn (taken : List FrameRange) (pages : Nat) (rs : List Region) :
    Checked.Faults Fault.Ordinary (placeIn taken pages rs) := by
  induction rs with
  | nil => exact faults_ok none
  | cons r rs ih =>
    rw [placeIn]
    refine (faults_orFault (by decide) _).bind fun e => Checked.Faults.ite ih ?_
    refine (ordinary_fit _ _ _ _).bind fun found => ?_
    cases found with
    | some first => exact faults_ok _
    | none => exact ih

theorem ordinary_place (rs : List Region) (words : Nat) (ms : List BootModule) :
    Ordinary (place rs words ms : Action σ PhysAddr) := by
  refine (within_lift (faults_mul _ _)).bind fun bytes => ?_
  refine (within_lift (ordinary_placeIn _ _ _)).bind fun found => ?_
  cases found with
  | some first => exact (within_lift (faults_mul _ _)).bind fun _ => within_pure _
  | none => exact (within_note _).bind fun _ => within_fail (by decide)

/-! ### Bitmaps -/

section Bitmap

variable {ε : Type} {F : ε → Prop}

theorem faults_mark (b : Bitmap) (i : Nat) : Checked.Faults F (b.mark i) := by
  unfold Bitmap.mark
  split
  · exact faults_ok _
  · exact faults_halt _

theorem faults_unmark (b : Bitmap) (i : Nat) : Checked.Faults F (b.unmark i) := by
  unfold Bitmap.unmark
  split
  · exact faults_ok _
  · exact faults_halt _

theorem faults_markRun (b : Bitmap) (i n acc : Nat) : Checked.Faults F (b.markRun i n acc) := by
  induction n generalizing b i acc with
  | zero => exact faults_ok _
  | succ n ih =>
    have hmark := faults_mark (F := F) b i
    rw [Bitmap.markRun]
    split
    · rename_i e he
      rw [he] at hmark
      exact hmark.error
    · exact ih _ _ _

theorem faults_unmarkRun (b : Bitmap) (i n acc : Nat) : Checked.Faults F (b.unmarkRun i n acc) := by
  induction n generalizing b i acc with
  | zero => exact faults_ok _
  | succ n ih =>
    have hunmark := faults_unmark (F := F) b i
    rw [Bitmap.unmarkRun]
    split
    · rename_i e he
      rw [he] at hunmark
      exact hunmark.error
    · exact ih _ _ _

end Bitmap

theorem ordinary_onBitmap {f : Bitmap → Checked Fault (α × Bitmap)} (h : ∀ b, Checked.Faults Fault.Ordinary (f b)) :
    Ordinary (onBitmap f) :=
  within_get.bind fun b => (within_lift (h b)).bind fun _ => (faults_set _).bind fun _ => within_pure _

theorem ordinary_releaseExtents (l : Ledger) (es : List Extent) (acc : Nat) : Ordinary (releaseExtents l es acc) := by
  induction es generalizing acc with
  | nil => exact within_pure acc
  | cons e es ih =>
    refine (ordinary_onBitmap fun b => faults_unmarkRun b _ _ _).bind fun cleared => ?_
    exact (within_lift (faults_add _ _)).bind fun _ => ih _

theorem ordinary_takeUnusable (l : Ledger) (es : List Extent) (acc : Nat) : Ordinary (takeUnusable l es acc) := by
  induction es generalizing acc with
  | nil => exact within_pure acc
  | cons e es ih =>
    refine Within.ite (ih acc) ((ordinary_onBitmap fun b => faults_markRun b _ _ _).bind fun taken => ?_)
    exact (within_lift (faults_add _ _)).bind fun _ => ih _

/-! ### The pool -/

theorem ordinary_checkApart (a : Region) (stop : UInt64) (bs : List Region) :
    Ordinary (checkApart a stop bs : Action σ Unit) := by
  induction bs with
  | nil => exact within_pure ()
  | cons b bs ih =>
    refine (within_ofOption (by decide) _).bind fun bStop => Within.ite ?_ ih
    exact (within_note _).bind fun _ => within_fail (by decide)

theorem ordinary_checkAllApart (rs : List Region) : Ordinary (checkAllApart rs : Action σ Unit) := by
  induction rs with
  | nil => exact within_pure ()
  | cons a rs ih =>
    exact (within_ofOption (by decide) _).bind fun stop => (ordinary_checkApart a stop rs).bind fun _ => ih

namespace Pool

/-- Opening the books of a pool. -/
theorem ordinary_create (rs : List Region) : Ordinary (create rs) := by
  have htracking : ∀ l : Ledger, Checked.Faults Fault.Ordinary (PoolLine.tracking l) := fun l =>
    (faults_mul _ _).bind fun _ => faults_ok _
  have hclose : ∀ (total used : Nat) (l : Nat → Ledger), Ordinary (do
      let free ← Action.lift (Count.sub total used)
      Action.note (← Action.lift (PoolLine.tracking (l free)))
      return l free : Action Bitmap Ledger) := fun _ _ _ =>
    (within_lift (faults_sub _ _)).bind fun _ => (within_lift (htracking _)).bind fun _ => (within_note _).bind fun _ =>
      within_pure _
  unfold create
  dsimp only
  refine Within.ite (within_refuse (by decide) _ _) ((ordinary_checkAllApart _).bind fun _ => ?_)
  refine (within_lift (ordinary_span rs)).bind fun span => ?_
  refine (within_lift (faults_sub _ _)).bind fun frames => within_get.bind fun b => ?_
  refine Within.ite (within_refuse (by decide) _ _) ((faults_modify _).bind fun _ => ?_)
  refine (within_ofOption (by decide) _).bind fun extents => ?_
  refine (ordinary_releaseExtents _ _ _).bind fun total => (ordinary_takeUnusable _ _ _).bind fun used => ?_
  refine Within.ite ?_ ((within_pure _).bind fun used => hclose _ _ _)
  refine (ordinary_onBitmap fun b => faults_mark b 0).bind fun fresh => Within.ite ?_ ?_
  · exact (within_lift (faults_add _ _)).bind fun used => hclose _ _ _
  · exact (within_pure _).bind fun used => hclose _ _ _

theorem ordinary_onBits {f : Bitmap → Checked Fault (α × Bitmap)} (hf : ∀ b, Checked.Faults Fault.Ordinary (f b)) :
    Ordinary (onBits f) :=
  within_get.bind fun _ => (within_lift (hf _)).bind fun _ => (faults_set _).bind fun _ => within_pure _

theorem ordinary_alloc : Ordinary alloc := by
  refine within_get.bind fun p => ?_
  split
  · refine (within_lift (faults_add _ _)).bind fun _ => (faults_set _).bind fun _ => ?_
    exact (within_note _).bind fun _ => within_fail (by decide)
  · refine (ordinary_onBits fun b => faults_mark b _).bind fun _ => ?_
    refine (within_lift (faults_add _ _)).bind fun _ => ?_
    refine (faults_modify _).bind fun _ => (within_lift (faults_sub _ _)).bind fun _ => ?_
    refine (faults_modify _).bind fun _ => within_lift ?_
    exact (faults_add _ _).bind fun _ => (faults_mul _ _).bind fun _ => faults_ok _

theorem ordinary_release (pa : PhysAddr) : Ordinary (release pa) := by
  unfold release
  refine Within.ite (within_refuse (by decide) _ _) (within_get.bind fun p => ?_)
  dsimp only
  split
  · exact (within_note _).bind fun _ => within_fail (by decide)
  · refine (ordinary_onBits fun b => faults_unmark b _).bind fun _ => Within.ite (within_refuse (by decide) _ _) ?_
    refine (within_lift (faults_sub _ _)).bind fun _ => (faults_modify _).bind fun _ => ?_
    exact (within_lift (faults_add _ _)).bind fun _ => faults_modify _

/-- Taking a range out of use. -/
theorem ordinary_reserve (base : PhysAddr) (length : UInt64) : Ordinary (reserve base length) := by
  unfold reserve
  refine Within.ite (within_fail_bind (by decide) _) ((within_ofOption (by decide) _).bind fun stop => ?_)
  refine (within_ofOption (by decide) _).bind fun last => within_get.bind fun p => ?_
  refine (within_lift (faults_add _ _)).bind fun spanStop => Within.ite (within_fail_bind (by decide) _) ?_
  refine (ordinary_onBits fun b => faults_markRun b _ _ _).bind fun taken => ?_
  refine (within_lift (faults_add _ _)).bind fun used => (faults_modify _).bind fun _ => ?_
  refine (within_lift (faults_sub _ _)).bind fun free => (faults_modify _).bind fun _ => ?_
  exact (within_note _).bind fun _ => within_pure _

end Pool

end Frame

/-! ## Memory services -/

theorem recoverable_onPool {x : Action Frame.Pool α} (hx : Recoverable x) : Recoverable (Arena.onPool x) := fun s _ => by
  unfold Action.Ends Arena.onPool
  split
  · exact ⟨faults_fault rfl, trivial⟩
  · exact hx _ trivial

/-- Starting the pool reports no corruption. -/
theorem recoverable_startPool (rs : List Region) (home : Home) : Recoverable (Ground.startPool rs home) := by
  have hcreate : Recoverable (Ground.createPool rs home) := fun s _ => by
    have hledger := ((Frame.Pool.ordinary_create rs).recoverable (home.load s.memory) trivial).1
    unfold Action.Ends Ground.createPool
    dsimp only
    split
    · exact ⟨faults_ok _, trivial⟩
    · rename_i e he
      rw [he] at hledger
      exact ⟨hledger.error, trivial⟩
  refine within_get.bind fun g => Within.ite (within_refuse (by decide) _ _) ?_
  exact hcreate.zoom_faults.bind fun stats => (within_note _).bind fun _ => within_pure _

/-- Starting the heap reports no corruption. -/
theorem recoverable_startHeap (mapper : Mapper) : Recoverable (Ground.startHeap mapper) := by
  refine within_get.bind fun g => Within.ite (within_refuse (by decide) _ _) ?_
  exact Within.ite (within_refuse (by decide) _ _) ((faults_set _).bind fun _ => within_note _)

end Keel
