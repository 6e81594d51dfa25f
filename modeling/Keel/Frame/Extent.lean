import Keel.Action
import Keel.MemoryMap

/-!
# The frames of a memory map

A usable region shrinks inward to its whole frames; every other one widens outward to all frames it touches, so that a
frame touched by anything else never counts as free. `Extent.ofRegion?` does this rounding, `span` is the range of
frames all regions lie in, and `checkDisjoint` refuses maps whose regions share bytes.
-/

namespace Keel.Frame

/-- A region with the frames `[first, stop)` it covers. -/
structure Extent where
  region : Region
  first : Nat
  stop : Nat
  deriving DecidableEq

namespace Extent

variable {ε : Type}

/-- The frames of a region; fails if a bound does not fit a word. -/
def ofRegion? (r : Region) : Option Extent := do
  let stop ← r.end?
  match r.kind with
  | .usable =>
    let lo ← Align.pageCeil? r.base.raw
    return ⟨r, Align.frameOf lo, Align.frameOf (max (Align.pageFloor stop) lo)⟩
  | _ =>
    let hi ← Align.pageCeil? stop
    return ⟨r, Align.frameOf (Align.pageFloor r.base.raw), Align.frameOf hi⟩

/-- The number of frames. -/
def frames (e : Extent) : Checked ε Nat := Count.sub e.stop e.first

/-- Whether frames of the region may be handed out. -/
def isUsable (e : Extent) : Bool := e.region.kind == .usable

/-- Whether a frame is one of the region's. -/
def contains (e : Extent) (frame : Nat) : Bool := e.first ≤ frame && frame < e.stop

theorem contains_iff {e : Extent} {frame : Nat} : e.contains frame = true ↔ e.first ≤ frame ∧ frame < e.stop := by
  simp [contains]

end Extent

/-! ## All regions together -/

/-- The frames a region touches. -/
def touched? (r : Region) : Option (Nat × Nat) := do
  let stop ← r.end?
  let hi ← Align.pageCeil? stop
  return (Align.frameOf (Align.pageFloor r.base.raw), Align.frameOf hi)

/-- The smallest range of frames that holds `acc` and all frames touched by the regions. -/
def spanFrom (acc : Option (Nat × Nat)) : List Region → Checked Fault (Option (Nat × Nat))
  | [] => .ok acc
  | r :: rs =>
    match touched? r with
    | none => .error (.fault .overflow)
    | some (lo, hi) => spanFrom (some (acc.elim (lo, hi) fun a => (min a.1 lo, max a.2 hi))) rs

/-- The smallest range of frames that holds all frames touched by the regions that have bytes. -/
def span (rs : List Region) : Checked Fault (Nat × Nat) := do
  let acc ← spanFrom none (Region.nonEmpty rs)
  orFault .badArgs acc

/-- The line about two regions that share bytes. -/
def overlapLine (a b : Region) : Line :=
  let range (r : Region) := "[" ++ r.base.text ++ ", +" ++ Text.Hex.plain r.length.toNat ++ ")"
  ⟨.warn, "PMM: memory map entries overlap: " ++ range a ++ " and " ++ range b⟩

variable {σ : Type}

/-- Refuses a region of the list that shares bytes with `a`, which ends at `aStop`. -/
def checkApart (a : Region) (aStop : UInt64) : List Region → Action σ Unit
  | [] => pure ()
  | b :: bs => do
    let bStop ← Action.ofOption .overflow b.end?
    if a.base.raw < bStop && b.base.raw < aStop then
      Action.note (overlapLine a b)
      Action.fail .badArgs
    else checkApart a aStop bs

/-- Refuses regions that share bytes. -/
def checkAllApart : List Region → Action σ Unit
  | [] => pure ()
  | a :: rs => do
    let aStop ← Action.ofOption .overflow a.end?
    checkApart a aStop rs
    checkAllApart rs

/-- Refuses a map in which two regions share bytes; regions without bytes share none. -/
def checkDisjoint (rs : List Region) : Action σ Unit := checkAllApart (Region.nonEmpty rs)

end Keel.Frame
