import Keel.Frame.Bitmap
import Keel.Frame.Extent

/-!
# The frame pool

A pool hands out single frames. Its bitmap has one bit per frame of the map's span, set when the frame is not free:
handed out, outside every usable region, or frame zero (so that no frame handed out has the null address).
- `Pool.create`: the ledger of a fresh pool on a given bitmap, or a fault with the bitmap as it was;
- `Pool.alloc`: the lowest free frame; `Pool.release`: gives one back; `Pool.reserve`: takes a range of bytes out of use;
- `Pool.hint` is the index of a bit below which no frame is free, kept so that a search need not start at the front.
-/

namespace Keel.Frame

/-- The books of a pool, its bitmap apart. -/
structure Ledger where
  /-- The frame of bit zero. -/
  base : Nat
  /-- How many frames have a bit. -/
  frames : Nat
  extents : List Extent
  totalFrames : Nat
  usedFrames : Nat
  freeFrames : Nat
  /-- Requests that found no free frame. -/
  failures : Nat
  /-- Every frame with a smaller bit index is taken. -/
  hint : Nat

/-- A pool of frames. -/
structure Pool extends Ledger where
  bitmap : Bitmap

/-- The numbers a pool reports. -/
structure PoolStats where
  total : Nat
  used : Nat
  free : Nat
  failed : Nat
  regions : Nat
  deriving DecidableEq

namespace PoolStats

variable {ε : Type}

/-- All frames, in bytes. -/
def totalBytes (s : PoolStats) : Checked ε Nat := Count.mul s.total Layout.pageSize

/-- The taken frames, in bytes. -/
def usedBytes (s : PoolStats) : Checked ε Nat := Count.mul s.used Layout.pageSize

/-- The free frames, in bytes. -/
def freeBytes (s : PoolStats) : Checked ε Nat := Count.mul s.free Layout.pageSize

/-- The share of taken frames, in whole percent. -/
def percent (s : PoolStats) : Checked ε Nat :=
  if s.total = 0 then .ok 0 else do
    let n ← Count.mul s.used 100
    Count.div n s.total

end PoolStats

/-- What a pool reports of one region. -/
structure RegionSummary where
  region : Region
  frames : Nat
  allocated : Nat

namespace Ledger

/-- The pool with these books and this bitmap. -/
def withBitmap (l : Ledger) (b : Bitmap) : Pool := ⟨l, b⟩

/-- The bit of a frame, if it has one. -/
def index? (l : Ledger) (frame : Nat) : Option Nat :=
  if l.base ≤ frame && frame - l.base < l.frames then some (frame - l.base) else none

/-- The bits of the frames `[first, stop)` as a first index and a count. -/
def indexRun (l : Ledger) (first stop : Nat) : Nat × Nat :=
  (max first l.base - l.base, min stop (l.base + l.frames) - max first l.base)

/-- The region that a frame belongs to: the first that contains it. -/
def owner? (l : Ledger) (frame : Nat) : Option Extent := l.extents.find? fun e => e.contains frame

/-- The numbers to report. -/
def stats (l : Ledger) : PoolStats := ⟨l.totalFrames, l.usedFrames, l.freeFrames, l.failures, l.extents.length⟩

end Ledger

/-! ## Lines -/

namespace PoolLine

/-- More regions than the table holds. -/
def tooManyRegions (n : Nat) : Line :=
  ⟨.warn, s!"PMM: {n} memory regions exceed the limit of {Layout.maxRegions}"⟩

/-- A bitmap with too few words. -/
def shortBitmap (words frames : Nat) : Line :=
  ⟨.warn, s!"PMM: bitmap of {words} words cannot track {frames} frames"⟩

/-- A fresh pool; the line tells its free bytes, which a word must hold. -/
def tracking {ε : Type} (l : Ledger) : Checked ε Line := do
  let first : PhysAddr := ⟨Align.frameStart l.base⟩
  let bytes ← l.stats.freeBytes
  return ⟨.info, s!"PMM: tracking {l.frames} frames from {first.text} in {l.extents.length} regions, " ++
    s!"{l.freeFrames} free ({bytes / 1024} KiB)"⟩

/-- No free frame. -/
def exhausted (l : Ledger) : Line :=
  ⟨.warn, s!"PMM: out of physical memory ({l.usedFrames} of {l.totalFrames} pages in use)"⟩

/-- An address that no frame can have. -/
def invalidAddress (pa : PhysAddr) : Line := ⟨.warn, s!"PMM: refusing to free invalid address {pa.text}"⟩

/-- An address of a frame that was never free. -/
def notUsable (pa : PhysAddr) : Line := ⟨.warn, s!"PMM: {pa.text} is not inside a usable region"⟩

/-- A frame that is free already. -/
def doubleFree (pa : PhysAddr) : Line := ⟨.warn, s!"PMM: double free of {pa.text}"⟩

/-- Frames taken out of use. -/
def reserved (n : Nat) (base : PhysAddr) (length : UInt64) : Line :=
  ⟨.debug, s!"PMM: reserved {n} frames at {base.text} (+{Text.Hex.plain length.toNat})"⟩

/-- One region of a report. -/
def summary (s : RegionSummary) : Line :=
  ⟨.info, s!"PMM: {s.region.base.text} +{Text.Hex.plain s.region.length.toNat} " ++
    s!"{Text.padRight 8 s.region.kind.word} {s.frames} frames, {s.allocated} allocated"⟩

/-- The totals of a report. -/
def totals (s : PoolStats) (percent : Nat) : Line :=
  ⟨.info, s!"PMM: {s.total} total, {s.used} used, {s.free} free pages ({percent}% used, " ++
    s!"{s.failed} failed allocations)"⟩

end PoolLine

/-! ## A fresh pool -/

variable {σ : Type}

/-- The number of bitmap words that the regions need. -/
def wordsFor (rs : List Region) : Checked Fault Nat := do
  let (first, stop) ← span rs
  let frames ← Count.sub stop first
  return Bitmap.wordsFor frames

/-- Runs a change of the bitmap that may halt. -/
def onBitmap {α : Type} (f : Bitmap → Checked Fault (α × Bitmap)) : Action Bitmap α := do
  let (a, b) ← Action.lift (f (← get))
  set b
  return a

/-- Clears the bits of the frames of each extent; the answer is `acc` and the number of bits that were set. -/
def releaseExtents (l : Ledger) : List Extent → Nat → Action Bitmap Nat
  | [], acc => pure acc
  | e :: es, acc => do
    let (i, n) := l.indexRun e.first e.stop
    let cleared ← onBitmap fun b => b.unmarkRun i n 0
    releaseExtents l es (← Action.lift (Count.add acc cleared))

/-- Sets the bits of the frames of each extent that is not usable; the answer is `acc` and the number of bits that were
clear. -/
def takeUnusable (l : Ledger) : List Extent → Nat → Action Bitmap Nat
  | [], acc => pure acc
  | e :: es, acc =>
    if e.isUsable then takeUnusable l es acc
    else do
      let (i, n) := l.indexRun e.first e.stop
      let taken ← onBitmap fun b => b.markRun i n 0
      takeUnusable l es (← Action.lift (Count.add acc taken))

namespace Pool

/-- Opens the books of a pool over the regions: the frames of all regions are counted, those of usable regions are free,
frame zero apart. The bitmap is written only after all checks have passed. -/
def create (rs : List Region) : Action Bitmap Ledger := do
  let live := Region.nonEmpty rs
  if Layout.maxRegions < live.length then
    Action.note (PoolLine.tooManyRegions live.length)
    Action.fail .limits
  checkDisjoint rs
  let (first, stop) ← Action.lift (span rs)
  let frames ← Action.lift (Count.sub stop first)
  let words := Bitmap.wordsFor frames
  let size := (← get).words.size
  if size < words then
    Action.note (PoolLine.shortBitmap size frames)
    Action.fail .overflow
  modify fun b => b.fillWords words
  let extents ← Action.ofOption .overflow (live.mapM Extent.ofRegion?)
  let l : Ledger := ⟨first, frames, extents, 0, 0, 0, 0, 0⟩
  let total ← releaseExtents l extents 0
  let used ← takeUnusable l extents 0
  let used ← if first = 0 then do
      let fresh ← onBitmap fun b => b.mark 0
      if fresh then Action.lift (Count.add used 1) else pure used
    else pure used
  let free ← Action.lift (Count.sub total used)
  let l := { l with totalFrames := total, usedFrames := used, freeFrames := free }
  Action.note (← Action.lift (PoolLine.tracking l))
  return l

/-! ## Single frames -/

/-- Runs a change of the pool's bitmap that may halt. -/
def onBits {α : Type} (f : Bitmap → Checked Fault (α × Bitmap)) : Action Pool α := do
  let p ← get
  let (a, b) ← Action.lift (f p.bitmap)
  set { p with bitmap := b }
  return a

/-- The index of the lowest clear bit, found from the hint on. -/
def lowestFree? (p : Pool) : Option Nat :=
  (p.bitmap.firstClear? (p.hint / 64) (Bitmap.wordsFor p.frames)).filter fun i => i < p.frames

/-- The address of the frame of bit `i`. -/
def frameAddress (p : Pool) (i : Nat) : Checked Fault PhysAddr := do
  let frame ← Count.add p.base i
  let start ← Count.mul frame Layout.pageSize
  return ⟨UInt64.ofNat start⟩

/-- Hands out the lowest free frame. -/
def alloc : Action Pool PhysAddr := do
  let p ← get
  match p.lowestFree? with
  | none => do
    set { p with failures := ← Action.lift (Count.add p.failures 1) }
    Action.note (PoolLine.exhausted p.toLedger)
    Action.fail .tooMany
  | some i => do
    let _ ← onBits fun b => b.mark i
    let used ← Action.lift (Count.add p.usedFrames 1)
    modify fun p => { p with usedFrames := used }
    let free ← Action.lift (Count.sub p.freeFrames 1)
    modify fun p => { p with freeFrames := free, hint := i + 1 }
    Action.lift (p.frameAddress i)

/-- Takes back the frame at `pa`. -/
def release (pa : PhysAddr) : Action Pool Unit := do
  if pa.isNull || !Align.isMultiple pa.raw Align.page then
    Action.note (PoolLine.invalidAddress pa)
    Action.fail .badArgs
  let p ← get
  let frame := Align.frameOf pa.raw
  let usable := (p.owner? frame).any Extent.isUsable
  match (p.index? frame).filter fun _ => usable with
  | none => do
    Action.note (PoolLine.notUsable pa)
    Action.fail .badArgs
  | some i => do
    let taken ← onBits fun b => b.unmark i
    if !taken then
      Action.note (PoolLine.doubleFree pa)
      Action.fail .dangling
    let used ← Action.lift (Count.sub p.usedFrames 1)
    modify fun p => { p with usedFrames := used }
    let free ← Action.lift (Count.add p.freeFrames 1)
    modify fun p => { p with freeFrames := free, hint := min p.hint i }

/-! ## Ranges of bytes -/

/-- Takes every free frame that meets `[base, base + length)` out of use and answers how many there were. -/
def reserve (base : PhysAddr) (length : UInt64) : Action Pool Nat := do
  if length = 0 then Action.fail .badArgs
  let stop ← Action.ofOption .overflow (base.add? length)
  let first := Align.frameOf (Align.pageFloor base.raw)
  let last := Align.frameOf (← Action.ofOption .overflow (Align.pageCeil? stop.raw))
  let p ← get
  let spanStop ← Action.lift (Count.add p.base p.frames)
  if last ≤ p.base || spanStop ≤ first then Action.fail .badArgs
  let (i, n) := p.indexRun first last
  let taken ← onBits fun b => b.markRun i n 0
  let used ← Action.lift (Count.add p.usedFrames taken)
  modify fun p => { p with usedFrames := used }
  let free ← Action.lift (Count.sub p.freeFrames taken)
  modify fun p => { p with freeFrames := free }
  Action.note (PoolLine.reserved taken base length)
  return taken

/-! ## Reports -/

/-- Whether the frame that holds `pa` is not free. -/
def isAllocated (p : Pool) (pa : PhysAddr) : Checked Fault Bool := do
  let i ← orFault .badArgs (p.index? (Align.frameOf pa.raw))
  p.bitmap.test i

/-- What there is to say about one region. -/
def summary (p : Pool) (e : Extent) : Checked Fault RegionSummary := do
  let frames ← e.frames
  let (i, n) := p.indexRun e.first e.stop
  let allocated ← p.bitmap.countRun i n 0
  return ⟨e.region, frames, allocated⟩

/-- A summary of every region, in the order of the map. -/
def summaries (p : Pool) : Checked Fault (List RegionSummary) := p.extents.mapM p.summary

/-- Logs every region and the totals. -/
def report : Action Pool Unit := do
  let p ← get
  for s in ← Action.lift p.summaries do
    Action.note (PoolLine.summary s)
  let percent ← Action.lift p.stats.percent
  Action.note (PoolLine.totals p.stats percent)

end Pool

end Keel.Frame
