import Keel.Action
import Keel.Address

/-!
# Windows for modules

Module code and module data get addresses from two fixed windows. A window only moves its cursor forward, a page at a
time, and nothing ever comes back, so a range handed out once is never handed out again.
- `Window.allocate` leaves the window as it was unless it answers an address;
- `Windows.create` refuses windows that overlap.
-/

namespace Keel

/-- The addresses `[start, start + length)`. -/
structure AddressRange where
  start : VirtAddr
  length : UInt64
  deriving DecidableEq

namespace AddressRange

variable {ε : Type}

/-- The range without addresses, at zero. -/
def empty : AddressRange := ⟨.zero, 0⟩

/-- The first address past the range. -/
def stop (r : AddressRange) : Checked ε VirtAddr := r.start.add r.length

/-- Whether the range has no addresses. -/
def isEmpty (r : AddressRange) : Bool := r.length == 0

/-- Whether an address is in the range. -/
def contains (r : AddressRange) (a : VirtAddr) : Bool :=
  r.start.raw ≤ a.raw && a.raw - r.start.raw < r.length

/-- The range with its fields named. -/
def describe (r : AddressRange) : String :=
  "VaRange \x7b start: " ++ r.start.describe ++ ", len: " ++ toString r.length.toNat ++ " \x7d"

theorem not_contains_empty (a : VirtAddr) : empty.contains a = false := by
  simp [empty, contains, Address.zero]

end AddressRange

/-- A window of `size` bytes at `base`, of which the first `used` are handed out. -/
structure Window where
  base : VirtAddr
  size : UInt64
  used : UInt64
  deriving DecidableEq

namespace Window

open Keel.Action (note fail lift)

variable {ε : Type}

/-- A fresh window: whole pages, at least one, that end at an address. -/
def create (base size : UInt64) : Checked Fault Window := do
  demand (size != 0 && base.toNat % Layout.moduleAlign == 0 && size.toNat % Layout.moduleAlign == 0) .badArgs
  let _ ← orFault .overflow (Word.add? base size)
  return ⟨⟨base⟩, size, 0⟩

/-- The bytes that are left. -/
def remaining (w : Window) : Checked ε UInt64 := Word.sub w.size w.used

/-- The next address to hand out. -/
def cursor (w : Window) : Checked ε VirtAddr := w.base.add w.used

/-- All addresses of the window. -/
def range (w : Window) : AddressRange := ⟨w.base, w.size⟩

/-- Whether two windows share addresses. -/
def overlaps (a b : Window) : Checked ε Bool := do
  let bStop ← Word.add b.base.raw b.size
  if a.base.raw < bStop then
    let aStop ← Word.add a.base.raw a.size
    return b.base.raw < aStop
  else return false

/-- A request that does not fit. -/
def exhaustedLine (base : VirtAddr) (wanted left : UInt64) : Line :=
  ⟨.warn, s!"modmem: window at {base.text} exhausted: {Text.Hex.plain wanted.toNat} bytes requested, " ++
    s!"{Text.Hex.plain left.toNat} left"⟩

/-- Hands out the next `size` bytes, rounded up to whole pages. -/
def allocate (size : UInt64) : Action Window VirtAddr := do
  if size = 0 then fail .badArgs
  let rounded ← Action.ofOption .overflow (Align.pageCeil? size)
  let w ← get
  let left ← lift w.remaining
  if left < rounded then
    note (exhaustedLine w.base rounded left)
    fail .tooMany
  let start ← lift w.cursor
  let used ← lift (Word.add w.used rounded)
  set { w with used }
  return start

end Window

/-- The window for code and the window for data. -/
structure Windows where
  text : Window
  data : Window
  deriving DecidableEq

namespace Windows

open Keel.Action (note)

/-- Two windows that share no address. -/
def create (text data : Window) : Checked Fault Windows := do
  demand (!(← text.overlaps data)) .badArgs
  return ⟨text, data⟩

/-- The windows of the kernel's address space. -/
def kernel : Windows :=
  ⟨⟨⟨Layout.moduleTextBase⟩, Layout.moduleTextSize, 0⟩, ⟨⟨Layout.moduleDataBase⟩, Layout.moduleDataSize, 0⟩⟩

/-- The window for code. -/
def textPart : Part Windows Window := ⟨Windows.text, fun w text => { w with text }⟩

/-- The window for data. -/
def dataPart : Part Windows Window := ⟨Windows.data, fun w data => { w with data }⟩

/-- A range that was handed out. -/
def allocatedLine (what : String) (start : VirtAddr) (size : UInt64) : Line :=
  ⟨.debug, s!"modmem: {what} {start.text} (+{Text.Hex.plain size.toNat})"⟩

/-- Addresses for `size` bytes of code. -/
def allocateText (size : UInt64) : Action Windows VirtAddr := do
  let start ← Action.zoom textPart (Window.allocate size)
  note (allocatedLine "text" start size)
  return start

/-- Addresses for `size` bytes of data. -/
def allocateData (size : UInt64) : Action Windows VirtAddr := do
  let start ← Action.zoom dataPart (Window.allocate size)
  note (allocatedLine "data" start size)
  return start

end Windows

end Keel
