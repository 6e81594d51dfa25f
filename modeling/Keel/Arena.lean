import Keel.Memory
import Keel.Frame.Pool

/-!
# The arena

An arena is memory together with the frame pool over it. Before the pool is up there is none, and asking for a frame is
a fault. The bitmap of the pool either lies outside memory or *resides* in it: then every pool operation reads it from
its words and writes it back, so a stray write to those words is seen by the pool.
-/

namespace Keel

/-- Where the bitmap of a pool is kept. -/
inductive Home
  | apart (bitmap : Frame.Bitmap)
  | resident (start : Ptr) (words : Nat)

namespace Home

/-- The bitmap as it is now. -/
def load (m : Memory) : Home → Frame.Bitmap
  | apart b => b
  | resident start words => ⟨m.wordsAt start words⟩

/-- The home and the memory after the bitmap has become `b`. -/
def store (m : Memory) (b : Frame.Bitmap) : Home → Home × Memory
  | apart _ => (apart b, m)
  | resident start words => (resident start words, m.setWords start b.words.toList)

end Home

/-- A pool by its books and the home of its bitmap. -/
structure HousedPool where
  ledger : Frame.Ledger
  home : Home

/-- Memory and the frame pool over it. -/
structure Arena where
  memory : Memory
  pool : Option HousedPool
  /-- Whether cells are overwritten when they change hands. -/
  poison : Bool

namespace Arena

variable {α : Type}

/-- The pool with its bitmap, if it is up. -/
def pool? (s : Arena) : Option Frame.Pool := s.pool.map fun h => h.ledger.withBitmap (h.home.load s.memory)

/-- The arena after the pool with this home has become `p`. -/
def withPool (s : Arena) (home : Home) (p : Frame.Pool) : Arena :=
  let (home, memory) := home.store s.memory p.bitmap
  { s with memory, pool := some ⟨p.toLedger, home⟩ }

/-- Runs an action on the pool. -/
def onPool (x : Action Frame.Pool α) : Action Arena α := fun s =>
  match s.pool with
  | none => ⟨.error (.fault .notInit), s, []⟩
  | some h =>
    let t := x (h.ledger.withBitmap (h.home.load s.memory))
    ⟨t.result, s.withPool h.home t.state, t.log⟩

/-- A frame from the pool. -/
def allocFrame : Action Arena PhysAddr := onPool Frame.Pool.alloc

/-- Gives a frame back to the pool. -/
def freeFrame (pa : PhysAddr) : Action Arena Unit := onPool (Frame.Pool.release pa)

/-- Changes memory. -/
def write (f : Memory → Memory) : Action Arena Unit := modify fun s => { s with memory := f s.memory }

/-- The word at `a`. -/
def word (a : Ptr) : Action Arena UInt64 := do return (← get).memory.word a

/-- Writes a word at `a`. -/
def setWord (a : Ptr) (w : UInt64) : Action Arena Unit := write fun m => m.setWord a w

theorem onPool_result {x : Action Frame.Pool α} {s : Arena} {h : HousedPool} (hs : s.pool = some h) :
    (onPool x s).result = (x (h.ledger.withBitmap (h.home.load s.memory))).result := by
  simp [onPool, hs]

theorem onPool_of_none {x : Action Frame.Pool α} {s : Arena} (hs : s.pool = none) :
    onPool x s = ⟨.error (.fault .notInit), s, []⟩ := by
  simp [onPool, hs]

end Arena

end Keel
