import Keel.Sync.Interrupts

/-!
# Spin locks

A lock is a flag and the value it protects; whoever holds a guard may use the value, and dropping a guard clears the
flag, whoever set it. Taking a lock that is held spins, so it has an answer only where the flag is clear.
- `tryLock` makes its guard before it knows whether it may keep it. A guard it may not keep is dropped at once, and
  dropping clears the flag: a failed attempt opens the lock (`tryLock_of_locked`).
-/

namespace Keel.Sync

/-- A flag and the value it protects. -/
structure SpinLock (α : Type) where
  locked : Bool
  value : α
  deriving DecidableEq

namespace SpinLock

variable {α β : Type}

/-- An open lock. -/
def new (value : α) : SpinLock α := ⟨false, value⟩

/-- Sets the flag if it is clear; the answer says whether it was. -/
def acquire (l : SpinLock α) : Bool × SpinLock α := (!l.locked, { l with locked := true })

/-- Drops a guard. -/
def release (l : SpinLock α) : SpinLock α := { l with locked := false }

/-- Tries once; the answer says whether there is a guard now. -/
def tryLock (l : SpinLock α) : Bool × SpinLock α :=
  let (won, l) := l.acquire
  if won then (true, l) else (false, l.release)

/-- Takes the lock; no answer while it is held. -/
def lock? (l : SpinLock α) : Option (SpinLock α) := if l.locked then none else some l.acquire.2

/-- Masks interrupts, then takes the lock. -/
def lockMasked? (i : Interrupts) (l : SpinLock α) : Option (MaskGuard × Interrupts × SpinLock α) :=
  let (g, i) := i.mask
  l.lock?.map fun l => (g, i, l)

/-- Replaces the value through a guard. -/
def write (l : SpinLock α) (value : α) : SpinLock α := { l with value }

/-- Runs `f` on the value with the lock held and opens the lock again, also where `f` is cut short after it has stored
its result. -/
def withLock? (l : SpinLock α) (f : α → β × α) : Option (β × SpinLock α) :=
  l.lock?.map fun l =>
    let (b, value) := f l.value
    (b, (l.write value).release)

/-- Runs `f` on the value `n` times, each time with the lock taken anew. -/
def repeatWithLock? (f : α → α) : Nat → SpinLock α → Option (SpinLock α)
  | 0, l => some l
  | n + 1, l => (l.withLock? fun a => ((), f a)).bind fun r => repeatWithLock? f n r.2

/-- A waiter that runs `f` as soon as the lock, held here, is given up. -/
def handOff? (l : SpinLock α) (f : α → α) : Option (SpinLock α) :=
  l.lock?.bind fun l => (l.release.withLock? fun a => ((), f a)).map fun r => r.2

/-- Access without taking the lock, for a sole owner. -/
def update (l : SpinLock α) (f : α → α) : SpinLock α := { l with value := f l.value }

theorem tryLock_of_locked {l : SpinLock α} (h : l.locked = true) : l.tryLock = (false, l.release) := by
  simp [tryLock, acquire, h, release]

theorem tryLock_of_open {l : SpinLock α} (h : l.locked = false) : l.tryLock = (true, { l with locked := true }) := by
  simp [tryLock, acquire, h]

theorem withLock?_value (l : SpinLock α) (h : l.locked = false) (f : α → β × α) :
    l.withLock? f = some ((f l.value).1, ⟨false, (f l.value).2⟩) := by
  simp [withLock?, lock?, h, acquire, write, release]

end SpinLock

/-! ## A lock with a place for one guard -/

/-- A lock and whether the guard kept for it is there. -/
structure Keeper (α : Type) where
  lock : SpinLock α
  held : Bool
  deriving DecidableEq

namespace Keeper

variable {α : Type}

/-- An open lock without a guard. -/
def new (value : α) : Keeper α := ⟨.new value, false⟩

/-- Drops the guard, if it is there; the answer says whether it was. -/
def drop (k : Keeper α) : Bool × Keeper α := (k.held, if k.held then ⟨k.lock.release, false⟩ else k)

/-- Tries to take the lock. A guard gained takes the place of the one kept, which is dropped after that. -/
def tryLock (k : Keeper α) : Bool × Keeper α :=
  match k.lock.tryLock with
  | (true, lock) => (true, ⟨if k.held then lock.release else lock, true⟩)
  | (false, lock) => (false, { k with lock })

/-- Takes the lock and keeps the guard. -/
def lock? (k : Keeper α) : Option (Keeper α) := k.lock.lock?.map fun lock => ⟨lock, true⟩

/-- The value through the guard, if it is there. -/
def read (k : Keeper α) : Option α := if k.held then some k.lock.value else none

/-- Replaces the value through the guard, if it is there. -/
def write (k : Keeper α) (value : α) : Keeper α := if k.held then { k with lock := k.lock.write value } else k

/-- The value after the guard has been dropped. -/
def intoInner (k : Keeper α) : α := k.drop.2.lock.value

end Keeper

end Keel.Sync
