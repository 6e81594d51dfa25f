import Keel.Sync.SpinLock

/-!
# Guards of a spin lock

A session is one lock with the guards that are live, and a run is any list of requests to it: lock, lock with
interrupts masked, run a function under the lock, try once, write through a guard, drop a guard. A request that would
spin is not made: it leaves the session as it is.
- `Exclusive`: at most one guard is live, and the flag is set exactly while one is;
- `Spares`: an attempt that is refused leaves the flag and the value as they were;
- `Excludes`: both, at every point of a run.

Every request but a refused attempt keeps `Exclusive` (`Exclusive.step`). A refused attempt makes a guard and drops it,
which clears the flag under the guard that is live (`step_refused`), so that the next attempt is granted beside it
(`overlap_of_refused`). A run therefore keeps the law exactly as long as no attempt in it is refused
(**`excludes_iff_unrefused`**).
-/

namespace Keel.Sync

/-- A lock, the interrupt flag and the guards that are live, each with the interrupt guard it carries. -/
structure Session (α : Type) where
  lock : SpinLock α
  interrupts : Interrupts
  guards : List (Option MaskGuard)
  deriving DecidableEq

/-- What callers ask of one lock. A guard is named by its place among those that are live, the latest first. -/
inductive Request (α : Type)
  | lock
  | lockMasked
  | withLock (f : α → α)
  | tryLock
  | write (i : Nat) (value : α)
  | drop (i : Nat)

namespace Session

variable {α : Type}

/-- An open lock without guards. -/
def start (i : Interrupts) (value : α) : Session α := ⟨.new value, i, []⟩

/-- The interrupt flag after a guard has been dropped. -/
def unmask : Option MaskGuard → Interrupts → Interrupts
  | none, i => i
  | some g, i => i.release g

/-- One request. A call that would spin, a write through a guard that is not live and the drop of one change nothing. -/
def step (s : Session α) : Request α → Session α
  | .lock =>
    match s.lock.lock? with
    | some l => { s with lock := l, guards := none :: s.guards }
    | none => s
  | .lockMasked =>
    match s.lock.lockMasked? s.interrupts with
    | some (g, i, l) => ⟨l, i, some g :: s.guards⟩
    | none => s
  | .withLock f =>
    match s.lock.withLock? fun a => ((), f a) with
    | some (_, l) => { s with lock := l, interrupts := s.interrupts.mask.2.release s.interrupts.mask.1 }
    | none => s
  | .tryLock =>
    match s.lock.tryLock with
    | (true, l) => { s with lock := l, guards := none :: s.guards }
    | (false, l) => { s with lock := l }
  | .write i value => if i < s.guards.length then { s with lock := s.lock.write value } else s
  | .drop i =>
    match s.guards[i]? with
    | some g => ⟨s.lock.release, unmask g s.interrupts, s.guards.eraseIdx i⟩
    | none => s

/-- At most one guard is live, and the flag is set exactly while one is. -/
def Exclusive (s : Session α) : Prop := s.guards.length ≤ 1 ∧ (s.lock.locked = true ↔ s.guards ≠ [])

/-- The request is an attempt that is given no guard. -/
def Refuses (s : Session α) : Request α → Prop
  | .tryLock => s.lock.tryLock.1 = false
  | _ => False

/-- A refused attempt leaves the flag and the value as they were. -/
def Spares (s : Session α) (q : Request α) : Prop := s.Refuses q → (s.step q).lock = s.lock

/-- At every point of the run the guards exclude each other, and every refused attempt leaves the lock as it was. -/
def Excludes : Session α → List (Request α) → Prop
  | s, [] => s.Exclusive
  | s, q :: qs => s.Exclusive ∧ s.Spares q ∧ (s.step q).Excludes qs

/-- No attempt of the run is refused. -/
def Unrefused : Session α → List (Request α) → Prop
  | _, [] => True
  | s, q :: qs => ¬ s.Refuses q ∧ (s.step q).Unrefused qs

/-! ## The lock's own calls, on an open and on a held lock -/

section Calls

variable {s : Session α}

theorem refuses_tryLock : s.Refuses .tryLock ↔ s.lock.locked = true := by
  cases h : s.lock.locked with
  | true => simp [Refuses, SpinLock.tryLock_of_locked h]
  | false => simp [Refuses, SpinLock.tryLock_of_open h]

theorem step_lock (h : s.lock.locked = false) :
    s.step .lock = { s with lock := { s.lock with locked := true }, guards := none :: s.guards } := by
  simp [step, SpinLock.lock?, SpinLock.acquire, h]

theorem step_lockMasked (h : s.lock.locked = false) :
    s.step .lockMasked =
      ⟨{ s.lock with locked := true }, s.interrupts.mask.2, some s.interrupts.mask.1 :: s.guards⟩ := by
  simp [step, SpinLock.lockMasked?, SpinLock.lock?, SpinLock.acquire, h]

/-- Running a function under the lock opens the lock again and leaves interrupts as they were. -/
theorem step_withLock (h : s.lock.locked = false) (f : α → α) :
    s.step (.withLock f) = { s with lock := ⟨false, f s.lock.value⟩ } := by
  simp [step, SpinLock.withLock?_value _ h, Interrupts.release_mask]

theorem step_tryLock (h : s.lock.locked = false) :
    s.step .tryLock = { s with lock := { s.lock with locked := true }, guards := none :: s.guards } := by
  simp [step, SpinLock.tryLock_of_open h]

/-- A refused attempt clears the flag and touches nothing else. -/
theorem step_refused (h : s.lock.locked = true) : s.step .tryLock = { s with lock := s.lock.release } := by
  simp [step, SpinLock.tryLock_of_locked h]

/-- A call that would spin is not made. -/
theorem step_spins (h : s.lock.locked = true) (f : α → α) :
    s.step .lock = s ∧ s.step .lockMasked = s ∧ s.step (.withLock f) = s := by
  simp [step, SpinLock.lockMasked?, SpinLock.withLock?, SpinLock.lock?, h]

end Calls

/-! ## Exclusion -/

/-- An exclusive session is open and without guards, or held with just one. -/
theorem exclusive_iff {s : Session α} :
    s.Exclusive ↔ s.lock.locked = false ∧ s.guards = [] ∨ s.lock.locked = true ∧ ∃ g, s.guards = [g] := by
  obtain ⟨⟨locked, value⟩, i, guards⟩ := s
  cases guards with
  | nil => cases locked <;> simp [Exclusive]
  | cons g gs => cases locked <;> simp [Exclusive]

theorem exclusive_start (i : Interrupts) (value : α) : (start i value).Exclusive :=
  exclusive_iff.2 (.inl ⟨rfl, rfl⟩)

/-- On an open lock every call gains one guard or, for a function run under the lock, none. -/
theorem step_open {s : Session α} (hopen : s.lock.locked = false) (hnone : s.guards = []) (q : Request α) :
    (s.step q).Exclusive := by
  apply exclusive_iff.2
  cases q with
  | lock => simp [step_lock hopen, hnone]
  | lockMasked => simp [step_lockMasked hopen, hnone]
  | withLock f => simp [step_withLock hopen, hnone]
  | tryLock => simp [step_tryLock hopen, hnone]
  | write i value => simp [step, hnone, hopen]
  | drop i => simp [step, hnone, hopen]

/-- Under its only guard a lock is held until that guard is dropped, unless an attempt is refused. -/
theorem step_held {s : Session α} {g : Option MaskGuard} (hheld : s.lock.locked = true) (hone : s.guards = [g])
    {q : Request α} (hq : ¬ s.Refuses q) : (s.step q).Exclusive := by
  have hs : s.Exclusive := exclusive_iff.2 (.inr ⟨hheld, g, hone⟩)
  cases q with
  | lock => rwa [(step_spins hheld id).1]
  | lockMasked => rwa [(step_spins hheld id).2.1]
  | withLock f => rwa [(step_spins hheld f).2.2]
  | tryLock => exact absurd (refuses_tryLock.2 hheld) hq
  | write i value =>
    apply exclusive_iff.2
    by_cases hi : i < 1 <;> simp [step, hone, hi, SpinLock.write, hheld]
  | drop i =>
    apply exclusive_iff.2
    cases i with
    | zero => simp [step, hone, SpinLock.release]
    | succ i => simp [step, hone, hheld]

/-- Every request but a refused attempt keeps the guards exclusive. -/
theorem Exclusive.step {s : Session α} (hs : s.Exclusive) {q : Request α} (hq : ¬ s.Refuses q) :
    (s.step q).Exclusive := by
  cases exclusive_iff.1 hs with
  | inl h => exact step_open h.1 h.2 q
  | inr h =>
    obtain ⟨hheld, g, hone⟩ := h
    exact step_held hheld hone hq

/-- A refused attempt never leaves the lock as it was: the flag was set and is clear now. -/
theorem not_spares_of_refuses {s : Session α} {q : Request α} (h : s.Refuses q) : ¬ s.Spares q := by
  intro hspares
  cases q with
  | tryLock =>
    have hheld := refuses_tryLock.1 h
    have hsame := congrArg SpinLock.locked (hspares h)
    rw [step_refused hheld] at hsame
    simp [SpinLock.release, hheld] at hsame
  | _ => exact h

/-- After a refused attempt the next one is granted, while the guard it was refused for still lives. -/
theorem overlap_of_refused {s : Session α} (hs : s.Exclusive) (h : s.Refuses .tryLock) :
    ((s.step .tryLock).step .tryLock).guards.length = 2 ∧
      ((s.step .tryLock).step .tryLock).lock.value = s.lock.value := by
  have hheld := refuses_tryLock.1 h
  have hopen : (s.step .tryLock).lock.locked = false := by simp [step_refused hheld, SpinLock.release]
  cases exclusive_iff.1 hs with
  | inl hfree => simp [hheld] at hfree
  | inr hone =>
    obtain ⟨-, g, hg⟩ := hone
    rw [step_tryLock hopen, step_refused hheld]
    simp [hg, SpinLock.release]

/-- From an exclusive session on, a run keeps the law exactly as long as no attempt in it is refused. -/
theorem Exclusive.excludes_iff {s : Session α} (hs : s.Exclusive) (qs : List (Request α)) :
    s.Excludes qs ↔ s.Unrefused qs := by
  induction qs generalizing s with
  | nil => simp [Excludes, Unrefused, hs]
  | cons q qs ih =>
    constructor
    · intro h
      obtain ⟨-, hspares, hrest⟩ := h
      have hq : ¬ s.Refuses q := fun hq => not_spares_of_refuses hq hspares
      exact ⟨hq, (ih (hs.step hq)).1 hrest⟩
    · intro h
      obtain ⟨hq, hrest⟩ := h
      exact ⟨hs, fun hr => absurd hr hq, (ih (hs.step hq)).2 hrest⟩

/-- **The guards of a lock exclude each other, the flag tells whether one is live, and refused attempts leave the lock
as it was, in exactly those runs in which no attempt is refused.** -/
theorem excludes_iff_unrefused (i : Interrupts) (value : α) (qs : List (Request α)) :
    (start i value).Excludes qs ↔ (start i value).Unrefused qs :=
  (exclusive_start i value).excludes_iff qs

/-- One attempt on a held lock breaks the law. -/
theorem not_excludes_heldAttempt : ¬ (start .hosted 7).Excludes [.lock, .tryLock] := by
  intro h
  obtain ⟨-, -, -, hspares, -⟩ := h
  have hsame : SpinLock.mk false 7 = SpinLock.mk true 7 := hspares rfl
  cases hsame

end Session

end Keel.Sync
