/-!
# Cells that are written once

A cell is empty, claimed by the caller that will fill it, or ready. The callers run in atomic steps: loading the phase,
claiming an empty cell, writing the value, publishing it. `Call.step` is one such step of a caller, and `run` lets the
callers of a list take steps in any order, which is what happens when they meet on one cell.
- `init` and `getOrInit` write only after they have won the claim; a caller that lost it gets its own value back from
  `init`, and waits for the winner's in `getOrInit`;
- a finished caller takes no further steps (`step_finished`).
-/

namespace Keel.Sync

/-- Whether a cell holds a value yet. -/
inductive Phase
  | empty
  | claimed
  | ready
  deriving DecidableEq

/-- A cell that is written once. -/
structure WriteOnce (α : Type) where
  phase : Phase
  slot : Option α
  deriving DecidableEq

/-- What a caller is told. -/
inductive Reply (α : Type)
  /-- The value, if there is one yet. -/
  | found (a : Option α)
  /-- Whether there is a value. -/
  | initialized (b : Bool)
  /-- The caller's value was stored. -/
  | stored (a : Option α)
  /-- The caller's value came back. -/
  | refused (a : α)
  /-- The value that is stored now. -/
  | value (a : Option α)
  deriving DecidableEq

/-- How far a caller has come. -/
inductive Call (α : Type)
  | get
  | isInitialized
  | init (a : α)
  | getOrInit (a : α)
  /-- Found the cell not ready and goes for the claim. -/
  | claiming (a : α)
  /-- Won the claim and writes its value; `direct` tells `init` from `getOrInit`. -/
  | writing (a : α) (direct : Bool)
  /-- Wrote its value and publishes it. -/
  | publishing (direct : Bool)
  /-- Lost the claim and waits for the value. -/
  | waiting
  | finished (r : Reply α)
  deriving DecidableEq

namespace WriteOnce

variable {α : Type}

/-- A cell without a value. -/
def empty : WriteOnce α := ⟨.empty, none⟩

/-- The value, as far as it is published. -/
def published (c : WriteOnce α) : Option α := if c.phase = .ready then c.slot else none

/-- Values the cell keeps alive. -/
def live (c : WriteOnce α) : Nat := if c.phase = .ready then c.slot.toList.length else 0

/-- Values that dropping the cell drops. -/
def dropped (c : WriteOnce α) : List α := c.published.toList

end WriteOnce

namespace Call

variable {α : Type}

/-- One atomic step of a caller. -/
def step : Call α → WriteOnce α → Call α × WriteOnce α
  | get, c => (finished (.found c.published), c)
  | isInitialized, c => (finished (.initialized (c.phase = .ready)), c)
  | init a, c => if c.phase = .empty then (writing a true, { c with phase := .claimed }) else (finished (.refused a), c)
  | getOrInit a, c => (if c.phase = .ready then finished (.value c.slot) else claiming a, c)
  | claiming a, c => if c.phase = .empty then (writing a false, { c with phase := .claimed }) else (waiting, c)
  | writing a direct, c => (publishing direct, { c with slot := some a })
  | publishing direct, c => (finished (if direct then .stored c.slot else .value c.slot), { c with phase := .ready })
  | waiting, c => (if c.phase = .ready then finished (.value c.slot) else waiting, c)
  | finished r, c => (finished r, c)

/-- Whether the caller has its answer. -/
def reply? : Call α → Option (Reply α)
  | finished r => some r
  | _ => none

theorem step_finished (r : Reply α) (c : WriteOnce α) : (finished r).step c = (finished r, c) := rfl

/-- A caller alone, for at most `n` steps. -/
def runAlone : Nat → Call α → WriteOnce α → Call α × WriteOnce α
  | 0, k, c => (k, c)
  | n + 1, k, c => let (k, c) := k.step c; runAlone n k c

/-- The most steps a caller takes when no other caller is in its way. -/
def soloSteps : Nat := 4

/-- A caller from its start to its answer, alone. -/
def alone (k : Call α) (c : WriteOnce α) : Call α × WriteOnce α := runAlone soloSteps k c

/-- Callers on one cell; the schedule says whose step is next. -/
def run : List Nat → List (Call α) → WriteOnce α → List (Call α) × WriteOnce α
  | [], ks, c => (ks, c)
  | i :: is, ks, c =>
    match ks[i]? with
    | none => run is ks c
    | some k => let (k, c) := k.step c; run is (ks.set i k) c

/-- The second of two callers arrives when the first has tried for the claim, and waits until the first is done. -/
def meeting : List Nat := [0, 0, 1, 1, 1, 0, 0, 1]

end Call

end Keel.Sync
