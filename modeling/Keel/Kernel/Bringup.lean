import Keel.Frame.Placement
import Keel.Kernel.State
import Keel.Module.Elf.Loader

/-!
# Bring-up

`startMemory` brings the pool and the heap up: it places the bitmap in frames of the map itself, then reserves those
frames and the frames of every boot module before anything else can take them. `startModules` brings module loading up:
the windows, the exports and the built-in loader. Each raises the stage when it is done, and nothing lowers it.
-/

namespace Keel.Kernel

open Keel.Action (note fail lift)

variable {α : Type}

/-! ## Lines -/

/-- The heap can no longer be trusted. -/
def corruptLine : Line := ⟨.error, "core: kernel heap corruption detected, halting"⟩

/-- Memory was brought up before. -/
def memoryTwiceLine : Line := ⟨.warn, "core: memory is already initialized"⟩

/-- A boot module outside the frames of the pool. -/
def untrackedLine (m : BootModule) : Line :=
  ⟨.warn, s!"core: boot module {m.path} at {m.addr.text} is not in tracked memory"⟩

/-- Memory is up; the line tells the free bytes, which a word must hold. -/
def memoryOnlineLine {ε : Type} (bitmap : PhysAddr) (words : Nat) (s : Frame.PoolStats) : Checked ε Line := do
  let bytes ← s.freeBytes
  return ⟨.info, s!"core: memory online, bitmap at {bitmap.text} ({words} words), {bytes / 1024} KiB free"⟩

/-- Module loading before memory. -/
def modulesEarlyLine : Line := ⟨.warn, "core: module loading needs memory to be initialized first"⟩

/-- Module loading is up. -/
def modulesOnlineLine : Line := ⟨.info, "core: module loading online"⟩

/-! ## Stages -/

/-- Lets everything but corruption through; corruption stops the machine. -/
def escalate (x : Action Kernel α) : Action Kernel α := do
  match ← Action.attempt x with
  | .ok a => pure a
  | .error .corrupted => do
    note corruptLine
    Action.halt .corruptCore
  | .error f => fail f

/-- Raises the stage. -/
def advance (s : Stage) : Action Kernel Unit := modify fun k => { k with stage := k.stage.later s }

/-- Refuses to go on before a stage. -/
def require (s : Stage) : Action Kernel Unit := do if (← get).stage.rank < s.rank then fail .notInit

/-- Reserves the frames of the boot modules that have bytes; one outside the pool's frames is only logged. -/
def reserveModules : List BootModule → Action Kernel Unit
  | [] => pure ()
  | m :: ms => do
    if m.size ≠ 0 then
      match ← Action.attempt (onPool (Frame.Pool.reserve m.addr m.size)) with
      | .ok _ => pure ()
      | .error _ => note (untrackedLine m)
    reserveModules ms

/-- Brings the pool and the heap up over the regions of the memory map. -/
def startMemory (rs : List Region) (modules : List BootModule) (mapper : Mapper) : Action Kernel Frame.PoolStats := do
  if (← get).ground.poolStarted then
    note memoryTwiceLine
    fail .badArgs
  let words ← lift (Frame.wordsFor rs)
  let bitmap ← Frame.place rs words modules
  let _ ← onGround (Ground.startPool rs (.resident (mapper.toVirt bitmap).raw words))
  let bytes ← lift (Count.mul words 8)
  let _ ← onPool (Frame.Pool.reserve bitmap (UInt64.ofNat bytes))
  reserveModules modules
  escalate (onGround (Ground.startHeap mapper))
  let stats ← onPool do return (← get).stats
  advance .memory
  note (← lift (memoryOnlineLine bitmap words stats))
  return stats

/-- Brings module loading up. -/
def startModules (exports : ExportTable) : Action Kernel Unit := do
  if (← get).stage.rank < Stage.memory.rank then
    note modulesEarlyLine
    fail .notInit
  startWindows
  startExports exports
  registerLoader Elf.loader
  advance .modules
  note modulesOnlineLine

end Keel.Kernel
