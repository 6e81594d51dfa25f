/-!
# Faults and halts

Every fallible operation ends in a value or in a `Failure`:
- a *fault* is an outcome the caller may handle; its status code is negative, and `Fault.ofCode?_code` says that the
  codes tell the faults apart;
- a *halt* stops the machine: arithmetic that leaves the 64-bit words, an index outside its array, or metadata that can
  no longer be trusted.
-/

namespace Keel

/-- What a fallible operation reports to its caller. -/
inductive Fault
  | badArgs
  | badAlloc
  | tooMany
  | noSuch
  | notInit
  | overflow
  | limits
  | dangling
  | corrupted
  deriving DecidableEq

namespace Fault

/-- The broad category of a fault. -/
inductive Category
  | resourceExhaustion
  | invalidInput
  | missing
  | invalidState
  | corruption
  deriving DecidableEq

/-- All faults, in the order of their codes. -/
def all : List Fault :=
  [.badArgs, .badAlloc, .tooMany, .noSuch, .notInit, .overflow, .limits, .dangling, .corrupted]

/-- The name under which a fault is reported. -/
def name : Fault → String
  | badArgs => "BadArgs"
  | badAlloc => "BadAlloc"
  | tooMany => "TooMany"
  | noSuch => "NoSuch"
  | notInit => "NotInit"
  | overflow => "Overflow"
  | limits => "Limits"
  | dangling => "Dangling"
  | corrupted => "Corrupted"

/-- The sentence that describes a fault. -/
def message : Fault → String
  | badArgs => "invalid argument"
  | badAlloc => "bad allocation"
  | tooMany => "out of resources"
  | noSuch => "no such entity"
  | notInit => "subsystem not initialized"
  | overflow => "arithmetic overflow"
  | limits => "fixed limit exceeded"
  | dangling => "dangling reference"
  | corrupted => "heap corruption detected"

/-- The status code of a fault, always negative. -/
def code : Fault → Int
  | badArgs => -1
  | badAlloc => -2
  | tooMany => -3
  | noSuch => -4
  | notInit => -5
  | overflow => -6
  | limits => -7
  | dangling => -8
  | corrupted => -9

/-- The fault with a given status code, if there is one. -/
def ofCode? (c : Int) : Option Fault := all.find? fun f => f.code = c

/-- The category of a fault. -/
def category : Fault → Category
  | tooMany | overflow | limits => .resourceExhaustion
  | badArgs => .invalidInput
  | noSuch => .missing
  | badAlloc | notInit | dangling => .invalidState
  | corrupted => .corruption

/-- Corruption is the only fault that nothing may run past. -/
def recoverable (f : Fault) : Bool := f != .corrupted

/-- The name under which a category is reported. -/
def Category.name : Category → String
  | resourceExhaustion => "ResourceExhaustion"
  | invalidInput => "InvalidInput"
  | missing => "Missing"
  | invalidState => "InvalidState"
  | corruption => "Corruption"

theorem ofCode?_code (f : Fault) : ofCode? f.code = some f := by cases f <;> decide

theorem code_neg (f : Fault) : f.code < 0 := by cases f <;> decide

end Fault

/-- Why the machine stops. -/
inductive Halt
  | addOverflow
  | subOverflow
  | mulOverflow
  | divideByZero
  /-- Rounding to something that is no power of two. -/
  | alignment
  | outOfBounds (index size : Nat)
  /-- A linked list was followed further than there are addresses. -/
  | endless
  /-- Bring-up or module loading met corruption. -/
  | corruptCore
  /-- Giving a block back met corruption. -/
  | corruptHeap
  deriving DecidableEq

/-- The words a halt leaves behind. -/
def Halt.message : Halt → String
  | addOverflow => "attempt to add with overflow"
  | subOverflow => "attempt to subtract with overflow"
  | mulOverflow => "attempt to multiply with overflow"
  | divideByZero => "attempt to divide by zero"
  | alignment => "assertion failed: align.is_power_of_two()"
  | outOfBounds index size => s!"index out of bounds: the len is {size} but the index is {index}"
  | endless => "endless list"
  | corruptCore => Fault.corrupted.message
  | corruptHeap => "kernel heap corrupted"

/-- A fault of kind `ε`, or a halt. -/
inductive Failure (ε : Type)
  | fault (f : ε)
  | halt (h : Halt)
  deriving DecidableEq

/-- A computation without effects that may fail. -/
abbrev Checked (ε α : Type) := Except (Failure ε) α

/-- The value of an option, or a fault. -/
def orFault {ε α : Type} (f : ε) : Option α → Checked ε α
  | some a => .ok a
  | none => .error (.fault f)

/-- A fault, unless the condition holds. -/
def demand {ε : Type} (c : Bool) (f : ε) : Checked ε Unit := if c then .ok () else .error (.fault f)

/-- The status code of a result: zero for success, the code of the fault otherwise. -/
def statusCode {α : Type} : Except Fault α → Int
  | .ok _ => 0
  | .error f => f.code

end Keel
