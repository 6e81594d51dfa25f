import Keel.Fault

/-!
# Words and counts

Addresses, lengths and raw memory are 64-bit words (`UInt64`); frame numbers, indices and counters are natural numbers
kept below `2^64`. Both are added, subtracted and multiplied with a check: leaving the 64 bits is a halt, never a wrap.
- `Word.add?_eq_some`, `Word.add?_eq_none`: the checked sum of two words is the sum of their values, if that is a word;
- `Count.add_eq_ok`, `Count.sub_eq_ok`, `Count.mul_eq_ok`: what a checked operation on counts answers.
-/

namespace Keel

-- powers of numbers are the core library's, whatever other instances there are
attribute [instance (high), default_instance (high + 1)] instPowNat

variable {ε : Type}

namespace Word

/-- The sum of two words, if it fits a word. -/
def add? (a b : UInt64) : Option UInt64 := if a.toNat + b.toNat < 2 ^ 64 then some (a + b) else none

/-- The sum of two words that is expected to fit. -/
def add (a b : UInt64) : Checked ε UInt64 :=
  match add? a b with
  | some c => .ok c
  | none => .error (.halt .addOverflow)

/-- The difference of two words, the second not above the first. -/
def sub (a b : UInt64) : Checked ε UInt64 := if b ≤ a then .ok (a - b) else .error (.halt .subOverflow)

theorem add?_eq_some {a b c : UInt64} : add? a b = some c ↔ a.toNat + b.toNat = c.toNat := by
  unfold add?
  split
  · rename_i h
    rw [Option.some.injEq, ← UInt64.toNat_inj, UInt64.toNat_add, Nat.mod_eq_of_lt h]
  · rename_i h
    have := c.toNat_lt
    simp only [reduceCtorEq, false_iff]
    omega

theorem add?_eq_none {a b : UInt64} : add? a b = none ↔ 2 ^ 64 ≤ a.toNat + b.toNat := by
  unfold add?
  split
  · rename_i h
    exact ⟨nofun, fun hle => absurd h (Nat.not_lt.2 hle)⟩
  · rename_i h
    exact ⟨fun _ => Nat.le_of_not_lt h, fun _ => rfl⟩

theorem sub_eq_ok {a b c : UInt64} : sub (ε := ε) a b = .ok c ↔ a.toNat = b.toNat + c.toNat := by
  unfold sub
  split
  · rename_i h
    have hle := UInt64.le_iff_toNat_le.1 h
    rw [Except.ok.injEq, ← UInt64.toNat_inj, UInt64.toNat_sub_of_le _ _ h]
    omega
  · rename_i h
    have := mt UInt64.le_iff_toNat_le.2 h
    simp only [reduceCtorEq, false_iff]
    omega

end Word

namespace Count

/-- The sum of two counts, which must fit a word. -/
def add (a b : Nat) : Checked ε Nat := if a + b < 2 ^ 64 then .ok (a + b) else .error (.halt .addOverflow)

/-- The difference of two counts, the second not above the first. -/
def sub (a b : Nat) : Checked ε Nat := if b ≤ a then .ok (a - b) else .error (.halt .subOverflow)

/-- The product of two counts, which must fit a word. -/
def mul (a b : Nat) : Checked ε Nat := if a * b < 2 ^ 64 then .ok (a * b) else .error (.halt .mulOverflow)

/-- The quotient of two counts, the second not zero. -/
def div (a b : Nat) : Checked ε Nat := if b = 0 then .error (.halt .divideByZero) else .ok (a / b)

theorem add_eq_ok {a b c : Nat} : add (ε := ε) a b = .ok c ↔ a + b < 2 ^ 64 ∧ c = a + b := by
  unfold add
  split
  · rename_i h
    rw [Except.ok.injEq]
    exact ⟨fun e => ⟨h, e.symm⟩, fun e => e.2.symm⟩
  · rename_i h
    exact ⟨nofun, fun e => absurd e.1 h⟩

theorem sub_eq_ok {a b c : Nat} : sub (ε := ε) a b = .ok c ↔ b ≤ a ∧ c = a - b := by
  unfold sub
  split
  · rename_i h
    rw [Except.ok.injEq]
    exact ⟨fun e => ⟨h, e.symm⟩, fun e => e.2.symm⟩
  · rename_i h
    exact ⟨nofun, fun e => absurd e.1 h⟩

theorem mul_eq_ok {a b c : Nat} : mul (ε := ε) a b = .ok c ↔ a * b < 2 ^ 64 ∧ c = a * b := by
  unfold mul
  split
  · rename_i h
    rw [Except.ok.injEq]
    exact ⟨fun e => ⟨h, e.symm⟩, fun e => e.2.symm⟩
  · rename_i h
    exact ⟨nofun, fun e => absurd e.1 h⟩

end Count

end Keel
