import Keel.Module.Elf.Error
import Keel.Word

/-!
# Bytes of an object

Numbers are stored with their lowest byte first. `le` reads one whose bytes are known to be there: a missing byte is a
halt, not a finding. `slice` takes a part that the object claims to have: a missing part is `outOfBounds`
(`slice_eq_ok`).
-/

namespace Keel.Elf

variable {ε : Type}

/-- A string of bytes. -/
abbrev Bytes := Array UInt8

/-- The byte at index `i`. -/
def byteAt (b : Bytes) (i : Nat) : Checked ε Nat :=
  match b[i]? with
  | some x => .ok x.toNat
  | none => .error (.halt (.outOfBounds i b.size))

/-- The number stored in the `n` bytes from index `i` on. -/
def le (b : Bytes) (i : Nat) : Nat → Checked ε Nat
  | 0 => .ok 0
  | n + 1 => do
    let low ← byteAt b i
    let high ← le b (i + 1) n
    return low + 256 * high

/-- The 64-bit number at index `i`. -/
def le64 (b : Bytes) (i : Nat) : Checked ε UInt64 := (le b i 8).map UInt64.ofNat

/-- The `size` bytes at `offset`, if the object has them. -/
def slice (b : Bytes) (offset size : Nat) : Read Bytes :=
  if offset + size ≤ b.size then .ok (b.extract offset (offset + size)) else malformed .outOfBounds

theorem byteAt_eq_ok {b : Bytes} {i : Nat} (h : i < b.size) : byteAt (ε := ε) b i = .ok b[i].toNat := by
  simp [byteAt, h]

/-- A number all of whose bytes are there is read. -/
theorem le_isOk {b : Bytes} : ∀ {n i : Nat}, i + n ≤ b.size → ∃ v, le (ε := ε) b i n = .ok v ∧ v < 256 ^ n
  | 0, _, _ => ⟨0, rfl, by simp⟩
  | n + 1, i, h => by
    obtain ⟨v, hv, hlt⟩ := le_isOk (b := b) (n := n) (i := i + 1) (by omega)
    have hi : i < b.size := by omega
    refine ⟨b[i].toNat + 256 * v, ?_, ?_⟩
    · rw [le, byteAt_eq_ok hi, hv]; rfl
    · have := b[i].toNat_lt
      rw [Nat.pow_succ]; omega

theorem slice_eq_ok {b c : Bytes} {offset size : Nat} (h : slice b offset size = .ok c) :
    offset + size ≤ b.size ∧ c.size = size := by
  unfold slice at h
  split at h
  · rename_i hle
    simp only [Except.ok.injEq] at h
    subst h
    refine ⟨hle, ?_⟩
    rw [Array.size_extract]; omega
  · cases h

end Keel.Elf
