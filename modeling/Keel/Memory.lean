import Std.Data.TreeMap
import Keel.Address

/-!
# Memory

Memory is a byte for every address of the kernel's view, zero where nothing was written. Words are eight bytes, the
lowest first.
- `read_write`: a byte read is the last one written there;
- `word_setWord`: a word is read back as it was written; `word_setWord_of_apart`: a word keeps its value when a word
  apart from it is written.
-/

namespace Keel

/-- The bytes that were written, by address. -/
structure Memory where
  bytes : Std.TreeMap Ptr UInt8

namespace Memory

/-- Memory in which every byte is zero. -/
def blank : Memory := ⟨∅⟩

/-- The byte at `a`. -/
def read (m : Memory) (a : Ptr) : UInt8 := m.bytes.getD a 0

/-- Writes a byte at `a`. -/
def write (m : Memory) (a : Ptr) (b : UInt8) : Memory := ⟨m.bytes.insert a b⟩

theorem read_write (m : Memory) (a a' : Ptr) (b : UInt8) :
    (m.write a b).read a' = if a' = a then b else m.read a' := by
  unfold read write
  rw [Std.TreeMap.getD_insert]
  by_cases h : a' = a
  · simp [h]
  · have hne : compare a a' ≠ .eq := fun hc => h (Std.LawfulEqCmp.eq_of_compare hc).symm
    simp [hne, h]

/-! ## Strings of bytes -/

/-- Writes a string of bytes from `a` on. -/
def setBytes (m : Memory) (a : Ptr) : List UInt8 → Memory
  | [] => m
  | b :: bs => (m.write a b).setBytes (a + 1) bs

/-- The `n` bytes from `a` on. -/
def bytesAt (m : Memory) (a : Ptr) (n : Nat) : Array UInt8 := Array.ofFn fun i : Fin n => m.read (a + UInt64.ofNat i)

/-- Sets `n` bytes from `a` on to `b`. -/
def fill (m : Memory) (a : Ptr) (b : UInt8) : Nat → Memory
  | 0 => m
  | n + 1 => (m.write a b).fill (a + 1) b n

theorem size_bytesAt (m : Memory) (a : Ptr) (n : Nat) : (m.bytesAt a n).size = n := by simp [bytesAt]

/-! ## Words -/

/-- The eight bytes of a word, the lowest first. -/
def wordBytes (w : UInt64) : List UInt8 := (List.range 8).map fun i => (w >>> UInt64.ofNat (8 * i)).toUInt8

/-- The word with the given bytes, the lowest first. -/
def ofBytes : List UInt8 → UInt64
  | [] => 0
  | b :: bs => b.toUInt64 + 256 * ofBytes bs

/-- The word at `a`. -/
def word (m : Memory) (a : Ptr) : UInt64 := ofBytes ((List.range 8).map fun i => m.read (a + UInt64.ofNat i))

/-- Writes a word at `a`. -/
def setWord (m : Memory) (a : Ptr) (w : UInt64) : Memory := m.setBytes a (wordBytes w)

/-- The `n` words from `a` on. -/
def wordsAt (m : Memory) (a : Ptr) (n : Nat) : Array UInt64 :=
  Array.ofFn fun i : Fin n => m.word (a + UInt64.ofNat (8 * i))

/-- Writes words from `a` on. -/
def setWords (m : Memory) (a : Ptr) : List UInt64 → Memory
  | [] => m
  | w :: ws => (m.setWord a w).setWords (a + 8) ws

theorem ofBytes_wordBytes (w : UInt64) : ofBytes (wordBytes w) = w := by
  rw [← UInt64.toNat_inj]
  simp only [wordBytes, ofBytes, List.range, List.range.loop, List.map]
  simp [UInt64.toNat_add, UInt64.toNat_mul, Nat.shiftRight_eq_div_pow]
  have := w.toNat_lt
  omega

/-- A byte outside the written string keeps its value. -/
theorem read_setBytes_of_apart {m : Memory} {a a' : Ptr} :
    ∀ {bs : List UInt8}, (∀ i < bs.length, a' ≠ a + UInt64.ofNat i) → (m.setBytes a bs).read a' = m.read a'
  | bs, h => by
    induction bs generalizing m a with
    | nil => rfl
    | cons b bs ih =>
      rw [setBytes, ih, read_write, if_neg]
      · simpa using h 0 (by simp)
      · intro i hi
        have := h (i + 1) (by simpa using hi)
        rwa [show UInt64.ofNat (i + 1) = 1 + UInt64.ofNat i by
          rw [Nat.add_comm, UInt64.ofNat_add]; rfl, ← UInt64.add_assoc] at this

/-- A byte of the written string is read back. -/
theorem read_setBytes {m : Memory} {a : Ptr} {bs : List UInt8} {i : Nat} (hi : i < bs.length)
    (hs : bs.length ≤ 2 ^ 64) : (m.setBytes a bs).read (a + UInt64.ofNat i) = bs[i] := by
  induction bs generalizing m a i with
  | nil => cases hi
  | cons b bs ih =>
    have hlen : bs.length < 2 ^ 64 := Nat.lt_of_succ_le hs
    cases i with
    | zero =>
      rw [setBytes, read_setBytes_of_apart]
      · simp [read_write]
      · intro j hj he
        have h1 : (1 : UInt64) + UInt64.ofNat j = 0 := by
          rw [← UInt64.add_right_inj a, ← UInt64.add_assoc, ← he]; rfl
        have := congrArg UInt64.toNat h1
        simp [UInt64.toNat_add] at this
        omega
    | succ i =>
      have hi' : i < bs.length := by simpa using hi
      have hstep : a + UInt64.ofNat (i + 1) = a + 1 + UInt64.ofNat i := by
        rw [Nat.add_comm i 1, UInt64.ofNat_add, ← UInt64.add_assoc]; rfl
      rw [setBytes, hstep, ih hi' (Nat.le_of_lt hlen), List.getElem_cons_succ]

/-- A word is read back as it was written. -/
theorem word_setWord (m : Memory) (a : Ptr) (w : UInt64) : (m.setWord a w).word a = w := by
  have h : (List.range 8).map (fun i => (m.setWord a w).read (a + UInt64.ofNat i)) = wordBytes w := by
    refine List.ext_getElem (by simp [wordBytes]) fun i h1 h2 => ?_
    simp only [List.getElem_map, List.getElem_range]
    exact read_setBytes h2 (by simp [wordBytes])
  rw [word, h, ofBytes_wordBytes]

/-- A word keeps its value when a word apart from it is written. -/
theorem word_setWord_of_apart {m : Memory} {a a' : Ptr} {w : UInt64}
    (h : ∀ i < 8, ∀ j < 8, a' + UInt64.ofNat i ≠ a + UInt64.ofNat j) : (m.setWord a w).word a' = m.word a' := by
  unfold word setWord
  congr 1
  refine List.map_congr_left fun i hi => read_setBytes_of_apart fun j hj => h i (List.mem_range.1 hi) j ?_
  simpa [wordBytes] using hj

end Memory

end Keel
