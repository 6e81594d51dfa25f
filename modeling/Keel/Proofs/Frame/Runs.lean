import Mathlib.Data.Finset.Card
import Mathlib.Order.Interval.Finset.Nat
import Keel.Frame.Pool

/-!
# Runs of bits

What the operations on runs of bits do, bit by bit, and what they count: `markRun` counts the bits of the run that were
clear (`markRun_ok`), `unmarkRun` those that were set (`unmarkRun_ok`), and `firstClear?` finds the lowest clear bit from
a word on (`firstClear?_eq_some`, `firstClear?_eq_none`). Sets of bits are finite sets of indices, so that a count is a
cardinality.
-/

namespace Keel.Frame

namespace Bitmap

variable {ε : Type} {b : Bitmap} {i j n k : Nat}

/-- The first bits are among those of the words they need. -/
theorem lt_wordsFor (h : j < n) : j < 64 * wordsFor n := by
  unfold wordsFor
  omega

theorem le_wordsFor (n : Nat) : n ≤ 64 * wordsFor n := by
  unfold wordsFor
  omega

/-- The clear bits among some indices. -/
def clearIn (b : Bitmap) (s : Finset Nat) : Finset Nat := s.filter fun j => b.isSet j = false

/-- The set bits among some indices. -/
def setIn (b : Bitmap) (s : Finset Nat) : Finset Nat := s.filter fun j => b.isSet j = true

theorem mem_clearIn {s : Finset Nat} : j ∈ b.clearIn s ↔ j ∈ s ∧ b.isSet j = false := Finset.mem_filter

theorem mem_setIn {s : Finset Nat} : j ∈ b.setIn s ↔ j ∈ s ∧ b.isSet j = true := Finset.mem_filter

/-- The bits of a set of indices are the clear ones and the set ones. -/
theorem card_clearIn_add_card_setIn (b : Bitmap) (s : Finset Nat) : (b.clearIn s).card + (b.setIn s).card = s.card := by
  have h := Finset.card_filter_add_card_filter_not (s := s) fun j => b.isSet j = false
  simpa [clearIn, setIn] using h

theorem card_clearIn_singleton (b : Bitmap) (i : Nat) : (b.clearIn {i}).card = if b.isSet i = false then 1 else 0 := by
  rw [clearIn, Finset.filter_singleton]
  split <;> rfl

theorem clearIn_congr {b b' : Bitmap} {s : Finset Nat} (h : ∀ j ∈ s, b'.isSet j = b.isSet j) :
    b'.clearIn s = b.clearIn s := Finset.filter_congr fun j hj => by rw [h j hj]

theorem setIn_congr {b b' : Bitmap} {s : Finset Nat} (h : ∀ j ∈ s, b'.isSet j = b.isSet j) :
    b'.setIn s = b.setIn s := Finset.filter_congr fun j hj => by rw [h j hj]

private theorem Ico_succ_eq_insert (i n : Nat) :
    Finset.Ico i (i + (n + 1)) = insert i (Finset.Ico (i + 1) (i + 1 + n)) := by
  ext j
  simp only [Finset.mem_insert, Finset.mem_Ico]
  omega

theorem clearIn_Ico_succ (b : Bitmap) (i n : Nat) : (b.clearIn (Finset.Ico i (i + (n + 1)))).card =
    (b.clearIn (Finset.Ico (i + 1) (i + 1 + n))).card + if b.isSet i then 0 else 1 := by
  unfold clearIn
  rw [Ico_succ_eq_insert, Finset.filter_insert]
  cases b.isSet i <;> simp

theorem setIn_Ico_succ (b : Bitmap) (i n : Nat) : (b.setIn (Finset.Ico i (i + (n + 1)))).card =
    (b.setIn (Finset.Ico (i + 1) (i + 1 + n))).card + if b.isSet i then 1 else 0 := by
  unfold setIn
  rw [Ico_succ_eq_insert, Finset.filter_insert]
  cases b.isSet i <;> simp

/-! ## Single bits -/

theorem isSet_eq_getLsbD {w : UInt64} (h : b.words[i / 64]? = some w) : b.isSet i = w.toBitVec.getLsbD (i % 64) := by
  rw [isSet, h, Option.any_some, and_mask_ne_zero]

theorem isSet_of_size_le (h : b.words.size ≤ i / 64) : b.isSet i = false := by
  rw [isSet, Array.getElem?_eq_none h]
  rfl

/-- Marking a bit that exists. -/
theorem mark_ok (h : i / 64 < b.words.size) : ∃ b', b.mark (ε := ε) i = .ok (!b.isSet i, b') ∧
    b'.words.size = b.words.size ∧ ∀ j, b'.isSet j = (j == i || b.isSet j) := by
  have hw : b.words[i / 64]? = some b.words[i / 64] := Array.getElem?_eq_getElem h
  cases hm : b.mark (ε := ε) i with
  | error e => simp [mark, hw] at hm
  | ok r =>
    obtain ⟨fresh, b'⟩ := r
    exact ⟨b', by rw [fresh_of_mark hm], size_of_mark hm, isSet_of_mark hm⟩

/-- Clearing a bit that exists. -/
theorem unmark_ok (h : i / 64 < b.words.size) : ∃ b', b.unmark (ε := ε) i = .ok (b.isSet i, b') ∧
    b'.words.size = b.words.size ∧ ∀ j, b'.isSet j = (j != i && b.isSet j) := by
  have hw : b.words[i / 64]? = some b.words[i / 64] := Array.getElem?_eq_getElem h
  cases hm : b.unmark (ε := ε) i with
  | error e => simp [unmark, hw] at hm
  | ok r =>
    obtain ⟨old, b'⟩ := r
    exact ⟨b', by rw [old_of_unmark hm], size_of_unmark hm, isSet_of_unmark hm⟩

/-! ## Runs -/

/-- Marking a run of bits that exist. -/
theorem markRun_ok (h : ∀ j, i ≤ j → j < i + n → j / 64 < b.words.size) :
    ∃ b', b.markRun (ε := ε) i n k = .ok (k + (b.clearIn (Finset.Ico i (i + n))).card, b') ∧
      b'.words.size = b.words.size ∧ ∀ j, b'.isSet j = (decide (i ≤ j ∧ j < i + n) || b.isSet j) := by
  induction n generalizing b i k with
  | zero => exact ⟨b, by simp [markRun, clearIn], rfl, fun j => by simp⟩
  | succ n ih =>
    obtain ⟨b₁, hm, hsize, hset⟩ := mark_ok (ε := ε) (h i (by omega) (by omega))
    have h₁ : ∀ j, i + 1 ≤ j → j < i + 1 + n → j / 64 < b₁.words.size := fun j h1 h2 => by
      rw [hsize]
      exact h j (by omega) (by omega)
    obtain ⟨b', hr, hsize', hset'⟩ := ih (k := if b.isSet i then k else k + 1) h₁
    have hrest : b₁.clearIn (Finset.Ico (i + 1) (i + 1 + n)) = b.clearIn (Finset.Ico (i + 1) (i + 1 + n)) := by
      refine clearIn_congr fun j hj => ?_
      rw [hset, beq_eq_false_iff_ne.2 (by have := Finset.mem_Ico.1 hj; omega), Bool.false_or]
    refine ⟨b', ?_, hsize'.trans hsize, fun j => ?_⟩
    · rw [markRun, hm]
      simp only [Bool.not_eq_true']
      have he : (if b.isSet i = false then k + 1 else k) = if b.isSet i then k else k + 1 := by
        cases b.isSet i <;> rfl
      rw [he, hr, hrest, clearIn_Ico_succ]
      cases b.isSet i <;> simp; omega
    · rw [hset', hset, Bool.eq_iff_iff]
      simp only [Bool.or_eq_true, decide_eq_true_eq, beq_iff_eq]
      constructor
      · rintro (h | rfl | h)
        · left; omega
        · left; omega
        · right; exact h
      · rintro (h | h)
        · by_cases hj : j = i
          · right; left; exact hj
          · left; omega
        · right; right; exact h

/-- Clearing a run of bits that exist. -/
theorem unmarkRun_ok (h : ∀ j, i ≤ j → j < i + n → j / 64 < b.words.size) :
    ∃ b', b.unmarkRun (ε := ε) i n k = .ok (k + (b.setIn (Finset.Ico i (i + n))).card, b') ∧
      b'.words.size = b.words.size ∧ ∀ j, b'.isSet j = (!decide (i ≤ j ∧ j < i + n) && b.isSet j) := by
  induction n generalizing b i k with
  | zero => exact ⟨b, by simp [unmarkRun, setIn], rfl, fun j => by simp; omega⟩
  | succ n ih =>
    obtain ⟨b₁, hm, hsize, hset⟩ := unmark_ok (ε := ε) (h i (by omega) (by omega))
    have h₁ : ∀ j, i + 1 ≤ j → j < i + 1 + n → j / 64 < b₁.words.size := fun j h1 h2 => by
      rw [hsize]
      exact h j (by omega) (by omega)
    obtain ⟨b', hr, hsize', hset'⟩ := ih (k := if b.isSet i then k + 1 else k) h₁
    have hrest : b₁.setIn (Finset.Ico (i + 1) (i + 1 + n)) = b.setIn (Finset.Ico (i + 1) (i + 1 + n)) := by
      refine setIn_congr fun j hj => ?_
      rw [hset, bne_iff_ne.2 (by have := Finset.mem_Ico.1 hj; omega), Bool.true_and]
    refine ⟨b', ?_, hsize'.trans hsize, fun j => ?_⟩
    · rw [unmarkRun, hm]
      simp only
      rw [hr, hrest, setIn_Ico_succ]
      cases b.isSet i <;> simp; omega
    · rw [hset', hset, Bool.eq_iff_iff]
      simp only [Bool.and_eq_true, Bool.not_eq_true', decide_eq_false_iff_not, bne_iff_ne, ne_eq]
      constructor
      · rintro ⟨h, h', h''⟩
        exact ⟨by omega, h''⟩
      · rintro ⟨h, h'⟩
        exact ⟨by omega, by omega, h'⟩

/-- Counting the set bits of a run of bits that exist. -/
theorem countRun_ok (h : ∀ j, i ≤ j → j < i + n → j / 64 < b.words.size) :
    b.countRun (ε := ε) i n k = .ok (k + (b.setIn (Finset.Ico i (i + n))).card) := by
  induction n generalizing i k with
  | zero => simp [countRun, setIn]
  | succ n ih =>
    rw [countRun, test_of_lt (h i (by omega) (by omega))]
    simp only
    rw [ih fun j h1 h2 => h j (by omega) (by omega), setIn_Ico_succ]
    cases b.isSet i <;> simp; omega

/-- Filling words sets all their bits. -/
theorem isSet_fillWords (b : Bitmap) (n j : Nat) :
    (b.fillWords n).isSet j = (decide (j / 64 < b.words.size) && (decide (j / 64 < n) || b.isSet j)) := by
  by_cases hj : j / 64 < b.words.size
  · have hw : b.words[j / 64]? = some b.words[j / 64] := Array.getElem?_eq_getElem hj
    have hf : (b.fillWords n).words[j / 64]? = some (if j / 64 < n then full else b.words[j / 64]) := by
      simp [fillWords, hj]
    rw [isSet_eq_getLsbD hf, isSet_eq_getLsbD hw]
    by_cases hn : j / 64 < n
    · have hlt : j % 64 < 64 := Nat.mod_lt _ (by decide)
      have hall : ∀ k < 64, full.toBitVec.getLsbD k = true := by decide
      simp [hn, hj, hall _ hlt]
    · simp [hn, hj]
  · rw [isSet_of_size_le (by rw [size_fillWords]; omega)]
    simp [hj]

/-! ## The lowest clear bit -/

theorem eq_full_iff {w : UInt64} : w = full ↔ ∀ k < 64, w.toBitVec.getLsbD k = true := by
  constructor
  · rintro rfl
    decide
  · intro h
    rw [← UInt64.toBitVec_inj]
    refine BitVec.eq_of_getLsbD_eq fun k hk => ?_
    have hall : ∀ k < 64, full.toBitVec.getLsbD k = true := by decide
    rw [h k hk, hall k hk]

theorem getLsbD_lt_trailingOnes {w : UInt64} {k : Nat} (h : k < trailingOnes w) : w.toBitVec.getLsbD k = true := by
  have hk : k < 64 := by
    have hle : trailingOnes w ≤ (List.range 64).length := List.findIdx_le_length
    rw [List.length_range] at hle
    omega
  have := List.not_of_lt_findIdx h
  simp only [List.getElem_range, and_mask_eq_zero, Nat.mod_eq_of_lt hk] at this
  simpa using this

theorem trailingOnes_lt {w : UInt64} (h : w ≠ full) : trailingOnes w < 64 := by
  by_contra hge
  exact h (eq_full_iff.2 fun k hk => getLsbD_lt_trailingOnes (by omega))

theorem getLsbD_trailingOnes {w : UInt64} (h : w ≠ full) : w.toBitVec.getLsbD (trailingOnes w) = false := by
  have hlt := trailingOnes_lt h
  have hx : trailingOnes w < (List.range 64).length := by rwa [List.length_range]
  have hfound : (w &&& mask (List.range 64)[trailingOnes w] == 0) = true := List.findIdx_getElem (w := hx)
  rwa [List.getElem_range, and_mask_eq_zero, Nat.mod_eq_of_lt hlt, Bool.not_eq_true'] at hfound

/-- The lowest clear bit of one word. -/
def clearOfWord? (b : Bitmap) (k : Nat) : Option Nat :=
  (b.words[k]?).bind fun w => if w = full then none else some (k * 64 + trailingOnes w)

theorem clearOfWord?_eq_none {k : Nat} : b.clearOfWord? k = none ↔
    ∀ j, j / 64 = k → k < b.words.size → b.isSet j = true := by
  unfold clearOfWord?
  by_cases hk : k < b.words.size
  · have hw : b.words[k]? = some b.words[k] := Array.getElem?_eq_getElem hk
    rw [hw, Option.bind_some, ite_eq_left_iff]
    simp only [reduceCtorEq, imp_false, not_not]
    rw [eq_full_iff]
    constructor
    · rintro h j rfl -
      rw [isSet_eq_getLsbD hw]
      exact h _ (Nat.mod_lt _ (by decide))
    · intro h i hi
      have hj : (k * 64 + i) / 64 = k := by omega
      have := h (k * 64 + i) hj hk
      rw [isSet_eq_getLsbD (by rw [hj, hw]), show (k * 64 + i) % 64 = i by omega] at this
      exact this
  · rw [Array.getElem?_eq_none (by omega)]
    simp [hk]

theorem clearOfWord?_eq_some {k : Nat} (h : b.clearOfWord? k = some i) :
    i / 64 = k ∧ k < b.words.size ∧ b.isSet i = false ∧ ∀ j < i, j / 64 = k → b.isSet j = true := by
  unfold clearOfWord? at h
  by_cases hk : k < b.words.size
  · have hw : b.words[k]? = some b.words[k] := Array.getElem?_eq_getElem hk
    rw [hw, Option.bind_some] at h
    split at h
    · cases h
    · rename_i hne
      simp only [Option.some.injEq] at h
      have hlt := trailingOnes_lt hne
      refine ⟨by omega, hk, ?_, fun j hj hjk => ?_⟩
      · rw [isSet_eq_getLsbD (by rw [show i / 64 = k by omega, hw]), show i % 64 = trailingOnes b.words[k] by omega]
        exact getLsbD_trailingOnes hne
      · rw [isSet_eq_getLsbD (by rw [hjk, hw])]
        exact getLsbD_lt_trailingOnes (by omega)
  · rw [Array.getElem?_eq_none (by omega)] at h
    cases h

theorem firstClear?_eq_none {start stop : Nat} : b.firstClear? start stop = none ↔
    ∀ j, start ≤ j / 64 → j / 64 < stop → j / 64 < b.words.size → b.isSet j = true := by
  show (List.range' start (stop - start)).findSome? b.clearOfWord? = none ↔ _
  rw [List.findSome?_eq_none_iff]
  simp only [List.mem_range'_1, clearOfWord?_eq_none]
  constructor
  · intro h j h1 h2 h3
    exact h (j / 64) ⟨h1, by omega⟩ j rfl h3
  · rintro h k ⟨h1, h2⟩ j rfl h3
    exact h j h1 (by omega) h3

/-- The bit found is clear, and every bit before it, from the first word looked at, is set. -/
theorem firstClear?_eq_some {start stop : Nat} (h : b.firstClear? start stop = some i) :
    start ≤ i / 64 ∧ i / 64 < stop ∧ i / 64 < b.words.size ∧ b.isSet i = false ∧
      ∀ j < i, start ≤ j / 64 → b.isSet j = true := by
  change (List.range' start (stop - start)).findSome? b.clearOfWord? = some i at h
  obtain ⟨xs, k, ys, hsplit, hk, hbefore⟩ := List.findSome?_eq_some_iff.1 h
  obtain ⟨hik, hsize, hclear, hword⟩ := clearOfWord?_eq_some hk
  obtain ⟨hxs, hys⟩ := List.range'_eq_append_iff.1 hsplit
  obtain ⟨hlen, rfl, hcons⟩ := hys
  have hk' : k = start + hxs := by
    have := List.range'_eq_cons_iff.1 hcons.symm
    omega
  have hrange : start + hxs < stop := by
    have := List.range'_eq_cons_iff.1 hcons.symm
    omega
  refine ⟨by omega, by omega, by omega, hclear, fun j hj hs => ?_⟩
  by_cases hjk : j / 64 = k
  · exact hword j hj hjk
  · have hm : j / 64 ∈ List.range' start hxs := List.mem_range'_1.2 ⟨hs, by omega⟩
    exact clearOfWord?_eq_none.1 (hbefore _ hm) j rfl (by omega)

end Bitmap

/-! ## The bits of a range of frames -/

/-- The bits of a range of frames are those of its tracked frames. -/
theorem Ledger.mem_indexRun (l : Ledger) {first stop j : Nat} :
    j ∈ Finset.Ico (l.indexRun first stop).1 ((l.indexRun first stop).1 + (l.indexRun first stop).2) ↔
      j < l.frames ∧ first ≤ l.base + j ∧ l.base + j < stop := by
  rw [Finset.mem_Ico]
  simp only [Ledger.indexRun]
  omega

end Keel.Frame
