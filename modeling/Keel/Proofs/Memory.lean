import Mathlib.Data.Set.Card.Arithmetic
import Mathlib.Order.CompletePartialOrder
import Keel.Memory
import Keel.Proofs.Pages

/-!
# What writes alter

`Alters S m m'` says that memory `m'` differs from `m` in the addresses of `S` at most. Every write alters the block it
writes (`alters_setWord`, `alters_setBytes`, `alters_setWords`, `alters_fill`), and what is read elsewhere stays the same
(`Alters.word`, `Alters.wordsAt`). Blocks are given by a start and a number of bytes, and two blocks at offsets from one
address are disjoint as their offsets are (`disjoint_block_add`). A write of what is there already alters nothing
(`alters_setWords_self`).
-/

namespace Keel.Memory

variable {m m' m'' : Memory} {S T : Set Ptr} {a b x : Ptr} {i j k n l : Nat} {w : UInt64}

/-! ## Blocks -/

/-- The `n` addresses from `a` on. -/
def block (a : Ptr) (n : Nat) : Set Ptr := {x | ∃ i < n, x = a + UInt64.ofNat i}

theorem add_mem_block (h : i < n) : a + UInt64.ofNat i ∈ block a n := ⟨i, h, rfl⟩

theorem block_mono (h : n ≤ k) : block a n ⊆ block a k := by
  rintro x ⟨i, hi, rfl⟩
  exact ⟨i, by omega, rfl⟩

theorem add_ofNat_add (a : Ptr) (j k : Nat) : a + UInt64.ofNat j + UInt64.ofNat k = a + UInt64.ofNat (j + k) := by
  rw [UInt64.add_assoc, ← UInt64.ofNat_add]

theorem add_ofNat_inj (hj : j < 2 ^ 64) (hk : k < 2 ^ 64) : a + UInt64.ofNat j = a + UInt64.ofNat k ↔ j = k := by
  rw [UInt64.add_right_inj]
  constructor
  · intro h
    have := congrArg UInt64.toNat h
    rwa [UInt64.toNat_ofNat', UInt64.toNat_ofNat', Nat.mod_eq_of_lt hj, Nat.mod_eq_of_lt hk] at this
  · rintro rfl
    rfl

/-- A block at an offset lies in a block that reaches far enough. -/
theorem block_add_subset (h : j + n ≤ k) : block (a + UInt64.ofNat j) n ⊆ block a k := by
  rintro x ⟨i, hi, rfl⟩
  exact ⟨j + i, by omega, add_ofNat_add a j i⟩

/-- Blocks at offsets from one address. -/
theorem disjoint_block_add (h : j + n ≤ k) (hk : k + l ≤ 2 ^ 64) :
    Disjoint (block (a + UInt64.ofNat j) n) (block (a + UInt64.ofNat k) l) := by
  rw [Set.disjoint_left]
  rintro x ⟨i, hi, rfl⟩ ⟨i', hi', he⟩
  rw [add_ofNat_add, add_ofNat_add, add_ofNat_inj (by omega) (by omega)] at he
  omega

/-- A block that does not run past the last address, by the numbers of its addresses. -/
theorem mem_block_iff (h : a.toNat + n ≤ 2 ^ 64) : x ∈ block a n ↔ a.toNat ≤ x.toNat ∧ x.toNat < a.toNat + n := by
  constructor
  · rintro ⟨i, hi, rfl⟩
    rw [Align.toNat_add_ofNat (by omega)]
    omega
  · rintro ⟨h1, h2⟩
    refine ⟨x.toNat - a.toNat, by omega, ?_⟩
    rw [← UInt64.toNat_inj, Align.toNat_add_ofNat (by omega)]
    omega

/-- The page at an address. -/
def pageAt (a : Ptr) : Set Ptr := block a 4096

theorem mem_pageAt (h : a.toNat % 4096 = 0) : x ∈ pageAt a ↔ x.toNat / 4096 = a.toNat / 4096 := by
  have := a.toNat_lt
  rw [pageAt, mem_block_iff (by omega)]
  omega

/-- Two pages are the same or disjoint. -/
theorem disjoint_pageAt (ha : a.toNat % 4096 = 0) (hb : b.toNat % 4096 = 0) (h : a ≠ b) :
    Disjoint (pageAt a) (pageAt b) := by
  rw [Set.disjoint_left]
  intro x hxa hxb
  rw [mem_pageAt ha] at hxa
  rw [mem_pageAt hb] at hxb
  exact h (UInt64.toNat_inj.1 (by omega))

/-! ## Altered addresses -/

/-- `m'` differs from `m` in the addresses of `S` at most. -/
def Alters (S : Set Ptr) (m m' : Memory) : Prop := ∀ x, x ∉ S → m'.read x = m.read x

theorem Alters.refl (S : Set Ptr) (m : Memory) : Alters S m m := fun _ _ => rfl

theorem Alters.mono (h : Alters S m m') (hST : S ⊆ T) : Alters T m m' := fun x hx => h x fun hS => hx (hST hS)

theorem Alters.trans (h : Alters S m m') (h' : Alters S m' m'') : Alters S m m'' := fun x hx =>
  (h' x hx).trans (h x hx)

theorem Alters.symm (h : Alters S m m') : Alters S m' m := fun x hx => (h x hx).symm

/-- A word no byte of which is altered. -/
theorem Alters.word (h : Alters S m m') (hd : Disjoint (block a 8) S) : m'.word a = m.word a := by
  refine congrArg ofBytes (List.map_congr_left fun i hi => ?_)
  exact h _ (Set.disjoint_left.1 hd (add_mem_block (List.mem_range.1 hi)))

/-- Words no byte of which is altered. -/
theorem Alters.wordsAt (h : Alters S m m') (hd : Disjoint (block a (8 * n)) S) : m'.wordsAt a n = m.wordsAt a n := by
  refine congrArg Array.ofFn (funext fun i => h.word (hd.mono_left (block_add_subset ?_)))
  have := i.isLt
  omega

/-! ## Writes -/

theorem alters_setBytes (m : Memory) (a : Ptr) (bs : List UInt8) : Alters (block a bs.length) m (m.setBytes a bs) :=
  fun _ hx => read_setBytes_of_apart fun i hi he => hx ⟨i, hi, he⟩

theorem length_wordBytes (w : UInt64) : (wordBytes w).length = 8 := by simp [wordBytes]

theorem alters_setWord (m : Memory) (a : Ptr) (w : UInt64) : Alters (block a 8) m (m.setWord a w) := by
  have h := alters_setBytes m a (wordBytes w)
  rwa [length_wordBytes] at h

theorem alters_fill (m : Memory) (a : Ptr) (v : UInt8) (n : Nat) : Alters (block a n) m (m.fill a v n) := by
  induction n generalizing m a with
  | zero => exact Alters.refl _ _
  | succ n ih =>
    have hfirst : Alters (block a (n + 1)) m (m.write a v) := fun x hx => by
      rw [read_write, if_neg]
      rintro rfl
      exact hx ⟨0, Nat.succ_pos n, (UInt64.add_zero _).symm⟩
    exact hfirst.trans ((ih (m.write a v) (a + 1)).mono (block_add_subset (j := 1) (by omega)))

theorem alters_setWords (m : Memory) (a : Ptr) (ws : List UInt64) :
    Alters (block a (8 * ws.length)) m (m.setWords a ws) := by
  induction ws generalizing m a with
  | nil => exact Alters.refl _ _
  | cons w ws ih =>
    have hlen : (w :: ws).length = ws.length + 1 := rfl
    have hfirst : Alters (block a (8 * (w :: ws).length)) m (m.setWord a w) := by
      refine (alters_setWord m a w).mono ?_
      have hsub := block_add_subset (a := a) (j := 0) (n := 8) (k := 8 * (w :: ws).length) (by omega)
      rwa [show a + UInt64.ofNat 0 = a from UInt64.add_zero a] at hsub
    rw [setWords]
    exact hfirst.trans ((ih (m.setWord a w) (a + 8)).mono (block_add_subset (j := 8) (by omega)))

/-- Written words are read back. -/
theorem word_setWords {ws : List UInt64} (hi : i < ws.length) (hs : 8 * ws.length ≤ 2 ^ 64) :
    (m.setWords a ws).word (a + UInt64.ofNat (8 * i)) = ws[i] := by
  induction ws generalizing m a i with
  | nil => cases hi
  | cons w ws ih =>
    have hlen : (w :: ws).length = ws.length + 1 := rfl
    rw [setWords]
    cases i with
    | zero =>
      have hrest := alters_setWords (m.setWord a w) (a + 8) ws
      rw [Nat.mul_zero, show a + UInt64.ofNat 0 = a from UInt64.add_zero a, hrest.word ?_, word_setWord]
      · rfl
      · have hd := disjoint_block_add (a := a) (j := 0) (n := 8) (k := 8) (l := 8 * ws.length) (by omega) (by omega)
        rwa [show a + UInt64.ofNat 0 = a from UInt64.add_zero a] at hd
    | succ i =>
      have hi' : i < ws.length := Nat.lt_of_succ_lt_succ hi
      have hstep : a + UInt64.ofNat (8 * (i + 1)) = a + 8 + UInt64.ofNat (8 * i) := by
        rw [show (8 : UInt64) = UInt64.ofNat 8 from rfl, add_ofNat_add]
        congr 2
        omega
      rw [hstep, ih hi' (by omega), List.getElem_cons_succ]

theorem wordsAt_setWords {ws : Array UInt64} (hs : 8 * ws.size ≤ 2 ^ 64) :
    (m.setWords a ws.toList).wordsAt a ws.size = ws := by
  refine Array.ext (by simp [wordsAt]) fun i h1 h2 => ?_
  simp only [wordsAt, Array.getElem_ofFn]
  rw [word_setWords (by simpa using h2) (by simpa using hs), Array.getElem_toList]

/-! ## The same bytes -/

theorem toNat_ofBytes_cons {bs : List UInt8} (b : UInt8) (h : (ofBytes bs).toNat < 256 ^ 7) :
    (ofBytes (b :: bs)).toNat = b.toNat + 256 * (ofBytes bs).toNat := by
  have hb := b.toNat_lt
  have h256 : (256 : UInt64).toNat = 256 := rfl
  rw [ofBytes, UInt64.toNat_add, UInt64.toNat_mul, UInt8.toNat_toUInt64, h256]
  omega

/-- The bytes of a number are no more than its length tells. -/
theorem toNat_ofBytes_lt {bs : List UInt8} (h : bs.length ≤ 8) : (ofBytes bs).toNat < 256 ^ bs.length := by
  induction bs with
  | nil => exact Nat.zero_lt_one
  | cons b bs ih =>
    have hlen : bs.length < 8 := h
    have hb := b.toNat_lt
    have hlt := ih (Nat.le_of_lt hlen)
    have hle : 256 ^ bs.length ≤ 256 ^ 7 := Nat.pow_le_pow_right (by decide) (Nat.le_of_lt_succ hlen)
    rw [toNat_ofBytes_cons b (Nat.lt_of_lt_of_le hlt hle), List.length_cons, Nat.pow_succ]
    omega

/-- A byte of the number that a string stands for. -/
theorem byte_ofBytes {bs : List UInt8} {i : Nat} (hi : i < bs.length) (h : bs.length ≤ 8) :
    (ofBytes bs).toNat / 256 ^ i % 256 = bs[i].toNat := by
  induction bs generalizing i with
  | nil => cases hi
  | cons b bs ih =>
    have hlen : bs.length < 8 := h
    have hb := b.toNat_lt
    have hle : 256 ^ bs.length ≤ 256 ^ 7 := Nat.pow_le_pow_right (by decide) (Nat.le_of_lt_succ hlen)
    rw [toNat_ofBytes_cons b (Nat.lt_of_lt_of_le (toNat_ofBytes_lt (Nat.le_of_lt hlen)) hle)]
    cases i with
    | zero =>
      rw [Nat.pow_zero, Nat.div_one, List.getElem_cons_zero]
      omega
    | succ i =>
      have hrest : (b.toNat + 256 * (ofBytes bs).toNat) / 256 = (ofBytes bs).toNat := by omega
      rw [Nat.pow_succ', ← Nat.div_div_eq_div_mul, hrest, List.getElem_cons_succ]
      exact ih (Nat.lt_of_succ_lt_succ hi) (Nat.le_of_lt hlen)

/-- Eight bytes are those of the word they make up. -/
theorem wordBytes_ofBytes {bs : List UInt8} (h : bs.length = 8) : wordBytes (ofBytes bs) = bs := by
  refine List.ext_getElem (by simp [wordBytes, h]) fun i _ hi => ?_
  have hshift : 8 * i % 64 = 8 * i := Nat.mod_eq_of_lt (by omega)
  rw [← UInt8.toNat_inj, ← byte_ofBytes hi (Nat.le_of_eq h)]
  simp [wordBytes, Nat.shiftRight_eq_div_pow, hshift, Nat.pow_mul]

/-- Writing a string that is there changes no byte. -/
theorem alters_setBytes_self {bs : List UInt8} (h : ∀ i (hi : i < bs.length), m.read (a + UInt64.ofNat i) = bs[i]) :
    Alters ∅ m (m.setBytes a bs) := by
  induction bs generalizing m a with
  | nil => exact Alters.refl _ _
  | cons b bs ih =>
    have hfirst : Alters ∅ m (m.write a b) := fun x _ => by
      rw [read_write]
      split
      · rename_i hx
        have hb := h 0 (Nat.succ_pos _)
        rw [hx, ← UInt64.add_zero a]
        exact hb.symm
      · rfl
    refine hfirst.trans (ih fun i hi => ?_)
    rw [hfirst _ (Set.notMem_empty _), show (1 : UInt64) = UInt64.ofNat 1 from rfl, add_ofNat_add, Nat.add_comm]
    exact h (i + 1) (Nat.succ_lt_succ hi)

/-- The bytes of a word are those at its addresses. -/
theorem wordBytes_word (m : Memory) (a : Ptr) :
    wordBytes (m.word a) = (List.range 8).map fun i => m.read (a + UInt64.ofNat i) := wordBytes_ofBytes (by simp)

/-- Writing a word that is there changes no byte. -/
theorem alters_setWord_self (m : Memory) (a : Ptr) : Alters ∅ m (m.setWord a (m.word a)) := by
  rw [setWord, wordBytes_word]
  exact alters_setBytes_self fun i hi => by simp

/-- Memories with the same word at `a` have the same bytes there. -/
theorem read_of_word (h : m'.word a = m.word a) (hi : i < 8) :
    m'.read (a + UInt64.ofNat i) = m.read (a + UInt64.ofNat i) := by
  have hbytes := congrArg wordBytes h
  rw [wordBytes_word, wordBytes_word] at hbytes
  exact List.map_inj_left.1 hbytes i (List.mem_range.2 hi)

/-- If words are all that may differ, and they do not, then no byte does. -/
theorem Alters.of_wordsAt (h : Alters (block a (8 * n)) m m') (hw : m'.wordsAt a n = m.wordsAt a n) :
    Alters ∅ m m' := by
  intro x _
  by_cases hx : x ∈ block a (8 * n)
  · obtain ⟨i, hi, rfl⟩ := hx
    have hword : m'.word (a + UInt64.ofNat (8 * (i / 8))) = m.word (a + UInt64.ofNat (8 * (i / 8))) := by
      have hk : i / 8 < n := by omega
      have hget := congrArg (fun ws => ws[i / 8]?) hw
      simpa only [Memory.wordsAt, Array.getElem?_ofFn, hk, ↓reduceDIte, Option.some.injEq] using hget
    have hread := read_of_word hword (Nat.mod_lt i (by decide))
    rwa [add_ofNat_add, Nat.div_add_mod] at hread
  · exact h x hx

/-- Writing words that are there changes no byte. -/
theorem alters_setWords_self {ws : List UInt64} (h : ∀ i (hi : i < ws.length), m.word (a + UInt64.ofNat (8 * i)) = ws[i]) :
    Alters ∅ m (m.setWords a ws) := by
  induction ws generalizing m a with
  | nil => exact Alters.refl _ _
  | cons w ws ih =>
    have hw : m.word a = w := by
      have h0 := h 0 (Nat.succ_pos _)
      rwa [Nat.mul_zero, show a + UInt64.ofNat 0 = a from UInt64.add_zero a] at h0
    have hfirst : Alters ∅ m (m.setWord a w) := hw ▸ alters_setWord_self m a
    rw [setWords]
    refine hfirst.trans (ih fun i hi => ?_)
    rw [hfirst.word (Set.disjoint_empty _), show (8 : UInt64) = UInt64.ofNat 8 from rfl, add_ofNat_add,
      show 8 + 8 * i = 8 * (i + 1) by omega]
    exact h (i + 1) (Nat.succ_lt_succ hi)

/-- The same string written into two memories. -/
theorem Alters.setBytes (h : Alters S m m') (a : Ptr) (bs : List UInt8) :
    Alters S (m.setBytes a bs) (m'.setBytes a bs) := by
  induction bs generalizing m m' a with
  | nil => exact h
  | cons b bs ih =>
    refine ih (fun x hx => ?_) (a + 1)
    rw [read_write, read_write, h x hx]

theorem Alters.setWord (h : Alters S m m') (a : Ptr) (w : UInt64) : Alters S (m.setWord a w) (m'.setWord a w) :=
  h.setBytes a (wordBytes w)

/-- The same words written into two memories. -/
theorem Alters.setWords (h : Alters S m m') (a : Ptr) (ws : List UInt64) :
    Alters S (m.setWords a ws) (m'.setWords a ws) := by
  induction ws generalizing m m' a with
  | nil => exact h
  | cons w ws ih =>
    rw [Memory.setWords, Memory.setWords]
    exact ih (h.setWord a w) (a + 8)

end Keel.Memory
