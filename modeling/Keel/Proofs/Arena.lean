import Keel.Arena
import Keel.Proofs.Frame.Operations
import Keel.Proofs.Memory
import Keel.Proofs.Steps

/-!
# The pool of an arena

`Keeps s p B` says that the arena `s` keeps the pool `p`, with the bitmap at the addresses `B`. A write elsewhere keeps
it (`Keeps.write`), and what an action on the pool does to the pool it does to the arena, writing nothing but the
bitmap (`onPool_ends`; for requests `allocFrame_ends`, `freeFrame_ends`, `reserve_ends`). The bitmap stays at its place
(`steps_onPool`), so where a request leaves it as it was, it leaves every byte as it was (`Keeps.alters_empty`).
-/

namespace Keel

open Keel.Memory (Alters block)
open Keel.Frame (Bitmap Ledger Pool Request)

namespace Home

/-- The addresses at which a bitmap is kept. -/
def bytes : Home → Set Ptr
  | apart _ => ∅
  | resident start words => block start (8 * words)

/-- Where in memory a bitmap is kept, and in how many words, if it is. -/
def place : Home → Option (Ptr × Nat)
  | apart _ => none
  | resident start words => some (start, words)

/-- A home that does not run into itself. -/
def Fits : Home → Prop
  | apart _ => True
  | resident _ words => 8 * words ≤ 2 ^ 64

variable {h : Home} {m m' : Memory} {b : Bitmap} {S : Set Ptr}

theorem bytes_store : (h.store m b).1.bytes = h.bytes := by cases h <;> rfl

theorem fits_store : (h.store m b).1.Fits ↔ h.Fits := by cases h <;> rfl

theorem place_store : (h.store m b).1.place = h.place := by cases h <;> rfl

/-- A bitmap of the right size is read back as it was written. -/
theorem load_store (hf : h.Fits) (hs : b.words.size = (h.load m).words.size) :
    (h.store m b).1.load (h.store m b).2 = b := by
  cases h with
  | apart b' => rfl
  | resident start words =>
    have hw : b.words.size = words := hs.trans (by simp [load, Memory.wordsAt])
    subst hw
    show (⟨(m.setWords start b.words.toList).wordsAt start b.words.size⟩ : Bitmap) = b
    rw [Memory.wordsAt_setWords hf]

theorem alters_store (hs : b.words.size = (h.load m).words.size) : Alters h.bytes m (h.store m b).2 := by
  cases h with
  | apart b' => exact Alters.refl _ _
  | resident start words =>
    have hw : b.words.toList.length = words := by
      rw [Array.length_toList]
      exact hs.trans (by simp [load, Memory.wordsAt])
    have := Memory.alters_setWords m start b.words.toList
    rwa [hw] at this

theorem load_congr (ha : Alters S m m') (hd : Disjoint S h.bytes) : h.load m' = h.load m := by
  cases h with
  | apart b => rfl
  | resident start words =>
    show (⟨m'.wordsAt start words⟩ : Bitmap) = ⟨m.wordsAt start words⟩
    rw [ha.wordsAt hd.symm]

/-- Keeping a bitmap that is as it was alters nothing. -/
theorem alters_store_self : Alters ∅ m (h.store m (h.load m)).2 := by
  cases h with
  | apart b => exact Alters.refl _ _
  | resident start words =>
    refine Memory.alters_setWords_self fun i hi => ?_
    simp [load, Memory.wordsAt]

/-- If a bitmap at one place is all that may differ, and it does not, then no byte does. -/
theorem alters_of_load {h' : Home} (hp : h'.place = h.place) (ha : Alters h.bytes m m') (hl : h'.load m' = h.load m) :
    Alters ∅ m m' := by
  cases h with
  | apart b => exact ha
  | resident start words =>
    cases h' with
    | apart b => cases hp
    | resident start' words' =>
      obtain ⟨rfl, rfl⟩ := Prod.mk.inj (Option.some.inj hp)
      exact ha.of_wordsAt (congrArg Bitmap.words hl)

/-- A bitmap is kept alike in two memories, and they differ no more than before. -/
theorem store_congr (ha : Alters S m m') :
    (h.store m' b).1 = (h.store m b).1 ∧ Alters S (h.store m b).2 (h.store m' b).2 := by
  cases h with
  | apart b => exact ⟨rfl, ha⟩
  | resident start words => exact ⟨rfl, ha.setWords start b.words.toList⟩

end Home

namespace Arena

variable {α : Type} {s : Arena} {p : Pool} {B S : Set Ptr} {m : Memory} {x : Action Pool α}

/-- The arena keeps the pool `p`, its bitmap at the addresses `B`. -/
def Keeps (s : Arena) (p : Pool) (B : Set Ptr) : Prop :=
  ∃ h, s.pool = some h ∧ h.home.Fits ∧ h.home.bytes = B ∧ h.ledger.withBitmap (h.home.load s.memory) = p

theorem Keeps.pool? (h : s.Keeps p B) : s.pool? = some p := by
  obtain ⟨h, hs, -, -, rfl⟩ := h
  rw [Arena.pool?, hs, Option.map_some]

/-- A write apart from the bitmap leaves the pool as it is. -/
theorem Keeps.write (h : s.Keeps p B) (ha : Alters S s.memory m) (hd : Disjoint S B) :
    Keeps { s with memory := m } p B := by
  obtain ⟨h, hs, hf, rfl, rfl⟩ := h
  exact ⟨h, hs, hf, rfl, by rw [Home.load_congr ha hd]⟩

/-- What an action on the pool does, where it keeps the size of the bitmap. -/
theorem onPool_ends (h : s.Keeps p B) (hs : (x p).state.bitmap.words.size = p.bitmap.words.size) :
    (onPool x).Ends s fun r t => r = (x p).result ∧ t.Keeps (x p).state B ∧ Alters B s.memory t.memory ∧
      t.poison = s.poison := by
  obtain ⟨h, hpool, hf, rfl, rfl⟩ := h
  unfold Action.Ends onPool
  rw [hpool]
  exact ⟨rfl, ⟨_, rfl, Home.fits_store.2 hf, Home.bytes_store, congrArg (Ledger.withBitmap _) (Home.load_store hf hs)⟩,
    Home.alters_store hs, rfl⟩

/-- `t` is what `s` has become: it keeps the pool `q`, and apart from the bitmap only addresses of `S` were altered. -/
structure Becomes (s t : Arena) (q : Pool) (B S : Set Ptr) : Prop where
  keeps : t.Keeps q B
  alters : Alters (S ∪ B) s.memory t.memory
  poison : t.poison = s.poison

/-- Arenas that differ in nothing that is read of them: the pool is the same, and so is every byte. -/
structure Alike (s t : Arena) : Prop where
  alters : Alters ∅ s.memory t.memory
  pool : t.pool = s.pool
  poison : t.poison = s.poison

theorem Alike.refl (s : Arena) : s.Alike s := ⟨Alters.refl _ _, rfl, rfl⟩

section

variable {t u : Arena} {q : Pool} {T : Set Ptr}

theorem Keeps.becomes (h : s.Keeps p B) : s.Becomes s p B S := ⟨h, Alters.refl _ _, rfl⟩

theorem Becomes.trans (h : s.Becomes t p B S) (h' : t.Becomes u q B S) : s.Becomes u q B S :=
  ⟨h'.keeps, h.alters.trans h'.alters, h'.poison.trans h.poison⟩

theorem Becomes.mono (h : s.Becomes t p B S) (hST : S ⊆ T) : s.Becomes t p B T :=
  ⟨h.keeps, h.alters.mono (Set.union_subset_union_left B hST), h.poison⟩

/-- A write apart from the bitmap. -/
theorem Keeps.becomes_write (h : s.Keeps p B) (ha : Alters S s.memory m) (hd : Disjoint S B) :
    s.Becomes { s with memory := m } p B S :=
  ⟨h.write ha hd, ha.mono Set.subset_union_left, rfl⟩

end

/-! ## The place of the bitmap -/

section

variable {t : Arena} {q : Pool}

/-- Where in memory the bitmap of the pool is kept, if there is a pool and it is. -/
def place (s : Arena) : Option (Option (Ptr × Nat)) := s.pool.map fun h => h.home.place

/-- `t` keeps its bitmap where `s` does. -/
def SamePlace (s t : Arena) : Prop := t.place = s.place

instance : IsPreorder Arena SamePlace where
  refl _ := rfl
  trans _ _ _ h h' := h'.trans h

/-- A pool whose bitmap is in memory is what memory holds there. -/
theorem Keeps.resident {start : Ptr} {words : Nat} (h : s.Keeps p B) (hplace : s.place = some (some (start, words))) :
    s.pool = some ⟨p.toLedger, .resident start words⟩ ∧ p.bitmap = ⟨s.memory.wordsAt start words⟩ := by
  obtain ⟨⟨ledger, home⟩, hpool, -, -, rfl⟩ := h
  have hhome : home.place = some (start, words) := by
    rw [place, hpool] at hplace
    exact Option.some.inj hplace
  cases home with
  | apart b => cases hhome
  | resident start' words' =>
    obtain ⟨rfl, rfl⟩ := Prod.mk.inj (Option.some.inj hhome)
    exact ⟨hpool, rfl⟩

/-- Whatever is done to the pool, its bitmap stays where it is. -/
theorem steps_onPool (x : Action Pool α) : Action.Steps SamePlace (onPool x) := by
  intro s
  unfold Action.Ends onPool
  cases hs : s.pool with
  | none => rfl
  | some h => simp [SamePlace, place, withPool, hs, Home.place_store]

theorem steps_write (f : Memory → Memory) : Action.Steps SamePlace (Arena.write f) := fun _ => rfl

/-- If no more than the bitmap may have been altered, and it is as it was, then so is every byte. -/
theorem Keeps.alters_empty (hs : s.Keeps p B) (ht : t.Keeps q B) (hplace : SamePlace s t)
    (ha : Alters B s.memory t.memory) (hb : q.bitmap = p.bitmap) : Alters ∅ s.memory t.memory := by
  obtain ⟨h, hpool, -, rfl, rfl⟩ := hs
  obtain ⟨h', hpool', -, -, rfl⟩ := ht
  have hp : h'.home.place = h.home.place := by simpa [SamePlace, place, hpool, hpool'] using hplace
  exact Home.alters_of_load hp ha hb

end

/-! ## Requests to the pool -/

section

variable {rs : List Region}

/-- A request to the pool changes the bitmap and nothing else in memory. -/
theorem onPool_request (h : s.Keeps p B) (hs : p.Sound rs) (q : Request) (S : Set Ptr) (hx : (x p).state = q.on p) :
    (onPool x).Ends s fun r t => r = (x p).result ∧ s.Becomes t (p.after [q]) B S := by
  refine (onPool_ends h (by rw [hx]; exact (hs.on q).2.size)).mono ?_
  intro r t hends
  obtain ⟨hr, hk, ha, hp⟩ := hends
  rw [hx] at hk
  exact ⟨hr, hk, ha.mono Set.subset_union_right, hp⟩

/-- Asking for a frame. -/
theorem allocFrame_ends (h : s.Keeps p B) (hs : p.Sound rs) (S : Set Ptr) : allocFrame.Ends s fun r t =>
    r = (Pool.alloc p).result ∧ s.Becomes t (p.after [.alloc]) B S := onPool_request h hs .alloc S rfl

/-- Giving a frame back. -/
theorem freeFrame_ends (h : s.Keeps p B) (hs : p.Sound rs) (pa : PhysAddr) (S : Set Ptr) :
    (freeFrame pa).Ends s fun r t =>
    r = (Pool.release pa p).result ∧ s.Becomes t (p.after [.release pa]) B S := onPool_request h hs (.release pa) S rfl

/-- Taking a range of bytes out of use. -/
theorem reserve_ends (h : s.Keeps p B) (hs : p.Sound rs) (base : PhysAddr) (length : UInt64) (S : Set Ptr) :
    (onPool (Pool.reserve base length)).Ends s fun r t => r = (Pool.reserve base length p).result ∧
      s.Becomes t (p.after [.reserve base length]) B S := onPool_request h hs (.reserve base length) S rfl

/-- The arena after a request to its pool. -/
def request (s : Arena) : Request → Arena
  | .alloc => (allocFrame s).state
  | .release pa => (freeFrame pa s).state
  | .reserve base length => (onPool (Pool.reserve base length) s).state

/-- What a request does, whatever it asks for and is answered. -/
theorem Keeps.request (h : s.Keeps p B) (hs : p.Sound rs) (q : Request) :
    s.Becomes (s.request q) (p.after [q]) B ∅ := by
  cases q with
  | alloc => exact (allocFrame_ends h hs ∅).2
  | release pa => exact (freeFrame_ends h hs pa ∅).2
  | reserve base length => exact (reserve_ends h hs base length ∅).2

end

/-! ## Reading and writing -/

section

variable {a : Ptr} {w : UInt64} {f : Memory → Memory}

@[simp] theorem ends_word {Q : Checked Fault UInt64 → Arena → Prop} :
    (Arena.word a).Ends s Q ↔ Q (.ok (s.memory.word a)) s := Iff.rfl

@[simp] theorem ends_write {Q : Checked Fault Unit → Arena → Prop} :
    (Arena.write f).Ends s Q ↔ Q (.ok ()) { s with memory := f s.memory } := Iff.rfl

@[simp] theorem ends_setWord {Q : Checked Fault Unit → Arena → Prop} :
    (Arena.setWord a w).Ends s Q ↔ Q (.ok ()) { s with memory := s.memory.setWord a w } := Iff.rfl

end

end Arena

end Keel
