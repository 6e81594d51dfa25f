import Keel.Proofs.Arena
import Keel.Proofs.Blind

/-!
# Patched arenas

`Patched D patch s t` says that the arena `t` is `s` with the bytes of `D` as they are in `patch`, where the bitmap has no
byte in `D`. An action that neither reads nor writes a byte of `D` does the same to both, and leaves the patch alone: a
word elsewhere is read alike (`Patched.blind_word`) and written alike (`Patched.blind_setWord`), and the pool answers
alike (`Patched.blind_onPool`), as long as its bitmap keeps its size, which it does where a frame comes back
(`Patched.blind_freeFrame`).
-/

namespace Keel

open Keel.Action (Blind Steps steps_fail steps_fail_bind steps_get steps_lift steps_note)
open Keel.Memory (Alters block)
open Keel.Frame (Bitmap Pool)

variable {α : Type}

/-! ## The size of the bitmap -/

namespace Frame.Pool

/-- `q` has a bitmap of the same size as `p`. -/
def SameSize (p q : Pool) : Prop := q.bitmap.words.size = p.bitmap.words.size

instance : IsPreorder Pool SameSize where
  refl _ := rfl
  trans _ _ _ h h' := h'.trans h

theorem size_unmark {b b' : Bitmap} {i : Nat} {taken : Bool} (h : b.unmark (ε := Fault) i = .ok (taken, b')) :
    b'.words.size = b.words.size := by
  unfold Bitmap.unmark at h
  split at h
  · cases h
    exact Array.size_setIfInBounds
  · cases h

/-- Bits are cleared in their place. -/
theorem steps_unmark (i : Nat) : Steps SameSize (onBits fun b => b.unmark i) := by
  intro p
  unfold onBits
  rw [Action.ends_bind, Action.ends_get, Action.goes_ok]
  refine Action.Ends.lift_bind (fun a ha => ?_) fun e _ => rfl
  obtain ⟨taken, b⟩ := a
  exact size_unmark ha

/-- A frame that comes back leaves the bitmap its size. -/
theorem steps_release (pa : PhysAddr) : Steps SameSize (release pa) := by
  unfold release
  refine Steps.ite ((steps_note _).bind fun _ => steps_fail_bind _ _) (steps_get.bind fun p => ?_)
  dsimp only
  split
  · exact (steps_note _).bind fun _ => steps_fail _
  · refine (steps_unmark _).bind fun taken => ?_
    refine Steps.ite ((steps_note _).bind fun _ => steps_fail_bind _ _) ((steps_lift _).bind fun used => ?_)
    refine Steps.bind (fun _ => rfl) fun _ => (steps_lift _).bind fun free _ => rfl

end Frame.Pool

namespace Arena

variable {D B : Set Ptr} {patch : Memory} {s t : Arena} {a : Ptr}

/-- `t` is `s` with the bytes of `D` as they are in `patch`, none of which is one of the bitmap. -/
structure Patched (D : Set Ptr) (patch : Memory) (s t : Arena) : Prop where
  outside : Alters D s.memory t.memory
  inside : Alters Dᶜ patch t.memory
  pool : t.pool = s.pool
  poison : t.poison = s.poison
  apart : ∀ h ∈ s.pool, Disjoint h.home.bytes D

namespace Patched

theorem load (h : Patched D patch s t) {k : HousedPool} (hk : k ∈ s.pool) : k.home.load t.memory = k.home.load s.memory :=
  Home.load_congr h.outside (h.apart k hk).symm

/-- A patched arena keeps the same pool. -/
theorem keeps {p : Pool} (h : Patched D patch s t) (hs : s.Keeps p B) : t.Keeps p B := by
  obtain ⟨k, hk, hf, hB, hp⟩ := hs
  refine ⟨k, h.pool.trans hk, hf, hB, ?_⟩
  rw [h.load hk]
  exact hp

theorem blind_word (hd : Disjoint (block a 8) D) : Blind (Patched D patch) (word a) :=
  Blind.get_bind (fun _ _ h => by rw [h.outside.word hd]) fun _ => Action.blind_pure _

theorem blind_setWord {w : UInt64} (hd : Disjoint (block a 8) D) : Blind (Patched D patch) (setWord a w) :=
  Action.blind_modify fun _ _ h => {
    outside := h.outside.setWord a w
    inside := h.inside.trans ((Memory.alters_setWord _ a w).mono hd.subset_compl_right)
    pool := h.pool
    poison := h.poison
    apart := h.apart }

/-- A pool answers alike over a patched arena. -/
theorem blind_onPool {x : Action Pool α} (hx : Steps Pool.SameSize x) : Blind (Patched D patch) (onPool x) := by
  intro s t h
  unfold onPool
  rw [h.pool]
  cases hs : s.pool with
  | none => exact ⟨rfl, rfl, h⟩
  | some k =>
    dsimp only
    have hapart := h.apart k hs
    obtain ⟨hhome, hmemory⟩ := Home.store_congr (h := k.home)
      (b := (x (k.ledger.withBitmap (k.home.load s.memory))).state.bitmap) h.outside
    rw [h.load hs]
    refine ⟨rfl, rfl, ?_⟩
    exact {
      outside := hmemory
      inside := by
        refine h.inside.trans ((Home.alters_store ?_).mono hapart.subset_compl_right)
        rw [h.load hs]
        exact hx (k.ledger.withBitmap (k.home.load s.memory))
      pool := congrArg (fun home => some (HousedPool.mk _ home)) hhome
      poison := h.poison
      apart := by
        rintro _ ⟨rfl⟩
        exact hapart.mono_left Home.bytes_store.le }

theorem blind_freeFrame (pa : PhysAddr) : Blind (Patched D patch) (freeFrame pa) :=
  blind_onPool (Pool.steps_release pa)

end Patched

end Arena

end Keel
