import Keel.Heap.Allocator

/-!
# Quiet actions

A `Quiet` action has nothing to say where it succeeds: whatever it logs comes with a failure. A whole is quiet if its
parts are. Nothing that takes memory back says more than that it could not: neither the heap that gets an object
(`quiet_free`) nor the pool that gets a frame (`quiet_giveFrame`).
-/

namespace Keel

variable {σ τ α β : Type}

namespace Action

/-- A run that succeeds has logged nothing. -/
def Quiet (x : Action σ α) : Prop := ∀ s a, (x s).result = .ok a → (x s).log = []

theorem quiet_pure (a : α) : Quiet (pure a : Action σ α) := fun _ _ _ => rfl

theorem quiet_lift (c : Checked Fault α) : Quiet (lift c : Action σ α) := fun _ _ _ => rfl

theorem quiet_get : Quiet (get : Action σ σ) := fun _ _ _ => rfl

theorem quiet_set (s : σ) : Quiet (set s : Action σ PUnit) := fun _ _ _ => rfl

theorem quiet_modify (f : σ → σ) : Quiet (modify f : Action σ PUnit) := fun _ _ _ => rfl

/-- What ends with a fault has not succeeded. -/
theorem quiet_refuse (l : Line) (f : Fault) : Quiet (note l >>= fun _ => fail f : Action σ α) := by
  intro s a h
  cases h

theorem quiet_refuse_bind (l : Line) (f : Fault) (g : β → Action σ α) :
    Quiet (note l >>= fun _ => fail f >>= g) := by
  intro s a h
  cases h

/-- One action after another. -/
theorem Quiet.bind {x : Action σ α} {f : α → Action σ β} (hx : Quiet x) (hf : ∀ a, Quiet (f a)) : Quiet (x >>= f) := by
  intro s b hr
  rw [bind_apply, Action.bind] at hr ⊢
  rcases hs : x s with ⟨e | a, t, l⟩
  · rw [hs] at hr
    cases hr
  · have hl := hx s a (by rw [hs])
    rw [hs] at hr hl
    have hl : l = [] := hl
    rw [hl]
    exact hf a t b hr

theorem Quiet.ite {c : Prop} [Decidable c] {x y : Action σ α} (hx : Quiet x) (hy : Quiet y) :
    Quiet (if c then x else y) := by
  split
  · exact hx
  · exact hy

/-- An action on a part of the state. -/
theorem Quiet.zoom {p : Part σ τ} {x : Action τ α} (hx : Quiet x) : Quiet (zoom p x) := fun s => hx (p.get s)

end Action

open Keel.Action (Quiet quiet_pure quiet_lift quiet_get quiet_set quiet_modify quiet_refuse quiet_refuse_bind)

/-! ## The pool -/

theorem Frame.Pool.quiet_release (pa : PhysAddr) : Quiet (Frame.Pool.release pa) := by
  have hbits : ∀ i, Quiet (Frame.Pool.onBits fun b => b.unmark i) := fun i =>
    quiet_get.bind fun p => (quiet_lift _).bind fun _ => (quiet_set _).bind fun _ => quiet_pure _
  unfold Frame.Pool.release
  refine Quiet.ite (quiet_refuse_bind _ _ _) (quiet_get.bind fun p => ?_)
  dsimp only
  split
  · exact quiet_refuse _ _
  · refine (hbits _).bind fun taken => Quiet.ite (quiet_refuse_bind _ _ _) ?_
    refine (quiet_lift _).bind fun used => (quiet_modify _).bind fun _ => ?_
    exact (quiet_lift _).bind fun free => quiet_modify _

theorem Arena.quiet_onPool {x : Action Frame.Pool α} (h : Quiet x) : Quiet (onPool x) := by
  intro s a hr
  unfold onPool at hr ⊢
  split at hr
  · cases hr
  · exact h _ a hr

theorem Ground.quiet_onHeap {x : Action HeapSite α} (h : Quiet x) : Quiet (onHeap x) := by
  intro g a hr
  unfold onHeap at hr ⊢
  split at hr
  · cases hr
  · exact h _ a hr

/-- A frame that comes back is taken without a word. -/
theorem Allocator.quiet_giveFrame (p : Ptr) : Quiet (giveFrame p) :=
  (Ground.quiet_onHeap (quiet_get.bind fun _ => quiet_pure _)).bind fun _ =>
    (Arena.quiet_onPool (Frame.Pool.quiet_release _)).zoom

/-! ## The heap -/

namespace Slab

open Keel.Action (note fail lift)

theorem quiet_verify (slab : Ptr) : Quiet (verify slab) :=
  (quiet_get.bind fun _ => quiet_pure _).bind fun _ => Quiet.ite (quiet_refuse _ _) (quiet_pure ())

theorem quiet_word (a : Ptr) : Quiet (Arena.word a) := quiet_get.bind fun _ => quiet_pure _

theorem quiet_push (slab p : Ptr) : Quiet (push slab p) := by
  -- what follows the search is the same whether the cell was marked or not
  have hrest : ∀ (h : Header) (isListed : Bool), Quiet (do
      if isListed || h.freeCount == h.capacity then
        note (doubleFreeLine p)
        fail .dangling
      if (← get).poison then
        let rest ← lift (Count.sub h.cellSize Layout.minCellSize)
        Arena.write fun m => m.fill (p + UInt64.ofNat Layout.minCellSize) poisonFree rest
      Arena.setWord p h.freeList
      Arena.setWord (p + cellMagicField) Layout.freeMagic
      Arena.setWord (slab + freeListField) p
      let count ← lift (Count.add h.freeCount 1)
      Arena.setWord (slab + freeCountField) (UInt64.ofNat count)) := by
    intro h isListed
    have hstore : Quiet (do
        Arena.setWord p h.freeList
        Arena.setWord (p + cellMagicField) Layout.freeMagic
        Arena.setWord (slab + freeListField) p
        let count ← lift (Count.add h.freeCount 1)
        Arena.setWord (slab + freeCountField) (UInt64.ofNat count)) :=
      (quiet_modify _).bind fun _ => (quiet_modify _).bind fun _ => (quiet_modify _).bind fun _ =>
        (quiet_lift _).bind fun _ => quiet_modify _
    refine Quiet.ite (quiet_refuse_bind _ _ _) (quiet_get.bind fun s => Quiet.ite ?_ hstore)
    exact (quiet_lift _).bind fun rest => (quiet_modify _).bind fun _ => hstore
  unfold push
  refine (quiet_verify slab).bind fun _ => (quiet_get.bind fun _ => quiet_pure _).bind fun h => ?_
  refine (quiet_lift _).bind fun inside => Quiet.ite (quiet_refuse_bind _ _ _) ?_
  refine (quiet_word _).bind fun mark => Quiet.ite ?_ ((quiet_pure _).bind fun b => hrest h b)
  exact quiet_get.bind fun s => (quiet_lift _).bind fun b => hrest h b

namespace Cache

theorem quiet_ownsFrom (target : Ptr) (n : Nat) (slab : Ptr) : Quiet (ownsFrom target n slab) := by
  induction n generalizing slab with
  | zero => exact quiet_lift _
  | succ n ih =>
    rw [ownsFrom]
    refine Quiet.ite (quiet_pure false) ((quiet_verify slab).bind fun _ => Quiet.ite (quiet_pure true) ?_)
    exact (quiet_word _).bind fun next => ih next

theorem quiet_free (p : Ptr) : Quiet (free p) := by
  have howns : Quiet (owns (containing p)) := quiet_get.bind fun s => (quiet_ownsFrom _ _ _).zoom
  unfold free
  refine howns.bind fun owned => Quiet.ite ?_ ?_
  · exact quiet_get.bind fun s => quiet_refuse_bind _ _ _
  · refine (quiet_push _ _).zoom.bind fun _ => quiet_get.bind fun s => ?_
    exact (quiet_lift _).bind fun n => quiet_modify _

end Cache

end Slab

/-- An object that comes back is taken without a word. -/
theorem Heap.quiet_free (p : Ptr) : Quiet (Heap.free p) := by
  unfold Heap.free
  refine (Slab.quiet_verify _).zoom.bind fun _ => (quiet_get.bind fun _ => quiet_pure _).zoom.bind fun h => ?_
  split
  · exact (Slab.Cache.quiet_free p).zoom
  · exact quiet_refuse _ _

theorem Ground.quiet_free (p : Ptr) : Quiet (Ground.free p) := quiet_onHeap (Heap.quiet_free p)

end Keel
