import Mathlib.Order.RelClasses
import Keel.Proofs.Ends

/-!
# Steps

`Steps R x` says that every run of `x`, whatever its outcome, takes a state to one that `R` relates it to. Where `R` is a
preorder, a whole takes steps of `R` if its parts do.
-/

namespace Keel.Action

variable {σ τ α β : Type} {R : σ → σ → Prop}

/-- Every run of `x` is a step of `R`. -/
def Steps (R : σ → σ → Prop) (x : Action σ α) : Prop := ∀ s, x.Ends s fun _ t => R s t

theorem Steps.ite {c : Prop} [Decidable c] {x y : Action σ α} (hx : Steps R x) (hy : Steps R y) :
    Steps R (if c then x else y) := by
  split
  · exact hx
  · exact hy

/-- Faults that are handed back as values. -/
theorem Steps.attempt {x : Action σ α} (hx : Steps R x) : Steps R (attempt x) := fun s => (ends_attempt x).2 (hx s)

/-- An action on a part of the state. -/
theorem Steps.zoom {p : Part σ τ} {S : τ → τ → Prop} {x : Action τ α} (hx : Steps S x)
    (hset : ∀ s t, S (p.get s) t → R s (p.set s t)) : Steps R (zoom p x) := fun s => hset s _ (hx _)

variable [IsPreorder σ R]

theorem steps_pure (a : α) : Steps R (pure a : Action σ α) := fun s => refl s

theorem steps_lift (c : Checked Fault α) : Steps R (lift c : Action σ α) := fun s => refl s

theorem steps_fail (f : Fault) : Steps R (fail f : Action σ α) := fun s => refl s

/-- Nothing is done after a fault. -/
theorem steps_fail_bind (f : Fault) (g : β → Action σ α) : Steps R (fail f >>= g) := fun s => refl s

theorem steps_note (l : Line) : Steps R (note l : Action σ Unit) := fun s => refl s

theorem steps_halt (e : Halt) : Steps R (halt e : Action σ α) := fun s => refl s

theorem steps_get : Steps R (get : Action σ σ) := fun s => refl s

theorem steps_ofOption (f : Fault) (o : Option α) : Steps R (ofOption f o : Action σ α) := by
  cases o with
  | none => exact steps_fail f
  | some a => exact steps_pure a

/-- One action after another. -/
theorem Steps.bind {x : Action σ α} {f : α → Action σ β} (hx : Steps R x) (hf : ∀ a, Steps R (f a)) :
    Steps R (x >>= f) := by
  intro s
  refine Ends.bind (hx s) fun r t ht => ?_
  cases r with
  | error e => exact ht
  | ok a => exact (hf a t).mono fun r u hu => IsTrans.trans _ _ _ ht hu

/-- One action after another, where the second relies on what the first has set up. -/
theorem Ends.steps_bind {x : Action σ α} {f : α → Action σ β} {P : σ → Prop} {s : σ}
    (hx : x.Ends s fun r t => R s t ∧ ∀ a, r = .ok a → P t) (hf : ∀ a t, P t → (f a).Ends t fun _ u => R t u) :
    (x >>= f).Ends s fun _ u => R s u := hx.bind fun r t ht => by
  cases r with
  | error e => exact ht.1
  | ok a => exact (hf a t (ht.2 a rfl)).mono fun r u hu => IsTrans.trans _ _ _ ht.1 hu

end Keel.Action
