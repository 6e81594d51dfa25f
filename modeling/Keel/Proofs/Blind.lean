import Keel.Proofs.Ends

/-!
# What actions cannot tell apart

An action is *blind* to a relation if on related states it answers and logs the same and leaves related states. A whole is
blind if its parts are; of what it reads of its state only what related states have in common may matter
(`Blind.get_bind`).
-/

namespace Keel.Action

variable {σ τ α β : Type} {R : σ → σ → Prop}

/-- Runs of `x` from related states are the same but for the states, which stay related. -/
def Blind (R : σ → σ → Prop) (x : Action σ α) : Prop := ∀ s t, R s t →
  (x t).result = (x s).result ∧ (x t).log = (x s).log ∧ R (x s).state (x t).state

theorem blind_pure (a : α) : Blind R (pure a : Action σ α) := fun _ _ h => ⟨rfl, rfl, h⟩

theorem blind_lift (c : Checked Fault α) : Blind R (lift c : Action σ α) := fun _ _ h => ⟨rfl, rfl, h⟩

theorem blind_fail (f : Fault) : Blind R (fail f : Action σ α) := blind_lift _

theorem blind_note (l : Line) : Blind R (note l : Action σ Unit) := fun _ _ h => ⟨rfl, rfl, h⟩

theorem blind_modify {f : σ → σ} (hf : ∀ s t, R s t → R (f s) (f t)) : Blind R (modify f : Action σ PUnit) :=
  fun s t h => ⟨rfl, rfl, hf s t h⟩

/-- One action after another. -/
theorem Blind.bind {x : Action σ α} {f : α → Action σ β} (hx : Blind R x) (hf : ∀ a, Blind R (f a)) :
    Blind R (x >>= f) := by
  intro s t h
  obtain ⟨hr, hl, hst⟩ := hx s t h
  rw [bind_apply, bind_apply, Action.bind, Action.bind]
  rcases hs : x s with ⟨r, s', l⟩
  rcases ht : x t with ⟨r', t', l'⟩
  rw [hs, ht] at hr hl hst
  dsimp only at hr hl hst
  subst hr
  subst hl
  cases r' with
  | error e => exact ⟨rfl, rfl, hst⟩
  | ok a =>
    obtain ⟨hr', hl', hst'⟩ := hf a s' t' hst
    exact ⟨hr', congrArg (l' ++ ·) hl', hst'⟩

/-- An action that reads its state. -/
theorem Blind.get_bind {f : σ → Action σ β} (hf : ∀ s t, R s t → f t = f s) (h : ∀ s, Blind R (f s)) :
    Blind R (get >>= f) := by
  intro s t hst
  show (f t t).result = (f s s).result ∧ [] ++ (f t t).log = [] ++ (f s s).log ∧ R (f s s).state (f t t).state
  rw [hf s t hst]
  obtain ⟨hr, hl, ht⟩ := h s s t hst
  exact ⟨hr, congrArg ([] ++ ·) hl, ht⟩

theorem Blind.ite {c : Prop} [Decidable c] {x y : Action σ α} (hx : Blind R x) (hy : Blind R y) :
    Blind R (if c then x else y) := by
  split
  · exact hx
  · exact hy

/-- Faults that are handed back as values. -/
theorem Blind.attempt {x : Action σ α} (hx : Blind R x) : Blind R (attempt x) := by
  intro s t h
  obtain ⟨hr, hl, hst⟩ := hx s t h
  unfold Action.attempt
  rcases hs : x s with ⟨r, s', l⟩
  rcases ht : x t with ⟨r', t', l'⟩
  rw [hs, ht] at hr hl hst
  dsimp only at hr hl hst
  subst hr
  subst hl
  rcases r' with (f | e) | a <;> exact ⟨rfl, rfl, hst⟩

/-- An action on a part of the state. -/
theorem Blind.zoom {p : Part σ τ} {S : τ → τ → Prop} {x : Action τ α} (hx : Blind S x)
    (hget : ∀ s t, R s t → S (p.get s) (p.get t))
    (hset : ∀ s t u v, R s t → S u v → R (p.set s u) (p.set t v)) : Blind R (zoom p x) := by
  intro s t h
  obtain ⟨hr, hl, hst⟩ := hx _ _ (hget s t h)
  exact ⟨hr, hl, hset _ _ _ _ h hst⟩

end Keel.Action
