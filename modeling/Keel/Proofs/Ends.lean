import Keel.Action

/-!
# How actions end

`x.Ends s Q` says that `x`, run on `s`, ends with an outcome and a state of which `Q` holds; what is logged is left
out. One equation for each way to build an action takes a statement about a whole apart (`ends_bind`, `ends_ite`, …),
and `Ends.bind` puts what is known of the parts together.
-/

namespace Keel.Action

variable {σ τ α β : Type} {s : σ}

/-- `x`, run on `s`, ends as `Q` says. -/
def Ends (x : Action σ α) (s : σ) (Q : Checked Fault α → σ → Prop) : Prop := Q (x s).result (x s).state

/-- What has to hold after the first of two actions for `Q` to hold after the second. -/
def Goes (f : α → Action σ β) (Q : Checked Fault β → σ → Prop) : Checked Fault α → σ → Prop
  | .ok a, t => Ends (f a) t Q
  | .error e, t => Q (.error e) t

variable {Q : Checked Fault β → σ → Prop}

@[simp] theorem goes_ok (f : α → Action σ β) (a : α) : Goes f Q (.ok a) s = Ends (f a) s Q := rfl

@[simp] theorem goes_error (f : α → Action σ β) (e : Failure Fault) : Goes f Q (.error e) s = Q (.error e) s := rfl

/-! ## Putting together -/

theorem Ends.mono {x : Action σ β} {P : Checked Fault β → σ → Prop} (h : x.Ends s P) (hPQ : ∀ r t, P r t → Q r t) :
    x.Ends s Q := hPQ _ _ h

/-- The trace of an action of which something is known. -/
theorem Ends.trace {x : Action σ β} (h : x.Ends s Q) : ∃ r t l, x s = ⟨r, t, l⟩ ∧ Q r t := ⟨_, _, _, rfl, h⟩

/-- What is known of an action holds of the answer it gives. -/
theorem Ends.result {x : Action σ β} (h : x.Ends s Q) : x.Ends s fun r t => r = (x s).result ∧ Q r t := ⟨rfl, h⟩

theorem Ends.and {x : Action σ β} {P : Checked Fault β → σ → Prop} (h : x.Ends s P) (h' : x.Ends s Q) :
    x.Ends s fun r t => P r t ∧ Q r t := ⟨h, h'⟩

@[simp] theorem ends_bind (x : Action σ α) (f : α → Action σ β) : (x >>= f).Ends s Q ↔ x.Ends s (Goes f Q) := by
  unfold Ends
  rw [bind_apply, Action.bind]
  rcases hx : x s with ⟨_ | _, t, l⟩ <;> simp [Goes, Ends]

theorem Ends.bind {x : Action σ α} {f : α → Action σ β} {P : Checked Fault α → σ → Prop} (h : x.Ends s P)
    (hP : ∀ r t, P r t → Goes f Q r t) : (x >>= f).Ends s Q :=
  (ends_bind x f).2 (h.mono hP)

/-- An action that is known to succeed, followed by another. -/
theorem Ends.bind_ok {x : Action σ α} {f : α → Action σ β} {P : α → σ → Prop}
    (h : x.Ends s fun r t => ∃ a, r = .ok a ∧ P a t) (hP : ∀ a t, P a t → (f a).Ends t Q) : (x >>= f).Ends s Q := by
  refine h.bind ?_
  intro r t hends
  obtain ⟨a, rfl, ha⟩ := hends
  exact hP a t ha

/-- A computation without effects, followed by an action on its answer. -/
theorem Ends.lift_bind {c : Checked Fault α} {f : α → Action σ β} (hok : ∀ a, c = .ok a → (f a).Ends s Q)
    (herror : ∀ e, c = .error e → Q (.error e) s) : (lift c >>= f).Ends s Q := by
  refine (ends_bind _ f).2 ?_
  cases hc : c with
  | ok a => exact hok a hc
  | error e => exact herror e hc

/-! ## Taking apart -/

@[simp] theorem ends_pure (b : β) : (pure b : Action σ β).Ends s Q ↔ Q (.ok b) s := Iff.rfl

@[simp] theorem ends_lift (c : Checked Fault β) : (lift c : Action σ β).Ends s Q ↔ Q c s := Iff.rfl

@[simp] theorem ends_fail (f : Fault) : (fail f : Action σ β).Ends s Q ↔ Q (.error (.fault f)) s := Iff.rfl

@[simp] theorem ends_halt (h : Halt) : (halt h : Action σ β).Ends s Q ↔ Q (.error (.halt h)) s := Iff.rfl

@[simp] theorem ends_some (f : Fault) (b : β) : (ofOption f (some b) : Action σ β).Ends s Q ↔ Q (.ok b) s := Iff.rfl

@[simp] theorem ends_none (f : Fault) : (ofOption f none : Action σ β).Ends s Q ↔ Q (.error (.fault f)) s := Iff.rfl

@[simp] theorem ends_note {Q : Checked Fault Unit → σ → Prop} (l : Line) :
    (note l : Action σ Unit).Ends s Q ↔ Q (.ok ()) s := Iff.rfl

@[simp] theorem ends_get {Q : Checked Fault σ → σ → Prop} : (get : Action σ σ).Ends s Q ↔ Q (.ok s) s := Iff.rfl

@[simp] theorem ends_set {Q : Checked Fault PUnit → σ → Prop} (t : σ) :
    (set t : Action σ PUnit).Ends s Q ↔ Q (.ok ()) t := Iff.rfl

@[simp] theorem ends_modify {Q : Checked Fault PUnit → σ → Prop} (f : σ → σ) :
    (modify f : Action σ PUnit).Ends s Q ↔ Q (.ok ()) (f s) := Iff.rfl

@[simp] theorem ends_ite (c : Prop) [Decidable c] (x y : Action σ β) :
    (if c then x else y).Ends s Q ↔ if c then x.Ends s Q else y.Ends s Q := by
  split <;> rfl

@[simp] theorem ends_zoom {Q : Checked Fault β → σ → Prop} (p : Part σ τ) (x : Action τ β) :
    (zoom p x).Ends s Q ↔ x.Ends (p.get s) fun r t => Q r (p.set s t) := Iff.rfl

/-- The outcome of an action whose faults are handed back as values. -/
def attempted : Checked Fault α → Checked Fault (Except Fault α)
  | .ok a => .ok (.ok a)
  | .error (.fault f) => .ok (.error f)
  | .error (.halt h) => .error (.halt h)

@[simp] theorem attempted_ok (a : α) : attempted (.ok a) = .ok (.ok a) := rfl

@[simp] theorem attempted_fault (f : Fault) : attempted (.error (.fault f) : Checked Fault α) = .ok (.error f) := rfl

@[simp] theorem attempted_halt (h : Halt) :
    attempted (.error (.halt h) : Checked Fault α) = .error (.halt h) := rfl

@[simp] theorem ends_attempt {Q : Checked Fault (Except Fault α) → σ → Prop} (x : Action σ α) :
    (attempt x).Ends s Q ↔ x.Ends s fun r t => Q (attempted r) t := by
  unfold Ends attempt
  rcases hx : x s with ⟨_ | _, t, l⟩
  · rename_i e
    cases e <;> rfl
  · rfl

/-! ## Lists -/

/-- Actions that each answer a value and change nothing, one after another. -/
theorem ends_mapM {f : α → Action σ β} {g : α → β} (as : List α)
    (h : ∀ a ∈ as, (f a).Ends s fun r t => r = .ok (g a) ∧ t = s) :
    (as.mapM f).Ends s fun r t => r = .ok (as.map g) ∧ t = s := by
  induction as with
  | nil => exact ⟨rfl, rfl⟩
  | cons a as ih =>
    rw [List.mapM_cons]
    refine (h a (by simp)).bind ?_
    intro r t hends
    obtain ⟨rfl, rfl⟩ := hends
    rw [goes_ok]
    refine (ih fun b hb => h b (by simp [hb])).bind ?_
    intro r t hends
    obtain ⟨rfl, rfl⟩ := hends
    exact ⟨rfl, rfl⟩

end Keel.Action
