import Keel.Fault

/-!
# Actions

An `Action σ α` runs on a state of type `σ` and leaves a `Trace`: its outcome, the state it ends in, and the lines it
logged. The state survives a failure, so what a failed operation leaves behind can be stated.
- `bind_ok`, `bind_error`: an action followed by another, case by case;
- `attempt` turns a fault into a value and lets halts through;
- `zoom` runs an action on a part of the state; `zoom_state` says that only that part changes;
- the laws of a monad hold (`LawfulMonad (Action σ)`).
-/

namespace Keel

/-- How serious a logged line is. -/
inductive Level
  | error
  | warn
  | info
  | debug
  deriving DecidableEq

/-- The word for a level. -/
def Level.name : Level → String
  | error => "ERROR"
  | warn => "WARN"
  | info => "INFO"
  | debug => "DEBUG"

/-- One logged line. -/
structure Line where
  level : Level
  text : String
  deriving DecidableEq

/-- A line with its level in front. -/
def Line.render (l : Line) : String := l.level.name ++ " " ++ l.text

/-- What an action leaves behind. -/
structure Trace (σ α : Type) where
  result : Checked Fault α
  state : σ
  log : List Line

/-- A computation on a state that may fail and that logs. -/
def Action (σ α : Type) : Type := σ → Trace σ α

namespace Action

variable {σ τ α β : Type}

/-- Does nothing and answers `a`. -/
protected def pure (a : α) : Action σ α := fun s => ⟨.ok a, s, []⟩

/-- Runs `x`, then `f` on its answer; a failure of `x` ends the run. -/
protected def bind (x : Action σ α) (f : α → Action σ β) : Action σ β := fun s =>
  match x s with
  | ⟨.ok a, s', l⟩ =>
    let t := f a s'
    ⟨t.result, t.state, l ++ t.log⟩
  | ⟨.error e, s', l⟩ => ⟨.error e, s', l⟩

instance : Monad (Action σ) where
  pure := Action.pure
  bind := Action.bind

instance : MonadStateOf σ (Action σ) where
  get := fun s => ⟨.ok s, s, []⟩
  set s' := fun _ => ⟨.ok (), s', []⟩
  modifyGet f := fun s => let p := f s; ⟨.ok p.1, p.2, []⟩

/-- A computation without effects as an action. -/
def lift (c : Checked Fault α) : Action σ α := fun s => ⟨c, s, []⟩

/-- Ends with a fault. -/
def fail (f : Fault) : Action σ α := lift (.error (.fault f))

/-- Stops the machine. -/
def halt (h : Halt) : Action σ α := lift (.error (.halt h))

/-- The value of an option, or a fault. -/
def ofOption (f : Fault) : Option α → Action σ α
  | some a => Action.pure a
  | none => fail f

/-- Logs a line. -/
def note (l : Line) : Action σ Unit := fun s => ⟨.ok (), s, [l]⟩

/-- Runs `x` and hands a fault back as a value. -/
def attempt (x : Action σ α) : Action σ (Except Fault α) := fun s =>
  match x s with
  | ⟨.ok a, s', l⟩ => ⟨.ok (.ok a), s', l⟩
  | ⟨.error (.fault f), s', l⟩ => ⟨.ok (.error f), s', l⟩
  | ⟨.error (.halt h), s', l⟩ => ⟨.error (.halt h), s', l⟩

/-! ## Laws -/

theorem pure_apply (a : α) (s : σ) : (pure a : Action σ α) s = ⟨.ok a, s, []⟩ := rfl

theorem bind_apply (x : Action σ α) (f : α → Action σ β) (s : σ) : (x >>= f) s = Action.bind x f s := rfl

theorem bind_ok {x : Action σ α} {f : α → Action σ β} {s s' : σ} {a : α} {l : List Line}
    (h : x s = ⟨.ok a, s', l⟩) : (x >>= f) s = ⟨(f a s').result, (f a s').state, l ++ (f a s').log⟩ := by
  rw [bind_apply, Action.bind, h]

theorem bind_error {x : Action σ α} {f : α → Action σ β} {s s' : σ} {e : Failure Fault} {l : List Line}
    (h : x s = ⟨.error e, s', l⟩) : (x >>= f) s = ⟨.error e, s', l⟩ := by
  rw [bind_apply, Action.bind, h]

private theorem map_id' (x : Action σ α) : id <$> x = x := by
  funext s
  show Action.bind x (fun a => Action.pure a) s = x s
  unfold Action.bind Action.pure
  split <;> simp_all

private theorem bind_assoc' {γ : Type} (x : Action σ α) (f : α → Action σ β) (g : β → Action σ γ) :
    x >>= f >>= g = x >>= fun a => f a >>= g := by
  funext s
  show Action.bind (Action.bind x f) g s = Action.bind x (fun a => Action.bind (f a) g) s
  unfold Action.bind
  cases hx : x s with
  | mk r s' l =>
    cases r with
    | error e => rfl
    | ok a =>
      simp only
      cases hf : f a s' with
      | mk r' s'' l' =>
        cases r' with
        | error e => rfl
        | ok b => simp [List.append_assoc]

instance : LawfulMonad (Action σ) :=
  LawfulMonad.mk' (Action σ) map_id' (fun _ _ => by funext s; simp [bind_apply, Action.bind, pure_apply]) bind_assoc'

end Action

/-! ## Parts of a state -/

/-- A part of type `τ` of a state of type `σ`. -/
structure Part (σ τ : Type) where
  get : σ → τ
  set : σ → τ → σ

namespace Action

variable {σ τ α : Type}

/-- Runs an action on a part of the state. -/
def zoom (p : Part σ τ) (x : Action τ α) : Action σ α := fun s =>
  let t := x (p.get s)
  ⟨t.result, p.set s t.state, t.log⟩

theorem zoom_result (p : Part σ τ) (x : Action τ α) (s : σ) : (zoom p x s).result = (x (p.get s)).result := rfl

theorem zoom_state (p : Part σ τ) (x : Action τ α) (s : σ) :
    (zoom p x s).state = p.set s (x (p.get s)).state := rfl

end Action

end Keel
