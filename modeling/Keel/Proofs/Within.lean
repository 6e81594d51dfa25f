import Keel.Proofs.Checked
import Keel.Proofs.Ends

/-!
# Which faults there are

`Within I F x` says: where `I` holds, `x` ends with an answer, with a halt or with a fault of `F`, and `I` holds again
when it has run. A whole is within `I` and `F` if its parts are; there is one rule for each way to put an action together.
What is done with a fault that was handed back may rely on its being one of `F` (`Within.attempt_bind`). `Faults F x` is
the same of every state.

Two faults are told apart from the others: corruption, which nothing may run past, and the want of a service. An action is
*recoverable* if it never reports the first, *provided* where it does not meet the second, and *ordinary* if it has neither.
-/

namespace Keel

/-- A fault that is neither corruption nor the want of a service. -/
def Fault.Ordinary (f : Fault) : Prop := f ≠ .corrupted ∧ f ≠ .notInit

instance : DecidablePred Fault.Ordinary := fun _ => inferInstanceAs (Decidable (_ ∧ _))

theorem Fault.recoverable_iff {f : Fault} : f.recoverable = true ↔ f ≠ .corrupted := bne_iff_ne

namespace Action

open Keel.Checked (faults_ok faults_fault faults_halt)

variable {σ τ α β : Type} {I : σ → Prop} {F G : Fault → Prop}

/-- Where `I` holds, every fault of `x` is one of `F`, and `I` holds again when `x` has run. -/
def Within (I : σ → Prop) (F : Fault → Prop) (x : Action σ α) : Prop :=
  ∀ s, I s → x.Ends s fun r t => Checked.Faults F r ∧ I t

/-- Every fault of `x` is one of `F`, whatever state it is run on. -/
abbrev Faults (F : Fault → Prop) (x : Action σ α) : Prop := Within (fun _ => True) F x

/-- The action never reports corruption. -/
abbrev Recoverable (x : Action σ α) : Prop := Faults (fun f => f.recoverable = true) x

/-- Where `I` holds, `x` does not fail for want of a service, and `I` holds again when it has run. -/
abbrev Provided (I : σ → Prop) (x : Action σ α) : Prop := Within I (· ≠ .notInit) x

/-- Nothing is lacking, in whatever state `x` is run. -/
abbrev Supplied (x : Action σ α) : Prop := Faults (· ≠ .notInit) x

/-- The action never reports corruption, and nothing is lacking. -/
abbrev Ordinary (x : Action σ α) : Prop := Faults Fault.Ordinary x

theorem Within.mono {x : Action σ α} (hx : Within I F x) (h : ∀ f, F f → G f) : Within I G x := fun s hs =>
  (hx s hs).imp_left fun hr => hr.mono h

theorem Ordinary.recoverable {x : Action σ α} (hx : Ordinary x) : Recoverable x :=
  hx.mono fun _ hf => Fault.recoverable_iff.2 hf.1

theorem Ordinary.supplied {x : Action σ α} (hx : Ordinary x) : Supplied x := hx.mono fun _ hf => hf.2

/-- A fault that the action does not end with. -/
theorem Within.ne {x : Action σ α} {s : σ} (hx : Within I F x) (hs : I s) {f : Fault} (hf : ¬F f) :
    (x s).result ≠ .error (.fault f) := (hx s hs).1.ne hf

theorem within_pure (a : α) : Within I F (pure a : Action σ α) := fun _ h => ⟨faults_ok a, h⟩

theorem within_lift {c : Checked Fault α} (hc : Checked.Faults F c) : Within I F (lift c : Action σ α) := fun _ h =>
  ⟨hc, h⟩

theorem within_fail {f : Fault} (hf : F f) : Within I F (fail f : Action σ α) := fun _ h => ⟨faults_fault hf, h⟩

theorem within_halt (e : Halt) : Within I F (halt e : Action σ α) := fun _ h => ⟨faults_halt e, h⟩

theorem within_note (l : Line) : Within I F (note l : Action σ Unit) := fun _ h => ⟨faults_ok (), h⟩

theorem within_get : Within I F (get : Action σ σ) := fun s h => ⟨faults_ok s, h⟩

theorem within_modify {f : σ → σ} (hf : ∀ s, I s → I (f s)) : Within I F (modify f : Action σ PUnit) := fun s h =>
  ⟨faults_ok _, hf s h⟩

theorem faults_set (s : σ) : Faults F (set s : Action σ PUnit) := fun _ _ => ⟨faults_ok _, trivial⟩

theorem faults_modify (f : σ → σ) : Faults F (modify f : Action σ PUnit) := fun _ _ => ⟨faults_ok _, trivial⟩

theorem within_ofOption {f : Fault} (hf : F f) (o : Option α) : Within I F (ofOption f o : Action σ α) := by
  cases o with
  | none => exact within_fail hf
  | some a => exact within_pure a

theorem Within.bind {x : Action σ α} {f : α → Action σ β} (hx : Within I F x) (hf : ∀ a, Within I F (f a)) :
    Within I F (x >>= f) := fun s h => Ends.bind (hx s h) fun r t hr => by
  cases r with
  | ok a => exact hf a t hr.2
  | error e => exact ⟨hr.1.error, hr.2⟩

theorem Within.ite {c : Prop} [Decidable c] {x y : Action σ α} (hx : Within I F x) (hy : Within I F y) :
    Within I F (if c then x else y) := by
  split
  · exact hx
  · exact hy

/-- Nothing is done after a fault. -/
theorem within_fail_bind {f : Fault} (hf : F f) (g : β → Action σ α) : Within I F (fail f >>= g) := fun _ h =>
  ⟨faults_fault hf, h⟩

/-- A fault that is logged. -/
theorem within_refuse {f : Fault} (hf : F f) (l : Line) (g : β → Action σ α) :
    Within I F (note l >>= fun _ => fail f >>= g) := fun _ h => ⟨faults_fault hf, h⟩

/-- Faults that are handed back as values are not faults any more. -/
theorem Within.attempt {x : Action σ α} (hx : Within I F x) : Within I F (attempt x) := fun s h =>
  (ends_attempt x).2 ((hx s h).mono fun r t ht => by
    rcases r with (f | e) | a
    · exact ⟨faults_ok _, ht.2⟩
    · exact ⟨faults_halt e, ht.2⟩
    · exact ⟨faults_ok _, ht.2⟩)

/-- Where faults are handed back as values there are none. -/
theorem faults_attempt (x : Action σ α) : Faults F (attempt x) := fun s _ => by
  refine (ends_attempt x).2 (Ends.mono (P := fun _ _ => True) trivial fun r t _ => ?_)
  rcases r with (f | e) | a
  · exact ⟨faults_ok _, trivial⟩
  · exact ⟨faults_halt e, trivial⟩
  · exact ⟨faults_ok _, trivial⟩

theorem Within.attempt_bind {x : Action σ α} {f : Except Fault α → Action σ β} (hx : Within I F x)
    (hok : ∀ a, Within I F (f (.ok a))) (hfault : ∀ g, F g → Within I F (f (.error g))) :
    Within I F (Action.attempt x >>= f) := fun s h => by
  rw [ends_bind, ends_attempt]
  refine (hx s h).mono fun r t ht => ?_
  obtain ⟨hr, ht⟩ := ht
  rcases r with (g | e) | a
  · exact hfault g (hr g rfl) t ht
  · exact ⟨faults_halt e, ht⟩
  · exact hok a t ht

theorem Within.zoom {p : Part σ τ} {J : τ → Prop} {x : Action τ α} (hx : Within J F x) (hget : ∀ s, I s → J (p.get s))
    (hset : ∀ s t, I s → J t → I (p.set s t)) : Within I F (zoom p x) := fun s h =>
  (hx (p.get s) (hget s h)).imp_right (hset s _ h)

theorem Within.zoom_faults {p : Part σ τ} {x : Action τ α} (hx : Faults F x) : Faults F (Action.zoom p x) :=
  hx.zoom (fun _ => id) fun _ _ _ => id

theorem within_mapM {f : α → Action σ β} (as : List α) (hf : ∀ a, Within I F (f a)) : Within I F (as.mapM f) := by
  induction as with
  | nil => exact within_pure []
  | cons a as ih =>
    rw [List.mapM_cons]
    exact (hf a).bind fun b => ih.bind fun bs => within_pure _

/-- Only whether there is an answer is of interest. -/
theorem Within.discard {x : Action σ α} (hx : Within I F x) : Within I F (discard x) := hx.bind fun _ => within_pure _

end Action

end Keel
