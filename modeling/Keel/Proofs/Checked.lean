import Keel.Word

/-!
# Checked computations taken apart

A whole answers a value exactly where its parts do (`bind_eq_ok`), and a demand or an option answers exactly where it
holds (`demand_eq_ok`, `orFault_eq_ok`). `Faults F` says that every fault is one of `F`; a computation *settles* if it
does not halt either. Both hold of a whole if they hold of its parts (`Faults.bind`, `Settles.bind`).
-/

namespace Keel.Checked

variable {ε α β : Type}

@[simp] theorem pure_eq (a : α) : (pure a : Checked ε α) = .ok a := rfl

@[simp] theorem ok_bind (a : α) (f : α → Checked ε β) : ((.ok a : Checked ε α) >>= f) = f a := rfl

@[simp] theorem error_bind (e : Failure ε) (f : α → Checked ε β) : ((.error e : Checked ε α) >>= f) = .error e := rfl

@[simp] theorem orFault_some (f : ε) (a : α) : orFault f (some a) = .ok a := rfl

@[simp] theorem orFault_none (f : ε) : (orFault f none : Checked ε α) = .error (.fault f) := rfl

theorem bind_eq_ok {x : Checked ε α} {f : α → Checked ε β} {b : β} :
    (x >>= f) = .ok b ↔ ∃ a, x = .ok a ∧ f a = .ok b := by
  cases x with
  | error e => simp
  | ok a => simp

theorem orFault_eq_ok {f : ε} {o : Option α} {a : α} : orFault f o = .ok a ↔ o = some a := by
  cases o with
  | none => simp
  | some b => simp

theorem demand_eq_ok {c : Bool} {f : ε} {u : Unit} : demand c f = .ok u ↔ c = true := by
  cases c <;> simp [demand]

theorem length_mapM {f : α → Checked ε β} {as : List α} {bs : List β} (h : as.mapM f = .ok bs) :
    bs.length = as.length := by
  induction as generalizing bs with
  | nil =>
    cases h
    rfl
  | cons a as ih =>
    rw [List.mapM_cons] at h
    obtain ⟨b, -, h⟩ := bind_eq_ok.1 h
    obtain ⟨cs, hcs, hb⟩ := bind_eq_ok.1 h
    cases hb
    rw [List.length_cons, List.length_cons, ih hcs]

/-- Each answer of a list of computations is the one its own computation gives. -/
theorem getElem?_mapM {f : α → Checked ε β} {as : List α} {bs : List β} (h : as.mapM f = .ok bs) {k : Nat} {a : α}
    {b : β} (ha : as[k]? = some a) (hb : bs[k]? = some b) : f a = .ok b := by
  induction as generalizing bs k with
  | nil => cases ha
  | cons a' as ih =>
    rw [List.mapM_cons] at h
    obtain ⟨b', hb', h⟩ := bind_eq_ok.1 h
    obtain ⟨cs, hcs, hbs⟩ := bind_eq_ok.1 h
    cases hbs
    cases k with
    | zero =>
      cases ha
      cases hb
      exact hb'
    | succ k => exact ih hcs ha hb

theorem mapM_isOk {f : α → Checked ε β} {as : List α} (h : ∀ a ∈ as, ∃ b, f a = .ok b) : ∃ bs, as.mapM f = .ok bs := by
  induction as with
  | nil => exact ⟨[], rfl⟩
  | cons a as ih =>
    obtain ⟨b, hb⟩ := h a List.mem_cons_self
    obtain ⟨bs, hbs⟩ := ih fun a ha => h a (List.mem_cons_of_mem _ ha)
    exact ⟨b :: bs, by rw [List.mapM_cons, hb, ok_bind, hbs]; rfl⟩

/-! ## Faults -/

section

variable {F G : ε → Prop}

/-- Every fault of the computation is one of `F`. -/
def Faults (F : ε → Prop) (c : Checked ε α) : Prop := ∀ f, c = .error (.fault f) → F f

theorem Faults.mono {c : Checked ε α} (hc : Faults F c) (h : ∀ f, F f → G f) : Faults G c := fun f hf => h f (hc f hf)

/-- A fault that the computation does not end with. -/
theorem Faults.ne {c : Checked ε α} (hc : Faults F c) {f : ε} (hf : ¬F f) : c ≠ .error (.fault f) := fun h => hf (hc f h)

theorem faults_ok (a : α) : Faults F (.ok a) := nofun

theorem faults_fault {f : ε} (h : F f) : Faults F (.error (.fault f) : Checked ε α) := by
  intro g hg
  cases hg
  exact h

theorem faults_halt (h : Halt) : Faults F (.error (.halt h) : Checked ε α) := nofun

/-- A failure is one at any type of answers. -/
theorem Faults.error {e : Failure ε} (h : Faults F (.error e : Checked ε α)) : Faults F (.error e : Checked ε β) := by
  cases e with
  | fault f => exact faults_fault (h f rfl)
  | halt e => exact faults_halt e

theorem faults_orFault {f : ε} (h : F f) (o : Option α) : Faults F (orFault f o) := by
  cases o with
  | none => exact faults_fault h
  | some a => exact faults_ok a

theorem faults_demand {f : ε} (h : F f) (c : Bool) : Faults F (demand c f) := by
  cases c with
  | false => exact faults_fault h
  | true => exact faults_ok ()

theorem Faults.bind {x : Checked ε α} {f : α → Checked ε β} (hx : Faults F x) (hf : ∀ a, Faults F (f a)) :
    Faults F (x >>= f) := by
  cases x with
  | ok a => exact hf a
  | error e => exact hx.error

theorem Faults.map {x : Checked ε α} (hx : Faults F x) (f : α → β) : Faults F (x.map f) := by
  cases x with
  | ok a => exact faults_ok (f a)
  | error e => exact hx.error

theorem Faults.ite {c : Prop} [Decidable c] {x y : Checked ε α} (hx : Faults F x) (hy : Faults F y) :
    Faults F (if c then x else y) := by
  split
  · exact hx
  · exact hy

/-! Counting has no faults: it answers or halts. -/

theorem faults_add (a b : Nat) : Faults F (Count.add a b) := (faults_ok _).ite (faults_halt _)

theorem faults_sub (a b : Nat) : Faults F (Count.sub a b) := (faults_ok _).ite (faults_halt _)

theorem faults_mul (a b : Nat) : Faults F (Count.mul a b) := (faults_ok _).ite (faults_halt _)

theorem faults_div (a b : Nat) : Faults F (Count.div a b) := (faults_halt _).ite (faults_ok _)

theorem faults_addWord (a b : UInt64) : Faults F (Word.add a b) := by
  unfold Word.add
  split
  · exact faults_ok _
  · exact faults_halt _

theorem faults_subWord (a b : UInt64) : Faults F (Word.sub a b) := (faults_ok _).ite (faults_halt _)

end

/-! ## Computations that settle -/

variable {F G : ε → Prop}

/-- The computation ends with a value or with a fault of `F`. -/
structure Settles (F : ε → Prop) (x : Checked ε α) : Prop where
  ne_halt : ∀ h, x ≠ .error (.halt h)
  fault : ∀ f, x = .error (.fault f) → F f

@[simp] theorem settles_ok (a : α) : Settles F (.ok a) := ⟨nofun, nofun⟩

@[simp] theorem settles_fault {f : ε} : Settles F (.error (.fault f) : Checked ε α) ↔ F f := by
  constructor
  · intro h
    exact h.fault f rfl
  · intro hf
    refine ⟨nofun, fun g hg => ?_⟩
    cases hg
    exact hf

@[simp] theorem not_settles_halt (h : Halt) : ¬Settles F (.error (.halt h) : Checked ε α) := fun hx => hx.ne_halt h rfl

theorem Settles.mono {x : Checked ε α} (hx : Settles F x) (h : ∀ f, F f → G f) : Settles G x :=
  ⟨hx.ne_halt, fun f hf => h f (hx.fault f hf)⟩

/-- A failure is one at any type of answers. -/
theorem Settles.error {e : Failure ε} (h : Settles F (.error e : Checked ε α)) :
    Settles F (.error e : Checked ε β) := by
  cases e with
  | fault f => exact settles_fault.2 (settles_fault.1 h)
  | halt e => exact absurd h (not_settles_halt e)

/-- A failure that settles is a fault. -/
theorem Settles.exists_fault {e : Failure ε} (h : Settles F (.error e : Checked ε α)) : ∃ f, e = .fault f := by
  cases e with
  | fault f => exact ⟨f, rfl⟩
  | halt e => exact absurd h (not_settles_halt e)

/-- One computation after another, which knows what the first has answered. -/
theorem Settles.bind {x : Checked ε α} {f : α → Checked ε β} (hx : Settles F x)
    (hf : ∀ a, x = .ok a → Settles F (f a)) : Settles F (x >>= f) := by
  cases hxa : x with
  | ok a => exact hf a hxa
  | error e =>
    rw [hxa] at hx
    exact hx.error

theorem Settles.map {x : Checked ε α} (hx : Settles F x) (f : α → β) : Settles F (x.map f) := by
  cases x with
  | ok a => exact settles_ok _
  | error e => exact hx.error

theorem Settles.ite {c : Prop} [Decidable c] {x y : Checked ε α} (hx : c → Settles F x) (hy : ¬c → Settles F y) :
    Settles F (if c then x else y) := by
  split
  · rename_i h
    exact hx h
  · rename_i h
    exact hy h

theorem settles_orFault {f : ε} (hf : F f) (o : Option α) : Settles F (orFault f o) := by
  cases o with
  | none => exact settles_fault.2 hf
  | some a => exact settles_ok a

end Keel.Checked
