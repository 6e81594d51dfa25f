import Keel.Proofs.Kernel.Faults
import Keel.Proofs.Kernel.Footprint

/-!
# Nothing runs past corruption

Whatever state the kernel is in, and whatever has overwritten the marks of its slabs and cells, corruption is never an
answer of bringing up, loading or unloading: each ends with what it was asked for, with a recoverable fault, or with a
halt (`recoverable_startMemory`, `recoverable_loadBootModule`, …). A call *meets* corruption where the heap, or a
loader, reports it on the way: while an image is placed, while an object is taken for a record, or while one is given
back (`LoadMeets`, `UnloadMeets`). What comes before that links no record, since a record is linked in the last step of
a load (`LinksNone`, `addModule_refused`), and unloading takes one out (`Unlinks`); so the machine stops with no record
linked (`LoadMeets.halts`, `UnloadMeets.halts`). In a list of modules the one that meets corruption is the last that is
tried, and a report counts as failed only what has ended with another fault (`loadEach_tallies`). Together:
**`heeds_corruption`**.
-/

namespace Keel

open Keel.Action (Recoverable Steps Within within_pure within_lift within_fail within_note within_get within_fail_bind
  within_refuse faults_set faults_modify faults_attempt)
open Keel.Checked (faults_ok faults_fault faults_halt faults_mul)

/-! ## The registry -/

namespace Registry

/-- A record that cannot be added leaves everything as it was, and one that is added is there. -/
theorem add_refused (id : RecordId) (s : Shelf) : (add id).Ends s fun r t =>
    (∀ f, r = .error (.fault f) → t = s) ∧ (r = .ok () → ∃ r', s.store.get? id = some r') := by
  unfold add
  rw [Action.ends_bind, Action.ends_get, Action.goes_ok, Action.ends_bind]
  cases hr : s.store.get? id with
  | none => exact ⟨fun _ _ => rfl, fun hok => (by cases hok)⟩
  | some r =>
    rw [Action.ends_some, Action.goes_ok, Action.ends_ite]
    split
    · exact ⟨fun _ _ => rfl, fun hok => (by cases hok)⟩
    · rw [Action.ends_ite]
      split
      · exact ⟨fun _ _ => rfl, fun hok => (by cases hok)⟩
      · unfold updateRecord update
        rw [Action.ends_bind, Action.ends_modify, Action.goes_ok, Action.ends_bind, Action.ends_modify,
          Action.goes_ok, Action.ends_bind, Action.ends_lift, Count.add]
        split
        · exact ⟨fun _ hf => (by cases hf), fun _ => ⟨r, rfl⟩⟩
        · exact ⟨fun _ hf => (by cases hf), fun hok => (by cases hok)⟩

/-- One record has left the list of a registry: the head is what it was, or what the first record led to. -/
def LosesOne (b : Shelf) (g : Registry) : Prop := g.count + 1 = b.registry.count ∧ (g.head = b.registry.head ∨
  ∃ id r, b.registry.head = some id ∧ b.store.get? id = some r ∧ g.head = r.next)

/-- The count is one less when a record has been taken out, and the head stays. -/
theorem discount_ends (name : String) (b : Shelf) : (do
    let count ← Action.lift (Count.sub (← get).registry.count 1)
    update fun g => { g with count }
    Action.note (unlinkedLine name count) : Action Shelf Unit).Ends b fun r t => r = .ok () →
      t.registry.count + 1 = b.registry.count ∧ t.registry.head = b.registry.head := by
  unfold update
  rw [Action.ends_bind, Action.ends_get, Action.goes_ok, Action.ends_bind, Action.ends_lift, Count.sub]
  split
  · rename_i hle
    exact fun _ => ⟨Nat.sub_add_cancel hle, rfl⟩
  · exact fun hok => (by cases hok)

/-- What is taken out of a list is one record. -/
theorem unlinkFrom_loses (target : RecordId) (n : Nat) (before cursor : Option RecordId) (b : Shelf) :
    (unlinkFrom target n before cursor).Ends b fun r t => r = .ok () → t.registry.count + 1 = b.registry.count ∧
      (t.registry.head = b.registry.head ∨
        before = none ∧ ∃ id r, cursor = some id ∧ b.store.get? id = some r ∧ t.registry.head = r.next) := by
  induction n generalizing before cursor with
  | zero => exact fun hok => (by cases hok)
  | succ n ih =>
    cases cursor with
    | none => exact fun hok => (by cases hok)
    | some id =>
      rw [unlinkFrom, Action.ends_bind, Action.ends_get, Action.goes_ok, Action.ends_bind]
      cases hr : b.store.get? id with
      | none => exact fun hok => (by cases hok)
      | some r =>
        rw [Action.ends_some, Action.goes_ok, Action.ends_ite]
        split
        · unfold updateRecord
          rw [Action.ends_bind, Action.ends_modify, Action.goes_ok]
          cases before with
          | none =>
            dsimp only
            rw [update, Action.ends_bind, Action.ends_modify, Action.goes_ok, Action.ends_bind, Action.ends_modify,
              Action.goes_ok]
            refine (discount_ends r.name _).mono ?_
            intro a t hends hok
            obtain ⟨hless, hhead⟩ := hends hok
            exact ⟨hless, .inr ⟨rfl, id, r, rfl, hr, hhead⟩⟩
          | some before =>
            dsimp only
            rw [Action.ends_bind, Action.ends_modify, Action.goes_ok, Action.ends_bind, Action.ends_modify,
              Action.goes_ok]
            refine (discount_ends r.name _).mono ?_
            intro a t hends hok
            obtain ⟨hless, hhead⟩ := hends hok
            exact ⟨hless, .inl hhead⟩
        · refine (ih (some id) r.next).mono ?_
          intro a t hends hok
          obtain ⟨hless, hhead | ⟨hbefore, -⟩⟩ := hends hok
          · exact ⟨hless, .inl hhead⟩
          · cases hbefore

/-- What is removed by its name leaves the list of the registry. -/
theorem removeByName_loses (name : String) (b : Shelf) :
    (removeByName name).Ends b fun r t => (∃ id, r = .ok id) → LosesOne b t.registry := by
  unfold removeByName find remove
  rw [Action.ends_bind, Action.ends_bind, Action.ends_get, Action.goes_ok]
  cases hfind : b.registry.find? b.store name with
  | none => exact fun ⟨_, hok⟩ => (by cases hok)
  | some e =>
    rw [Action.ends_some, Action.goes_ok, Action.ends_bind, Action.ends_bind, Action.ends_get, Action.goes_ok]
    refine (unlinkFrom_loses e.1 b.store.entries.length none b.registry.head b).mono ?_
    intro a t hends
    cases a with
    | error e => exact fun ⟨_, hok⟩ => (by cases hok)
    | ok _ =>
      obtain ⟨hless, hhead⟩ := hends rfl
      exact fun _ => ⟨hless, hhead.imp_right fun h => h.2⟩

end Registry

namespace Kernel

attribute [local irreducible] Memory.word Cell.read

variable {α β : Type} {k k₁ : Kernel} {m : BootModule} {mapper : Mapper} {name : String} {i : ModuleInfo} {p : Ptr}

/-! ## No call answers corruption -/

/-- What is escalated is recoverable, whatever it is. -/
theorem recoverable_escalate (x : Action Kernel α) : Recoverable (escalate x) := fun k _ => by
  refine ends_escalate.2 (Action.Ends.mono (P := fun _ _ => True) trivial fun r _ _ => ?_)
  rcases r with (f | h) | a
  · cases f
    case corrupted => exact ⟨faults_halt _, trivial⟩
    all_goals exact ⟨faults_fault rfl, trivial⟩
  · exact ⟨faults_halt h, trivial⟩
  · exact ⟨faults_ok a, trivial⟩

theorem recoverable_require (s : Stage) : Recoverable (require s) :=
  within_get.bind fun _ => (within_fail (by decide)).ite (within_pure _)

theorem recoverable_onPool {x : Action Frame.Pool α} (hx : Recoverable x) : Recoverable (onPool x) :=
  (Keel.recoverable_onPool hx).zoom_faults.zoom_faults

/-- Corruption that the memory services report stops the machine. -/
theorem grants_recoverable : Grants (fun _ => True) fun f => f.recoverable = true where
  ordinary := fun _ hf => Fault.recoverable_iff.2 hf.1
  require := recoverable_require _
  allocate := fun _ => recoverable_escalate _
  free := fun _ => recoverable_escalate _
  reserve := fun base length => recoverable_onPool (Frame.Pool.ordinary_reserve base length).recoverable
  keep := fun _ _ => faults_modify _
  shelf := fun _ _ hx => hx.zoom_faults

/-! ### Bringing up -/

theorem recoverable_reserveModules (ms : List BootModule) : Recoverable (reserveModules ms) := by
  induction ms with
  | nil => exact within_pure ()
  | cons m ms ih =>
    refine Within.ite ((faults_attempt _).bind fun r => ?_) ih
    cases r with
    | ok _ => exact ih
    | error _ => exact (within_note _).bind fun _ => ih

/-- Bringing memory up answers no corruption. -/
theorem recoverable_startMemory (rs : List Region) (ms : List BootModule) (mapper : Mapper) :
    Recoverable (startMemory rs ms mapper) := by
  have hwords : Recoverable (Action.lift (Frame.wordsFor rs) : Action Kernel Nat) :=
    Action.Ordinary.recoverable (within_lift (Frame.ordinary_wordsFor rs))
  refine within_get.bind fun k => Within.ite (within_refuse (by decide) _ _) (hwords.bind fun words => ?_)
  refine (Frame.ordinary_place rs words ms).recoverable.bind fun bitmap => ?_
  refine (recoverable_startPool _ _).zoom_faults.bind fun _ => ?_
  refine (within_lift (faults_mul _ _)).bind fun bytes => ?_
  refine (recoverable_onPool (Frame.Pool.ordinary_reserve _ _).recoverable).bind fun _ => ?_
  refine (recoverable_reserveModules ms).bind fun _ => (recoverable_escalate _).bind fun _ => ?_
  refine (recoverable_onPool (within_get.bind fun _ => within_pure _)).bind fun stats => ?_
  have hline : Checked.Faults (fun f : Fault => f.recoverable = true) (memoryOnlineLine bitmap words stats) :=
    (faults_mul _ _).bind fun _ => faults_ok _
  exact (faults_modify _).bind fun _ => (within_lift hline).bind fun _ => (within_note _).bind fun _ => within_pure _

theorem recoverable_register (l : Loader) : Recoverable (LoaderTable.register l) := by
  refine within_get.bind fun t => Within.ite (within_fail_bind (by decide) _) ?_
  refine Within.ite (within_refuse (by decide) _ _) (Within.ite (within_refuse (by decide) _ _) ?_)
  exact faults_set _

/-- Bringing loading up answers no corruption. -/
theorem recoverable_startModules (t : ExportTable) : Recoverable (startModules t) := by
  have hwindows : Recoverable startWindows :=
    within_get.bind fun k => Within.ite (within_refuse (by decide) _ _) <|
      (faults_set _).bind fun _ => within_note _
  have hexports : Recoverable (startExports t) :=
    within_get.bind fun k => Within.ite (within_refuse (by decide) _ _) <|
      (faults_set _).bind fun _ => within_note _
  refine within_get.bind fun k => Within.ite (within_refuse (by decide) _ _) ?_
  refine hwindows.bind fun _ => hexports.bind fun _ => Within.bind ?_ fun _ => ?_
  · exact (recoverable_register _).zoom_faults.bind fun _ => within_note _
  · exact (faults_modify _).bind fun _ => within_note _

/-! ### Loading and unloading -/

/-- Loading a module answers no corruption. -/
theorem recoverable_loadBootModule (m : BootModule) (mapper : Mapper) : Recoverable (loadBootModule m mapper) := by
  rw [loadBootModule_eq]
  refine Within.bind ?_ fun info => (within_storeRecord grants_recoverable info).bind fun id =>
    (within_record grants_recoverable id).bind fun _ => within_pure _
  exact (within_offerBootModule grants_recoverable m mapper).bind fun image => recoverable_escalate _

/-- Unloading a module answers no corruption. -/
theorem recoverable_unloadModule (name : String) : Recoverable (unloadModule name) :=
  within_unloadModule grants_recoverable name

/-! ## Nothing is linked -/

/-- No record has been linked: the registry is as it was, where a record that is linked becomes the head. -/
def LinksNone : Kernel → Kernel → Prop := Order.Preimage Kernel.registry Eq

instance : IsPreorder Kernel LinksNone := Order.Preimage.instIsPreorder

theorem links_onGround (x : Action Ground α) : Steps LinksNone (onGround x) := fun _ => rfl

theorem links_onWindows (x : Action Windows α) : Steps LinksNone (onWindows x) := by
  intro k
  unfold Action.Ends onWindows
  split <;> exact refl (r := LinksNone) k

/-- A record that is kept is part of no list yet. -/
theorem links_keepRecord (id : RecordId) (i : ModuleInfo) : Steps LinksNone (keepRecord id i) :=
  steps_keepRecord (fun k _ _ _ => refl k.registry) id i

theorem links_loadImage (image : Image) : Steps LinksNone (loadImage image) := steps_loadImage links_onWindows image

theorem links_offerBootModule (m : BootModule) (mapper : Mapper) : Steps LinksNone (offerBootModule m mapper) :=
  steps_offerBootModule m mapper (links_onGround _)

theorem links_placeBootModule (m : BootModule) (mapper : Mapper) : Steps LinksNone (placeBootModule m mapper) :=
  (links_offerBootModule m mapper).bind fun image => steps_escalate (links_loadImage image)

/-- One record has been taken out of the registry, and none linked. -/
def Unlinks (k k' : Kernel) : Prop := Registry.LosesOne k.shelf k'.registry

/-- The record of a name is taken out of the registry. -/
def takeRecord (name : String) : Action Kernel (RecordId × Record) := do
  require .modules
  let id ← removeModule name
  return (id, ← record id)

/-- What is taken out is one record of the list. -/
theorem takeRecord_unlinks (name : String) (k : Kernel) :
    (takeRecord name).Ends k fun r k' => (∃ e, r = .ok e) → Unlinks k k' := by
  unfold takeRecord removeModule
  rw [Action.ends_bind, ends_require]
  split
  · exact fun ⟨_, hok⟩ => (by cases hok)
  rw [Action.goes_ok, Action.ends_bind, Action.ends_bind, onShelf, ends_onShelfWith]
  refine (Registry.removeByName_loses name (k.shelfWith [])).mono ?_
  intro r b hends
  cases r with
  | error e => exact fun ⟨_, hok⟩ => (by cases hok)
  | ok id =>
    have hloses : Unlinks k (k.setShelf b) := hends ⟨id, rfl⟩
    have hrecord : Steps Eq (do return (id, ← record id)) := (steps_record id).bind fun _ => Action.steps_pure _
    rw [Action.goes_ok, Action.ends_bind, Action.ends_note, Action.goes_ok, Action.ends_pure, Action.goes_ok]
    refine (hrecord (k.setShelf b)).mono ?_
    rintro r k' rfl
    exact fun _ => hloses

theorem unloadModule_eq (name : String) : unloadModule name = do
    let (id, r) ← takeRecord name
    releaseRecord id
    Action.note (unloadedLine r.info.name.text)
    return r.info := by
  unfold unloadModule takeRecord
  simp only [bind_assoc, pure_bind]

/-- A module that cannot be registered leaves everything as it was. -/
theorem addModule_refused (p : Ptr) (k : Kernel) :
    (addModule (.stored p)).Ends k fun r k' => ∀ f, r = .error (.fault f) → k' = k := by
  unfold addModule
  rw [Action.ends_bind, ends_onShelfWith]
  refine ((Registry.add_refused (.stored p) _).and (Registry.keepsOthers_add (.stored p) _)).mono ?_
  rintro r b ⟨⟨hrefused, hadded⟩, hkeeps⟩
  cases r with
  | error e =>
    intro f hf
    rw [hrefused f hf, setShelf_shelfWith]
  | ok u =>
    obtain ⟨r, hr⟩ := hadded rfl
    rw [get?_of_mem_shelfWith (RecordStore.mem_of_get? hr)] at hr
    obtain ⟨r', hr', -⟩ := info_setShelf hkeeps hr
    unfold record
    rw [Action.goes_ok, Action.ends_bind, Action.ends_bind, Action.ends_get, Action.goes_ok, hr']
    exact nofun

/-! ## Meeting corruption -/

/-- The action answers `a` and leaves the kernel `k'`. -/
def Answers (x : Action Kernel α) (k : Kernel) (a : α) (k' : Kernel) : Prop := x.Ends k fun r t => r = .ok a ∧ t = k'

/-- The action reports corruption. -/
def Reports (x : Action Kernel α) (k : Kernel) : Prop := x.Ends k fun r _ => r = .error (.fault .corrupted)

/-- The heap reports corruption while a record is stored: asked for an object, or given one back since the module cannot
be registered. -/
inductive StoreMeets (i : ModuleInfo) (k : Kernel) : Prop
  | allocate (h : Reports (onGround (Ground.allocate recordSize)) k)
  | release {p : Ptr} {f : Fault} {k₁ k₂ : Kernel} (hallocate : Answers (onGround (Ground.allocate recordSize)) k p k₁)
      (hadd : Answers (do
        keepRecord (.stored p) i
        Action.attempt (addModule (.stored p))) k₁ (.error f) k₂) (h : Reports (onGround (Ground.free p)) k₂)

/-- The heap or a loader reports corruption while a boot module is loaded. -/
inductive LoadMeets (m : BootModule) (mapper : Mapper) (k : Kernel) : Prop
  | place {image : Image} {k₁ : Kernel} (hoffer : Answers (offerBootModule m mapper) k image k₁)
      (h : Reports (loadImage image) k₁)
  | store {i : ModuleInfo} {k₁ : Kernel} (hplace : Answers (placeBootModule m mapper) k i k₁) (h : StoreMeets i k₁)

/-- The heap reports corruption while a module is unloaded. -/
inductive UnloadMeets (name : String) (k : Kernel) : Prop
  | release {p : Ptr} {r : Record} {k₁ : Kernel} (htake : Answers (takeRecord name) k (.stored p, r) k₁)
      (h : Reports (onGround (Ground.free p)) k₁)

/-- The machine stops for corruption, in a kernel that `R` relates to the one before. -/
def Halts (R : Kernel → Kernel → Prop) (x : Action Kernel α) (k : Kernel) : Prop :=
  x.Ends k fun r k' => r = .error (.halt .corruptCore) ∧ R k k'

theorem Halts.bind {R : Kernel → Kernel → Prop} {x : Action Kernel α} (h : Halts R x k) (f : α → Action Kernel β) :
    Halts R (x >>= f) k := by
  refine Action.Ends.bind h ?_
  rintro r k' ⟨rfl, hR⟩
  exact ⟨rfl, hR⟩

/-- What stops after a step, with the registry as the step has left it. -/
theorem Answers.halts {x : Action Kernel α} {a : α} {f : α → Action Kernel β} (h : Answers x k a k₁)
    (hf : Halts LinksNone (f a) k₁) : Halts (fun _ k' => LinksNone k₁ k') (x >>= f) k := by
  refine Action.Ends.bind h ?_
  rintro r t ⟨rfl, rfl⟩
  rw [Action.goes_ok]
  exact hf

/-- What stops after a step that links nothing. -/
theorem Answers.halts_links {x : Action Kernel α} {a : α} {f : α → Action Kernel β} (h : Answers x k a k₁)
    (hx : Steps LinksNone x) (hf : Halts LinksNone (f a) k₁) : Halts LinksNone (x >>= f) k := by
  refine (h.halts hf).mono ?_
  rintro r k' ⟨hr, hlinks⟩
  have hfirst : LinksNone k k₁ := by
    obtain ⟨-, hk⟩ := h
    exact hk ▸ hx k
  exact ⟨hr, IsTrans.trans _ _ _ hfirst hlinks⟩

theorem Answers.escalate {x : Action Kernel α} {a : α} (h : Answers x k a k₁) : Answers (Kernel.escalate x) k a k₁ := by
  refine ends_escalate.2 (Action.Ends.mono h ?_)
  rintro r t ⟨rfl, ht⟩
  exact ⟨rfl, ht⟩

/-- Corruption that is escalated. -/
theorem Reports.halts {x : Action Kernel α} (h : Reports x k) (hx : Steps LinksNone x) :
    Halts LinksNone (Kernel.escalate x) k := by
  refine ends_escalate.2 ((Action.Ends.and h (hx k)).mono ?_)
  rintro r k' ⟨rfl, hlinks⟩
  exact ⟨rfl, hlinks⟩

/-- Giving the object of a record back stops the machine where the heap reports corruption. -/
theorem Reports.halts_release (h : Reports (onGround (Ground.free p)) k) :
    Halts LinksNone (releaseRecord (.stored p)) k := Reports.halts h (links_onGround _)

/-- Storing a record stops the machine where it meets corruption. -/
theorem StoreMeets.halts (h : StoreMeets i k) : Halts LinksNone (storeRecord i) k := by
  unfold storeRecord
  cases h with
  | allocate h => exact (Reports.halts h (links_onGround _)).bind _
  | @release p f k₁ k₂ hallocate hadd h =>
    refine hallocate.escalate.halts_links (steps_escalate (links_onGround _)) ?_
    -- the record was kept and could not be registered, so it is still part of no list
    have hadd : (keepRecord (.stored p) i).Ends k₁ (Action.Goes (fun _ => Action.attempt (addModule (.stored p)))
      fun r t => r = .ok (.error f) ∧ t = k₂) := (Action.ends_bind _ _).1 hadd
    refine (hadd.and (links_keepRecord (.stored p) i k₁)).bind ?_
    rintro r t ⟨hadd, hkept⟩
    cases r with
    | error e => cases hadd.1
    | ok _ =>
      rw [Action.goes_ok, Action.ends_attempt] at hadd
      rw [Action.goes_ok, Action.ends_bind, Action.ends_attempt]
      refine (hadd.and (addModule_refused p t)).mono ?_
      rintro r t' ⟨⟨hr, rfl⟩, hrefused⟩
      rw [hr, Action.goes_ok]
      have hlinks : LinksNone k₁ t' := by
        rcases r with (g | e) | u
        · rw [hrefused g rfl]
          exact hkept
        · cases hr
        · cases hr
      refine (h.halts_release.bind _).mono ?_
      rintro r k' ⟨hhalt, hlinks'⟩
      exact ⟨hhalt, IsTrans.trans _ _ _ hlinks hlinks'⟩

/-- **Loading a module stops the machine** where it meets corruption. -/
theorem LoadMeets.halts (h : LoadMeets m mapper k) : Halts LinksNone (loadBootModule m mapper) k := by
  rw [loadBootModule_eq]
  cases h with
  | place hoffer h =>
    exact (hoffer.halts_links (links_offerBootModule m mapper) (Reports.halts h (links_loadImage _))).bind _
  | store hplace h => exact hplace.halts_links (links_placeBootModule m mapper) (h.halts.bind _)

/-- **Unloading a module stops the machine** where it meets corruption. -/
theorem UnloadMeets.halts (h : UnloadMeets name k) : Halts Unlinks (unloadModule name) k := by
  rw [unloadModule_eq]
  obtain ⟨htake, h⟩ := h
  have hunlinks := Action.Ends.and htake (takeRecord_unlinks name k)
  refine (htake.halts (h.halts_release.bind _)).mono ?_
  rintro r k' ⟨hr, hlinks⟩
  obtain ⟨⟨hok, hk⟩, hloses⟩ := hunlinks
  refine ⟨hr, ?_⟩
  have hloses := hloses ⟨_, hok⟩
  rw [hk, Unlinks, hlinks] at hloses
  exact hloses

/-! ## Lists of modules -/

namespace Attempt

/-- The heap or a loader reports corruption during the attempt. -/
def Meets (a : Attempt) : Prop := LoadMeets a.module a.mapper a.kernel

/-- What the load answers, if it does not stop the machine. -/
def outcome (a : Attempt) : Checked Fault ModuleInfo := (loadBootModule a.module a.mapper a.kernel).result

end Attempt

/-- What loading a list, on top of the report `n₀`, makes of the attempts `as`. -/
structure Tallies (as : List Attempt) (ms : List BootModule) (n₀ : BootReport) (r : Checked Fault BootReport)
    (k' : Kernel) : Prop where
  /-- No fault is handed to the caller. -/
  ends : ∀ f, r ≠ .error (.fault f)
  tried : as.map Attempt.module <+: ms
  /-- A report is one of all modules; those that it counts as failed have ended with a fault, and none has met
  corruption. -/
  counted : ∀ n, r = .ok n → as.map Attempt.module = ms ∧ n.loaded = n₀.loaded + as.countP (·.loaded?.isSome) ∧
    n.failed = n₀.failed + as.countP (·.loaded?.isNone) ∧
    ∀ a ∈ as, ¬a.Meets ∧ ((∃ i, a.outcome = .ok i) ∨ ∃ f ≠ .corrupted, a.outcome = .error (.fault f))
  /-- The module that meets corruption is the last that is tried, and the machine stops as loading it leaves it. -/
  stopped : ∀ a ∈ as, a.Meets → r = .error (.halt .corruptCore) ∧ as.getLast? = some a ∧
    k' = (loadBootModule a.module a.mapper a.kernel).state ∧ LinksNone a.kernel k'

/-- An attempt that meets corruption stops the machine. -/
theorem Attempt.Meets.outcome {a : Attempt} (h : a.Meets) : a.outcome = .error (.halt .corruptCore) :=
  (LoadMeets.halts h).1

/-- One more attempt in front, which does not stop the machine. -/
theorem Tallies.cons {as : List Attempt} {ms : List BootModule} {n₀ n₁ : BootReport} {r : Checked Fault BootReport}
    {k' : Kernel} {a : Attempt} (h : Tallies as ms n₁ r k')
    (hended : (∃ i, a.outcome = .ok i) ∨ ∃ f ≠ .corrupted, a.outcome = .error (.fault f))
    (hloaded : n₁.loaded = n₀.loaded + if a.loaded?.isSome then 1 else 0)
    (hfailed : n₁.failed = n₀.failed + if a.loaded?.isNone then 1 else 0) :
    Tallies (a :: as) (a.module :: ms) n₀ r k' := by
  have hmeets : ¬a.Meets := by
    intro hm
    obtain ⟨i, hi⟩ | ⟨f, -, hf⟩ := hended
    · cases hm.outcome.symm.trans hi
    · cases hm.outcome.symm.trans hf
  refine ⟨h.ends, (List.prefix_cons_inj _).2 h.tried, fun n hn => ?_, fun b hb hm => ?_⟩
  · obtain ⟨hmodules, hl, hf, hrest⟩ := h.counted n hn
    refine ⟨by rw [List.map_cons, hmodules], ?_, ?_, List.forall_mem_cons.2 ⟨⟨hmeets, hended⟩, hrest⟩⟩
    · rw [hl, hloaded, List.countP_cons]
      omega
    · rw [hf, hfailed, List.countP_cons]
      omega
  · obtain rfl | hb := List.mem_cons.1 hb
    · exact absurd hm hmeets
    · obtain ⟨hr, hlast, hk', hlinks⟩ := h.stopped b hb hm
      exact ⟨hr, by rw [List.getLast?_cons, hlast, Option.getD_some], hk', hlinks⟩

/-- **Loading a list** goes on after a fault, and stops where corruption is met. -/
theorem loadEach_tallies (mapper : Mapper) (ms : List BootModule) (n₀ : BootReport) (k : Kernel) :
    (loadEach mapper ms n₀).Ends k (Tallies (attempts mapper ms k) ms n₀) := by
  induction ms generalizing n₀ k with
  | nil =>
    refine ⟨fun _ hf => (by cases hf), List.nil_prefix, fun n hn => ?_, fun _ ha => (by cases ha)⟩
    cases hn
    exact ⟨rfl, rfl, rfl, fun _ ha => (by cases ha)⟩
  | cons m ms ih =>
    have hrecoverable := (recoverable_loadBootModule m mapper k trivial).1
    have hmeets : LoadMeets m mapper k → Halts LinksNone (loadBootModule m mapper) k := LoadMeets.halts
    rw [attempts, loadEach, Action.ends_bind, Action.ends_attempt]
    rcases hload : loadBootModule m mapper k with ⟨r, k₁, log⟩
    have hstate : (loadBootModule m mapper k).state = k₁ := by rw [hload]
    have houtcome : Attempt.outcome ⟨m, mapper, k⟩ = r := by rw [Attempt.outcome, hload]
    have hloaded : Attempt.loaded? ⟨m, mapper, k⟩ = r.toOption := by rw [Attempt.loaded?, hload]
    rw [hload] at hrecoverable
    rw [Action.Ends, hload]
    rcases r with (f | e) | info
    · rw [Action.attempted_fault, Action.goes_ok, Action.ends_bind, Action.ends_note, Action.goes_ok]
      refine (ih _ k₁).mono fun r k' h => h.cons (.inr ⟨f, ?_, houtcome⟩) ?_ ?_
      · rintro rfl
        cases hrecoverable _ rfl
      · rw [hloaded]
        rfl
      · rw [hloaded]
        rfl
    · rw [Action.attempted_halt, Action.goes_error]
      refine ⟨fun _ hf => (by cases hf), ⟨ms, rfl⟩, fun _ hn => (by cases hn), fun a ha hm => ?_⟩
      obtain rfl := List.mem_singleton.1 ha
      obtain ⟨hr, hlinks⟩ := hmeets hm
      rw [hload] at hr
      rw [hstate] at hlinks
      cases hr
      exact ⟨rfl, rfl, hstate.symm, hlinks⟩
    · rw [Action.attempted_ok, Action.goes_ok, Action.ends_bind, Action.ends_note, Action.goes_ok]
      refine (ih _ k₁).mono fun r k' h => h.cons (.inl ⟨info, houtcome⟩) ?_ ?_
      · rw [hloaded]
        rfl
      · rw [hloaded]
        rfl

/-! ## Every call -/

/-- What the calls of a kernel make of corruption. -/
structure HeedsCorruption (k : Kernel) : Prop where
  /-- Memory comes up with an answer or a recoverable fault; a heap that starts has nothing corrupt. -/
  startMemory : ∀ rs ms mapper, (startMemory rs ms mapper k).result ≠ .error (.fault .corrupted) ∧
    ¬Reports (onGround (Ground.startHeap mapper)) k
  /-- Loading comes up without the heap. -/
  startModules : ∀ t, (startModules t k).result ≠ .error (.fault .corrupted) ∧
    (startModules t k).state.ground = k.ground
  load : ∀ m mapper, (loadBootModule m mapper k).result ≠ .error (.fault .corrupted) ∧
    (LoadMeets m mapper k → Halts LinksNone (loadBootModule m mapper) k)
  unload : ∀ name, (unloadModule name k).result ≠ .error (.fault .corrupted) ∧
    (UnloadMeets name k → Halts Unlinks (unloadModule name) k)
  loadAll : ∀ ms mapper,
    Tallies (attempts mapper ms k) ms ⟨0, 0⟩ (loadAll ms mapper k).result (loadAll ms mapper k).state

theorem not_corrupted {σ : Type} {x : Action σ α} (hx : Recoverable x) (s : σ) :
    (x s).result ≠ .error (.fault .corrupted) := hx.ne trivial (by decide)

/-- **The kernel never runs past corruption**, whatever state it is in and whatever has overwritten its memory. -/
theorem heeds_corruption (k : Kernel) : k.HeedsCorruption where
  startMemory rs ms mapper := by
    refine ⟨not_corrupted (recoverable_startMemory rs ms mapper) k, fun h => ?_⟩
    exact not_corrupted (recoverable_startHeap mapper) k.ground h
  startModules t := by
    have hground : Steps (Over Eq) (Kernel.startModules t) := steps_startModules t
    exact ⟨not_corrupted (recoverable_startModules t) k, Eq.symm (hground k)⟩
  load m mapper := ⟨not_corrupted (recoverable_loadBootModule m mapper) k, LoadMeets.halts⟩
  unload name := ⟨not_corrupted (recoverable_unloadModule name) k, UnloadMeets.halts⟩
  loadAll ms mapper := by
    have hloads : (Kernel.loadAll ms mapper).Ends k (Tallies (attempts mapper ms k) ms ⟨0, 0⟩) := by
      unfold Kernel.loadAll
      refine (loadEach_tallies mapper ms ⟨0, 0⟩ k).bind fun r k' h => ?_
      cases r with
      | error e => exact h
      | ok n => exact h
    exact hloads

/-- A kernel with one module, whose record lies in a page that has lost its mark. -/
def unmarked : Kernel :=
  let info : ModuleInfo := ⟨⟨"nvme", by decide, by decide⟩, "elf", .empty⟩
  { boot (Cell.relink (Cell.write ["elf"] .blank 0x3030 info) 0x3030 none true) false with
    ground.heap := some (.empty (.direct 0))
    registry := ⟨some (.stored 0x3030), 1⟩
    texts := ["elf"]
    stage := .modules }

-- unloading its module meets corruption
example : (unloadModule "nvme" unmarked).result = .error (.halt .corruptCore) ∧
    Halt.corruptCore.message = "heap corruption detected" := by decide +kernel

end Kernel

end Keel
