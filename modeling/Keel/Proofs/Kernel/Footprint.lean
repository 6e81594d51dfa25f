import Keel.Proofs.Kernel.Lifetime
import Keel.Proofs.Kernel.Tenants
import Keel.Proofs.Module.Ranges

/-!
# What loading takes from the windows

A load takes addresses when the image is placed, and stores the record of the module afterwards. Nothing gives addresses
back, so where there is no object for the record the module is *stranded*: its pages stay taken, though the load fails.
Over a run the windows have therefore handed out the pages of the modules that loads have answered and of those that were
stranded, and no others (`charges_run`), but for loads whose entry point overruns the address space, of which nothing is
said here. Modules do get stranded, so the windows hold more than what was loaded (`not_charges_loaded`).
-/

namespace Keel

open Keel.Action (Steps)
open Keel.Align (roundUp)
open Keel.Elf (littleEndian headerBytes)
open Keel.Windows (Side)

/-- The range of a module on one side. -/
def ModuleInfo.range (i : ModuleInfo) : Side → AddressRange
  | .text => i.module.text
  | .data => i.module.data

/-- The bytes of modules on one side, each rounded up to whole pages. -/
def ModuleInfo.pages (side : Side) (is : List ModuleInfo) : Nat := (is.map fun i => roundUp (i.range side).length.toNat).sum

open Keel.ModuleInfo (pages)

@[simp] theorem ModuleInfo.pages_nil (side : Side) : pages side [] = 0 := rfl

theorem ModuleInfo.pages_append (side : Side) (is js : List ModuleInfo) :
    pages side (is ++ js) = pages side is + pages side js := by
  simp [pages]

theorem filterMap_cons_toList {α β : Type} (f : α → Option β) (a : α) (as : List α) :
    (a :: as).filterMap f = (f a).toList ++ as.filterMap f := by
  cases h : f a <;> simp [h]

/-- The windows `w'` have handed out the pages of the modules `is` since they were `w`. -/
def Windows.Charged (w w' : Windows) (is : List ModuleInfo) : Prop :=
  ∀ side, (w'.window side).used.toNat = (w.window side).used.toNat + pages side is

open Keel.Windows (Charged)

theorem Windows.charged_nil (w : Windows) : Charged w w [] := fun _ => rfl

theorem Windows.Charged.trans {w w' w'' : Windows} {is js : List ModuleInfo} (h : Charged w w' is)
    (h' : Charged w' w'' js) : Charged w w'' (is ++ js) := fun side => by
  rw [h' side, h side, ModuleInfo.pages_append, Nat.add_assoc]

/-! ## Placing an image -/

/-- Both blocks of an object are charged. -/
theorem Elf.charged_reserve {w : Windows} {v : Elf.Survey} {m : LoadedModule} (hw : w.Sound) (hfits : v.Fits w)
    (h : v.outcome w = .ok m) (name : ModuleName) (loader : String) :
    Charged w (v.reserve w) [⟨name, loader, m⟩] := by
  obtain ⟨htext, hdata⟩ := Windows.Session.outcome_eq_ok h
  intro side
  rw [pages, List.map_singleton, List.sum_singleton]
  cases side with
  | text =>
    rw [ModuleInfo.range, htext, Windows.Session.length_grant]
    exact hw.text.toNat_used_advance hfits.text
  | data =>
    rw [ModuleInfo.range, hdata, Windows.Session.length_grant]
    exact hw.data.toNat_used_advance hfits.data

/-- The loader charges the windows for the module it answers, if any. -/
theorem Elf.dispatch_charges {w : Windows} {image : Image} {exports : ExportTable} (hw : w.Sound) {n : ModuleName}
    (hn : n.text = image.name) (hover : ¬Elf.Overruns image exports w) :
    (Elf.loader.dispatch image exports).Ends w fun r w' => w'.Sound ∧ Charged w w' r.toOption.toList := by
  unfold Loader.dispatch
  rw [Action.ends_bind, Action.ends_attempt]
  refine (Elf.load_ends hw image exports).mono fun r w' h => ?_
  rcases h with ⟨v, hv, hsound, hfits, rfl, rfl⟩ | ⟨-, ⟨e, rfl⟩, rfl⟩
  · rcases Elf.outcome_cases hsound w with ⟨hbad, -⟩ | ⟨-, m, hm⟩
    · exact absurd ⟨v, hv, hfits, hbad⟩ hover
    · rw [hm, Action.attempted_ok, Action.goes_ok]
      dsimp only
      rw [← hn, Action.ends_bind, Action.Ends, ModuleName.ofString_text]
      exact ⟨hfits.sound hw, Elf.charged_reserve hw hfits hm n _⟩
  · cases e with
    | fault f => exact ⟨hw, w'.charged_nil⟩
    | halt e => exact ⟨hw, w'.charged_nil⟩

namespace Kernel

attribute [local irreducible] Memory.word Cell.read

variable {k k' : Kernel} {w : Windows} {m : BootModule} {mapper : Mapper}

/-- Modules are loaded into the windows `w`, by the built-in loader alone. -/
structure Loading (k : Kernel) (w : Windows) : Prop where
  windows : k.windows = some w
  sound : w.Sound
  exports : ∃ t, k.exports = some t
  loaders : k.loaders.list = [Elf.loader]

/-- The loader takes an image whose entry point overruns the address space. -/
def Overruns (k : Kernel) (image : Image) : Prop := ∃ (n : ModuleName) (t : ExportTable) (w : Windows),
  n.text = image.name ∧ k.exports = some t ∧ k.windows = some w ∧ Elf.Overruns image t w

/-- Placing an image charges the windows for the module it answers, and changes nothing else. -/
theorem loadImage_charges (h : k.Loading w) {image : Image} (hover : ¬k.Overruns image) :
    (loadImage image).Ends k fun r k' => ∃ w', k'.Loading w' ∧ Charged w w' r.toOption.toList := by
  obtain ⟨t, ht⟩ := h.exports
  unfold loadImage
  refine (ofString_ends image.name).bind fun r k₁ hends => ?_
  obtain ⟨-, hname, rfl⟩ := hends
  cases r with
  | error e => exact ⟨w, h, w.charged_nil⟩
  | ok n =>
    rw [Action.goes_ok, Action.ends_bind, ends_exportTable ht, Action.goes_ok, Action.ends_bind, Action.ends_get,
      Action.goes_ok, Action.ends_bind, ends_select h.loaders]
    split
    · rw [Action.goes_ok, ends_onWindows h.windows]
      have hn := hname n rfl
      refine (Elf.dispatch_charges h.sound hn fun hbad => hover ⟨n, t, w, hn, ht, h.windows, hbad⟩).mono ?_
      rintro r w' ⟨hw', hcharged⟩
      exact ⟨w', ⟨rfl, hw', ⟨t, ht⟩, h.loaders⟩, hcharged⟩
    · exact ⟨w, h, w.charged_nil⟩

theorem toOption_escalated {α : Type} (r : Checked Fault α) : (escalated r).toOption = r.toOption := by
  rcases r with (f | e) | a
  · cases f <;> rfl
  · rfl
  · rfl

/-! ## Before and after -/

theorem Loading.equips (h : k.Loading w) (he : Equips k k') : k'.Loading w :=
  ⟨he.windows.trans h.windows, h.sound, by rw [he.exports]; exact h.exports, by rw [he.loaders]; exact h.loaders⟩

/-- What comes before the loader leaves what loading needs. -/
theorem equips_offerBootModule (m : BootModule) (mapper : Mapper) : Steps Equips (offerBootModule m mapper) :=
  steps_offerBootModule m mapper (equips_onGround _)

/-- Whatever becomes of the record, the windows are charged for the module that was placed, if any. -/
theorem loadBootModule_charges (h : k.Loading w)
    (hover : ∀ image, (offerBootModule m mapper k).result = .ok image → ¬(offerBootModule m mapper k).state.Overruns image) :
    (loadBootModule m mapper).Ends k fun _ k' => ∃ w', k'.Loading w' ∧
      Charged w w' (placeBootModule m mapper k).result.toOption.toList := by
  have hplace : (placeBootModule m mapper).Ends k fun r k' => ∃ w', k'.Loading w' ∧ Charged w w' r.toOption.toList := by
    have hoffer : (offerBootModule m mapper).Ends k fun r k' => Equips k k' ∧ ∀ image, r = .ok image → ¬k'.Overruns image :=
      ⟨equips_offerBootModule m mapper k, hover⟩
    refine hoffer.bind fun r k₁ hends => ?_
    obtain ⟨hequips, hover⟩ := hends
    cases r with
    | error e => exact ⟨w, h.equips hequips, w.charged_nil⟩
    | ok image =>
      rw [Action.goes_ok, ends_escalate]
      refine (loadImage_charges (h.equips hequips) (hover image rfl)).mono fun r k₂ hends => ?_
      rwa [toOption_escalated]
  rw [loadBootModule_eq]
  refine hplace.result.bind fun r k₁ hends => ?_
  obtain ⟨hr, w', hw', hcharged⟩ := hends
  rw [← hr]
  cases r with
  | error e => exact ⟨w', hw', hcharged⟩
  | ok i =>
    rw [Action.goes_ok]
    have hstore : Steps Equips (do
        let id ← storeRecord i
        return (← record id).info) := (steps_storeRecord stores_equips i).bind fun id =>
      (steps_record id).bind fun _ => Action.steps_pure _
    exact (hstore k₁).mono fun _ k₂ he => ⟨w', hw'.equips he, hcharged⟩

/-! ## Reading the record -/

/-- A record that is made tells of the ranges of its module. -/
theorem keepRecord_tells (k : Kernel) (x : Ptr) (i : ModuleInfo) : (keepRecord (.stored x) i).Ends k fun _ k' =>
    ∃ r, k'.record? (.stored x) = some r ∧ r.info.range = i.range := by
  obtain ⟨loader, hdecode⟩ := Cell.exists_decode?_encode (Cell.mem_intern k.texts i.loader)
  refine ⟨_, Cell.read_write hdecode k.ground.arena.memory x, ?_⟩
  funext side
  cases side <;> rfl

/-- **A record that was stored** tells of the ranges of its module, wherever it lies. -/
theorem storeRecord_tells (k : Kernel) (i : ModuleInfo) : (storeRecord i).Ends k fun a k' =>
    ∀ id, a = .ok id → ∃ r, k'.record? id = some r ∧ r.info.range = i.range := by
  have hfails : ∀ {f : Fault} {k' : Kernel}, (Action.fail f : Action Kernel RecordId).Ends k' fun a k' =>
      ∀ id, a = .ok id → ∃ r, k'.record? id = some r ∧ r.info.range = i.range := by
    intro f k' id hid
    cases hid
  unfold storeRecord
  refine Action.Ends.bind (P := fun _ _ => True) trivial ?_
  intro a k₁ _
  cases a with
  | error e => exact fun id hid => (by cases hid)
  | ok x =>
    rw [Action.goes_ok]
    refine (keepRecord_tells k₁ x i).bind ?_
    intro a k₂ hends
    obtain ⟨r, hr, hrange⟩ := hends
    cases a with
    | error e => exact fun id hid => (by cases hid)
    | ok _ =>
      rw [Action.goes_ok, Action.ends_bind, Action.ends_attempt]
      refine (info_addModule hr).mono ?_
      intro a k₃ hends
      obtain ⟨r', hr', hinfo⟩ := hends
      rcases a with (f | e) | _
      · rw [Action.attempted_fault, Action.goes_ok]
        refine Action.Ends.bind (P := fun _ _ => True) trivial ?_
        intro a k₄ _
        cases a with
        | error e => exact fun id hid => (by cases hid)
        | ok _ => exact hfails
      · exact fun id hid => (by cases hid)
      · rw [Action.attempted_ok, Action.goes_ok]
        rintro id hid
        obtain rfl := Except.ok.inj hid
        exact ⟨r', hr', by rw [hinfo, hrange]⟩

/-! ## Attempts -/

/-- An attempt to load a boot module, with the kernel it meets. -/
structure Attempt where
  module : BootModule
  mapper : Mapper
  kernel : Kernel

namespace Attempt

/-- The module that the load answers. -/
def loaded? (a : Attempt) : Option ModuleInfo := (loadBootModule a.module a.mapper a.kernel).result.toOption

/-- The module whose image is placed. -/
def placed? (a : Attempt) : Option ModuleInfo := (placeBootModule a.module a.mapper a.kernel).result.toOption

/-- The module whose image is placed and whose record is not stored. -/
def stranded? (a : Attempt) : Option ModuleInfo := if a.loaded?.isSome then none else a.placed?

/-- The image is placed with an entry point that overruns the address space. -/
def Overruns (a : Attempt) : Prop := ∃ image, (offerBootModule a.module a.mapper a.kernel).result = .ok image ∧
  (offerBootModule a.module a.mapper a.kernel).state.Overruns image

/-- What a load answers has been placed. -/
theorem placed?_of_loaded? {a : Attempt} {i : ModuleInfo} (h : a.loaded? = some i) :
    ∃ j, a.placed? = some j ∧ i.range = j.range := by
  rw [loaded?, loadBootModule_eq] at h
  rw [placed?]
  rcases hplace : placeBootModule a.module a.mapper a.kernel with ⟨e | j, k, l⟩
  · rw [Action.bind_error hplace] at h
    cases h
  · rw [Action.bind_ok hplace] at h
    refine ⟨j, rfl, ?_⟩
    have htells := storeRecord_tells k j
    rcases hstore : storeRecord j k with ⟨e | id, k', l'⟩
    · rw [Action.bind_error hstore] at h
      cases h
    · rw [Action.Ends, hstore] at htells
      obtain ⟨r, hr, hrange⟩ := htells id rfl
      have hrecord : record id k' = ⟨.ok r, k', []⟩ := by
        rw [record, Action.bind_ok (rfl : (get : Action Kernel Kernel) k' = ⟨.ok k', k', []⟩), hr]
        rfl
      rw [Action.bind_ok hstore, Action.bind_ok hrecord] at h
      obtain rfl : r.info = i := Option.some.inj h
      exact hrange

/-- What is placed is answered or stranded. -/
theorem pages_placed (side : Side) (a : Attempt) :
    pages side a.placed?.toList = pages side a.loaded?.toList + pages side a.stranded?.toList := by
  unfold stranded?
  cases h : a.loaded? with
  | none => rw [Option.isSome_none, if_neg Bool.false_ne_true, Option.toList_none, ModuleInfo.pages_nil, Nat.zero_add]
  | some i =>
    obtain ⟨j, hj, hrange⟩ := placed?_of_loaded? h
    rw [hj, Option.isSome_some, if_pos rfl, Option.toList_none, ModuleInfo.pages_nil, Nat.add_zero, Option.toList_some,
      Option.toList_some, pages, pages, List.map_singleton, List.map_singleton, hrange]

/-- The modules that attempts load, and those they strand, are those they place. -/
theorem pages_filterMap (side : Side) (as : List Attempt) : pages side (as.filterMap placed?) =
    pages side (as.filterMap loaded?) + pages side (as.filterMap stranded?) := by
  induction as with
  | nil => rfl
  | cons a as ih =>
    simp only [filterMap_cons_toList, ModuleInfo.pages_append, ih, pages_placed]
    omega

end Attempt

/-- The attempts to load each of a list in turn; a halt is the last that happens. -/
def attempts (mapper : Mapper) : List BootModule → Kernel → List Attempt
  | [], _ => []
  | m :: ms, k => ⟨m, mapper, k⟩ ::
    match (loadBootModule m mapper k).result with
    | .error (.halt _) => []
    | _ => attempts mapper ms (loadBootModule m mapper k).state

theorem loadEach_charges (h : k.Loading w) {ms : List BootModule} (hover : ∀ a ∈ attempts mapper ms k, ¬a.Overruns)
    (report : BootReport) : (loadEach mapper ms report).Ends k fun _ k' => ∃ w', k'.Loading w' ∧
      Charged w w' ((attempts mapper ms k).filterMap Attempt.placed?) := by
  induction ms generalizing k w report with
  | nil => exact ⟨w, h, w.charged_nil⟩
  | cons m ms ih =>
    rw [attempts] at hover ⊢
    rw [List.forall_mem_cons] at hover
    obtain ⟨hfirst, hrest⟩ := hover
    have hload := loadBootModule_charges h fun image hi hbad => hfirst ⟨image, hi, hbad⟩
    rw [filterMap_cons_toList, loadEach, Action.ends_bind, Action.ends_attempt]
    obtain ⟨r, k₁, log, ht, w₁, hw₁, hcharged⟩ := hload.trace
    rw [ht] at hrest ⊢
    rw [Action.Ends, ht]
    rcases r with (f | e) | info
    · rw [Action.attempted_fault, Action.goes_ok, Action.ends_bind, Action.ends_note, Action.goes_ok]
      refine (ih hw₁ hrest _).mono fun r k' hends => ?_
      obtain ⟨w', hw', hcharged'⟩ := hends
      exact ⟨w', hw', hcharged.trans hcharged'⟩
    · exact ⟨w₁, hw₁, hcharged.trans w₁.charged_nil⟩
    · rw [Action.attempted_ok, Action.goes_ok, Action.ends_bind, Action.ends_note, Action.goes_ok]
      refine (ih hw₁ hrest _).mono fun r k' hends => ?_
      obtain ⟨w', hw', hcharged'⟩ := hends
      exact ⟨w', hw', hcharged.trans hcharged'⟩

theorem loadAll_charges (h : k.Loading w) {ms : List BootModule} (hover : ∀ a ∈ attempts mapper ms k, ¬a.Overruns) :
    (loadAll ms mapper).Ends k fun _ k' => ∃ w', k'.Loading w' ∧
      Charged w w' ((attempts mapper ms k).filterMap Attempt.placed?) := by
  unfold loadAll
  refine (loadEach_charges h hover ⟨0, 0⟩).bind fun r k' hends => ?_
  cases r with
  | error e => exact hends
  | ok n => exact hends

/-! ## Runs -/

/-- The attempts to load a module that a request makes. -/
def Request.attempts (k : Kernel) : Request → List Attempt
  | load m mapper => [⟨m, mapper, k⟩]
  | Request.loadAll ms mapper => Kernel.attempts mapper ms k
  | _ => []

/-- The attempts of a list of requests. -/
def attemptsOf (k : Kernel) : List Request → List Attempt
  | [] => []
  | q :: qs => q.attempts k ++ (q.on k).attemptsOf qs

/-- The kernel after a list of requests. -/
def after (k : Kernel) (qs : List Request) : Kernel := qs.foldl Request.on k

/-- Loading is brought up once. -/
theorem startModules_again (h : k.Loading w) (t : ExportTable) : (startModules t).Ends k fun _ k' => k' = k := by
  unfold startModules
  rw [Action.ends_bind, Action.ends_get, Action.goes_ok]
  dsimp only
  rw [Action.ends_ite]
  split
  · rfl
  · rw [Action.ends_bind, startWindows, Action.ends_bind, Action.ends_get, Action.goes_ok, h.windows]
    rfl

/-- One request. -/
theorem charges_on (h : k.Loading w) (q : Request) (hover : ∀ a ∈ q.attempts k, ¬a.Overruns) :
    ∃ w', (q.on k).Loading w' ∧ Charged w w' ((q.attempts k).filterMap Attempt.placed?) := by
  have hequips : ∀ k', Equips k k' → ∃ w', k'.Loading w' ∧ Charged w w' [] := fun k' he =>
    ⟨w, h.equips he, w.charged_nil⟩
  cases q with
  | startModules t =>
    refine hequips _ ?_
    rw [Request.on, startModules_again h t]
    exact refl k
  | load m mapper =>
    have ha := hover ⟨m, mapper, k⟩ (List.mem_singleton_self _)
    exact loadBootModule_charges h fun image hi hbad => ha ⟨image, hi, hbad⟩
  | loadAll ms mapper => exact loadAll_charges h hover
  | unload name => exact hequips _ (steps_unloadModule stores_equips.toReleases name k)
  | allocate size => exact hequips _ ⟨rfl, rfl, rfl, rfl⟩
  | free x => exact hequips _ ⟨rfl, rfl, rfl, rfl⟩
  | shrink => exact hequips _ ⟨rfl, rfl, rfl, rfl⟩
  | allocFrame => exact hequips _ ⟨rfl, rfl, rfl, rfl⟩
  | freeFrame pa => exact hequips _ ⟨rfl, rfl, rfl, rfl⟩
  | reserve base length => exact hequips _ ⟨rfl, rfl, rfl, rfl⟩
  | write a bytes => exact hequips _ ⟨rfl, rfl, rfl, rfl⟩

/-- A list of requests. -/
theorem charges_after (h : k.Loading w) {qs : List Request} (hover : ∀ a ∈ k.attemptsOf qs, ¬a.Overruns) :
    ∃ w', (k.after qs).Loading w' ∧ Charged w w' ((k.attemptsOf qs).filterMap Attempt.placed?) := by
  unfold after
  induction qs generalizing k w with
  | nil => exact ⟨w, h, w.charged_nil⟩
  | cons q qs ih =>
    rw [attemptsOf] at hover ⊢
    obtain ⟨hq, hqs⟩ := List.forall_mem_append.1 hover
    obtain ⟨w₁, hw₁, hcharged⟩ := charges_on h q hq
    obtain ⟨w', hw', hcharged'⟩ := ih hw₁ hqs
    rw [List.filterMap_append]
    exact ⟨w', hw', hcharged.trans hcharged'⟩

/-- A kernel after memory and loading have been brought up. -/
def broughtUp (rs : List Region) (ms : List BootModule) (mapper : Mapper) (exports : ExportTable) (k : Kernel) : Kernel :=
  (startModules exports (startMemory rs ms mapper k).state).state

/-- Loading comes up with windows that have handed out nothing. -/
theorem loading_broughtUp {rs : List Region} {ms : List BootModule} {mapper : Mapper} {memory : Memory} {poison : Bool}
    {exports : ExportTable}
    (h : (startModules exports (startMemory rs ms mapper (.boot memory poison)).state).result = .ok ()) :
    (broughtUp rs ms mapper exports (.boot memory poison)).Loading .kernel := by
  have hearly : (boot memory poison).Ready := .inl ⟨nofun, rfl, rfl, rfl⟩
  obtain ⟨hready, hok⟩ := startModules_ends (hearly.rises (rises_startMemory rs ms mapper _)) exports
  obtain ⟨hstage, hwindows⟩ := hok h
  rcases hready with ⟨hearly, -⟩ | ⟨-, -, hexports, hloaders⟩
  · exact absurd hstage hearly
  · exact ⟨hwindows, Windows.sound_kernel, hexports, hloaders⟩

/-- **The windows have handed out what was loaded and what was stranded**, in any run of a kernel in which loading has
come up and no entry point overruns the address space. -/
theorem charges_run {rs : List Region} {ms : List BootModule} {mapper : Mapper} {memory : Memory} {poison : Bool}
    {exports : ExportTable}
    (h : (startModules exports (startMemory rs ms mapper (.boot memory poison)).state).result = .ok ()) (qs : List Request)
    (hover : ∀ a ∈ (broughtUp rs ms mapper exports (.boot memory poison)).attemptsOf qs, ¬a.Overruns) :
    ∃ w, ((broughtUp rs ms mapper exports (.boot memory poison)).after qs).windows = some w ∧
      ∀ side, (w.window side).used.toNat =
        pages side (((broughtUp rs ms mapper exports (.boot memory poison)).attemptsOf qs).filterMap Attempt.loaded?) +
        pages side (((broughtUp rs ms mapper exports (.boot memory poison)).attemptsOf qs).filterMap Attempt.stranded?) := by
  obtain ⟨w, hw, hcharged⟩ := charges_after (loading_broughtUp h) hover
  refine ⟨w, hw.windows, fun side => ?_⟩
  have hzero : (Windows.kernel.window side).used.toNat = 0 := by cases side <;> rfl
  rw [hcharged side, hzero, Nat.zero_add, Attempt.pages_filterMap]

/-! ## A module that is stranded -/

/-- An image that overruns the address space is not placed. -/
theorem loadImage_of_overruns (h : k.Loading w) {image : Image} (hover : k.Overruns image) :
    (loadImage image).Ends k fun r _ => r.toOption = none := by
  obtain ⟨n, t, w', hn, ht, hw', hbad⟩ := hover
  obtain rfl : w' = w := Option.some.inj (hw'.symm.trans h.windows)
  obtain ⟨hr, -⟩ := Elf.load_of_overruns h.sound hbad
  unfold loadImage
  rw [Action.ends_bind, ← hn, Action.Ends, ModuleName.ofString_text, Action.goes_ok, Action.ends_bind,
    ends_exportTable ht, Action.goes_ok, Action.ends_bind, Action.ends_get, Action.goes_ok, Action.ends_bind,
    ends_select h.loaders]
  split
  · rw [Action.goes_ok, ends_onWindows h.windows]
    unfold Loader.dispatch
    have hfails : (Elf.loader.load image t w').result = .error (.fault .badArgs) := hr
    rw [Action.ends_bind, Action.ends_attempt, Action.Ends, hfails]
    rfl
  · rfl

theorem Attempt.not_overruns_of_placed {a : Attempt} (h : a.kernel.Loading w) (hi : a.placed?.isSome = true) :
    ¬a.Overruns := by
  rintro ⟨image, himage, hover⟩
  have hequips : Equips a.kernel (offerBootModule a.module a.mapper a.kernel).state :=
    equips_offerBootModule a.module a.mapper a.kernel
  have hload := loadImage_of_overruns (h.equips hequips) hover
  rcases hoffer : offerBootModule a.module a.mapper a.kernel with ⟨r, k, l⟩
  rw [hoffer] at himage hload
  obtain rfl : r = .ok image := himage
  have hplace : (escalate (loadImage image)).Ends k fun r _ => r.toOption = none :=
    ends_escalate.2 (hload.mono fun r _ hr => (toOption_escalated r).trans hr)
  have hnone : a.placed? = none := by
    rw [placed?, placeBootModule, Action.bind_ok hoffer]
    exact hplace
  rw [hnone] at hi
  cases hi

/-- A load that fails with a window moved is not accounted for by what it answers. -/
theorem not_charged_of_failed {e : Failure Fault} {used : UInt64} (hfails : (loadBootModule m mapper k).result = .error e)
    (hused : (loadBootModule m mapper k).state.windows.map (fun w => w.text.used) = some used) (h0 : used.toNat ≠ 0) :
    ¬∃ w, (k.after [.load m mapper]).windows = some w ∧ ∀ side, (w.window side).used.toNat =
      pages side ((k.attemptsOf [.load m mapper]).filterMap Attempt.loaded?) := by
  rintro ⟨w, hw, hcharged⟩
  have hwindows : (loadBootModule m mapper k).state.windows = some w := hw
  have hattempts : k.attemptsOf [.load m mapper] = [⟨m, mapper, k⟩] := rfl
  have hnone : Attempt.loaded? ⟨m, mapper, k⟩ = none := by
    rw [Attempt.loaded?, hfails]
    rfl
  rw [hwindows, Option.map_some, Option.some.injEq] at hused
  rw [← hused] at h0
  refine h0 ((hcharged .text).trans ?_)
  rw [hattempts, List.filterMap_cons_none hnone, List.filterMap_nil, ModuleInfo.pages_nil]

/-- An object with four bytes of code and no symbols. -/
def codeOnly : List UInt8 :=
  [0x7f, 0x45, 0x4c, 0x46, 2, 1, 1, 0] ++ littleEndian 8 0 ++ littleEndian 2 1 ++ littleEndian 2 62 ++
    littleEndian 4 1 ++ littleEndian 16 0 ++ littleEndian 8 64 ++ littleEndian 4 0 ++ littleEndian 2 64 ++
    littleEndian 4 0 ++ littleEndian 2 64 ++ littleEndian 2 2 ++ littleEndian 2 0 ++ headerBytes 0 0 0 0 0 0 0 ++
    headerBytes 1 6 64 4 0 4 0

/-- A boot module with this object. -/
def tight : BootModule := ⟨"/boot/tight", ⟨0x1000⟩, 192⟩

/-- Two frames, one for the module and one for the bitmap. -/
def twoFrames : List Region := [.usable ⟨0x1000⟩ 0x2000]

/-- Memory with the module in it. -/
def tightMemory : Memory := Memory.blank.setBytes 0x400000001000 codeOnly

/-- A kernel in which loading has come up and no frame is free. -/
def crowded : Kernel := broughtUp twoFrames [tight] (.direct 0x400000000000) ⟨[]⟩ (.boot tightMemory false)

theorem startMemory_tight : (startMemory twoFrames [tight] (.direct 0x400000000000) (.boot tightMemory false)).result =
    .ok ⟨2, 2, 0, 0, 1⟩ := by decide +kernel

theorem startModules_tight : (startModules ⟨[]⟩
    (startMemory twoFrames [tight] (.direct 0x400000000000) (.boot tightMemory false)).state).result = .ok () := by
  decide +kernel

theorem loading_crowded : crowded.Loading .kernel := loading_broughtUp startModules_tight

/-- The module is placed. -/
theorem placed_crowded : (Attempt.mk tight (.direct 0x400000000000) crowded).placed?.isSome = true := by decide +kernel

/-- There is no object for its record, and a page of code stays taken. -/
theorem loadBootModule_crowded : (loadBootModule tight (.direct 0x400000000000) crowded).result = .error (.fault .tooMany) ∧
    (loadBootModule tight (.direct 0x400000000000) crowded).state.windows.map (fun w => w.text.used) = some 0x1000 := by
  decide +kernel

/-- The module is stranded, and the windows are charged for it. -/
theorem charges_crowded : (startModules ⟨[]⟩
      (startMemory twoFrames [tight] (.direct 0x400000000000) (.boot tightMemory false)).state).result = .ok () ∧
    (∀ a ∈ crowded.attemptsOf [.load tight (.direct 0x400000000000)], ¬a.Overruns) ∧
    ∃ w, (crowded.after [.load tight (.direct 0x400000000000)]).windows = some w ∧ ∀ side, (w.window side).used.toNat =
      pages side ((crowded.attemptsOf [.load tight (.direct 0x400000000000)]).filterMap Attempt.loaded?) +
        pages side ((crowded.attemptsOf [.load tight (.direct 0x400000000000)]).filterMap Attempt.stranded?) := by
  have hover : ∀ a ∈ crowded.attemptsOf [.load tight (.direct 0x400000000000)], ¬a.Overruns := by
    intro a ha
    obtain rfl := List.mem_singleton.1 ha
    exact Attempt.not_overruns_of_placed loading_crowded placed_crowded
  exact ⟨startModules_tight, hover, charges_run startModules_tight [.load tight (.direct 0x400000000000)] hover⟩

/-- The windows do not account for the modules alone that loads have answered. -/
theorem not_charges_loaded : ¬∀ (rs : List Region) (ms : List BootModule) (mapper : Mapper) (memory : Memory)
    (poison : Bool) (stats : Frame.PoolStats) (exports : ExportTable) (qs : List Request),
    (startMemory rs ms mapper (.boot memory poison)).result = .ok stats →
    (startModules exports (startMemory rs ms mapper (.boot memory poison)).state).result = .ok () →
    ∃ w, ((broughtUp rs ms mapper exports (.boot memory poison)).after qs).windows = some w ∧
      ∀ side, (w.window side).used.toNat =
        pages side (((broughtUp rs ms mapper exports (.boot memory poison)).attemptsOf qs).filterMap Attempt.loaded?) :=
  fun h =>
  not_charged_of_failed loadBootModule_crowded.1 loadBootModule_crowded.2 (by decide)
    (h _ _ _ _ _ _ _ [.load tight (.direct 0x400000000000)] startMemory_tight startModules_tight)

end Kernel

end Keel
