import Keel.Proofs.Kernel.Records
import Keel.Proofs.Module.Elf.Safety

/-!
# Loading what is on file

Loading a boot module takes frames out of use, moves the windows and stores a record. The first two leave the objects of
the heap (`escalate_loadImage_ends`), and the record is stored and read back, or not there at all (`storeRead_ends`). So a
load that fails leaves the registry and the number of objects, and one that succeeds answers what its record tells and
puts that on file (`loadBootModule_ends`); loading a list is that over and over (`loadAll_ends`). Whatever the
loaders are, an image is loaded under its name (`dispatch_named`). Where the built-in one is the only one and all that it
needs is up (`Ready`), which stays so, no load stops the machine but for want of a count in the pool (`Refused`).
-/

namespace Keel.Kernel

open Keel.Action (Steps)
open Keel.Checked (Settles settles_ok settles_fault settles_orFault not_settles_halt)
open Keel.Frame (Pool)
open Keel.Heap (Object)
open Keel.Registry (Entry)
open Keel.Slab (Estate)

attribute [local irreducible] Memory.word Cell.read

variable {α : Type} {E : Estate} {k k' : Kernel} {others : Set Object} {es : List Entry}

/-! ## What loading needs -/

/-- Loading is not up yet, or all that it needs is. -/
def Ready (k : Kernel) : Prop :=
  (k.stage ≠ .modules ∧ k.windows = none ∧ k.exports = none ∧ k.loaders = .empty) ∨
    (k.stage = .modules ∧ (∃ w, k.windows = some w ∧ w.Sound) ∧ (∃ t, k.exports = some t) ∧
      k.loaders.list = [Elf.loader])

/-- What loading needs is as it was. -/
structure Equips (k k' : Kernel) : Prop where
  windows : k'.windows = k.windows
  exports : k'.exports = k.exports
  loaders : k'.loaders = k.loaders
  stage : k'.stage = k.stage

instance : IsPreorder Kernel Equips where
  refl _ := ⟨rfl, rfl, rfl, rfl⟩
  trans _ _ _ h h' := ⟨h'.windows.trans h.windows, h'.exports.trans h.exports, h'.loaders.trans h.loaders,
    h'.stage.trans h.stage⟩

theorem Ready.equips (h : k.Ready) (he : Equips k k') : k'.Ready := by
  unfold Ready
  rw [he.windows, he.exports, he.loaders, he.stage]
  exact h

theorem equips_onGround (x : Action Ground α) : Steps Equips (onGround x) := fun _ => ⟨rfl, rfl, rfl, rfl⟩

/-- Records are kept and given back without what loading needs. -/
theorem stores_equips : Stores Equips where
  free := fun _ => equips_onGround _
  shelf := steps_onShelfWith fun _ _ _ _ => ⟨rfl, rfl, rfl, rfl⟩
  allocate := fun _ => equips_onGround _
  keep := steps_keepRecord fun _ _ _ _ => ⟨rfl, rfl, rfl, rfl⟩

/-! ## Bringing loading up -/

/-- The first loader is the only one. -/
theorem register_empty {l : Loader} (h : l.name.isEmpty = false) :
    (LoaderTable.register l).Ends .empty fun r t => r = .ok () ∧ t.list = [l] := by
  have hnone : LoaderTable.empty.list = [] := rfl
  unfold LoaderTable.register
  rw [Action.ends_bind, Action.ends_get, Action.goes_ok, h, hnone]
  exact ⟨rfl, rfl⟩

/-- Bringing loading up gives it all it needs, once. -/
theorem startModules_ends (h : k.Ready) (t : ExportTable) : (startModules t).Ends k fun r k' =>
    k'.Ready ∧ (r = .ok () → k'.stage = .modules ∧ k'.windows = some .kernel) := by
  unfold startModules
  rw [Action.ends_bind, Action.ends_get, Action.goes_ok]
  dsimp only
  rw [Action.ends_ite]
  split
  · exact ⟨h, fun hok => by cases hok⟩
  · rename_i hrank
    rw [Action.ends_bind, startWindows, Action.ends_bind, Action.ends_get, Action.goes_ok]
    dsimp only
    rcases id h with ⟨-, hwindows, hexports, hloaders⟩ | ⟨-, ⟨w, hw, -⟩, -⟩
    · simp only [hwindows, Option.isSome_none, Bool.false_eq_true, if_false, Action.ends_bind, Action.ends_set,
        Action.goes_ok, Action.ends_note, startExports, Action.ends_get, hexports, registerLoader, Action.ends_zoom]
      show (LoaderTable.register Elf.loader).Ends k.loaders _
      rw [hloaders]
      refine (register_empty rfl).mono ?_
      intro r table hends
      obtain ⟨rfl, htable⟩ := hends
      simp only [Action.goes_ok, Action.ends_bind, Action.ends_note, advance, Action.ends_modify]
      have hstage : k.stage.later .modules = .modules := by cases k.stage <;> rfl
      exact ⟨.inr ⟨hstage, ⟨_, rfl, Windows.sound_kernel⟩, ⟨t, rfl⟩, htable⟩, fun _ => ⟨hstage, rfl⟩⟩
    · rw [hw]
      exact ⟨h, fun hok => by cases hok⟩

/-! ## Images -/

/-- A fault that the machine outlives, as what is refused. -/
theorem refused_of_settles {e : Failure Fault} (h : Settles (· ≠ .corrupted) (.error e : Checked Fault α)) :
    Refused (.error e : Checked Fault α) k := by
  cases e with
  | fault f => exact refused_fault (h.fault f rfl)
  | halt e => exact absurd h (not_settles_halt e)

theorem ofString_ends {σ : Type} {st : σ} (s : String) : (ModuleName.ofString s).Ends st fun r t =>
    Settles (· ≠ .corrupted) r ∧ (∀ n, r = .ok n → n.text = s) ∧ t = st := by
  unfold ModuleName.ofString
  split
  · split
    · refine ⟨settles_ok _, fun n hn => ?_, rfl⟩
      cases hn
      rfl
    · refine ⟨settles_fault.2 (by decide), fun n hn => ?_, rfl⟩
      cases hn
  · refine ⟨settles_fault.2 (by decide), fun n hn => ?_, rfl⟩
    cases hn

theorem ends_onWindows {a : Action Windows α} {w : Windows} {Q : Checked Fault α → Kernel → Prop}
    (h : k.windows = some w) : (onWindows a).Ends k Q ↔ a.Ends w fun r w => Q r { k with windows := some w } := by
  unfold Action.Ends onWindows
  rw [h]

theorem ends_exportTable {exports : ExportTable} {Q : Checked Fault ExportTable → Kernel → Prop}
    (h : k.exports = some exports) : exportTable.Ends k Q ↔ Q (.ok exports) k := by
  unfold exportTable
  rw [Action.ends_bind, Action.ends_get, Action.goes_ok, h, Action.ends_some]

theorem ends_select {σ : Type} {st : σ} {table : LoaderTable} {l : Loader} {image : Image}
    {Q : Checked Fault Loader → σ → Prop} (h : table.list = [l]) : (table.select image).Ends st Q ↔
      if l.probe image then Q (.ok l) st else Q (.error (.fault .noSuch)) st := by
  unfold LoaderTable.select
  rw [h, List.find?_singleton]
  split
  · rfl
  · rfl

/-- Whatever a loader does, the image is placed under its name. -/
theorem dispatch_named (l : Loader) (image : Image) (exports : ExportTable) (w : Windows) :
    (l.dispatch image exports).Ends w fun r _ => ∀ i, r = .ok i → i.name.text = image.name := by
  unfold Loader.dispatch
  rw [Action.ends_bind]
  cases hl : (Action.attempt (l.load image exports) w).result with
  | error e =>
    unfold Action.Ends
    rw [hl, Action.goes_error]
    exact nofun
  | ok a =>
    unfold Action.Ends
    rw [hl, Action.goes_ok]
    cases a with
    | error f =>
      dsimp only
      rw [Action.ends_bind, Action.ends_note, Action.goes_ok, Action.ends_fail]
      exact nofun
    | ok m =>
      refine (ofString_ends image.name).bind ?_
      intro r w' hends
      obtain ⟨-, hname, -⟩ := hends
      cases r with
      | error e => exact nofun
      | ok n =>
        intro i hi
        cases hi
        exact hname n rfl

/-- The built-in loader places an image, or answers a fault. -/
theorem dispatch_ends {w : Windows} (hw : w.Sound) {image : Image} (h : image.bytes.size < 2 ^ 64)
    (exports : ExportTable) : (Elf.loader.dispatch image exports).Ends w fun r w' =>
      Settles (· ≠ .corrupted) r ∧ w'.Sound := by
  have hload : (Elf.load image exports).Ends w fun r w' => Settles Elf.IsLoadFault r ∧ w'.Sound :=
    ⟨Elf.settles_load hw h exports, Elf.sound_load hw image exports⟩
  unfold Loader.dispatch
  rw [Action.ends_bind, Action.ends_attempt]
  refine hload.mono ?_
  intro r w' hends
  obtain ⟨hr, hw'⟩ := hends
  rcases r with (f | e) | m
  · have hf : f ≠ .corrupted := by
      rintro rfl
      rcases hr.fault _ rfl with hf | hf | hf | hf <;> cases hf
    exact ⟨settles_fault.2 hf, hw'⟩
  · exact absurd hr (not_settles_halt e)
  · rw [Action.attempted_ok, Action.goes_ok]
    dsimp only
    refine (ofString_ends image.name).bind ?_
    intro r w'' hends
    obtain ⟨hr, -, rfl⟩ := hends
    cases r with
    | error e => exact ⟨hr.error, hw'⟩
    | ok n => exact ⟨settles_ok _, hw'⟩

/-- The windows may have moved, and no more. -/
def MovesWindows (k k' : Kernel) : Prop := ∃ w, k' = { k with windows := w }

/-- **Loading an image** moves the windows and no more. -/
theorem loadImage_moves (image : Image) (k : Kernel) : (loadImage image).Ends k fun r k' =>
    k.MovesWindows k' ∧ ∀ i, r = .ok i → i.name.text = image.name := by
  have hwindows : ∀ (l : Loader) (exports : ExportTable), (onWindows (l.dispatch image exports)).Ends k fun r k' =>
      k.MovesWindows k' ∧ ∀ i, r = .ok i → i.name.text = image.name := by
    intro l exports
    cases hw : k.windows with
    | none =>
      unfold Action.Ends onWindows
      rw [hw]
      exact ⟨⟨_, rfl⟩, nofun⟩
    | some w =>
      rw [ends_onWindows hw]
      exact (dispatch_named l image exports w).mono fun r w hname => ⟨⟨_, rfl⟩, hname⟩
  unfold loadImage exportTable LoaderTable.select
  refine (ofString_ends image.name).bind ?_
  intro r k₁ hends
  obtain ⟨-, -, rfl⟩ := hends
  cases r with
  | error e => exact ⟨⟨_, rfl⟩, nofun⟩
  | ok n =>
    rw [Action.goes_ok, Action.ends_bind, Action.ends_bind, Action.ends_get, Action.goes_ok]
    cases hexports : k₁.exports with
    | none => exact ⟨⟨_, rfl⟩, nofun⟩
    | some exports =>
      rw [Action.ends_some, Action.goes_ok, Action.ends_bind, Action.ends_get, Action.goes_ok, Action.ends_bind,
        Action.ends_bind]
      cases k₁.loaders.list.find? fun l => l.probe image with
      | none => exact ⟨⟨_, rfl⟩, nofun⟩
      | some l =>
        rw [Action.ends_some, Action.goes_ok, Action.ends_bind, Action.ends_note, Action.goes_ok, Action.ends_pure,
          Action.goes_ok]
        exact hwindows l exports

/-- With what it needs, loading an image never stops the machine. -/
theorem loadImage_ends (h : k.Ready) (hstage : k.stage = .modules) {image : Image} (hsize : image.bytes.size < 2 ^ 64) :
    (loadImage image).Ends k fun r k' => Settles (· ≠ .corrupted) r ∧ k'.Ready := by
  rcases id h with ⟨hearly, -⟩ | ⟨-, ⟨w, hw, hsound⟩, ⟨exports, hexports⟩, hloaders⟩
  · exact absurd hstage hearly
  · unfold loadImage
    refine (ofString_ends image.name).bind ?_
    intro r k₁ hends
    obtain ⟨hr, -, rfl⟩ := hends
    cases r with
    | error e => exact ⟨hr.error, h⟩
    | ok n =>
      rw [Action.goes_ok, Action.ends_bind, ends_exportTable hexports, Action.goes_ok, Action.ends_bind,
        Action.ends_get, Action.goes_ok, Action.ends_bind, ends_select hloaders]
      split
      · rw [Action.goes_ok, ends_onWindows hw]
        refine (dispatch_ends hsound hsize exports).mono ?_
        intro r w' hends
        obtain ⟨hr, hw'⟩ := hends
        exact ⟨hr, .inr ⟨hstage, ⟨w', rfl, hw'⟩, ⟨exports, hexports⟩, hloaders⟩⟩
      · exact ⟨settles_fault.2 nofun, h⟩

/-! ## Boot modules -/

/-- The blob of a boot module has its name. -/
theorem settles_ofBootModule (m : BootModule) (mapper : Mapper) :
    Settles (· ≠ .corrupted) (Blob.ofBootModule m mapper) ∧
      ∀ b, Blob.ofBootModule m mapper = .ok b → b.name = m.fileName := by
  unfold Blob.ofBootModule
  constructor
  · refine Settles.bind ?_ fun _ _ => (settles_orFault (by decide) _).bind fun _ _ => settles_ok _
    exact Settles.ite (fun _ => settles_ok _) fun _ => settles_fault.2 (by decide)
  · intro b hb
    obtain ⟨_, -, hb⟩ := Checked.bind_eq_ok.1 hb
    obtain ⟨_, -, hb⟩ := Checked.bind_eq_ok.1 hb
    cases hb
    rfl

/-- A load that fails leaves what is on file, and where loading has what it needs, it is refused. -/
structure Fails (E : Estate) (k : Kernel) (others : Set Object) (es : List Entry) (r : Checked Fault α) (k' : Kernel) :
    Prop where
  error : ∃ e, r = .error e
  refused : k.Ready → Refused r k'
  shelf : k'.shelf = k.shelf
  filed : Filed E k' others es

theorem fails_of_refused {r : Checked Fault α} (h : Refused r k') (hshelf : k'.shelf = k.shelf)
    (hfiled : Filed E k' others es) : Fails E k others es r k' where
  error := by
    rcases h with ⟨f, -, rfl⟩ | ⟨rfl, -⟩
    · exact ⟨_, rfl⟩
    · exact ⟨_, rfl⟩
  refused := fun _ => h
  shelf := hshelf
  filed := hfiled

/-- What a load does: it succeeds, and what it answers is on file, or it fails. -/
structure Load (E : Estate) (k : Kernel) (others : Set Object) (es : List Entry) (name : String)
    (r : Checked Fault ModuleInfo) (k' : Kernel) : Prop where
  leads : Leads E Set.univ k k'
  ready : k.Ready → k'.Ready
  answers : (∃ x i, r = .ok i ∧ i.name.text = name ∧ Filed E k' others (⟨.stored x, i⟩ :: es)) ∨
    Fails E k others es r k'

/-- What a load does when something else was done before that leaves the shelf. -/
theorem Load.after {k₁ : Kernel} {name : String} {r : Checked Fault ModuleInfo} (h : Load E k₁ others es name r k')
    (hleads : Leads E Set.univ k k₁) (hready : k.Ready → k₁.Ready) (hshelf : k₁.shelf = k.shelf) :
    Load E k others es name r k' where
  leads := hleads.trans h.leads
  ready := h.ready ∘ hready
  answers := h.answers.imp_right fun hf => ⟨hf.error, hf.refused ∘ hready, hf.shelf.trans hshelf, hf.filed⟩

/-- Other windows leave the records as they are. -/
theorem Filed.onWindows {w : Option Windows} (h : Filed E k others es) :
    Filed E { k with windows := w } others es :=
  ⟨h.stands, h.lists, h.stored, (objects_congr rfl).trans h.objects, h.apart⟩

/-- Loading an image leaves the records as they are, and answers a module of its name or fails. -/
theorem escalate_loadImage_ends (h : Filed E k others es) (hstage : k.stage = .modules) {image : Image}
    (hsize : image.bytes.size < 2 ^ 64) : (escalate (loadImage image)).Ends k fun r k' =>
      (Leads E Set.univ k k' ∧ (k.Ready → k'.Ready) ∧ k'.shelf = k.shelf) ∧ Filed E k' others es ∧
        ((∃ i, r = .ok i ∧ i.name.text = image.name) ∨ (∃ e, r = .error e) ∧ (k.Ready → Refused r k')) := by
  have hload : (loadImage image).Ends k fun r k' => k.Ready → Settles (· ≠ .corrupted) r ∧ k'.Ready := fun hready =>
    loadImage_ends hready hstage hsize
  rw [ends_escalate]
  refine ((loadImage_moves image k).and hload).mono ?_
  intro r k' hends
  obtain ⟨⟨⟨w, rfl⟩, hname⟩, hready⟩ := hends
  have hleads : Leads E Set.univ k k := refl k
  refine ⟨⟨hleads, fun h => (hready h).2, rfl⟩, h.onWindows, ?_⟩
  cases r with
  | ok i => exact .inl ⟨i, escalated_eq_ok.2 rfl, hname i rfl⟩
  | error e =>
    refine .inr ⟨?_, fun h => (refused_of_settles (hready h).1).escalated⟩
    cases e with
    | fault f => cases f <;> exact ⟨_, rfl⟩
    | halt e => exact ⟨_, rfl⟩

/-- What is placed is registered under its name and read back from its record, or all is as before. -/
theorem storeRead_ends (h : Filed E k others es) (i : ModuleInfo) : (do
    let id ← storeRecord i
    return (← record id).info).Ends k (Load E k others es i.name.text) := by
  have hequips : (storeRecord i).Ends k fun _ k' => Equips k k' := steps_storeRecord stores_equips i k
  refine (hequips.and (storeRecord_ends h i)).bind ?_
  intro r k' hends
  obtain ⟨hequips, hleads, ⟨x, i', rfl, hname, hfiled⟩ | ⟨hr, hshelf, hfiled⟩⟩ := hends
  · obtain ⟨next, hrecord⟩ := hfiled.shelves.record? List.mem_cons_self
    rw [Action.goes_ok, Action.ends_bind, record, Action.ends_bind, Action.ends_get, Action.goes_ok, hrecord,
      Action.ends_some, Action.goes_ok, Action.ends_pure]
    exact ⟨hleads, fun hready => hready.equips hequips, .inl ⟨x, i', rfl, congrArg ModuleName.text hname, hfiled⟩⟩
  · exact hr.goes fun r' hr' =>
      ⟨hleads, fun hready => hready.equips hequips, .inr (fails_of_refused hr' hshelf hfiled)⟩

/-- **Loading a boot module** registers it under its file name, or leaves the registry and the number of objects. -/
theorem loadBootModule_ends (h : Filed E k others es) (m : BootModule) (mapper : Mapper) :
    (loadBootModule m mapper).Ends k (Load E k others es m.fileName) := by
  have hreserve : (onPool (Pool.reserve m.addr m.size)).Ends k fun _ k' => Leads E Set.univ k k' ∧ Equips k k' :=
    ⟨Leads.mono (steps_onGround (Ground.steps_reserve m.addr m.size) k) (Set.subset_univ _), equips_onGround _ k⟩
  have hrefused : ∀ {r : Checked Fault ModuleInfo}, Refused r k → Load E k others es m.fileName r k := fun hr =>
    ⟨refl k, id, .inr (fails_of_refused hr rfl h)⟩
  unfold loadBootModule
  rw [Action.ends_bind, ends_require]
  split
  · exact hrefused (refused_fault nofun)
  rename_i hrank
  have hstage := stage_eq_modules hrank
  obtain ⟨hblob, hname⟩ := settles_ofBootModule m mapper
  rw [Action.goes_ok]
  refine Action.Ends.lift_bind (fun blob hb => ?_) fun e he => hrefused ?_
  rotate_left
  · rw [he] at hblob
    exact refused_of_settles hblob.error
  rw [Action.ends_bind, Action.ends_get, Action.goes_ok]
  dsimp only
  rw [Action.ends_ite]
  split
  · exact hrefused (refused_fault nofun)
  -- The frames are out of use from here on, whatever becomes of the module.
  refine (hreserve.and (reserve_objects h.stands m.addr m.size)).bind ?_
  intro r k₁ hends
  obtain ⟨⟨hleads₁, hequips₁⟩, hk, hst, hp, hobj, hr⟩ := hends
  obtain ⟨hfiled₁, hshelf₁⟩ := h.onGround hk hst hp (hobj.trans h.objects) h.apart
  have hready₁ : k.Ready → k₁.Ready := fun hready => hready.equips hequips₁
  rcases hr with ⟨n, rfl⟩ | hr
  rotate_left
  · exact hr.goes fun r' hr' => ⟨hleads₁, hready₁, .inr (fails_of_refused hr' hshelf₁ hfiled₁)⟩
  rw [Action.goes_ok, Action.ends_bind, Action.ends_get, Action.goes_ok]
  have hsize : (blob.image k₁.ground.arena.memory).bytes.size < 2 ^ 64 := by
    rw [Blob.size_image]
    exact blob.size.toNat_lt
  refine (escalate_loadImage_ends hfiled₁ (hequips₁.stage.trans hstage) hsize).bind ?_
  intro r k₂ hends
  obtain ⟨⟨hleads₂, hready₂, hshelf₂⟩, hfiled₂, ⟨i, rfl, hinfo⟩ | ⟨⟨e, rfl⟩, hfails⟩⟩ := hends
  · rw [Action.goes_ok]
    have hfile : i.name.text = m.fileName := hinfo.trans (hname blob hb)
    refine (storeRead_ends hfiled₂ i).mono ?_
    intro r k₃ hload
    rw [hfile] at hload
    exact (hload.after hleads₂ hready₂ hshelf₂).after hleads₁ hready₁ hshelf₁
  · refine Load.after ⟨hleads₂, hready₂, .inr ⟨⟨e, rfl⟩, fun hready => ?_, hshelf₂, hfiled₂⟩⟩ hleads₁ hready₁ hshelf₁
    exact (hfails hready).imp (fun ⟨f, hf, he⟩ => ⟨f, hf, by rw [Except.error.inj he]⟩) fun ⟨he, hfull⟩ =>
      ⟨by rw [Except.error.inj he], hfull⟩

/-- The modules that are loaded by loading each of a list in turn, the youngest first; a halt is the last that happens. -/
def gained (mapper : Mapper) : List BootModule → Kernel → List ModuleInfo
  | [], _ => []
  | m :: ms, k =>
    let t := loadBootModule m mapper k
    match t.result with
    | .ok i => gained mapper ms t.state ++ [i]
    | .error (.fault _) => gained mapper ms t.state
    | .error (.halt _) => []

/-- What loading a list leaves behind: the registry has gained `new`, and a report adds up. Where loading had what it
needs, only a pool that cannot count another failure has stopped the machine. -/
structure Loads (E : Estate) (k : Kernel) (others : Set Object) (es new : List Entry) (placed : List ModuleInfo)
    (ready : Prop) (loaded total : Nat) (r : Checked Fault BootReport) : Prop where
  filed : Filed E k others (new ++ es)
  placed : new.map Entry.info = placed
  reports : (∃ n, r = .ok n ∧ n.loaded = loaded + new.length ∧ n.loaded + n.failed = total) ∨
    ∃ e, r = .error (.halt e) ∧ (ready → e = .addOverflow ∧ k.Saturated)

/-- What is loaded before the others comes last in the list. -/
theorem Loads.first {e : Entry} {new : List Entry} {placed : List ModuleInfo} {ready : Prop} {loaded total : Nat}
    {r : Checked Fault BootReport} (h : Loads E k others (e :: es) new placed ready (loaded + 1) total r) :
    Loads E k others es (new ++ [e]) (placed ++ [e.info]) ready loaded total r where
  filed := by
    rw [List.append_assoc]
    exact h.filed
  placed := by
    rw [List.map_append, h.placed]
    rfl
  reports := h.reports.imp_left fun hn => by
    obtain ⟨n, hn, hloaded, htotal⟩ := hn
    refine ⟨n, hn, ?_, htotal⟩
    rw [hloaded, List.length_append, List.length_singleton]
    omega

theorem Loads.mono {new : List Entry} {placed : List ModuleInfo} {ready ready' : Prop} {loaded total : Nat}
    {r : Checked Fault BootReport} (h : Loads E k others es new placed ready loaded total r) (hready : ready' → ready) :
    Loads E k others es new placed ready' loaded total r where
  filed := h.filed
  placed := h.placed
  reports := h.reports.imp_right fun ⟨e, he, hfull⟩ => ⟨e, he, hfull ∘ hready⟩

theorem loadEach_ends (h : Filed E k others es) (mapper : Mapper) (ms : List BootModule) (report : BootReport) :
    (loadEach mapper ms report).Ends k fun r k' => Leads E Set.univ k k' ∧ (k.Ready → k'.Ready) ∧
      ∃ new, Loads E k' others es new (gained mapper ms k) k.Ready report.loaded
        (report.loaded + report.failed + ms.length) r := by
  induction ms generalizing k es report with
  | nil => exact ⟨refl k, id, [], h, rfl, .inl ⟨report, rfl, rfl, rfl⟩⟩
  | cons m ms ih =>
    obtain ⟨r, k₁, log, hk, hleads₁, hready₁, hr⟩ := (loadBootModule_ends h m mapper).trace
    rw [loadEach, Action.ends_bind, Action.ends_attempt, Action.Ends, hk]
    rcases hr with ⟨x, i, rfl, -, hfiled⟩ | ⟨⟨f | e, rfl⟩, hrefused, -, hfiled⟩
    · have hgained : gained mapper (m :: ms) k = gained mapper ms k₁ ++ [i] := by simp only [gained, hk]
      have hcount : report.loaded + report.failed + (m :: ms).length =
          report.loaded + 1 + report.failed + ms.length := by
        rw [List.length_cons]
        omega
      rw [Action.attempted_ok, Action.goes_ok, hgained, hcount]
      dsimp only
      rw [Action.ends_bind, Action.ends_note, Action.goes_ok]
      refine (ih hfiled { report with loaded := report.loaded + 1 }).mono ?_
      intro r k₂ hends
      obtain ⟨hleads₂, hready₂, new, hloads⟩ := hends
      exact ⟨hleads₁.trans hleads₂, hready₂ ∘ hready₁, _, hloads.first.mono hready₁⟩
    · have hgained : gained mapper (m :: ms) k = gained mapper ms k₁ := by simp only [gained, hk]
      have hcount : report.loaded + report.failed + (m :: ms).length =
          report.loaded + (report.failed + 1) + ms.length := by
        rw [List.length_cons]
        omega
      rw [Action.attempted_fault, Action.goes_ok, hgained, hcount]
      dsimp only
      rw [Action.ends_bind, Action.ends_note, Action.goes_ok]
      refine (ih hfiled { report with failed := report.failed + 1 }).mono ?_
      intro r k₂ hends
      obtain ⟨hleads₂, hready₂, new, hloads⟩ := hends
      exact ⟨hleads₁.trans hleads₂, hready₂ ∘ hready₁, new, hloads.mono hready₁⟩
    · have hgained : gained mapper (m :: ms) k = [] := by simp only [gained, hk]
      rw [Action.attempted_halt, Action.goes_error, hgained]
      refine ⟨hleads₁, hready₁, [], hfiled, rfl, .inr ⟨e, rfl, fun hready => ?_⟩⟩
      rcases hrefused hready with ⟨f, -, hf⟩ | ⟨he, hfull⟩
      · cases hf
      · cases he
        exact ⟨rfl, hfull⟩

/-- **Loading a list** reports how many it has loaded and how many not, and registers exactly the former. -/
theorem loadAll_ends (h : Filed E k others es) (ms : List BootModule) (mapper : Mapper) :
    (loadAll ms mapper).Ends k fun r k' => Leads E Set.univ k k' ∧ (k.Ready → k'.Ready) ∧
      ∃ new, Loads E k' others es new (gained mapper ms k) k.Ready 0 ms.length r := by
  unfold loadAll
  refine (loadEach_ends h mapper ms ⟨0, 0⟩).bind ?_
  intro r k₁ hends
  obtain ⟨hleads, hready, new, hloads⟩ := hends
  rw [Nat.zero_add, Nat.zero_add] at hloads
  cases r with
  | error e => exact ⟨hleads, hready, new, hloads.filed, hloads.placed, by simpa using hloads.reports⟩
  | ok n =>
    rw [Action.goes_ok, Action.ends_bind, Action.ends_note, Action.goes_ok, Action.ends_pure]
    exact ⟨hleads, hready, new, hloads⟩

end Keel.Kernel
