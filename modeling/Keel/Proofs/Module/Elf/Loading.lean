import Keel.Module.Elf.Loader
import Keel.Proofs.Steps
import Keel.Proofs.Module.Windows
import Keel.Proofs.Module.Elf.Packing

/-!
# What a load takes from the windows

A load first reads and then takes: `survey` is all it finds out about an object and touches nothing (`survey_ends`),
`place` takes the addresses, and the load is one after the other (`load_eq`). Where both blocks fit, `place` takes the
pages of both (`place_ends`), and only then the address of the entry point is computed, from a section that was found
before (`Survey.Sound`). All that can still fail is the sum of the cursor, the offset of that section and the value of the
symbol, which may leave the address space (`Survey.Overruns`).

So a load that fails leaves both windows as they were, except where this last sum overflows: then both have moved on
(`load_ends`, **`load_spares_iff`**).
-/

namespace Keel.Elf

open Keel.Action (Ends Steps note fail lift)
open Keel.Align (roundUp)

variable {σ : Type}

/-! ## Reading and taking -/

/-- What a load finds out about an object before it takes an address. -/
structure Survey where
  object : Object
  layout : BlockLayout
  imports : Nat
  init : Option (Nat × UInt64)

/-- The part of a load that only reads. -/
def survey (image : Image) (exports : ExportTable) : Action σ Survey := do
  let o ← lift (Object.read image.bytes).toChecked
  let layout ← lift (o.layout none).toChecked
  let table ← lift o.symbolTable.toChecked
  match table with
  | none => return ⟨o, layout, 0, none⟩
  | some t => do
    let symbols ← lift t.symbols.toChecked
    let imports ← resolve image.name exports t symbols 0
    let init ← lift (findInit o t symbols).toChecked
    return ⟨o, layout, imports, init⟩

/-- The part of a load that takes addresses. -/
def place (image : String) (v : Survey) : Action Windows LoadedModule := do
  let textPages ← Action.ofOption .overflow (Align.pageCeil? v.layout.text)
  let dataPages ← Action.ofOption .overflow (Align.pageCeil? v.layout.data)
  let w ← get
  let textLeft ← lift w.text.remaining
  let dataLeft ← lift w.data.remaining
  if textLeft < textPages || dataLeft < dataPages then
    note (noRoomLine image textPages dataPages textLeft dataLeft)
    fail .tooMany
  let text ← takeRange Windows.allocateText v.layout.text
  let data ← takeRange Windows.allocateData v.layout.data
  let entry ← lift (entryPoint v.object text v.init)
  note (placedLine image text data v.imports)
  return ⟨text, data, entry, v.imports⟩

theorem load_eq (image : Image) (exports : ExportTable) :
    load image exports = survey image exports >>= place image.name := by
  unfold load survey
  simp only [bind_assoc]
  refine bind_congr fun o => bind_congr fun layout => bind_congr fun table => ?_
  cases table with
  | none => simp only [pure_bind]; rfl
  | some t => simp only [bind_assoc, pure_bind]; rfl

/-! ## Reading -/

/-- What a survey is known to have found: the sizes are those of the layout, and the entry point is in a section of
code. -/
structure Survey.Sound (v : Survey) : Prop where
  layout : v.object.layout none = .ok v.layout
  init : ∀ i value, v.init = some (i, value) → ∃ s, v.object.section? i = .ok s ∧ s.isText = true

/-- Resolving imports changes nothing. -/
theorem steps_resolve (image : String) (exports : ExportTable) (t : SymbolTable) (ss : List Symbol) (n : Nat) :
    Steps (σ := σ) Eq (resolve image exports t ss n) := by
  induction ss generalizing n with
  | nil => exact Action.steps_pure n
  | cons s ss ih =>
    rw [resolve]
    refine (ih n).ite ((Action.steps_lift _).bind fun name => (ih n).ite (Steps.bind ?_ fun r => ?_))
    · refine Steps.attempt (Steps.bind (Action.steps_ofOption _ _) fun name => ?_)
      exact (Action.steps_ofOption _ _).bind fun _ => (Action.steps_note _).bind fun _ => Action.steps_pure _
    · cases r with
      | ok addr => exact (Action.steps_note _).bind fun _ => (Action.steps_lift _).bind fun _ => ih _
      | error f =>
        by_cases hf : f = .noSuch
        · subst hf
          exact ((Action.steps_note _).bind fun _ => Action.steps_fail _).ite (ih n)
        · cases f <;> first | exact absurd rfl hf | exact Action.steps_fail _

/-- A search that ends with an answer has found its first symbol, or goes on behind it. -/
theorem findInit_cons {o : Object} {t : SymbolTable} {x : Symbol} {xs : List Symbol} {r : Option (Nat × UInt64)}
    (h : findInit o t (x :: xs) = .ok r) :
    (x.isPlaced = true ∧ t.name x = .ok initName ∧ ∃ s, o.section? x.sectionIndex = .ok s ∧ s.isText = true) ∧
      r = some (x.sectionIndex, x.value) ∨
    ¬(x.isPlaced = true ∧ t.name x = .ok initName ∧ ∃ s, o.section? x.sectionIndex = .ok s ∧ s.isText = true) ∧
      findInit o t xs = .ok r := by
  rw [findInit] at h
  by_cases hplaced : x.isPlaced = true
  · rw [if_neg (by simp [hplaced])] at h
    obtain ⟨name, hname, h⟩ := Checked.bind_eq_ok.1 h
    by_cases hinit : name = initName
    · subst hinit
      rw [if_neg (not_not_intro rfl)] at h
      obtain ⟨s, hs, h⟩ := Checked.bind_eq_ok.1 h
      by_cases htext : s.isText = true
      · rw [if_pos htext] at h
        cases h
        exact .inl ⟨⟨hplaced, hname, s, hs, htext⟩, rfl⟩
      · rw [if_neg htext] at h
        refine .inr ⟨fun ⟨_, _, s', hs', htext'⟩ => ?_, h⟩
        obtain rfl : s = s' := Except.ok.inj (hs.symm.trans hs')
        exact htext htext'
    · rw [if_pos hinit] at h
      exact .inr ⟨fun ⟨_, hname', _⟩ => hinit (Except.ok.inj (hname.symm.trans hname')), h⟩
  · rw [if_pos (by simpa using hplaced)] at h
    exact .inr ⟨fun hx => hplaced hx.1, h⟩

/-- The entry point that is found is in a section of code. -/
theorem findInit_isText {o : Object} {t : SymbolTable} {ss : List Symbol} {i : Nat} {value : UInt64}
    (h : findInit o t ss = .ok (some (i, value))) : ∃ s, o.section? i = .ok s ∧ s.isText = true := by
  induction ss with
  | nil => cases h
  | cons x xs ih =>
    obtain ⟨⟨-, -, htext⟩, hsome⟩ | ⟨-, hrest⟩ := findInit_cons h
    · cases hsome
      exact htext
    · exact ih hrest

theorem toChecked_eq_ok {α : Type} {r : Read α} {a : α} : r.toChecked = .ok a ↔ r = .ok a := by
  cases r with
  | ok b => simp [Read.toChecked]
  | error e => cases e <;> simp [Read.toChecked]

/-- A survey changes nothing, and what it finds is so. -/
theorem survey_ends (image : Image) (exports : ExportTable) (s : σ) :
    (survey image exports : Action σ Survey).Ends s fun r t => t = s ∧ ∀ v, r = .ok v → v.Sound := by
  have herror : ∀ {α : Type} (c : Checked Fault α) (e : Failure Fault), c = .error e →
      s = s ∧ ∀ v, (.error e : Checked Fault Survey) = .ok v → v.Sound := fun _ _ _ => ⟨rfl, nofun⟩
  refine Ends.lift_bind (fun o _ => Ends.lift_bind (fun layout hlayout => ?_) (herror _)) (herror _)
  have hlayout := toChecked_eq_ok.1 hlayout
  refine Ends.lift_bind (fun table _ => ?_) (herror _)
  cases table with
  | none =>
    refine ⟨rfl, fun v hv => ?_⟩
    cases hv
    exact ⟨hlayout, nofun⟩
  | some t =>
    refine Ends.lift_bind (fun symbols _ => (steps_resolve image.name exports t symbols 0 s).bind ?_) (herror _)
    intro r t' hsame
    cases hsame
    cases r with
    | error e => exact ⟨rfl, nofun⟩
    | ok imports =>
      rw [Action.goes_ok]
      refine Ends.lift_bind (fun init hinit => ?_) (herror _)
      refine (Action.ends_pure _).2 ⟨rfl, fun v hv => ?_⟩
      cases hv
      refine ⟨hlayout, fun i value h => ?_⟩
      have hfound := toChecked_eq_ok.1 hinit
      rw [show init = some (i, value) from h] at hfound
      exact findInit_isText hfound

/-! ## Taking -/

/-- The range a window gives a block. -/
def grant (w : Window) (size : UInt64) : AddressRange := if size = 0 then .empty else ⟨w.next, size⟩

namespace Survey

/-- Both blocks fit. -/
structure Fits (v : Survey) (w : Windows) : Prop where
  text : roundUp v.layout.text.toNat ≤ w.text.left
  data : roundUp v.layout.data.toNat ≤ w.data.left

/-- The windows after both blocks have been taken. -/
def reserve (v : Survey) (w : Windows) : Windows := ⟨w.text.advance v.layout.text, w.data.advance v.layout.data⟩

/-- What a load of both blocks answers. -/
def outcome (v : Survey) (w : Windows) : Checked Fault LoadedModule :=
  (entryPoint v.object (grant w.text v.layout.text) v.init).map fun entry =>
    ⟨grant w.text v.layout.text, grant w.data v.layout.data, entry, v.imports⟩

theorem not_fits_iff {v : Survey} {w : Windows} : ¬ v.Fits w ↔
    w.text.left < roundUp v.layout.text.toNat ∨ w.data.left < roundUp v.layout.data.toNat := by
  rw [← Nat.not_le, ← Nat.not_le, ← Decidable.not_and_iff_not_or_not]
  exact not_congr ⟨fun h => ⟨h.text, h.data⟩, fun h => ⟨h.1, h.2⟩⟩

theorem Fits.sound {v : Survey} {w : Windows} (hw : w.Sound) (h : v.Fits w) : (v.reserve w).Sound :=
  ⟨hw.text.advance h.text, hw.data.advance h.data⟩

end Survey

/-- A range is taken if there is room for it, and is empty where nothing is asked for. -/
theorem takeRange_ends {allocate : UInt64 → Action Windows VirtAddr} {p : Part Windows Window} {w : Windows}
    {size : UInt64} (hset : p.set w (p.get w) = w)
    (hallocate : ∀ Q, (allocate size).Ends w Q ↔ (Window.allocate size).Ends (p.get w) fun r t => Q r (p.set w t))
    (hw : (p.get w).Sound) (hroom : roundUp size.toNat ≤ (p.get w).left) :
    (takeRange allocate size).Ends w fun r t =>
      r = .ok (grant (p.get w) size) ∧ t = p.set w ((p.get w).advance size) := by
  unfold takeRange grant
  by_cases hzero : size = 0
  · simp [hzero, Window.advance_zero, hset]
  · rw [if_neg hzero, if_neg hzero, Action.ends_bind, hallocate]
    refine (Window.allocate_of_room hw hzero hroom).mono fun r t h => ?_
    rw [h.1, h.2]
    exact ⟨rfl, rfl⟩

/-- Both blocks are taken if both fit, and none of them otherwise. -/
theorem place_ends {w : Windows} (hw : w.Sound) (image : String) (v : Survey) :
    (place image v).Ends w fun r t =>
      v.Fits w ∧ r = v.outcome w ∧ t = v.reserve w ∨
      ¬ v.Fits w ∧ (r = .error (.fault .overflow) ∨ r = .error (.fault .tooMany)) ∧ t = w := by
  unfold place
  obtain ⟨hbig, htext⟩ | ⟨-, htext, htextNat⟩ := Align.pageCeil?_cases v.layout.text
  · have hno : ¬ v.Fits w := fun h => absurd (hw.text.lt_of_room h.text) (Nat.not_lt.2 hbig)
    simp [htext, hno]
  obtain ⟨hbig, hdata⟩ | ⟨-, hdata, hdataNat⟩ := Align.pageCeil?_cases v.layout.data
  · have hno : ¬ v.Fits w := fun h => absurd (hw.data.lt_of_room h.data) (Nat.not_lt.2 hbig)
    simp [htext, hdata, hno]
  obtain ⟨htextLeft, htextLeftNat⟩ := hw.text.remaining (ε := Fault)
  obtain ⟨hdataLeft, hdataLeftNat⟩ := hw.data.remaining (ε := Fault)
  -- The room is checked for both windows at once, before either is asked, so neither of them can refuse afterwards.
  have hfull : (w.text.size - w.text.used < UInt64.ofNat (roundUp v.layout.text.toNat) ||
      w.data.size - w.data.used < UInt64.ofNat (roundUp v.layout.data.toNat)) = true ↔ ¬ v.Fits w := by
    rw [Bool.or_eq_true, decide_eq_true_iff, decide_eq_true_iff, UInt64.lt_iff_toNat_lt, UInt64.lt_iff_toNat_lt,
      htextLeftNat, hdataLeftNat, htextNat, hdataNat]
    exact Survey.not_fits_iff.symm
  simp only [htext, hdata, htextLeft, hdataLeft, Action.ends_bind, Action.ends_some, Action.ends_get, Action.ends_lift,
    Action.goes_ok, Action.ends_ite]
  by_cases hfits : v.Fits w
  · have hroom := mt hfull.1 (not_not_intro hfits)
    rw [if_neg hroom]
    refine (takeRange_ends (p := Windows.textPart) rfl (fun _ => Windows.ends_allocateText) hw.text hfits.text).mono ?_
    rintro r t ⟨rfl, rfl⟩
    rw [Action.goes_ok, Action.ends_bind]
    refine (takeRange_ends (p := Windows.dataPart) (w := ⟨w.text.advance v.layout.text, w.data⟩) rfl
      (fun _ => Windows.ends_allocateData) hw.data hfits.data).mono ?_
    rintro r t ⟨rfl, rfl⟩
    have houtcome : ∀ c, entryPoint v.object (grant w.text v.layout.text) v.init = c → v.outcome w = c.map _ :=
      fun c h => congrArg _ h
    rw [Action.goes_ok]
    refine Ends.lift_bind (fun entry h => ?_) fun e h => ?_
    · exact .inl ⟨hfits, (houtcome _ h).symm, rfl⟩
    · exact .inl ⟨hfits, (houtcome _ h).symm, rfl⟩
  · rw [if_pos (hfull.2 hfits)]
    simp [hfits]

/-! ## The entry point -/

/-- The code, the offset of the section of the entry point in it and the value of the symbol add up to no address. -/
def Survey.Overruns (v : Survey) (w : Windows) : Prop :=
  ∃ i value m offset, v.init = some (i, value) ∧ v.object.layout (some i) = .ok m ∧ m.offset = some offset ∧
    2 ^ 64 ≤ (grant w.text v.layout.text).start.raw.toNat + (offset.toNat + value.toNat)

/-- The address of an entry point whose section has an offset is the sum of all three, if that is an address. -/
theorem entryPoint_cases {o : Object} {i : Nat} {m : BlockLayout} {offset : UInt64}
    (hlayout : o.layout (some i) = .ok m) (hoffset : m.offset = some offset) (text : AddressRange) (value : UInt64) :
    2 ^ 64 ≤ text.start.raw.toNat + (offset.toNat + value.toNat) ∧
      entryPoint o text (some (i, value)) = .error (.fault .badArgs) ∨
    ∃ entry : VirtAddr, entry.raw.toNat = text.start.raw.toNat + (offset.toNat + value.toNat) ∧
      entryPoint o text (some (i, value)) = .ok (if text.contains entry then some entry else none) := by
  simp only [entryPoint, hlayout, Read.toChecked, hoffset, Checked.ok_bind, Checked.orFault_some]
  cases hsum : Word.add? offset value with
  | none =>
    have hover := Word.add?_eq_none.1 hsum
    exact .inl ⟨by omega, rfl⟩
  | some sum =>
    have hsum := Word.add?_eq_some.1 hsum
    simp only [Checked.ok_bind, Checked.orFault_some]
    cases hentry : text.start.add? sum with
    | none => exact .inl ⟨hsum ▸ Address.add?_eq_none.1 hentry, rfl⟩
    | some entry => exact .inr ⟨entry, by rw [hsum, Address.add?_eq_some.1 hentry], rfl⟩

theorem isAllocated_of_isText {s : Section} (h : s.isText = true) : s.flags.isAllocated = true := by
  simp only [Section.isText, Bool.and_eq_true] at h
  exact h.1

/-- Once both blocks fit, a load succeeds unless its entry point overruns the address space. -/
theorem outcome_cases {v : Survey} (hv : v.Sound) (w : Windows) :
    v.Overruns w ∧ v.outcome w = .error (.fault .badArgs) ∨ ¬ v.Overruns w ∧ ∃ m, v.outcome w = .ok m := by
  unfold Survey.outcome
  cases hinit : v.init with
  | none =>
    refine .inr ⟨fun h => ?_, _, rfl⟩
    obtain ⟨i, value, m, offset, hsome, -⟩ := h
    simp [hinit] at hsome
  | some p =>
    obtain ⟨i, value⟩ := p
    obtain ⟨s, hs, htext⟩ := hv.init i value hinit
    obtain ⟨m, offset, hlayout, -, hoffset, -⟩ := Object.layout_offset hv.layout hs (isAllocated_of_isText htext)
    obtain ⟨hover, hentry⟩ | ⟨entry, hraw, hentry⟩ :=
      entryPoint_cases hlayout hoffset (grant w.text v.layout.text) value
    · rw [hentry]
      exact .inl ⟨⟨i, value, m, offset, hinit, hlayout, hoffset, hover⟩, rfl⟩
    · rw [hentry]
      refine .inr ⟨fun h => ?_, _, rfl⟩
      obtain ⟨i', value', m', offset', hinit', hlayout', hoffset', hover⟩ := h
      cases hinit.symm.trans hinit'
      cases hlayout.symm.trans hlayout'
      cases hoffset.symm.trans hoffset'
      have := entry.raw.toNat_lt
      omega

/-- An entry point only overruns where there is code, and then the window of code has moved on. -/
theorem reserve_ne_of_overruns {v : Survey} (hv : v.Sound) {w : Windows} (hw : w.Sound) (hfits : v.Fits w)
    (h : v.Overruns w) : w.text.used.toNat < (v.reserve w).text.used.toNat := by
  obtain ⟨i, value, m, offset, hinit, hlayout, hoffset, hover⟩ := h
  have hused : (v.reserve w).text.used.toNat = _ := hw.text.toNat_used_advance hfits.text
  have hround := Align.le_roundUp v.layout.text.toNat
  refine Nat.lt_of_not_le fun hle => ?_
  -- Without code the block is empty, so the section of the entry point is at offset zero of a range at zero.
  have hempty : v.layout.text = 0 := UInt64.toNat_inj.1 (by simp; omega)
  obtain ⟨s, hs, htext⟩ := hv.init i value hinit
  obtain ⟨m', offset', hlayout', -, hoffset', hinside⟩ :=
    Object.layout_offset hv.layout hs (isAllocated_of_isText htext)
  cases hlayout.symm.trans hlayout'
  cases hoffset.symm.trans hoffset'
  have hvalue := value.toNat_lt
  simp only [BlockLayout.stop, htext, if_true, hempty, UInt64.toNat_zero] at hinside
  simp only [grant, hempty, if_true, AddressRange.empty, Address.zero, UInt64.toNat_zero] at hover
  omega

/-! ## A whole load -/

/-- An object that fits and whose entry point overruns the address space. -/
def Overruns (image : Image) (exports : ExportTable) (w : Windows) : Prop :=
  ∃ v, (survey image exports w).result = .ok v ∧ v.Fits w ∧ v.Overruns w

/-- A load takes both blocks and ends as its entry point does, or it fails and has taken nothing. -/
theorem load_ends {w : Windows} (hw : w.Sound) (image : Image) (exports : ExportTable) :
    (load image exports).Ends w fun r t =>
      (∃ v, (survey image exports w).result = .ok v ∧ v.Sound ∧ v.Fits w ∧ r = v.outcome w ∧ t = v.reserve w) ∨
      (∀ v, (survey image exports w).result = .ok v → ¬ v.Fits w) ∧ (∃ e, r = .error e) ∧ t = w := by
  rw [load_eq]
  have hsurvey : (survey image exports).Ends w fun r t =>
      r = (survey image exports w).result ∧ t = w ∧ ∀ v, r = .ok v → v.Sound := ⟨rfl, survey_ends image exports w⟩
  refine hsurvey.bind fun r t h => ?_
  obtain ⟨hr, rfl, hsound⟩ := h
  cases r with
  | error e =>
    rw [Action.goes_error]
    refine .inr ⟨fun v hv => ?_, ⟨e, rfl⟩, rfl⟩
    cases hr.trans hv
  | ok v =>
    rw [Action.goes_ok]
    refine (place_ends hw image.name v).mono fun r t' h => ?_
    obtain ⟨hfits, hr', ht'⟩ | ⟨hno, hfail, ht'⟩ := h
    · exact .inl ⟨v, hr.symm, hsound v rfl, hfits, hr', ht'⟩
    · refine .inr ⟨fun v' hv' => ?_, hfail.elim (fun h => ⟨_, h⟩) fun h => ⟨_, h⟩, ht'⟩
      cases hr.trans hv'
      exact hno

/-- Whatever a load meets, the windows stay sound. -/
theorem sound_load {w : Windows} (hw : w.Sound) (image : Image) (exports : ExportTable) :
    (load image exports w).state.Sound := by
  obtain ⟨v, -, -, hfits, -, ht⟩ | ⟨-, -, ht⟩ := load_ends hw image exports
  · rw [ht]
    exact hfits.sound hw
  · rw [ht]
    exact hw

/-- A load whose entry point overruns the address space fails, and both windows have moved past its blocks. -/
theorem load_of_overruns {w : Windows} (hw : w.Sound) {image : Image} {exports : ExportTable}
    (h : Overruns image exports w) : (load image exports w).result = .error (.fault .badArgs) ∧
      ∃ v, (survey image exports w).result = .ok v ∧ (load image exports w).state = v.reserve w ∧
        w.text.used.toNat < (v.reserve w).text.used.toNat := by
  obtain ⟨v, hv, hfits, hover⟩ := h
  obtain ⟨v', hv', hsound, -, hr, ht⟩ | ⟨hno, -, -⟩ := load_ends hw image exports
  · cases hv.symm.trans hv'
    obtain ⟨-, hout⟩ | ⟨hno, -⟩ := outcome_cases hsound w
    · exact ⟨hr.trans hout, v, hv, ht, reserve_ne_of_overruns hsound hw hfits hover⟩
    · exact absurd hover hno
  · exact absurd hfits (hno v hv)

end Keel.Elf

namespace Keel.Windows

/-- Windows that were created, after any allocations and loads. -/
inductive Reachable : Windows → Prop
  | create {text data : Window} {w : Windows} (ht : text.Reachable) (hd : data.Reachable)
      (h : Windows.create text data = .ok w) : Reachable w
  | kernel : Reachable .kernel
  | allocateText {w : Windows} (h : Reachable w) (size : UInt64) : Reachable (allocateText size w).state
  | allocateData {w : Windows} (h : Reachable w) (size : UInt64) : Reachable (allocateData size w).state
  | load {w : Windows} (h : Reachable w) (image : Image) (exports : ExportTable) :
      Reachable (Elf.load image exports w).state

theorem Reachable.sound {w : Windows} (h : w.Reachable) : w.Sound := by
  induction h with
  | create ht hd h => exact sound_create ht.sound hd.sound h
  | kernel => exact sound_kernel
  | allocateText _ size ih => exact ih.allocateText size
  | allocateData _ size ih => exact ih.allocateData size
  | load _ image exports ih => exact Elf.sound_load ih image exports

end Keel.Windows

namespace Keel.Elf

/-- **A load that fails leaves both windows as they were, in all cases but one: both blocks fit, and the entry point
overruns the address space.** -/
theorem load_spares_iff {w : Windows} (hw : w.Reachable) (image : Image) (exports : ExportTable) :
    (∀ e, (load image exports w).result = .error e → (load image exports w).state = w) ↔
      ¬ Overruns image exports w := by
  constructor
  · intro hspares hover
    obtain ⟨hr, v, -, ht, hmoved⟩ := load_of_overruns hw.sound hover
    rw [← ht, hspares _ hr] at hmoved
    exact Nat.lt_irrefl _ hmoved
  · intro hno e he
    obtain ⟨v, hv, hsound, hfits, hr, -⟩ | ⟨-, -, ht⟩ := load_ends hw.sound image exports
    · obtain ⟨hover, -⟩ | ⟨-, m, hout⟩ := outcome_cases hsound w
      · exact absurd ⟨v, hv, hfits, hover⟩ hno
      · cases he.symm.trans (hr.trans hout)
    · exact ht

/-! ## An entry point past the end of the address space -/

/-- A number in `width` bytes, the lowest first. -/
def littleEndian (width n : Nat) : List UInt8 := (List.range width).map fun i => UInt8.ofNat (n / 256 ^ i)

/-- A section header. -/
def headerBytes (type flags offset size link align entrySize : Nat) : List UInt8 :=
  littleEndian 8 (type * 2 ^ 32) ++ littleEndian 8 flags ++ littleEndian 8 0 ++ littleEndian 8 offset ++
    littleEndian 8 size ++ littleEndian 8 link ++ littleEndian 8 align ++ littleEndian 8 entrySize

/-- An object with four bytes of code, four bytes of zeroed data and an entry point of the given value in its code. -/
def objectWithInit (value : Nat) : Image :=
  let file := [0x7f, 0x45, 0x4c, 0x46, 2, 1, 1, 0] ++ littleEndian 8 0 ++ littleEndian 2 1 ++ littleEndian 2 62 ++
    littleEndian 4 1 ++ littleEndian 16 0 ++ littleEndian 8 136 ++ littleEndian 4 0 ++ littleEndian 2 64 ++
    littleEndian 4 0 ++ littleEndian 2 64 ++ littleEndian 2 5 ++ littleEndian 2 0
  let code := littleEndian 8 0xcccccccc
  let symbols := littleEndian 24 0 ++ littleEndian 4 1 ++ [0x12, 0] ++ littleEndian 2 1 ++ littleEndian 8 value ++
    littleEndian 8 0
  let names := [0] ++ Layout.initSymbol.toUTF8.data.toList ++ littleEndian 4 0
  let sections := headerBytes 0 0 0 0 0 0 0 ++ headerBytes 1 6 64 4 0 4 0 ++ headerBytes 8 3 68 4 0 4 0 ++
    headerBytes 2 0 72 48 4 8 24 ++ headerBytes 3 0 120 13 0 1 0
  ⟨"far", (file ++ code ++ symbols ++ names ++ sections).toArray⟩

/-- Whether a load failed and left a page of code and a page of data taken. -/
def leaks : Trace Windows LoadedModule → Bool
  | ⟨.error _, w, _⟩ => w.text.used == 4096 && w.data.used == 4096
  | _ => false

theorem of_leaks {t : Trace Windows LoadedModule} (h : leaks t = true) :
    ∃ e, t.result = .error e ∧ t.state ≠ .kernel := by
  obtain ⟨r, w, l⟩ := t
  cases r with
  | ok m => cases h
  | error e =>
    refine ⟨e, rfl, ?_⟩
    rintro rfl
    simp [leaks, Windows.kernel] at h

/-- With the largest value there is, the load fails and the windows have moved. -/
theorem leaks_farInit : leaks (load (objectWithInit (2 ^ 64 - 1)) ⟨[]⟩ .kernel) = true := by decide +kernel

/-- The windows of the kernel may be asked to place this object, and it overruns the address space there. -/
theorem overruns_farInit : Windows.Reachable .kernel ∧ Overruns (objectWithInit (2 ^ 64 - 1)) ⟨[]⟩ .kernel := by
  refine ⟨.kernel, Classical.not_not.1 fun hno => ?_⟩
  obtain ⟨e, he, hmoved⟩ := of_leaks leaks_farInit
  exact hmoved ((load_spares_iff .kernel (objectWithInit (2 ^ 64 - 1)) ⟨[]⟩).2 hno e he)

/-- Not every load that fails leaves the windows as they were. -/
theorem not_spares_farInit : ¬ ∀ (w : Windows), w.Reachable → ∀ (image : Image) (exports : ExportTable) e,
    (load image exports w).result = .error e → (load image exports w).state = w := by
  intro hspares
  obtain ⟨e, he, hmoved⟩ := of_leaks leaks_farInit
  exact hmoved (hspares .kernel .kernel _ _ e he)

end Keel.Elf
