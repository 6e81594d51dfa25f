import Keel.Proofs.Module.Elf.Loading

/-!
# What an accepted load has found

Whatever the windows are, a load that ends with a module has read all of the image first: `Found` says what, part by
part (`survey_found`). The ranges it answers have the lengths of the two blocks, and its entry point and its number of
imports are those that were found (`Placed`, `place_placed`); both together are `load_found`. A load of an object whose
imports cannot be resolved ends as resolving them does (`load_of_resolve`).
-/

namespace Keel.Elf

open Keel.Action (Ends lift)

variable {σ α β : Type} {image : Image} {exports : ExportTable} {o : Object} {t : SymbolTable} {xs : List Symbol}

/-- Of a whole that ends with an answer, the first part has ended with one. -/
theorem ends_answer_bind {x : Action σ α} {f : α → Action σ β} {P : β → Prop} {s : σ}
    (h : ∀ a u, (x s).result = .ok a → (f a).Ends u fun r _ => ∀ b, r = .ok b → P b) :
    (x >>= f).Ends s fun r _ => ∀ b, r = .ok b → P b := by
  refine Ends.bind (P := fun r _ => r = (x s).result) rfl fun r u hr => ?_
  cases r with
  | error e => exact nofun
  | ok a => exact h a u hr.symm

/-! ## Reading -/

/-- All that was read of an image on the way to `v`. -/
structure Found (image : Image) (exports : ExportTable) (s : σ) (v : Survey) : Prop where
  object : Object.read image.bytes = .ok v.object
  layout : v.object.layout none = .ok v.layout
  /-- There is no symbol table, or its symbols were resolved and searched for an entry point. -/
  symbols : (v.object.symbolTable = .ok none ∧ v.imports = 0 ∧ v.init = none) ∨
    ∃ t xs, v.object.symbolTable = .ok (some t) ∧ t.symbols = .ok xs ∧
      (resolve image.name exports t xs 0 s).result = .ok v.imports ∧ findInit v.object t xs = .ok v.init

theorem survey_found (image : Image) (exports : ExportTable) (s : σ) :
    (survey image exports : Action σ Survey).Ends s fun r _ => ∀ v, r = .ok v → Found image exports s v := by
  unfold survey
  refine Ends.lift_bind (fun o ho => ?_) fun _ _ => nofun
  refine Ends.lift_bind (fun layout hlayout => ?_) fun _ _ => nofun
  refine Ends.lift_bind (fun table htable => ?_) fun _ _ => nofun
  rw [toChecked_eq_ok] at ho hlayout htable
  cases table with
  | none =>
    rintro v ⟨⟩
    exact ⟨ho, hlayout, .inl ⟨htable, rfl, rfl⟩⟩
  | some t =>
    refine Ends.lift_bind (fun xs hxs => ?_) fun _ _ => nofun
    refine ends_answer_bind fun imports u himports => ?_
    refine Ends.lift_bind (fun init hinit => ?_) fun _ _ => nofun
    rw [toChecked_eq_ok] at hxs hinit
    rintro v ⟨⟩
    exact ⟨ho, hlayout, .inr ⟨t, xs, htable, hxs, himports, hinit⟩⟩

/-! ## Taking -/

/-- The module that `v` is placed as. -/
structure Placed (v : Survey) (m : LoadedModule) : Prop where
  text : m.text.length = v.layout.text ∧ (v.layout.text = 0 → m.text = .empty)
  data : m.data.length = v.layout.data ∧ (v.layout.data = 0 → m.data = .empty)
  entry : entryPoint v.object m.text v.init = .ok m.entry
  imports : m.imports = v.imports

/-- A range that is taken has the length that was asked for, and is the empty one where that is zero. -/
theorem takeRange_length {allocate : UInt64 → Action Windows VirtAddr} {size : UInt64} {w : Windows} {r : AddressRange}
    (h : (takeRange allocate size w).result = .ok r) : r.length = size ∧ (size = 0 → r = .empty) := by
  unfold takeRange at h
  by_cases hzero : size = 0
  · rw [if_pos hzero] at h
    obtain rfl : AddressRange.empty = r := Except.ok.inj h
    exact ⟨hzero.symm, fun _ => rfl⟩
  · rw [if_neg hzero] at h
    have hlength : (allocate size >>= fun start => pure (⟨start, size⟩ : AddressRange)).Ends w fun r _ =>
        ∀ q, r = .ok q → q.length = size := by
      refine ends_answer_bind fun start u _ => ?_
      rintro q ⟨⟩
      rfl
    exact ⟨hlength r h, fun h => absurd h hzero⟩

theorem place_placed (name : String) (v : Survey) (w : Windows) :
    (place name v).Ends w fun r _ => ∀ m, r = .ok m → Placed v m := by
  unfold place
  refine ends_answer_bind fun _ _ _ => ends_answer_bind fun _ _ _ => ends_answer_bind fun _ _ _ => ?_
  refine ends_answer_bind fun _ _ _ => ends_answer_bind fun _ _ _ => ?_
  have hplace : ∀ u, (takeRange Windows.allocateText v.layout.text >>= fun text =>
      takeRange Windows.allocateData v.layout.data >>= fun data =>
        (lift (entryPoint v.object text v.init) >>= fun entry =>
          Action.note (placedLine name text data v.imports) >>= fun _ =>
            pure (⟨text, data, entry, v.imports⟩ : LoadedModule))).Ends u fun r _ => ∀ m, r = .ok m → Placed v m := by
    intro u
    refine ends_answer_bind fun text _ htext => ends_answer_bind fun data _ hdata => ?_
    refine Ends.lift_bind (fun entry hentry => ?_) fun _ _ => nofun
    rintro m ⟨⟩
    exact ⟨takeRange_length htext, takeRange_length hdata, hentry, rfl⟩
  rw [Action.ends_ite]
  split
  · exact ends_answer_bind fun _ _ _ => ends_answer_bind fun _ _ _ => hplace _
  · exact hplace _

/-! ## Both -/

/-- **What an accepted load has found, and what it answers.** -/
theorem load_found {w : Windows} {m : LoadedModule} (h : (load image exports w).result = .ok m) :
    ∃ v, Found image exports w v ∧ Placed v m := by
  have hload : (survey image exports >>= place image.name).Ends w fun r _ =>
      ∀ m, r = .ok m → ∃ v, Found image exports w v ∧ Placed v m := by
    refine ends_answer_bind fun v u hv => (place_placed image.name v u).mono fun r _ hplaced m hm => ?_
    exact ⟨v, survey_found image exports w v hv, hplaced m hm⟩
  rw [← load_eq] at hload
  exact hload m h

/-- Where resolving the imports fails, the load fails the same way. -/
theorem load_of_resolve {w : Windows} {layout : BlockLayout} {e : Failure Fault}
    (ho : Object.read image.bytes = .ok o) (hlayout : o.layout none = .ok layout)
    (htable : o.symbolTable = .ok (some t)) (hxs : t.symbols = .ok xs)
    (h : (resolve image.name exports t xs 0 w).result = .error e) : (load image exports w).result = .error e := by
  have hload : (survey image exports >>= place image.name).Ends w fun r _ => r = .error e := by
    refine Ends.bind (P := fun r _ => r = .error e) ?_ fun r _ hr => by rw [hr]; exact rfl
    rw [survey, Action.ends_bind, Action.ends_lift, toChecked_eq_ok.2 ho, Action.goes_ok]
    rw [Action.ends_bind, Action.ends_lift, toChecked_eq_ok.2 hlayout, Action.goes_ok]
    rw [Action.ends_bind, Action.ends_lift, toChecked_eq_ok.2 htable, Action.goes_ok]
    dsimp only
    rw [Action.ends_bind, Action.ends_lift, toChecked_eq_ok.2 hxs, Action.goes_ok, Action.ends_bind]
    show Action.Goes _ _ (resolve image.name exports t xs 0 w).result _
    rw [h]
    exact rfl
  rw [load_eq]
  exact hload

end Keel.Elf
