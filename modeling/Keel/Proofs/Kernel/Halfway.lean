import Keel.Proofs.Kernel.Stages

/-!
# Loading may come up by half

Loading is brought up in three steps that are each taken once: windows, exports, the built-in loader. Each of them can have
been taken, or its place filled, before: then it is refused, and the steps before it have been taken all the same.
- `Brings` tells the five ways in which an attempt ends (`startModules_brings`). It is all or nothing, except where memory
  is up and the windows are not, and the exports have been published or the table of loaders has no place (`Stalls`).
- An attempt that has stalled is never made good (`Barred`): windows that are set up are there to stay, whatever the kernel
  is told (`bars_through`), so every later attempt is refused (`Barred.refuses`).

Together: **`startModules_spares_iff`**, for every kernel there can be.
-/

namespace Keel

open Keel.Action (Steps)

namespace LoaderTable

variable {t : LoaderTable} {l : Loader}

/-- Whether a table has no place for a loader: it has no name, its name is taken, or there are too many. -/
def Refuses (t : LoaderTable) (l : Loader) : Prop :=
  l.name = "" ∨ (∃ k ∈ t.list, k.name = l.name) ∨ t.count = Layout.maxLoaders

/-- The table with a loader behind those that it has. -/
def joined (t : LoaderTable) (l : Loader) : LoaderTable := ⟨t.slots.setIfInBounds t.count (some l), t.count + 1⟩

/-- A loader joins the table, or the table is left alone. -/
theorem register_ends (t : LoaderTable) (l : Loader) : (register l).Ends t fun r t' =>
    (t.Refuses l ∧ r = .error (.fault .badArgs) ∧ t' = t) ∨ (¬t.Refuses l ∧ r = .ok () ∧ t' = t.joined l) := by
  have htaken : (t.list.any fun k => k.name == l.name) = true ↔ ∃ k ∈ t.list, k.name = l.name := by simp
  unfold register
  rw [Action.ends_bind, Action.ends_get, Action.goes_ok]
  dsimp only
  by_cases hname : l.name = ""
  · rw [if_pos (String.isEmpty_iff.2 hname)]
    exact .inl ⟨.inl hname, rfl, rfl⟩
  rw [if_neg (mt String.isEmpty_iff.1 hname)]
  by_cases hold : ∃ k ∈ t.list, k.name = l.name
  · rw [if_pos (htaken.2 hold)]
    exact .inl ⟨.inr (.inl hold), rfl, rfl⟩
  rw [if_neg (mt htaken.1 hold)]
  by_cases hfull : t.count = Layout.maxLoaders
  · rw [if_pos hfull]
    exact .inl ⟨.inr (.inr hfull), rfl, rfl⟩
  rw [if_neg hfull]
  refine .inr ⟨?_, rfl, rfl⟩
  rintro (h | h | h)
  · exact hname h
  · exact hold h
  · exact hfull h

end LoaderTable

namespace Kernel

variable {k k' : Kernel} {t : ExportTable} {r : Checked Fault Unit}

/-! ## One attempt -/

/-- How an attempt to bring loading up ends that finds the kernel `k`. -/
inductive Brings (t : ExportTable) (k : Kernel) : Checked Fault Unit → Kernel → Prop
  /-- Memory is not up. -/
  | early (hs : k.stage.rank < Stage.memory.rank) : Brings t k (.error (.fault .notInit)) k
  /-- The windows have been set up before. -/
  | again (hs : Stage.memory.rank ≤ k.stage.rank) (hw : k.windows ≠ none) : Brings t k (.error (.fault .badArgs)) k
  /-- The windows have not, but the exports have been published. -/
  | published (hs : Stage.memory.rank ≤ k.stage.rank) (hw : k.windows = none) (he : k.exports ≠ none) :
    Brings t k (.error (.fault .badArgs)) { k with windows := some .kernel }
  /-- Neither have, but the built-in loader has no place. -/
  | crowded (hs : Stage.memory.rank ≤ k.stage.rank) (hw : k.windows = none) (he : k.exports = none)
    (hl : k.loaders.Refuses Elf.loader) :
    Brings t k (.error (.fault .badArgs)) { k with windows := some .kernel, exports := some t }
  /-- Nothing is in the way. -/
  | whole (hs : Stage.memory.rank ≤ k.stage.rank) (hw : k.windows = none) (he : k.exports = none)
    (hl : ¬k.loaders.Refuses Elf.loader) :
    Brings t k (.ok ()) { k with
      windows := some .kernel, exports := some t, loaders := k.loaders.joined Elf.loader, stage := k.stage.later .modules }

theorem startWindows_ends (k : Kernel) : startWindows.Ends k fun r k' =>
    (k.windows ≠ none ∧ r = .error (.fault .badArgs) ∧ k' = k) ∨
      (k.windows = none ∧ r = .ok () ∧ k' = { k with windows := some .kernel }) := by
  unfold startWindows
  rw [Action.ends_bind, Action.ends_get, Action.goes_ok]
  dsimp only
  cases hw : k.windows with
  | some w => exact .inl ⟨nofun, rfl, rfl⟩
  | none => exact .inr ⟨rfl, rfl, rfl⟩

theorem startExports_ends (t : ExportTable) (k : Kernel) : (startExports t).Ends k fun r k' =>
    (k.exports ≠ none ∧ r = .error (.fault .badArgs) ∧ k' = k) ∨
      (k.exports = none ∧ r = .ok () ∧ k' = { k with exports := some t }) := by
  unfold startExports
  rw [Action.ends_bind, Action.ends_get, Action.goes_ok]
  dsimp only
  cases he : k.exports with
  | some e => exact .inl ⟨nofun, rfl, rfl⟩
  | none => exact .inr ⟨rfl, rfl, rfl⟩

theorem registerLoader_ends (l : Loader) (k : Kernel) : (registerLoader l).Ends k fun r k' =>
    (k.loaders.Refuses l ∧ r = .error (.fault .badArgs) ∧ k' = k) ∨
      (¬k.loaders.Refuses l ∧ r = .ok () ∧ k' = { k with loaders := k.loaders.joined l }) := by
  unfold registerLoader
  rw [Action.ends_bind, Action.ends_zoom]
  refine (LoaderTable.register_ends k.loaders l).mono fun r t h => ?_
  rcases h with ⟨hl, rfl, rfl⟩ | ⟨hl, rfl, rfl⟩
  · exact .inl ⟨hl, rfl, rfl⟩
  · exact .inr ⟨hl, rfl, rfl⟩

/-- **An attempt** ends in one of the five ways. -/
theorem startModules_brings (t : ExportTable) (k : Kernel) : (startModules t).Ends k (Brings t k) := by
  unfold startModules
  rw [Action.ends_bind, Action.ends_get, Action.goes_ok]
  dsimp only
  by_cases hs : k.stage.rank < Stage.memory.rank
  · rw [if_pos hs]
    exact .early hs
  rw [if_neg hs]
  have hs := Nat.not_lt.1 hs
  refine (startWindows_ends k).bind fun r k' h => ?_
  rcases h with ⟨hw, rfl, rfl⟩ | ⟨hw, rfl, rfl⟩
  · exact .again hs hw
  rw [Action.goes_ok]
  refine (startExports_ends t _).bind fun r k' h => ?_
  rcases h with ⟨he, rfl, rfl⟩ | ⟨he, rfl, rfl⟩
  · exact .published hs hw he
  rw [Action.goes_ok]
  refine (registerLoader_ends Elf.loader _).bind fun r k' h => ?_
  rcases h with ⟨hl, rfl, rfl⟩ | ⟨hl, rfl, rfl⟩
  · exact .crowded hs hw he hl
  · exact .whole hs hw he hl

/-! ## All or nothing -/

/-- Loading is as it was. -/
structure Spared (k k' : Kernel) : Prop where
  windows : k'.windows = k.windows
  exports : k'.exports = k.exports
  loaders : k'.loaders = k.loaders
  stage : k'.stage = k.stage

/-- An attempt that is refused spares the kernel. -/
def Spares (t : ExportTable) (k : Kernel) : Prop :=
  ∀ e, (startModules t k).result = .error e → Spared k (startModules t k).state

/-- Memory is up and the windows are not, and one of the steps behind them will be refused. -/
structure Stalls (k : Kernel) : Prop where
  memory : Stage.memory.rank ≤ k.stage.rank
  windows : k.windows = none
  late : k.exports ≠ none ∨ k.loaders.Refuses Elf.loader

/-- Only an attempt that stalls does something and is refused. -/
theorem spares_iff (t : ExportTable) (k : Kernel) : k.Spares t ↔ ¬k.Stalls := by
  have hbrings := startModules_brings t k
  unfold Action.Ends at hbrings
  unfold Spares
  generalize (startModules t k).result = r at hbrings ⊢
  generalize (startModules t k).state = k' at hbrings ⊢
  have hspared : Spared k k := ⟨rfl, rfl, rfl, rfl⟩
  have hmoved : ∀ {e : Option ExportTable}, k.windows = none →
      ¬Spared k { k with windows := some .kernel, exports := e } := fun hw h => nomatch h.windows.trans hw
  cases hbrings with
  | early hs => exact iff_of_true (fun _ _ => hspared) fun h => Nat.not_le.2 hs h.memory
  | again hs hw => exact iff_of_true (fun _ _ => hspared) fun h => hw h.windows
  | published hs hw he => exact iff_of_false (fun h => hmoved hw (h _ rfl)) (not_not.2 ⟨hs, hw, .inl he⟩)
  | crowded hs hw he hl => exact iff_of_false (fun h => hmoved hw (h _ rfl)) (not_not.2 ⟨hs, hw, .inr hl⟩)
  | whole hs hw he hl => exact iff_of_true (fun _ => nofun) fun h => h.late.elim (fun hp => hp he) hl

/-! ## What has stalled stays so -/

/-- Windows have been set up, and loading has not come up. -/
structure Barred (k : Kernel) : Prop where
  windows : k.windows ≠ none
  stage : k.stage ≠ .modules

/-- What was barred is barred. -/
def Bars (k k' : Kernel) : Prop := k.Barred → k'.Barred

instance : IsPreorder Kernel Bars where
  refl := fun _ => id
  trans := fun _ _ _ h h' => h' ∘ h

theorem Stays.bars (h : Stays k k') : Bars k k' := fun hb => ⟨h.windows hb.windows, h.stage ▸ hb.stage⟩

theorem bars_of_stays {α : Type} {x : Action Kernel α} (hx : Steps Stays x) : Steps Bars x := fun k => (hx k).bars

/-- A kernel that is barred refuses to bring loading up, and is left alone. -/
theorem Barred.refuses (h : k.Barred) (t : ExportTable) : (startModules t).Ends k fun r k' =>
    r = .error (.fault (if k.stage.rank < Stage.memory.rank then .notInit else .badArgs)) ∧ k' = k := by
  refine (startModules_brings t k).mono fun r k' hbrings => ?_
  cases hbrings with
  | early hs =>
    rw [if_pos hs]
    exact ⟨rfl, rfl⟩
  | again hs hw =>
    rw [if_neg (Nat.not_lt.2 hs)]
    exact ⟨rfl, rfl⟩
  | published hs hw he => exact absurd hw h.windows
  | crowded hs hw he hl => exact absurd hw h.windows
  | whole hs hw he hl => exact absurd hw h.windows

theorem bars_startModules (t : ExportTable) : Steps Bars (startModules t) := fun k hb => by
  obtain ⟨-, hk⟩ := hb.refuses t
  rw [hk]
  exact hb

/-- The stage may be raised to memory. -/
theorem bars_memory : Steps Bars (advance .memory) := by
  intro k hb
  refine ⟨hb.windows, fun hs => ?_⟩
  change k.stage.later .memory = .modules at hs
  cases hk : k.stage with
  | modules => exact hb.stage hk
  | early => rw [hk] at hs; exact absurd hs (by decide)
  | memory => rw [hk] at hs; exact absurd hs (by decide)

theorem bars_startMemory (rs : List Region) (ms : List BootModule) (mapper : Mapper) :
    Steps Bars (startMemory rs ms mapper) := by
  refine steps_startMemory (fun home => bars_of_stays (stays_onGround (provided_startPool rs home)))
    (fun base length => bars_of_stays (stays_reserve base length)) (fun bitmap words => ?_) ms
  have hstats : Action.Provided Ground.Up (Ground.onPool do return (← get).stats) :=
    Ground.provided_inArena (Arena.provided_onPool (Action.within_get.bind fun _ => Action.within_pure _))
  refine (bars_of_stays (steps_escalate (stays_onGround (provided_startHeap mapper)))).bind fun _ => ?_
  refine (bars_of_stays (stays_onGround hstats)).bind fun _ => bars_memory.bind fun _ => ?_
  exact (Action.steps_lift _).bind fun _ => (Action.steps_note _).bind fun _ => Action.steps_pure _

theorem bars_through (k : Kernel) (cs : List Command) : Bars k (k.through cs) :=
  steps_through (steps_act Stays.bars bars_startMemory bars_startModules) k cs

theorem stage_eq_memory (hs : Stage.memory.rank ≤ k.stage.rank) (hne : k.stage ≠ .modules) : k.stage = .memory := by
  cases hk : k.stage with
  | early => rw [hk] at hs; exact absurd hs (by decide)
  | memory => rfl
  | modules => exact absurd hk hne

/-- If memory is up in a kernel that is barred, no attempt succeeds, whatever the kernel is told before. -/
theorem Barred.never (h : k.Barred) (hs : Stage.memory.rank ≤ k.stage.rank) (cs : List Command) (t : ExportTable) :
    (startModules t (k.through cs)).result = .error (.fault .badArgs) ∧ (k.through cs).stage = .memory := by
  have hlast := bars_through k cs h
  have hmemory := le_trans hs (vouches_through k cs).rises
  obtain ⟨hr, -⟩ := hlast.refuses t
  rw [if_neg (Nat.not_lt.2 hmemory)] at hr
  exact ⟨hr, stage_eq_memory hmemory hlast.stage⟩

/-- What an attempt leaves behind that has stalled. -/
structure Stalled (t : ExportTable) (k k' : Kernel) : Prop where
  windows : k'.windows = some .kernel
  /-- The exports are those that were published before, or else those of the attempt. -/
  exports : k'.exports = some (k.exports.getD t)
  loaders : k'.loaders = k.loaders
  stage : k'.stage = .memory
  /-- Whatever the kernel is told from then on, every later attempt is refused, and the stage stays where it is. -/
  never : ∀ cs t', (startModules t' (k'.through cs)).result = .error (.fault .badArgs) ∧ (k'.through cs).stage = .memory

/-- A truthful kernel in which an attempt stalls has come up no further than memory. -/
theorem Stalls.stage (h : k.Stalls) (ht : k.Truthful) : k.stage = .memory :=
  stage_eq_memory h.memory fun hk => (ht.modules hk).1 h.windows

/-- An attempt that stalls is one that is never made good. -/
theorem Stalls.stalled (h : k.Stalls) (ht : k.Truthful) (t : ExportTable) :
    (startModules t).Ends k fun r k' => r = .error (.fault .badArgs) ∧ Stalled t k k' := by
  have hstage := h.stage ht
  have hbarred : ∀ e, Barred { k with windows := some Windows.kernel, exports := e } := fun e =>
    ⟨nofun, fun hs => nomatch hstage.symm.trans hs⟩
  refine (startModules_brings t k).mono fun r k' hbrings => ?_
  cases hbrings with
  | early hs => exact absurd h.memory (Nat.not_le.2 hs)
  | again hs hw => exact absurd h.windows hw
  | published hs hw he =>
    obtain ⟨e, he'⟩ := Option.ne_none_iff_exists'.1 he
    exact ⟨rfl, rfl, by rw [he']; rfl, rfl, hstage, (hbarred _).never h.memory⟩
  | crowded hs hw he hl => exact ⟨rfl, rfl, by rw [he]; rfl, rfl, hstage, (hbarred _).never h.memory⟩
  | whole hs hw he hl => exact absurd he (h.late.resolve_right hl)

/-- **Loading comes up as a whole or not at all** exactly where it does not stall; and an attempt that stalls is the last. -/
theorem startModules_spares_iff (memory : Memory) (poison : Bool) (cs : List Command) (t : ExportTable) :
    (((boot memory poison).through cs).Spares t ↔ ¬((boot memory poison).through cs).Stalls) ∧
      (((boot memory poison).through cs).Stalls → (startModules t).Ends ((boot memory poison).through cs) fun r k' =>
        r = .error (.fault .badArgs) ∧ Stalled t ((boot memory poison).through cs) k') :=
  ⟨spares_iff t _, fun h => h.stalled ((vouches_through _ cs).truthful (truthful_boot memory poison)) t⟩

/-- Memory is brought up, and the exports are published before loading. -/
def publishedFirst : List Command := [.startMemory twoFrames [] (.direct 0x400000000000), .startExports ⟨[]⟩]

/-- An attempt that is refused does not always spare the kernel: it may leave windows behind. -/
theorem not_spares_publishedFirst : ¬∀ (memory : Memory) (poison : Bool) (cs : List Command) (t : ExportTable),
    ((boot memory poison).through cs).Spares t := by
  intro h
  have hrefused : (startModules ⟨[]⟩ ((boot .blank false).through publishedFirst)).result = .error (.fault .badArgs) := by
    decide +kernel
  have hbefore : ((boot .blank false).through publishedFirst).windows.isSome = false := by decide +kernel
  have hafter : (startModules ⟨[]⟩ ((boot .blank false).through publishedFirst)).state.windows.isSome = true := by
    decide +kernel
  have hsame := (h .blank false publishedFirst ⟨[]⟩ _ hrefused).windows
  rw [hsame, hbefore] at hafter
  cases hafter

end Kernel

end Keel
