import Keel.Proofs.Module.Elf.Symbols

/-!
# The imports of an object

An undefined symbol takes one of three ways through resolving: it is passed over, it is counted, or it offends. Which
one is said by its name: a symbol without a name, or with a name that is no text, offends as malformed, and a global one
whose name no export has offends as missing (`SymbolTable.Offends`); one whose name an export has is an import
(`SymbolTable.Imports`). One step of resolving ends at a symbol that offends (`resolve_of_offends`) and counts any other
if it is an import (`resolve_of_passes`), so symbols of which none offends are counted one after the other
(`resolve_append`). A load therefore counts the imports, or it ends as the first symbol that offends says
(**`resolves_exactly`**).
-/

namespace Keel

variable {σ : Type} {name : Array UInt8}

/-! ## Names -/

/-- Bytes that are a text. -/
def IsText (name : Array UInt8) : Prop := ∃ text : String, text.toUTF8.data = name

theorem fromUTF8?_eq_some {text : String} : String.fromUTF8? ⟨name⟩ = some text ↔ text.toUTF8.data = name := by
  unfold String.fromUTF8?
  constructor
  · intro h
    split at h
    · cases h
      rfl
    · cases h
  · rintro rfl
    exact dif_pos text.isValidUTF8

theorem fromUTF8?_eq_none : String.fromUTF8? ⟨name⟩ = none ↔ ¬IsText name := by
  simp only [Option.eq_none_iff_forall_ne_some, IsText, not_exists, ne_eq, fromUTF8?_eq_some]

namespace ExportTable

/-- An entry has this name. -/
def Offers (exports : ExportTable) (name : Array UInt8) : Prop := ∃ e ∈ exports.entries, e.name.toUTF8.data = name

instance (exports : ExportTable) (name : Array UInt8) : Decidable (exports.Offers name) :=
  inferInstanceAs (Decidable (∃ e ∈ exports.entries, e.name.toUTF8.data = name))

theorem Offers.isText {exports : ExportTable} (h : exports.Offers name) : IsText name :=
  let ⟨e, _, he⟩ := h
  ⟨e.name, he⟩

theorem lookupBytes_of_not_text (exports : ExportTable) (h : ¬IsText name) (s : σ) :
    (exports.lookupBytes name).Ends s fun r t => r = .error (.fault .badArgs) ∧ t = s := by
  rw [lookupBytes, fromUTF8?_eq_none.2 h]
  exact ⟨rfl, rfl⟩

/-- A text that is not empty is found if an entry has it as its name. -/
theorem lookupBytes_of_text (exports : ExportTable) (h : IsText name) (hne : name ≠ #[]) (s : σ) :
    (exports.lookupBytes name).Ends s fun r t => t = s ∧
      ((exports.Offers name ∧ ∃ addr, r = .ok addr) ∨ ¬exports.Offers name ∧ r = .error (.fault .noSuch)) := by
  obtain ⟨text, rfl⟩ := h
  have hempty : text.isEmpty = false := by
    rw [Bool.eq_false_iff, ne_eq, String.isEmpty_iff]
    rintro rfl
    exact hne rfl
  have hname : ∀ e : Export, (e.name == text) = true ↔ e.name.toUTF8.data = text.toUTF8.data := fun e => by
    rw [beq_iff_eq, ← String.toByteArray_inj, ByteArray.ext_iff]
    rfl
  rw [lookupBytes, fromUTF8?_eq_some.2 rfl, Action.ends_bind, Action.ends_some, Action.goes_ok, lookup, find?, hempty,
    Action.ends_bind]
  cases hfind : exports.entries.find? fun e => e.name == text with
  | some e =>
    have hfound : (e.name == text) = true := List.find?_some (p := fun e : Export => e.name == text) hfind
    exact ⟨rfl, .inl ⟨⟨e, List.mem_of_find?_eq_some hfind, (hname e).1 hfound⟩, e.addr, rfl⟩⟩
  | none =>
    refine ⟨rfl, .inr ⟨fun ⟨e, he, heq⟩ => ?_, rfl⟩⟩
    exact List.find?_eq_none.1 hfind e he ((hname e).2 heq)

end ExportTable

end Keel

namespace Keel.Elf

open Keel.Action (note fail lift)

variable {σ : Type} {image : String} {exports : ExportTable} {t : SymbolTable} {x : Symbol} {xs ys : List Symbol}
  {f : Fault}

/-! ## What a symbol asks for -/

namespace SymbolTable

/-- An undefined symbol that resolving ends at. -/
inductive Offends (t : SymbolTable) (exports : ExportTable) (x : Symbol) : Fault → Prop
  | unnamed (hx : x.isUndefined = true) (hname : ∀ name, ¬t.Names x name) : Offends t exports x .badArgs
  | unreadable (hx : x.isUndefined = true) {name : Bytes} (hname : t.Names x name) (hne : name ≠ #[])
      (htext : ¬IsText name) : Offends t exports x .badArgs
  | missing (hx : x.isUndefined = true) {name : Bytes} (hname : t.Names x name) (hne : name ≠ #[])
      (htext : IsText name) (hglobal : x.info.binding = globalBinding) (hno : ¬exports.Offers name) :
      Offends t exports x .noSuch

/-- An undefined symbol with a name that an export has. -/
def Imports (t : SymbolTable) (exports : ExportTable) (x : Symbol) : Prop :=
  x.isUndefined = true ∧ ∃ name, t.Names x name ∧ name ≠ #[] ∧ exports.Offers name

instance (t : SymbolTable) (exports : ExportTable) : DecidablePred (t.Imports exports) := fun x =>
  decidable_of_iff (x.isUndefined = true ∧ ∃ name ∈ (t.name x).toOption, name ≠ #[] ∧ exports.Offers name) <| by
    refine and_congr_right fun _ => exists_congr fun name => and_congr_left fun _ => ?_
    rw [← name_eq_ok]
    cases t.name x <;> simp [Except.toOption]

/-- What has to be so for all imports to be found. -/
structure Resolvable (t : SymbolTable) (exports : ExportTable) (xs : List Symbol) : Prop where
  /-- The names of undefined symbols are among the strings and end with a NUL. -/
  named : ∀ x ∈ xs, x.isUndefined = true → ∃ name, t.Names x name
  readable : ∀ x ∈ xs, x.isUndefined = true → ∀ name, t.Names x name → name ≠ #[] → IsText name
  offered : ∀ x ∈ xs, x.isUndefined = true → x.info.binding = globalBinding →
    ∀ name, t.Names x name → name ≠ #[] → exports.Offers name

theorem resolvable_iff : t.Resolvable exports xs ↔ ∀ x ∈ xs, ∀ f, ¬t.Offends exports x f := by
  constructor
  · rintro h x hmem f (⟨hx, hname⟩ | ⟨hx, hname, hne, htext⟩ | ⟨hx, hname, hne, -, hglobal, hno⟩)
    · obtain ⟨name, hnames⟩ := h.named x hmem hx
      exact hname name hnames
    · exact htext (h.readable x hmem hx _ hname hne)
    · exact hno (h.offered x hmem hx hglobal _ hname hne)
  · intro h
    refine ⟨fun x hmem hx => ?_, fun x hmem hx name hname hne => ?_, fun x hmem hx hglobal name hname hne => ?_⟩
    · exact Classical.not_forall_not.1 fun hno => h x hmem _ (.unnamed hx hno)
    · exact Classical.not_not.1 fun htext => h x hmem _ (.unreadable hx hname hne htext)
    · refine Classical.not_not.1 fun hno => ?_
      by_cases htext : IsText name
      · exact h x hmem _ (.missing hx hname hne htext hglobal hno)
      · exact h x hmem _ (.unreadable hx hname hne htext)

theorem resolvable_nil : t.Resolvable exports [] := ⟨nofun, nofun, nofun⟩

/-- Symbols that cannot all be found have a first one that offends. -/
theorem exists_first_offending (h : ¬t.Resolvable exports xs) :
    ∃ pre x post f, xs = pre ++ x :: post ∧ t.Resolvable exports pre ∧ t.Offends exports x f := by
  induction xs with
  | nil => exact absurd resolvable_nil h
  | cons x xs ih =>
    by_cases hx : ∃ f, t.Offends exports x f
    · obtain ⟨f, hf⟩ := hx
      exact ⟨[], x, xs, f, rfl, resolvable_nil, hf⟩
    · have hno : ∀ f, ¬t.Offends exports x f := fun f hf => hx ⟨f, hf⟩
      have hrest : ¬t.Resolvable exports xs := fun hrest => h <| resolvable_iff.2 <|
        List.forall_mem_cons.2 ⟨hno, resolvable_iff.1 hrest⟩
      obtain ⟨pre, y, post, f, rfl, hpre, hf⟩ := ih hrest
      exact ⟨x :: pre, y, post, f, rfl, resolvable_iff.2 (List.forall_mem_cons.2 ⟨hno, resolvable_iff.1 hpre⟩), hf⟩

end SymbolTable

/-! ## One symbol -/

/-- A defined symbol is passed over. -/
theorem resolve_of_defined (hx : x.isUndefined = false) (found : Nat) :
    (resolve image exports t (x :: xs) found : Action σ Nat) = resolve image exports t xs found := by
  rw [resolve, hx]
  rfl

/-- A symbol with an empty name is passed over. -/
theorem resolve_of_empty (hx : x.isUndefined = true) (hname : t.Names x #[]) (found : Nat) (s : σ) :
    (resolve image exports t (x :: xs) found s).result = (resolve image exports t xs found s).result := by
  show (resolve image exports t (x :: xs) found).Ends s fun r _ => r = (resolve image exports t xs found s).result
  rw [resolve, hx, Bool.not_true, if_neg Bool.false_ne_true, Action.ends_bind, Action.ends_lift,
    toChecked_eq_ok.2 (SymbolTable.name_eq_ok.2 hname)]
  rfl

/-- An undefined symbol with a name: what has to hold for each way in which looking it up can end. -/
theorem resolve_of_named {name : Bytes} {found : Nat} {s : σ} {P : Checked Fault Nat → Prop}
    (hx : x.isUndefined = true) (hname : t.Names x name) (hne : name ≠ #[])
    (hunreadable : ¬IsText name → P (.error (.fault .badArgs)))
    (hoffered : exports.Offers name → P (lift (Count.add found 1) >>= resolve image exports t xs <| s).result)
    (hmissing : IsText name → ¬exports.Offers name → P (if x.info.binding = globalBinding then .error (.fault .noSuch)
      else (resolve image exports t xs found s).result)) : P (resolve image exports t (x :: xs) found s).result := by
  show (resolve image exports t (x :: xs) found).Ends s fun r _ => P r
  have hempty : name.isEmpty = false := by rw [Bool.eq_false_iff, ne_eq, Array.isEmpty_iff]; exact hne
  rw [resolve, hx, Bool.not_true, if_neg Bool.false_ne_true, Action.ends_bind, Action.ends_lift,
    toChecked_eq_ok.2 (SymbolTable.name_eq_ok.2 hname), Action.goes_ok, hempty, if_neg Bool.false_ne_true,
    Action.ends_bind, Action.ends_attempt]
  by_cases htext : IsText name
  · refine (exports.lookupBytes_of_text htext hne s).mono ?_
    rintro r u ⟨rfl, ⟨hoffers, addr, rfl⟩ | ⟨hno, rfl⟩⟩
    · exact hoffered hoffers
    · have hmissing := hmissing htext hno
      rw [Action.attempted_fault, Action.goes_ok]
      dsimp only
      rw [Action.ends_ite]
      split
      · rename_i hglobal
        rwa [if_pos hglobal] at hmissing
      · rename_i hglobal
        rwa [if_neg hglobal] at hmissing
  · refine (exports.lookupBytes_of_not_text htext s).mono ?_
    rintro r u ⟨rfl, rfl⟩
    exact hunreadable htext

/-- Resolving ends at a symbol that offends. -/
theorem resolve_of_offends (h : t.Offends exports x f) (found : Nat) (s : σ) :
    (resolve image exports t (x :: xs) found s).result = .error (.fault f) := by
  cases h with
  | unnamed hx hname =>
    obtain ⟨name, -, hnames⟩ | ⟨⟨e, he⟩, -⟩ := t.name_cases x
    · exact absurd hnames (hname name)
    · show (resolve image exports t (x :: xs) found).Ends s fun r _ => r = .error (.fault .badArgs)
      rw [resolve, hx, Bool.not_true, if_neg Bool.false_ne_true, Action.ends_bind, Action.ends_lift, he]
      rfl
  | unreadable hx hname hne htext =>
    exact resolve_of_named (P := (· = _)) hx hname hne (fun _ => rfl) (fun h => absurd h.isText htext)
      fun h => absurd h htext
  | missing hx hname hne htext hglobal hno =>
    exact resolve_of_named (P := (· = _)) hx hname hne (fun h => absurd htext h) (fun h => absurd h hno)
      fun _ _ => if_pos hglobal

/-- Resolving goes on behind any other symbol, and counts it if it is an import. -/
theorem resolve_of_passes (h : ∀ f, ¬t.Offends exports x f) {found : Nat} (hlt : found + 1 < 2 ^ 64) (s : σ) :
    (resolve image exports t (x :: xs) found s).result =
      (resolve image exports t xs (found + if t.Imports exports x then 1 else 0) s).result := by
  cases hx : x.isUndefined with
  | false =>
    have hno : ¬t.Imports exports x := fun himports => absurd (hx.symm.trans himports.1) Bool.false_ne_true
    rw [resolve_of_defined hx, if_neg hno, Nat.add_zero]
  | true =>
    obtain ⟨name, hname⟩ : ∃ name, t.Names x name := Classical.not_forall_not.1 fun hno => h _ (.unnamed hx hno)
    -- The name of the symbol is the only one it has, so whether it is an import is decided by that name.
    have himports : t.Imports exports x ↔ name ≠ #[] ∧ exports.Offers name :=
      ⟨fun ⟨_, _, h, himports⟩ => hname.eq h ▸ himports, fun himports => ⟨hx, name, hname, himports⟩⟩
    by_cases hne : name = #[]
    · subst hne
      rw [resolve_of_empty hx hname, if_neg fun himport => (himports.1 himport).1 rfl, Nat.add_zero]
    · refine resolve_of_named (P := (· = _)) hx hname hne (fun htext => absurd (.unreadable hx hname hne htext) (h _))
        (fun hoffers => ?_) fun htext hno => ?_
      · rw [if_pos (himports.2 ⟨hne, hoffers⟩), Count.add_eq_ok.2 ⟨hlt, rfl⟩]
        rfl
      · have hglobal : x.info.binding ≠ globalBinding := fun hglobal => h _ (.missing hx hname hne htext hglobal hno)
        rw [if_neg hglobal, if_neg fun himport => hno (himports.1 himport).2, Nat.add_zero]

/-! ## All symbols -/

/-- Symbols of which none offends are counted, and resolving goes on behind them. -/
theorem resolve_append (h : t.Resolvable exports xs) {found : Nat} (hlt : found + xs.length < 2 ^ 64) (s : σ) :
    (resolve image exports t (xs ++ ys) found s).result =
      (resolve image exports t ys (found + xs.countP (t.Imports exports ·)) s).result := by
  induction xs generalizing found with
  | nil => rfl
  | cons x xs ih =>
    rw [List.length_cons] at hlt
    obtain ⟨hx, hxs⟩ := List.forall_mem_cons.1 (SymbolTable.resolvable_iff.1 h)
    have hcount : found + (if t.Imports exports x then 1 else 0) + xs.length < 2 ^ 64 := by split <;> omega
    rw [List.cons_append, resolve_of_passes hx (by omega), ih (SymbolTable.resolvable_iff.2 hxs) hcount,
      List.countP_cons, Nat.add_assoc, Nat.add_comm (List.countP _ xs)]
    simp only [decide_eq_true_eq]

/-- Where all imports can be found, resolving answers how many there are. -/
theorem resolve_of_resolvable (h : t.Resolvable exports xs) (hlt : xs.length < 2 ^ 64) (s : σ) :
    (resolve image exports t xs 0 s).result = .ok (xs.countP (t.Imports exports ·)) := by
  have happend : (resolve image exports t (xs ++ []) 0 s).result = _ := resolve_append h (by omega) s
  rwa [List.append_nil, Nat.zero_add] at happend

/-- Otherwise it ends as the first symbol that offends says. -/
theorem resolve_of_not_resolvable (h : ¬t.Resolvable exports xs) (hlt : xs.length < 2 ^ 64) :
    ∃ pre x post f, xs = pre ++ x :: post ∧ t.Resolvable exports pre ∧ t.Offends exports x f ∧
      ∀ s : σ, (resolve image exports t xs 0 s).result = .error (.fault f) := by
  obtain ⟨pre, x, post, f, rfl, hpre, hf⟩ := SymbolTable.exists_first_offending h
  refine ⟨pre, x, post, f, rfl, hpre, hf, fun s => ?_⟩
  rw [List.length_append] at hlt
  rw [resolve_append hpre (by omega)]
  exact resolve_of_offends hf _ s

/-! ## Loads -/

/-- What resolving the symbols of an object comes to, for a load and on its own. -/
structure ResolvesExactly (image : Image) (exports : ExportTable) (t : SymbolTable) (xs : List Symbol) : Prop where
  succeeds_iff : ∀ w : Windows,
    (∃ n, (resolve image.name exports t xs 0 w).result = .ok n) ↔ t.Resolvable exports xs
  /-- What is counted are the imports, each as often as there is a symbol for it. -/
  counts : ∀ (w : Windows) n, (resolve image.name exports t xs 0 w).result = .ok n → n = xs.countP (t.Imports exports ·)
  imports : ∀ w m, (load image exports w).result = .ok m → m.imports = xs.countP (t.Imports exports ·)
  /-- Otherwise both end as the first symbol that offends says. -/
  fails : ¬t.Resolvable exports xs → ∃ pre x post f, xs = pre ++ x :: post ∧ t.Resolvable exports pre ∧
    t.Offends exports x f ∧ ∀ w : Windows, (resolve image.name exports t xs 0 w).result = .error (.fault f) ∧
      (load image exports w).result = .error (.fault f)

/-- The number of imports of an accepted load is what resolving its symbols has answered. -/
theorem load_imports {image : Image} {o : Object} {table : Option SymbolTable} {w : Windows} {m : LoadedModule}
    (hread : Object.read image.bytes = .ok o) (htable : o.symbolTable = .ok table)
    (h : (load image exports w).result = .ok m) : (table = none ∧ m.imports = 0) ∨
      ∃ t xs, table = some t ∧ t.symbols = .ok xs ∧ (resolve image.name exports t xs 0 w).result = .ok m.imports := by
  obtain ⟨v, hfound, hplaced⟩ := load_found h
  obtain rfl : o = v.object := Except.ok.inj (hread.symm.trans hfound.object)
  rw [hplaced.imports]
  obtain ⟨hnone, hzero, -⟩ | ⟨t, xs, hsome, hxs, hresolve, -⟩ := hfound.symbols
  · exact .inl ⟨Except.ok.inj (htable.symm.trans hnone), hzero⟩
  · exact .inr ⟨t, xs, Except.ok.inj (htable.symm.trans hsome), hxs, hresolve⟩

/-- **A load whose layout and symbol table can be read counts the imports of the first symbol table, or it ends as the
first symbol that offends says.** The bytes of the image lie in memory, so there are fewer than `2 ^ 64` of them. -/
theorem resolves_exactly {image : Image} {o : Object} {layout : BlockLayout} {table : Option SymbolTable}
    (hsize : image.bytes.size < 2 ^ 64) (hread : Object.read image.bytes = .ok o) (hlayout : o.layout none = .ok layout)
    (htable : o.symbolTable = .ok table) (exports : ExportTable) :
    (table = none ∧ o.Bare ∧ ∀ w m, (load image exports w).result = .ok m → m.imports = 0) ∨
    ∃ t xs, table = some t ∧ o.Scans t xs ∧ ResolvesExactly image exports t xs := by
  obtain ⟨rfl, hbare⟩ | ⟨t, xs, rfl, hscans⟩ := Object.symbolTable_cases htable
  · refine .inl ⟨rfl, hbare, fun w m hm => ?_⟩
    obtain ⟨-, hzero⟩ | ⟨t, xs, hsome, -⟩ := load_imports hread htable hm
    · exact hzero
    · cases hsome
  · have hxs := hscans.lists.symbols
    have hlt : xs.length < 2 ^ 64 := by
      have := length_symbols hxs
      have := size_symbolTable htable
      rw [(read_eq_ok hread).1] at this
      omega
    have hsucceeds : ∀ (w : Windows) n, (resolve image.name exports t xs 0 w).result = .ok n →
        t.Resolvable exports xs := by
      intro w n hn
      refine Classical.not_not.1 fun h => ?_
      obtain ⟨-, -, -, f, -, -, -, hends⟩ := resolve_of_not_resolvable h hlt
      cases hn.symm.trans (hends w)
    have hcounts : ∀ (w : Windows) n, (resolve image.name exports t xs 0 w).result = .ok n →
        n = xs.countP (t.Imports exports ·) := fun w n hn =>
      Except.ok.inj (hn.symm.trans (resolve_of_resolvable (hsucceeds w n hn) hlt w))
    refine .inr ⟨t, xs, rfl, hscans, fun w => ?_, hcounts, fun w m hm => ?_, fun h => ?_⟩
    · exact ⟨fun ⟨n, hn⟩ => hsucceeds w n hn, fun h => ⟨_, resolve_of_resolvable h hlt w⟩⟩
    · obtain ⟨hnone, -⟩ | ⟨t', xs', hsome, hxs', hresolve⟩ := load_imports hread htable hm
      · cases hnone
      · cases hsome
        obtain rfl : xs = xs' := Except.ok.inj (hxs.symm.trans hxs')
        exact hcounts w _ hresolve
    · obtain ⟨pre, x, post, f, hsplit, hpre, hf, hends⟩ := resolve_of_not_resolvable h hlt
      exact ⟨pre, x, post, f, hsplit, hpre, hf, fun w =>
        ⟨hends w, load_of_resolve hread hlayout htable hxs (hends w)⟩⟩

/-! ## An object with a weak import -/

/-- An object that imports `print` twice, and that can do without `trace`. -/
def printingObject : Image :=
  twoBlockObject (littleEndian 24 0 ++ symbolBytes 1 0 1 0 0 ++ symbolBytes 7 0 2 0 0 ++ symbolBytes 0 0 1 0 0 ++
    symbolBytes 1 0 2 0 0) (nameBytes ["print", "trace"])

/-- A table with `print` alone. -/
def printExports : ExportTable := ⟨[⟨"print", ⟨0xffffffff80001000⟩⟩]⟩

/-- Both imports of `print` are counted, the weak one as well. -/
theorem resolves_printingObject : printingObject.bytes.size < 2 ^ 64 ∧ ∃ o layout t xs,
    Object.read printingObject.bytes = .ok o ∧ o.layout none = .ok layout ∧ o.symbolTable = .ok (some t) ∧
    o.Scans t xs ∧ ResolvesExactly printingObject printExports t xs ∧
    xs.countP (t.Imports printExports ·) = 2 := by
  have hsize : printingObject.bytes.size < 2 ^ 64 := by decide +kernel
  have hload : ((load printingObject printExports .kernel).result >>= fun m => pure m.imports) = .ok 2 := by
    decide +kernel
  obtain ⟨m, hm, hcount⟩ := Checked.bind_eq_ok.1 hload
  obtain ⟨v, hfound, -⟩ := load_found hm
  have htable : ∃ table, v.object.symbolTable = .ok table := by
    obtain ⟨hnone, -⟩ | ⟨t, -, hsome, -⟩ := hfound.symbols
    · exact ⟨_, hnone⟩
    · exact ⟨_, hsome⟩
  obtain ⟨table, htable⟩ := htable
  obtain ⟨-, -, hzero⟩ | ⟨t, xs, rfl, hscans, hexact⟩ :=
    resolves_exactly hsize hfound.object hfound.layout htable printExports
  · rw [hzero .kernel m hm] at hcount
    cases hcount
  · refine ⟨hsize, v.object, v.layout, t, xs, hfound.object, hfound.layout, htable, hscans, hexact, ?_⟩
    rw [← hexact.imports .kernel m hm]
    exact Except.ok.inj hcount

end Keel.Elf
