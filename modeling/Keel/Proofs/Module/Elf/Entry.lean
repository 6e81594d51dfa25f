import Keel.Proofs.Module.Elf.Symbols

/-!
# The entry point of a module

The entry point is the first symbol of that name in a section of code (`Object.IsInit`, `Object.FirstInit`): same-named
symbols elsewhere, and those in no section, do not count. Searching the symbols finds the first one (`findInit_cases`).
Its address is the start of the code, the offset of its section and its value taken together; a load that is accepted
answers this address where it lies in the code, and no entry point otherwise (**`enters_exactly`**).
-/

namespace Keel

/-- The addresses of a range, as numbers. -/
theorem AddressRange.contains_iff {r : AddressRange} {a : VirtAddr} : r.contains a = true ↔
    a.raw.toNat ∈ Set.Ico r.start.raw.toNat (r.start.raw.toNat + r.length.toNat) := by
  unfold contains
  rw [Bool.and_eq_true, decide_eq_true_iff, decide_eq_true_iff, UInt64.le_iff_toNat_le, UInt64.lt_iff_toNat_lt,
    Set.mem_Ico]
  refine and_congr_right fun hle => ?_
  rw [UInt64.toNat_sub_of_le _ _ (UInt64.le_iff_toNat_le.2 hle)]
  omega

end Keel

namespace Keel.Elf

variable {o : Object} {t : SymbolTable} {x : Symbol} {xs : List Symbol}

/-! ## Searching -/

namespace Object

/-- The symbol is in a section, has the name of entry points, and its section is one of code. -/
structure IsInit (o : Object) (t : SymbolTable) (x : Symbol) : Prop where
  placed : x.sectionIndex ≠ undefinedSection ∧ x.sectionIndex < reservedSections
  named : t.Names x initName
  code : ∃ s, o.section? x.sectionIndex = .ok s ∧ s.flags.isAllocated = true ∧ s.flags.isExecutable = true

/-- No symbol before `x` is one as well. -/
def FirstInit (o : Object) (t : SymbolTable) (xs : List Symbol) (x : Symbol) : Prop :=
  ∃ pre post, xs = pre ++ x :: post ∧ o.IsInit t x ∧ ∀ y ∈ pre, ¬o.IsInit t y

theorem FirstInit.eq {y : Symbol} (hx : o.FirstInit t xs x) (hy : o.FirstInit t xs y) : x = y := by
  obtain ⟨pre, post, rfl, hx, hpre⟩ := hx
  obtain ⟨pre', post', hsplit, hy, hpre'⟩ := hy
  -- Neither of the two can stand among the symbols before the other.
  obtain ⟨rest, rfl, htail⟩ | ⟨rest, rfl, htail⟩ := List.append_eq_append_iff.1 hsplit
  · cases rest with
    | nil => exact (List.cons.inj htail).1
    | cons z rest =>
      obtain ⟨rfl, -⟩ := List.cons.inj htail
      exact absurd hx (hpre' x (by simp))
  · cases rest with
    | nil => exact (List.cons.inj htail).1.symm
    | cons z rest =>
      obtain ⟨rfl, -⟩ := List.cons.inj htail
      exact absurd hy (hpre y (by simp))

end Object

theorem isPlaced_iff : x.isPlaced = true ↔ x.sectionIndex ≠ undefinedSection ∧ x.sectionIndex < reservedSections := by
  simp [Symbol.isPlaced, Symbol.isUndefined]

/-- The tests that a search makes of a symbol. -/
theorem isInit_iff : o.IsInit t x ↔
    x.isPlaced = true ∧ t.name x = .ok initName ∧ ∃ s, o.section? x.sectionIndex = .ok s ∧ s.isText = true := by
  simp only [isPlaced_iff, SymbolTable.name_eq_ok, Section.isText, Bool.and_eq_true]
  exact ⟨fun h => ⟨h.placed, h.named, h.code⟩, fun h => ⟨h.1, h.2.1, h.2.2⟩⟩

/-- A search finds the first symbol that is an entry point, or there is none. -/
theorem findInit_cases {r : Option (Nat × UInt64)} (h : findInit o t xs = .ok r) :
    (r = none ∧ ∀ x ∈ xs, ¬o.IsInit t x) ∨ ∃ x, o.FirstInit t xs x ∧ r = some (x.sectionIndex, x.value) := by
  induction xs with
  | nil =>
    cases h
    exact .inl ⟨rfl, nofun⟩
  | cons x xs ih =>
    have hcons := findInit_cons h
    rw [← isInit_iff] at hcons
    obtain ⟨hx, hr⟩ | ⟨hno, hrest⟩ := hcons
    · exact .inr ⟨x, ⟨[], xs, rfl, hx, nofun⟩, hr⟩
    · obtain ⟨hr, hall⟩ | ⟨y, ⟨pre, post, rfl, hy, hpre⟩, hr⟩ := ih hrest
      · exact .inl ⟨hr, List.forall_mem_cons.2 ⟨hno, hall⟩⟩
      · exact .inr ⟨y, ⟨x :: pre, post, rfl, hy, List.forall_mem_cons.2 ⟨hno, hpre⟩⟩, hr⟩

/-! ## Addresses -/

/-- The entry point that is answered is the sum of all three, if that lies in the code. -/
theorem entryPoint_eq_some {i : Nat} {value offset : UInt64} {layout : BlockLayout} {text : AddressRange}
    {entry : Option VirtAddr} (h : entryPoint o text (some (i, value)) = .ok entry)
    (hlayout : o.layout (some i) = .ok layout) (hoffset : layout.offset = some offset) (e : VirtAddr) :
    entry = some e ↔ e.raw.toNat = text.start.raw.toNat + offset.toNat + value.toNat ∧
      e.raw.toNat ∈ Set.Ico text.start.raw.toNat (text.start.raw.toNat + text.length.toNat) := by
  obtain ⟨-, hentry⟩ | ⟨a, ha, hentry⟩ := entryPoint_cases hlayout hoffset text value
  · cases h.symm.trans hentry
  · obtain rfl := Except.ok.inj (h.symm.trans hentry)
    have hraw : e.raw.toNat = a.raw.toNat ↔ a = e := by
      obtain ⟨a⟩ := a
      obtain ⟨e⟩ := e
      rw [UInt64.toNat_inj, Address.mk.injEq, eq_comm]
    rw [← AddressRange.contains_iff, Nat.add_assoc, ← ha, hraw, Option.ite_none_right_eq_some, Option.some.injEq,
      and_comm]
    exact and_congr_right fun heq => heq ▸ Iff.rfl

/-- What the entry point of a module is that was loaded from an object with these symbols. -/
structure Enters (o : Object) (t : SymbolTable) (xs : List Symbol) (m : LoadedModule) : Prop where
  /-- The section of the first symbol that is an entry point has an offset in the code. -/
  offset : ∀ x, o.FirstInit t xs x → ∃ layout offset, o.layout (some x.sectionIndex) = .ok layout ∧
    layout.offset = some offset
  entry_iff : ∀ e, m.entry = some e ↔ ∃ x layout offset, o.FirstInit t xs x ∧
    o.layout (some x.sectionIndex) = .ok layout ∧ layout.offset = some offset ∧
    e.raw.toNat = m.text.start.raw.toNat + offset.toNat + x.value.toNat ∧
    e.raw.toNat ∈ Set.Ico m.text.start.raw.toNat (m.text.start.raw.toNat + m.text.length.toNat)

/-- **A load that is accepted answers the address of the first entry point among its symbols if this lies in the code,
and none otherwise.** -/
theorem enters_exactly {image : Image} {exports : ExportTable} {w : Windows} {m : LoadedModule}
    (h : (load image exports w).result = .ok m) : ∃ o, Object.read image.bytes = .ok o ∧
      ((o.symbolTable = .ok none ∧ o.Bare ∧ m.entry = none) ∨ ∃ t xs, o.Scans t xs ∧ Enters o t xs m) := by
  obtain ⟨v, hfound, hplaced⟩ := load_found h
  refine ⟨v.object, hfound.object, ?_⟩
  have hentry := hplaced.entry
  obtain ⟨htable, -, hinit⟩ | ⟨t, xs, htable, hxs, -, hinit⟩ := hfound.symbols
  · obtain ⟨-, hbare⟩ | ⟨t, xs, hsome, -⟩ := Object.symbolTable_cases htable
    · rw [hinit] at hentry
      exact .inl ⟨htable, hbare, (Except.ok.inj hentry).symm⟩
    · cases hsome
  · obtain ⟨hnone, -⟩ | ⟨t', xs', hsome, hscans⟩ := Object.symbolTable_cases htable
    · cases hnone
    cases hsome
    obtain rfl : xs = xs' := Except.ok.inj (hxs.symm.trans hscans.lists.symbols)
    have hoffset : ∀ x, v.object.FirstInit t xs x → ∃ layout offset,
        v.object.layout (some x.sectionIndex) = .ok layout ∧ layout.offset = some offset := by
      rintro x ⟨-, -, -, hx, -⟩
      obtain ⟨s, hs, halloc, -⟩ := hx.code
      obtain ⟨layout, offset, hlayout, -, hoffset, -⟩ := Object.layout_offset hfound.layout hs halloc
      exact ⟨layout, offset, hlayout, hoffset⟩
    refine .inr ⟨t, xs, hscans, hoffset, fun e => ?_⟩
    obtain ⟨hnone, hall⟩ | ⟨x, hx, hsome⟩ := findInit_cases hinit
    · rw [hnone] at hentry
      rw [← Except.ok.inj hentry]
      refine iff_of_false nofun ?_
      rintro ⟨x, -, -, ⟨pre, post, rfl, hx, -⟩, -⟩
      exact hall x (by simp) hx
    · rw [hsome] at hentry
      obtain ⟨layout, offset, hlayout, hoffset⟩ := hoffset x hx
      have hiff := entryPoint_eq_some hentry hlayout hoffset e
      constructor
      · intro he
        exact ⟨x, layout, offset, hx, hlayout, hoffset, hiff.1 he⟩
      · rintro ⟨y, layout', offset', hy, hlayout', hoffset', he⟩
        obtain rfl := hx.eq hy
        cases hlayout.symm.trans hlayout'
        cases hoffset.symm.trans hoffset'
        exact hiff.2 he

/-! ## An object with symbols of the same name -/

/-- An object whose entry point is two bytes into its second section of code. Before it there are symbols of the same
name in a section of data and in no section, and behind it there is one in the first section of code. -/
def decoyObject : Image :=
  twoBlockObject (littleEndian 24 0 ++ symbolBytes 1 2 1 2 0 ++ symbolBytes 1 2 1 0xfff1 4 ++ symbolBytes 1 2 1 3 2 ++
    symbolBytes 1 2 1 1 0) (nameBytes [Layout.initSymbol])

/-- The object as the windows of the kernel place it. -/
def decoyModule : LoadedModule :=
  ⟨⟨⟨0xffffffff90000000⟩, 20⟩, ⟨⟨0xffffffff98000000⟩, 17⟩, some ⟨0xffffffff90000012⟩, 0⟩

theorem enters_decoyObject : (load decoyObject ⟨[]⟩ .kernel).result = .ok decoyModule ∧
    ∃ o, Object.read decoyObject.bytes = .ok o ∧ ((o.symbolTable = .ok none ∧ o.Bare ∧ decoyModule.entry = none) ∨
      ∃ t xs, o.Scans t xs ∧ Enters o t xs decoyModule) :=
  have hload : (load decoyObject ⟨[]⟩ .kernel).result = .ok decoyModule := by decide +kernel
  ⟨hload, enters_exactly hload⟩

end Keel.Elf
