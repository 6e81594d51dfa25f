import Keel.Proofs.Module.Elf.Greedy

/-!
# The symbols of an object

What the symbols of an object are is said by its bytes: the first section of the type of symbol tables holds them, and
the section it links to holds their names (`Object.Leads`); each is read from its own entry (`SymbolTable.Lists`), and
its name stands before the first NUL at its offset (`SymbolTable.Names`). Reading finds exactly that name
(`name_eq_ok`), or there is none and the object is malformed (`name_cases`). The entries of a table can always be read
(`exists_lists`), so all that can be missing is the table itself (**`symbolTable_cases`**).
-/

namespace Keel.Elf

variable {o : Object} {t : SymbolTable} {x : Symbol} {s : Section} {name : Bytes} {i : Nat}

/-! ## Names -/

/-- Bytes cut off at their first NUL. -/
theorem cut_iff {b c : Bytes} : (∃ n, b.findIdx? (fun a => a == 0) = some n ∧ b.extract 0 n = c) ↔
    0 ∉ c.toList ∧ ∃ rest, b.toList = c.toList ++ 0 :: rest := by
  obtain ⟨l⟩ := b
  obtain ⟨m⟩ := c
  rw [List.findIdx?_toArray]
  constructor
  · rintro ⟨n, hn, hc⟩
    obtain ⟨hlt, hzero, hbefore⟩ := List.findIdx?_eq_some_iff_getElem.1 hn
    have htake : l.take n = m := by simpa using congrArg Array.toList hc
    subst htake
    refine ⟨fun hmem => ?_, l.drop (n + 1), ?_⟩
    · obtain ⟨j, hj, hget⟩ := List.mem_take_iff_getElem.1 hmem
      exact hbefore j (by omega) (by simpa using hget)
    · have hdrop := List.drop_eq_getElem_cons hlt
      rw [beq_iff_eq.1 hzero] at hdrop
      rw [← hdrop, List.take_append_drop]
  · rintro ⟨hno, rest, hl⟩
    obtain rfl : l = m ++ 0 :: rest := hl
    refine ⟨m.length, List.findIdx?_eq_some_iff_getElem.2 ⟨by simp, by simp, fun j hj => ?_⟩, by simp⟩
    rw [List.getElem_append_left hj]
    intro hzero
    exact hno (beq_iff_eq.1 hzero ▸ List.getElem_mem hj)

namespace SymbolTable

/-- The name of a symbol: its bytes are among the strings, from the symbol's offset up to the next NUL. -/
def Names (t : SymbolTable) (x : Symbol) (name : Bytes) : Prop :=
  0 ∉ name.toList ∧ ∃ rest, t.strings.toList.drop x.nameOffset = name.toList ++ 0 :: rest

theorem name_eq_ok : t.name x = .ok name ↔ t.Names x name := by
  have htail : (t.strings.extract x.nameOffset t.strings.size).toList = t.strings.toList.drop x.nameOffset := by
    rw [Array.toList_extract, List.extract_eq_take_drop, List.take_of_length_le]
    simp
  unfold SymbolTable.name Names
  dsimp only
  rw [check_eq_ok, ← htail, ← cut_iff]
  simp only [Checked.bind_eq_ok, Checked.orFault_eq_ok, Checked.pure_eq, Except.ok.injEq]
  refine and_iff_right_of_imp fun ⟨n, hn, _⟩ hout => ?_
  obtain ⟨hlt, -, -⟩ := Array.findIdx?_eq_some_iff_getElem.1 hn
  rw [Array.size_extract] at hlt
  omega

/-- A symbol has one name at most. -/
theorem Names.eq {name' : Bytes} (h : t.Names x name) (h' : t.Names x name') : name = name' :=
  Except.ok.inj ((name_eq_ok.2 h).symm.trans (name_eq_ok.2 h'))

/-- A symbol without a name makes the object malformed. -/
theorem name_cases (t : SymbolTable) (x : Symbol) : (∃ name, t.name x = .ok name ∧ t.Names x name) ∨
    (∃ f, t.name x = .error (.fault f)) ∧ ∀ name, ¬t.Names x name := by
  have hreads := reads_name t x
  cases hname : t.name x with
  | ok name => exact .inl ⟨name, rfl, name_eq_ok.1 hname⟩
  | error e =>
    rw [hname] at hreads
    obtain ⟨f, rfl⟩ := hreads.exists_fault
    refine .inr ⟨⟨f, rfl⟩, fun name h => ?_⟩
    cases hname.symm.trans (name_eq_ok.2 h)

end SymbolTable

/-! ## Symbols -/

/-- The symbols of a table are its entries in order, without the first. -/
structure SymbolTable.Lists (t : SymbolTable) (xs : List Symbol) : Prop where
  symbols : t.symbols = .ok xs
  length : xs.length = t.table.size / symbolSize - 1
  entry : ∀ k (hk : k < xs.length), Symbol.read t.table ((k + 1) * symbolSize) = .ok xs[k]

theorem SymbolTable.exists_lists (t : SymbolTable) : ∃ xs, t.Lists xs := by
  obtain ⟨xs, hxs⟩ := t.symbols_isOk
  have hlength := Checked.length_mapM hxs
  rw [List.length_drop, List.length_range] at hlength
  refine ⟨xs, hxs, hlength, fun k hk => ?_⟩
  refine Checked.getElem?_mapM hxs (k := k) ?_ (List.getElem?_eq_getElem hk)
  rw [List.getElem?_drop, List.getElem?_range (by omega), Nat.add_comm]

/-! ## The first symbol table -/

namespace Object

/-- No section is a symbol table. -/
def Bare (o : Object) : Prop := ∀ i s, o.section? i = .ok s → s.type ≠ symbolTableType

/-- The section `s` at index `i` is the first symbol table; `t` is what it and the section it links to hold. -/
structure Leads (o : Object) (i : Nat) (s : Section) (t : SymbolTable) : Prop where
  isTable : o.section? i = .ok s ∧ s.type = symbolTableType
  first : ∀ j < i, ∀ s', o.section? j = .ok s' → s'.type ≠ symbolTableType
  entries : s.entrySize.toNat = symbolSize ∧ s.size.toNat % symbolSize = 0
  table : o.content s = .ok t.table
  strings : s.link ≠ 0 ∧ ∃ names, o.section? s.link = .ok names ∧ o.content names = .ok t.strings

/-- The symbols of an object are the entries of its first symbol table, without the first entry. -/
structure Scans (o : Object) (t : SymbolTable) (xs : List Symbol) : Prop where
  table : o.symbolTable = .ok (some t)
  leads : ∃ i s, o.Leads i s t
  lists : t.Lists xs

theorem firstOfType_cases {type a n : Nat} {r : Option Section} (h : o.firstOfType type (List.range' a n) = .ok r) :
    (r = none ∧ ∀ j, a ≤ j → j < a + n → ∀ s, o.section? j = .ok s → s.type ≠ type) ∨
    ∃ i s, r = some s ∧ o.section? i = .ok s ∧ s.type = type ∧
      ∀ j, a ≤ j → j < i → ∀ s', o.section? j = .ok s' → s'.type ≠ type := by
  induction n generalizing a with
  | zero =>
    cases h
    exact .inl ⟨rfl, fun j hj hj' => by omega⟩
  | succ n ih =>
    rw [List.range'_succ, firstOfType] at h
    obtain ⟨s, hs, h⟩ := Checked.bind_eq_ok.1 h
    by_cases htype : s.type = type
    · rw [if_pos htype] at h
      cases h
      exact .inr ⟨a, s, rfl, hs, htype, fun j hj hj' => by omega⟩
    · rw [if_neg htype] at h
      have ha : ∀ {j}, a ≤ j → (∀ s, o.section? j = .ok s → s.type ≠ type) ∨ a + 1 ≤ j := by
        intro j hj
        rcases Nat.eq_or_lt_of_le hj with rfl | hlt
        · exact .inl fun s' hs' => Except.ok.inj (hs.symm.trans hs') ▸ htype
        · exact .inr hlt
      obtain ⟨hr, hall⟩ | ⟨i, s', hr, hs', htype', hall⟩ := ih h
      · exact .inl ⟨hr, fun j hj hj' => (ha hj).elim id fun hlt => hall j hlt (by omega)⟩
      · exact .inr ⟨i, s', hr, hs', htype', fun j hj hj' => (ha hj).elim id fun hlt => hall j hlt hj'⟩

theorem namesOf_eq_ok {names : Section} (h : o.namesOf s = .ok names) : s.link ≠ 0 ∧ o.section? s.link = .ok names := by
  unfold namesOf at h
  split at h
  · cases h
  · rename_i hlink
    split at h
    · cases h
    · exact ⟨hlink, h⟩

/-- **The symbols of an object whose symbol table can be read are those of its first symbol table, and all of them are
read; or it has none.** -/
theorem symbolTable_cases {table : Option SymbolTable} (h : o.symbolTable = .ok table) :
    (table = none ∧ o.Bare) ∨ ∃ t xs, table = some t ∧ o.Scans t xs := by
  have hfull := h
  unfold symbolTable at h
  obtain ⟨r, hr, h⟩ := Checked.bind_eq_ok.1 h
  rw [List.range_eq_range'] at hr
  obtain ⟨rfl, hall⟩ | ⟨i, s, rfl, hs, htype, hfirst⟩ := firstOfType_cases hr
  · cases h
    exact .inl ⟨rfl, fun i s hs => hall i (Nat.zero_le i) (by simpa using section?_lt hs) s hs⟩
  · dsimp only at h
    rw [check_eq_ok] at h
    simp only [Checked.bind_eq_ok] at h
    obtain ⟨hentries, names, hnames, c, hc, d, hd, ht⟩ := h
    cases ht
    obtain ⟨hlink, hnames⟩ := namesOf_eq_ok hnames
    obtain ⟨xs, hxs⟩ := SymbolTable.exists_lists ⟨c, d⟩
    have hentries : s.entrySize.toNat = symbolSize ∧ s.size.toNat % symbolSize = 0 := by simpa using hentries
    have hleads : o.Leads i s ⟨c, d⟩ :=
      ⟨⟨hs, htype⟩, fun j hj => hfirst j (Nat.zero_le j) hj, hentries, hc, hlink, names, hnames, hd⟩
    exact .inr ⟨⟨c, d⟩, xs, rfl, hfull, ⟨i, s, hleads⟩, hxs⟩

end Object

/-! ## Symbols byte by byte -/

/-- An entry of a symbol table. -/
def symbolBytes (nameOffset kind binding sectionIndex value : Nat) : List UInt8 :=
  littleEndian 4 nameOffset ++ [UInt8.ofNat (16 * binding + kind), 0] ++ littleEndian 2 sectionIndex ++
    littleEndian 8 value ++ littleEndian 8 0

/-- Names one after the other, each with a NUL at its end, behind the empty name. -/
def nameBytes (names : List String) : List UInt8 := 0 :: names.flatMap fun name => name.toUTF8.data.toList ++ [0]

end Keel.Elf
