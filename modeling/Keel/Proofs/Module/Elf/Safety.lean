import Keel.Proofs.Module.Elf.Loading

/-!
# Reading never halts

Whatever bytes an image has, reading it ends with what was read or finds the object malformed (`Reads`): a number is
taken only where its bytes are there (`reads_le`), a section header only inside the table that was checked first
(`Object.Inside`), a rounding only to a power of two. The count of imports stays below the number of symbols. So a load
ends with a module or with one of four faults (`settles_load`), and an image that probing rejects is an invalid argument
to a load as well (`load_of_rejected`). Windows that were created stay sound whatever is loaded into them, so all of
this holds wherever a load is tried (**`withstands_load`**).
-/

namespace Keel.Elf

open Keel.Checked (Settles settles_ok settles_fault)
open Keel.Action (Ends note fail lift)

variable {α β σ : Type} {b : Bytes} {o : Object} {i n : Nat} {s : Section} {t : SymbolTable}

/-- A read that ends with a value or finds the object malformed. -/
abbrev Reads (x : Read α) : Prop := Settles (fun _ => True) x

theorem reads_malformed (e : Malformed) : Reads (malformed e : Read α) := settles_fault.2 trivial

theorem reads_orFault (e : Malformed) (x : Option α) : Reads (orFault e x) := Checked.settles_orFault trivial x

/-! ## Bytes -/

theorem reads_byteAt (h : i < b.size) : Reads (byteAt b i) := by
  rw [byteAt_eq_ok h]
  exact settles_ok _

theorem reads_le (h : i + n ≤ b.size) : Reads (le b i n) := by
  obtain ⟨v, hv, -⟩ := le_isOk (ε := Malformed) h
  rw [hv]
  exact settles_ok _

theorem le64_isOk (h : i + 8 ≤ b.size) : ∃ v, le64 (ε := Malformed) b i = .ok v := by
  obtain ⟨v, hv, -⟩ := le_isOk (ε := Malformed) h
  exact ⟨UInt64.ofNat v, by rw [le64, hv]; rfl⟩

theorem reads_slice (b : Bytes) (offset size : Nat) : Reads (slice b offset size) :=
  Settles.ite (fun _ => settles_ok _) fun _ => reads_malformed _

/-! ## Checks -/

section

variable {c : Prop} [Decidable c]

/-- A check that ends the read, and what follows it. -/
theorem reads_check (e : Malformed) (f : β → Read α) {x : Read α} (h : ¬c → Reads x) :
    Reads (if c then malformed e >>= f else x) := Settles.ite (fun _ => reads_malformed e) h

end

/-! ## Objects -/

/-- The section table lies inside the image, and the image has fewer bytes than the address space. -/
structure Object.Inside (o : Object) : Prop where
  table : o.tableOffset + o.sectionCount * sectionHeaderSize ≤ o.bytes.size
  image : o.bytes.size < 2 ^ 64

theorem reads_object (b : Bytes) : Reads (Object.read b) := by
  unfold Object.read
  dsimp only
  refine reads_check _ _ fun hsize => reads_check _ _ fun _ => ?_
  have hsize : 64 ≤ b.size := Nat.le_of_not_lt hsize
  refine (reads_byteAt (by omega)).bind fun _ _ => (reads_byteAt (by omega)).bind fun _ _ => reads_check _ _ fun _ => ?_
  refine (reads_le (by omega)).bind fun _ _ => reads_check _ _ fun _ => ?_
  refine (reads_le (by omega)).bind fun _ _ => reads_check _ _ fun _ => ?_
  refine (reads_le (by omega)).bind fun _ _ => reads_check _ _ fun _ => ?_
  refine (reads_le (by omega)).bind fun _ _ => (reads_le (by omega)).bind fun _ _ => ?_
  refine (reads_le (by omega)).bind fun _ _ => reads_check _ _ fun _ => ?_
  exact (reads_slice _ _ _).bind fun _ _ => settles_ok _

/-- An object that was read has the bytes of its image, and its section table lies in them. -/
theorem read_eq_ok (h : Object.read b = .ok o) :
    o.bytes = b ∧ o.tableOffset + o.sectionCount * sectionHeaderSize ≤ b.size := by
  unfold Object.read at h
  simp only [check_eq_ok, Checked.bind_eq_ok] at h
  obtain ⟨-, -, _, -, _, -, -, _, -, -, _, -, -, _, -, -, offset, -, _, -, count, -, -, c, hslice, ho⟩ := h
  cases ho
  exact ⟨rfl, (slice_eq_ok hslice).1⟩

theorem inside_read (hb : b.size < 2 ^ 64) (h : Object.read b = .ok o) : o.Inside := by
  obtain ⟨rfl, htable⟩ := read_eq_ok h
  exact ⟨htable, hb⟩

/-- A header all of whose bytes are there is read. -/
theorem Section.read_isOk (h : i + 64 ≤ b.size) : ∃ s, Section.read b i = .ok s := by
  obtain ⟨type, htype, -⟩ := le_isOk (ε := Malformed) (b := b) (i := i + 4) (n := 4) (by omega)
  obtain ⟨flags, hflags⟩ := le64_isOk (b := b) (i := i + 8) (by omega)
  obtain ⟨offset, hoffset⟩ := le64_isOk (b := b) (i := i + 24) (by omega)
  obtain ⟨size, hsize⟩ := le64_isOk (b := b) (i := i + 32) (by omega)
  obtain ⟨link, hlink, -⟩ := le_isOk (ε := Malformed) (b := b) (i := i + 40) (n := 4) (by omega)
  obtain ⟨align, halign⟩ := le64_isOk (b := b) (i := i + 48) (by omega)
  obtain ⟨entry, hentry⟩ := le64_isOk (b := b) (i := i + 56) (by omega)
  refine ⟨⟨type, ⟨flags⟩, offset, size, link, align, entry⟩, ?_⟩
  simp only [Section.read, htype, hflags, hoffset, hsize, hlink, halign, hentry, Checked.ok_bind, Checked.pure_eq]

/-- The header at an index of the table. -/
theorem Object.Inside.section_isOk (ho : o.Inside) (hi : i < o.sectionCount) : ∃ s, o.section? i = .ok s := by
  have htable := ho.table
  have himage := ho.image
  have hmul : (i + 1) * 64 ≤ o.sectionCount * 64 := Nat.mul_le_mul_right 64 hi
  unfold sectionHeaderSize at htable
  have hstart : Count.mul (ε := Malformed) i sectionHeaderSize = .ok (i * 64) :=
    Count.mul_eq_ok.2 ⟨by unfold sectionHeaderSize; omega, rfl⟩
  have hsum : Count.add (ε := Malformed) o.tableOffset (i * 64) = .ok (o.tableOffset + i * 64) :=
    Count.add_eq_ok.2 ⟨by omega, rfl⟩
  rw [Object.section?, if_neg (Nat.not_le.2 hi), hstart, Checked.ok_bind, hsum]
  exact Section.read_isOk (by omega)

theorem reads_section (ho : o.Inside) (i : Nat) : Reads (o.section? i) := by
  by_cases hi : i < o.sectionCount
  · obtain ⟨s, hs⟩ := ho.section_isOk hi
    rw [hs]
    exact settles_ok s
  · rw [Object.section?, if_pos (Nat.le_of_not_lt hi)]
    exact reads_malformed _

theorem reads_content (o : Object) (s : Section) : Reads (o.content s) := reads_slice _ _ _

/-! ## Layout -/

theorem reads_span (o : Object) (s : Section) (cursor : UInt64) : Reads (BlockLayout.span o s cursor) := by
  unfold BlockLayout.span
  dsimp only
  refine reads_check _ _ fun hpower => ?_
  have hpower : Align.isPower s.alignment = true := by simpa using hpower
  have hplace : Reads do
      let start ← orFault .outOfBounds (← Align.up cursor s.alignment)
      let stop ← orFault .outOfBounds (Word.add? start s.size)
      return (start, stop) := by
    rw [Align.up, if_pos hpower, Checked.ok_bind]
    exact (reads_orFault _ _).bind fun _ _ => (reads_orFault _ _).bind fun _ _ => settles_ok _
  exact Settles.ite (fun _ => (reads_content o s).bind fun _ _ => hplace) fun _ => hplace

theorem reads_pack (ho : o.Inside) (wanted : Option Nat) (is : List Nat) (l : BlockLayout) :
    Reads (BlockLayout.pack o wanted is l) := by
  induction is generalizing l with
  | nil => exact settles_ok _
  | cons i is ih =>
    rw [BlockLayout.pack]
    refine (reads_section ho i).bind fun s _ => Settles.ite (fun _ => ih l) fun _ => ?_
    exact (reads_span o s _).bind fun _ _ => ih _

theorem reads_layout (ho : o.Inside) (wanted : Option Nat) : Reads (o.layout wanted) := reads_pack ho wanted _ _

/-! ## Symbols -/

theorem reads_firstOfType (ho : o.Inside) (type : Nat) (is : List Nat) : Reads (o.firstOfType type is) := by
  induction is with
  | nil => exact settles_ok _
  | cons i is ih =>
    rw [Object.firstOfType]
    exact (reads_section ho i).bind fun s _ => Settles.ite (fun _ => settles_ok _) fun _ => ih

theorem reads_namesOf (ho : o.Inside) (s : Section) : Reads (o.namesOf s) := by
  unfold Object.namesOf
  refine Settles.ite (fun _ => reads_malformed _) fun _ => ?_
  have hsection := reads_section ho s.link
  split
  · exact reads_malformed _
  · exact hsection

theorem reads_symbolTable (ho : o.Inside) : Reads o.symbolTable := by
  unfold Object.symbolTable
  dsimp only
  refine (reads_firstOfType ho _ _).bind fun s _ => ?_
  cases s with
  | none => exact settles_ok _
  | some s =>
    refine reads_check _ _ fun _ => (reads_namesOf ho s).bind fun names _ => ?_
    exact (reads_content o s).bind fun _ _ => (reads_content o names).bind fun _ _ => settles_ok _

/-- A symbol table lies in the image. -/
theorem size_symbolTable (h : o.symbolTable = .ok (some t)) : t.table.size ≤ o.bytes.size := by
  unfold Object.symbolTable at h
  obtain ⟨s, -, h⟩ := Checked.bind_eq_ok.1 h
  cases s with
  | none => cases h
  | some s =>
    simp only [check_eq_ok, Checked.bind_eq_ok] at h
    obtain ⟨-, names, -, table, htable, strings, -, ht⟩ := h
    cases ht
    obtain ⟨hle, hsize⟩ := slice_eq_ok htable
    show table.size ≤ o.bytes.size
    omega

/-- An entry all of whose bytes are there is read. -/
theorem Symbol.read_isOk (h : i + 24 ≤ b.size) : ∃ x, Symbol.read b i = .ok x := by
  obtain ⟨offset, hoffset, -⟩ := le_isOk (ε := Malformed) (b := b) (i := i) (n := 4) (by omega)
  have hinfo := byteAt_eq_ok (ε := Malformed) (b := b) (i := i + 4) (by omega)
  obtain ⟨index, hindex, -⟩ := le_isOk (ε := Malformed) (b := b) (i := i + 6) (n := 2) (by omega)
  obtain ⟨value, hvalue⟩ := le64_isOk (b := b) (i := i + 8) (by omega)
  refine ⟨⟨offset, ⟨UInt8.ofNat b[i + 4].toNat⟩, index, value⟩, ?_⟩
  simp only [Symbol.read, hoffset, hinfo, hindex, hvalue, Checked.ok_bind, Checked.pure_eq]

/-- All symbols of a table are read: its size is a bound for each of its entries. -/
theorem SymbolTable.symbols_isOk (t : SymbolTable) : ∃ xs, t.symbols = .ok xs := by
  refine Checked.mapM_isOk fun i hi => ?_
  have hi : i < t.table.size / symbolSize := List.mem_range.1 (List.mem_of_mem_drop hi)
  have hmul : (i + 1) * 24 ≤ t.table.size := Nat.mul_le_of_le_div 24 (i + 1) _ hi
  exact Symbol.read_isOk (by unfold symbolSize; omega)

theorem reads_symbols (t : SymbolTable) : Reads t.symbols := by
  obtain ⟨xs, hxs⟩ := t.symbols_isOk
  rw [hxs]
  exact settles_ok xs

theorem length_symbols {xs : List Symbol} (h : t.symbols = .ok xs) : xs.length ≤ t.table.size := by
  have hlength := Checked.length_mapM h
  have hdiv := Nat.div_le_self t.table.size symbolSize
  rw [List.length_drop, List.length_range] at hlength
  omega

theorem reads_name (t : SymbolTable) (x : Symbol) : Reads (t.name x) := by
  unfold SymbolTable.name
  dsimp only
  exact reads_check _ _ fun _ => (reads_orFault _ _).bind fun _ _ => settles_ok _

theorem reads_findInit (ho : o.Inside) (t : SymbolTable) (xs : List Symbol) : Reads (findInit o t xs) := by
  induction xs with
  | nil => exact settles_ok _
  | cons x xs ih =>
    rw [findInit]
    refine Settles.ite (fun _ => ih) fun _ => (reads_name t x).bind fun name _ => ?_
    refine Settles.ite (fun _ => ih) fun _ => (reads_section ho _).bind fun s _ => ?_
    exact Settles.ite (fun _ => settles_ok _) fun _ => ih

/-! ## A whole load -/

/-- The faults of an object that is malformed, or that imports what there is not. -/
def IsReadFault (f : Fault) : Prop := f = .badArgs ∨ f = .noSuch

/-- The faults of a load. -/
def IsLoadFault (f : Fault) : Prop := f = .badArgs ∨ f = .noSuch ∨ f = .overflow ∨ f = .tooMany

theorem settles_toChecked {r : Read α} (h : Reads r) : Settles IsReadFault r.toChecked := by
  cases r with
  | ok a => exact settles_ok a
  | error e =>
    cases e with
    | fault e => exact settles_fault.2 (.inl rfl)
    | halt e => exact absurd h (Checked.not_settles_halt e)

/-- A read as a step of a load. -/
theorem Reads.lift_bind {F : Fault → Prop} {r : Read α} {f : α → Action σ β} {st : σ} (h : Reads r)
    (hF : ∀ f, IsReadFault f → F f) (hok : ∀ a, r = .ok a → (f a).Ends st fun r _ => Settles F r) :
    (lift r.toChecked >>= f).Ends st fun r _ => Settles F r := by
  refine Ends.lift_bind (fun a ha => hok a (toChecked_eq_ok.1 ha)) fun e he => ?_
  have hsettles := (settles_toChecked h).mono hF
  rw [he] at hsettles
  exact hsettles.error

/-- A name is found, or there is no such name, or it is none. -/
theorem settles_lookupBytes (exports : ExportTable) (name : Bytes) (st : σ) :
    (exports.lookupBytes name).Ends st fun r _ => Settles IsReadFault r := by
  unfold ExportTable.lookupBytes ExportTable.lookup
  rw [Action.ends_bind]
  cases String.fromUTF8? ⟨name⟩ with
  | none => exact settles_fault.2 (.inl rfl)
  | some text =>
    rw [Action.ends_some, Action.goes_ok, Action.ends_bind]
    cases exports.find? text with
    | none => exact settles_fault.2 (.inr rfl)
    | some e => exact settles_ok _

/-- Imports are found or not, and there are no more of them than symbols. -/
theorem settles_resolve (image : String) (exports : ExportTable) (t : SymbolTable) {xs : List Symbol} {found : Nat}
    (h : found + xs.length < 2 ^ 64) (st : σ) :
    (resolve image exports t xs found).Ends st fun r _ => Settles IsReadFault r := by
  induction xs generalizing found st with
  | nil => exact settles_ok _
  | cons x xs ih =>
    rw [List.length_cons] at h
    have hbound : found + xs.length < 2 ^ 64 := by omega
    have hskip := ih hbound st
    rw [resolve, Action.ends_ite]
    split
    · exact hskip
    · refine (reads_name t x).lift_bind (fun _ => id) fun name _ => ?_
      rw [Action.ends_ite]
      split
      · exact hskip
      · rw [Action.ends_bind, Action.ends_attempt]
        refine (settles_lookupBytes exports name st).mono fun r u hr => ?_
        cases r with
        | ok addr =>
          rw [Action.attempted_ok, Action.goes_ok, Action.ends_bind, Action.ends_note, Action.goes_ok, Action.ends_bind,
            Action.ends_lift, Count.add_eq_ok.2 ⟨by omega, rfl⟩, Action.goes_ok]
          exact ih (by omega) u
        | error e =>
          cases e with
          | halt e => exact absurd hr (Checked.not_settles_halt e)
          | fault f =>
            rw [Action.attempted_fault, Action.goes_ok]
            rcases settles_fault.1 hr with rfl | rfl
            · exact settles_fault.2 (.inl rfl)
            · dsimp only
              rw [Action.ends_ite]
              split
              · exact settles_fault.2 (.inr rfl)
              · exact ih (by omega) u

/-- Reading an image ends with what was found in it, or with one of two faults. -/
theorem settles_survey {image : Image} (h : image.bytes.size < 2 ^ 64) (exports : ExportTable) (st : σ) :
    (survey image exports : Action σ Survey).Ends st fun r _ => Settles IsReadFault r := by
  unfold survey
  refine (reads_object _).lift_bind (fun _ => id) fun o hread => ?_
  have ho := inside_read h hread
  refine (reads_layout ho none).lift_bind (fun _ => id) fun layout _ => ?_
  refine (reads_symbolTable ho).lift_bind (fun _ => id) fun table htable => ?_
  cases table with
  | none => exact settles_ok _
  | some t =>
    refine (reads_symbols t).lift_bind (fun _ => id) fun symbols hsymbols => ?_
    have hlength : 0 + symbols.length < 2 ^ 64 := by
      have := length_symbols hsymbols
      have := size_symbolTable htable
      have := ho.image
      omega
    refine (settles_resolve image.name exports t hlength st).bind fun r u hr => ?_
    cases r with
    | error e => exact hr.error
    | ok imports =>
      rw [Action.goes_ok]
      exact (reads_findInit ho t symbols).lift_bind (fun _ => id) fun init _ => settles_ok _

/-- Taking the addresses ends with a module, or the blocks do not fit, or the entry point is at no address. -/
theorem settles_place {w : Windows} (hw : w.Sound) (image : String) {v : Survey} (hv : v.Sound) :
    (place image v).Ends w fun r _ => Settles IsLoadFault r := by
  refine (place_ends hw image v).mono fun r t hplace => ?_
  obtain ⟨-, rfl, -⟩ | ⟨-, rfl | rfl, -⟩ := hplace
  · obtain ⟨-, hout⟩ | ⟨-, m, hout⟩ := outcome_cases hv w
    · rw [hout]
      exact settles_fault.2 (.inl rfl)
    · rw [hout]
      exact settles_ok m
  · exact settles_fault.2 (.inr (.inr (.inl rfl)))
  · exact settles_fault.2 (.inr (.inr (.inr rfl)))

/-- **A load** ends with a module or with one of four faults; it never halts. -/
theorem settles_load {w : Windows} (hw : w.Sound) {image : Image} (h : image.bytes.size < 2 ^ 64)
    (exports : ExportTable) : Settles IsLoadFault (load image exports w).result := by
  have hsurvey := (settles_survey h exports w).and (survey_ends image exports w)
  have hload : (survey image exports >>= place image.name).Ends w fun r _ => Settles IsLoadFault r := by
    refine hsurvey.bind fun r t hends => ?_
    obtain ⟨hr, rfl, hsound⟩ := hends
    cases r with
    | error e => exact (hr.mono fun f hf => hf.imp_right .inl).error
    | ok v =>
      rw [Action.goes_ok]
      exact settles_place hw image.name (hsound v rfl)
  rw [load_eq]
  exact hload

/-! ## Hostile images -/

/-- Probing accepts an image whose header can be read, and rejects one that is found malformed. -/
theorem probe_cases (image : Image) : (probe image = true ∧ ∃ o, Object.read image.bytes = .ok o) ∨
    (probe image = false ∧ ∃ e, Object.read image.bytes = .error (.fault e)) := by
  have hreads := reads_object image.bytes
  rw [probe]
  cases hread : Object.read image.bytes with
  | ok o => exact .inl ⟨rfl, o, rfl⟩
  | error e =>
    rw [hread] at hreads
    obtain ⟨f, rfl⟩ := hreads.exists_fault
    exact .inr ⟨rfl, f, rfl⟩

/-- An image that probing rejects is an invalid argument, and no address is taken for it. -/
theorem load_of_rejected {image : Image} (h : probe image = false) (exports : ExportTable) (w : Windows) :
    (load image exports).Ends w fun r t => r = .error (.fault .badArgs) ∧ t = w := by
  obtain ⟨haccepted, -⟩ | ⟨-, e, he⟩ := probe_cases image
  · rw [haccepted] at h
    cases h
  · rw [load, Action.ends_bind, Action.ends_lift, he]
    exact ⟨rfl, rfl⟩

/-- What becomes of an image, whatever its bytes: neither probing nor loading halts. -/
structure Withstands (image : Image) (exports : ExportTable) (w : Windows) : Prop where
  /-- Reading the file header ends with an object, which is what probing accepts, or finds the image malformed. -/
  probed : (probe image = true ∧ ∃ o, Object.read image.bytes = .ok o) ∨
    (probe image = false ∧ ∃ e, Object.read image.bytes = .error (.fault e))
  loaded : (∃ m, (load image exports w).result = .ok m) ∨
    ∃ f ∈ [Fault.badArgs, .noSuch, .overflow, .tooMany], (load image exports w).result = .error (.fault f)
  rejected : probe image = false →
    (load image exports w).result = .error (.fault .badArgs) ∧ (load image exports w).state = w

/-- **No image makes a load halt**, in all windows that there can be. Its bytes lie in memory, so there are fewer than
`2 ^ 64` of them. -/
theorem withstands_load {w : Windows} (hw : w.Reachable) {image : Image} (h : image.bytes.size < 2 ^ 64)
    (exports : ExportTable) : Withstands image exports w where
  probed := probe_cases image
  loaded := by
    have hload := settles_load hw.sound h exports
    cases hr : (load image exports w).result with
    | ok m => exact .inl ⟨m, rfl⟩
    | error e =>
      rw [hr] at hload
      obtain ⟨f, rfl⟩ := hload.exists_fault
      refine .inr ⟨f, ?_, rfl⟩
      obtain rfl | rfl | rfl | rfl := settles_fault.1 hload <;> simp
  rejected hno := load_of_rejected hno exports w

/-- The largest value an entry point can have, and an image without a byte. -/
theorem withstands_farInit : Windows.Reachable .kernel ∧ (objectWithInit (2 ^ 64 - 1)).bytes.size < 2 ^ 64 ∧
    probe (objectWithInit (2 ^ 64 - 1)) = true ∧ Withstands (objectWithInit (2 ^ 64 - 1)) ⟨[]⟩ .kernel ∧
    probe ⟨"empty", #[]⟩ = false ∧ Withstands ⟨"empty", #[]⟩ ⟨[]⟩ .kernel :=
  have hsize : (objectWithInit (2 ^ 64 - 1)).bytes.size < 2 ^ 64 := by decide +kernel
  ⟨.kernel, hsize, by decide +kernel, withstands_load .kernel hsize ⟨[]⟩, by decide +kernel,
    withstands_load .kernel (by decide) ⟨[]⟩⟩

end Keel.Elf
