import Keel.Proofs.Rounding
import Keel.Proofs.Module.Ranges
import Keel.Proofs.Module.Elf.Accepted

/-!
# Where sections land

A section is placed at the first multiple of its alignment past the section before it (`span_eq_ok_iff`), so its offset
in its block is a multiple of its alignment (`Object.layout_dvd`). The block itself starts where the window's cursor
stands, which is a page boundary and no more (`grant_pages`). So a section lands at its alignment exactly where the
alignment divides the start of its block (`lands_iff`). Where no section asks for more than a page all of them do; past
a page it depends on what was loaded before (**`aligned_iff`**), and the second of two loads of one object can miss it
(`load_again`).
-/

namespace Keel.Elf

open Keel.Align (roundUp)

variable {o : Object} {s : Section} {i : Nat}

/-! ## Offsets -/

/-- The offset of a section is a multiple of its alignment, which is a power of two. -/
theorem BlockLayout.pack_dvd {is : List Nat} {l m : BlockLayout} (h : pack o (some i) is l = .ok m) (hnodup : is.Nodup)
    (hi : i ∈ is) (hs : o.section? i = .ok s) (halloc : s.flags.isAllocated = true) {offset : UInt64}
    (hoffset : m.offset = some offset) : Align.isPower s.alignment = true ∧ s.alignment.toNat ∣ offset.toNat := by
  induction is generalizing l with
  | nil => cases hi
  | cons j is ih =>
    obtain ⟨hj, hnodup⟩ := List.nodup_cons.1 hnodup
    obtain ⟨t, ht, hcases⟩ := pack_cons_eq_ok.1 h
    cases List.mem_cons.1 hi with
    | inl heq =>
      subst heq
      obtain rfl : s = t := Except.ok.inj (hs.symm.trans ht)
      obtain ⟨hno, -⟩ | ⟨-, start, stop, hspan, hrest⟩ := hcases
      · simp [halloc] at hno
      · rw [offset_pack_of_notMem hrest hj, offset_extend, if_pos rfl] at hoffset
        obtain rfl := Option.some.inj hoffset
        obtain ⟨hpower, -, hceil, -⟩ := span_eq_ok_iff.1 hspan
        exact ⟨hpower, Align.dvd_of_ceil? hpower hceil⟩
    | inr hmem =>
      obtain ⟨-, hrest⟩ | ⟨-, start, stop, -, hrest⟩ := hcases
      · exact ih hrest hnodup hmem
      · exact ih hrest hnodup hmem

theorem Object.layout_dvd {l : BlockLayout} (h : o.layout (some i) = .ok l) (hs : o.section? i = .ok s)
    (halloc : s.flags.isAllocated = true) {offset : UInt64} (hoffset : l.offset = some offset) :
    Align.isPower s.alignment = true ∧ s.alignment.toNat ∣ offset.toNat :=
  BlockLayout.pack_dvd h List.nodup_range (List.mem_range.2 (Object.section?_lt hs)) hs halloc hoffset

/-! ## Blocks -/

section Blocks

variable {w : Window} {size : UInt64}

/-- A range starts at a page boundary. -/
theorem grant_pages (hw : w.Sound) (size : UInt64) : (grant w size).start.raw.toNat % 4096 = 0 := by
  unfold grant
  split
  · rfl
  · exact Window.Sound.next_pages hw

/-- A range ends inside the address space. -/
theorem grant_stop (hw : w.Sound) (hroom : roundUp size.toNat ≤ w.left) :
    (grant w size).start.raw.toNat + size.toNat < 2 ^ 64 := by
  unfold grant
  split
  · exact (Nat.zero_add _).symm ▸ size.toNat_lt
  · have hnext := Window.Sound.toNat_next hw
    have hround := Align.le_roundUp size.toNat
    have hends := hw.ends
    have hused := hw.used_le
    unfold Window.left at hroom
    show w.next.raw.toNat + size.toNat < 2 ^ 64
    omega

end Blocks

/-- The range of the block that a section goes to. -/
def blockOf (m : LoadedModule) (s : Section) : AddressRange := if s.isText then m.text else m.data

/-- The section at index `i` has an address in a placed module, the start of its block and its offset in it, and the
address is a multiple of its alignment. -/
def Lands (o : Object) (m : LoadedModule) (i : Nat) (s : Section) : Prop :=
  ∃ l offset addr, o.layout (some i) = .ok l ∧ l.offset = some offset ∧ (blockOf m s).start.add? offset = some addr ∧
    s.alignment.toNat ∣ addr.raw.toNat

/-- Every section that takes up memory lands at its alignment. -/
def Aligned (o : Object) (m : LoadedModule) : Prop :=
  ∀ i s, o.section? i = .ok s → s.flags.isAllocated = true → Lands o m i s

/-! ## Loads -/

section Loads

variable {w : Windows} {image : Image} {exports : ExportTable} {m : LoadedModule}

/-- What an accepted load has read and where it has put it. -/
theorem load_eq_ok (hw : w.Reachable) (h : (load image exports w).result = .ok m) :
    ∃ v : Survey, Object.read image.bytes = .ok v.object ∧ v.Sound ∧ v.Fits w ∧
      m.text = grant w.text v.layout.text ∧ m.data = grant w.data v.layout.data := by
  obtain ⟨v, hv, hsound, hfits, hr, -⟩ | ⟨-, ⟨e, he⟩, -⟩ := load_ends hw.sound image exports
  · obtain ⟨htext, hdata⟩ := Windows.Session.outcome_eq_ok (hr.symm.trans h)
    exact ⟨v, (survey_found image exports w v hv).object, hsound, hfits, htext, hdata⟩
  · cases he.symm.trans h

/-- **A section of a load that is accepted has an address, and lands at its alignment exactly where its alignment
divides the start of its block.** -/
theorem lands_iff (hw : w.Reachable) (h : (load image exports w).result = .ok m)
    (ho : Object.read image.bytes = .ok o) (hs : o.section? i = .ok s) (halloc : s.flags.isAllocated = true) :
    Align.isPower s.alignment = true ∧ (blockOf m s).start.raw.toNat % 4096 = 0 ∧
      (Lands o m i s ↔ s.alignment.toNat ∣ (blockOf m s).start.raw.toNat) := by
  obtain ⟨v, hv, hsound, hfits, htext, hdata⟩ := load_eq_ok hw h
  obtain rfl : o = v.object := Except.ok.inj (ho.symm.trans hv)
  obtain ⟨l, offset, hl, -, hoffset, hinside⟩ := Object.layout_offset hsound.layout hs halloc
  obtain ⟨hpower, hdvd⟩ := Object.layout_dvd hl hs halloc hoffset
  have hblock : (blockOf m s).start.raw.toNat % 4096 = 0 ∧
      (blockOf m s).start.raw.toNat + (v.layout.stop s).toNat < 2 ^ 64 := by
    unfold blockOf BlockLayout.stop
    split
    · exact htext ▸ ⟨grant_pages hw.sound.text _, grant_stop hw.sound.text hfits.text⟩
    · exact hdata ▸ ⟨grant_pages hw.sound.data _, grant_stop hw.sound.data hfits.data⟩
  obtain ⟨hpages, hstop⟩ := hblock
  refine ⟨hpower, hpages, ?_⟩
  constructor
  · rintro ⟨l', offset', addr, hl', hoffset', haddr, hlands⟩
    cases hl.symm.trans hl'
    cases hoffset.symm.trans hoffset'
    rw [← Address.add?_eq_some.1 haddr] at hlands
    exact (Nat.dvd_add_left hdvd).1 hlands
  · intro hstart
    cases haddr : (blockOf m s).start.add? offset with
    | none =>
      have := Address.add?_eq_none.1 haddr
      omega
    | some addr =>
      refine ⟨l, offset, addr, hl, hoffset, haddr, ?_⟩
      rw [← Address.add?_eq_some.1 haddr]
      exact Nat.dvd_add hstart hdvd

/-- **The sections of an accepted load all land at their alignments exactly if every alignment of more than a page
divides the start of the section's block.** -/
theorem aligned_iff (hw : w.Reachable) (h : (load image exports w).result = .ok m) :
    ∃ o, Object.read image.bytes = .ok o ∧
      (Aligned o m ↔ ∀ i s, o.section? i = .ok s → s.flags.isAllocated = true → 4096 < s.alignment.toNat →
        s.alignment.toNat ∣ (blockOf m s).start.raw.toNat) := by
  obtain ⟨v, ho, -⟩ := load_eq_ok hw h
  refine ⟨v.object, ho, ?_⟩
  constructor
  · intro haligned i s hs halloc _
    obtain ⟨-, -, hiff⟩ := lands_iff hw h ho hs halloc
    exact hiff.1 (haligned i s hs halloc)
  · intro hlarge i s hs halloc
    obtain ⟨hpower, hpages, hiff⟩ := lands_iff hw h ho hs halloc
    refine hiff.2 ?_
    by_cases hpage : s.alignment.toNat ≤ 4096
    · exact Align.dvd_of_pages hpower hpage hpages
    · exact hlarge i s hs halloc (Nat.lt_of_not_le hpage)

end Loads

/-! ## An object that is loaded twice -/

/-- An object with four bytes of code that ask for two pages of alignment. -/
def twoPageObject : Image :=
  let file := [0x7f, 0x45, 0x4c, 0x46, 2, 1, 1, 0] ++ littleEndian 8 0 ++ littleEndian 2 1 ++ littleEndian 2 62 ++
    littleEndian 4 1 ++ littleEndian 16 0 ++ littleEndian 8 72 ++ littleEndian 4 0 ++ littleEndian 2 64 ++
    littleEndian 4 0 ++ littleEndian 2 64 ++ littleEndian 2 2 ++ littleEndian 2 0
  ⟨"m.ko", (file ++ littleEndian 8 0xcccccccc ++ headerBytes 0 0 0 0 0 0 0 ++ headerBytes 1 6 64 4 0 0x2000 0).toArray⟩

/-- A module of four bytes of code at `start`. -/
def codeAt (start : UInt64) : LoadedModule := ⟨⟨⟨start⟩, 4⟩, .empty, none, 0⟩

theorem load_twoPageObject : (load twoPageObject ⟨[]⟩ .kernel).result = .ok (codeAt 0xffffffff90000000) := by
  decide +kernel

/-- The kernel's windows take the object, and its code lands where it asks to: their base is a multiple of two pages. -/
theorem aligned_twoPageObject : Windows.Reachable .kernel ∧
    (load twoPageObject ⟨[]⟩ .kernel).result = .ok (codeAt 0xffffffff90000000) ∧
    ∃ o, Object.read twoPageObject.bytes = .ok o ∧
      (Aligned o (codeAt 0xffffffff90000000) ↔
        ∀ i s, o.section? i = .ok s → s.flags.isAllocated = true → 4096 < s.alignment.toNat →
          s.alignment.toNat ∣ (blockOf (codeAt 0xffffffff90000000) s).start.raw.toNat) :=
  ⟨.kernel, load_twoPageObject, aligned_iff .kernel load_twoPageObject⟩

/-- The windows after the object has been loaded once. -/
def loadedOnce : Windows := (load twoPageObject ⟨[]⟩ .kernel).state

/-- The second load of the object starts at the next page. -/
theorem load_again : (load twoPageObject ⟨[]⟩ loadedOnce).result = .ok (codeAt 0xffffffff90001000) := by decide +kernel

/-- Whether a section of an image is code that asks for an alignment of `a`. -/
def asksFor (image : Image) (i : Nat) (a : UInt64) : Bool :=
  match Object.read image.bytes with
  | .error _ => false
  | .ok o =>
    match o.section? i with
    | .error _ => false
    | .ok s => s.isText && s.alignment == a

theorem of_asksFor {image : Image} {a : UInt64} (h : asksFor image i a = true) :
    ∃ o s, Object.read image.bytes = .ok o ∧ o.section? i = .ok s ∧ s.isText = true ∧ s.alignment = a := by
  unfold asksFor at h
  split at h
  · cases h
  · rename_i o ho
    split at h
    · cases h
    · rename_i s hs
      simp only [Bool.and_eq_true, beq_iff_eq] at h
      exact ⟨o, s, ho, hs, h.1, h.2⟩

/-- Loaded a second time, the object's code does not land where it asks to. -/
theorem not_aligned_again : ¬ ∀ w : Windows, w.Reachable → ∀ (image : Image) (exports : ExportTable) m o,
    (load image exports w).result = .ok m → Object.read image.bytes = .ok o → Aligned o m := by
  intro haligned
  have hasks : asksFor twoPageObject 1 0x2000 = true := by decide +kernel
  obtain ⟨o, s, ho, hs, htext, halign⟩ := of_asksFor hasks
  have hreach : loadedOnce.Reachable := .load .kernel twoPageObject ⟨[]⟩
  have halloc := isAllocated_of_isText htext
  obtain ⟨-, -, hiff⟩ := lands_iff hreach load_again ho hs halloc
  have hdvd := hiff.1 (haligned _ hreach _ _ _ o load_again ho 1 s hs halloc)
  rw [halign, blockOf, if_pos htext] at hdvd
  exact absurd hdvd (by decide)

end Keel.Elf
