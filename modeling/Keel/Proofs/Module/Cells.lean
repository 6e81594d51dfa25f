import Keel.Module.Cell
import Keel.Proofs.Memory

/-!
# What a cell holds

A record that is written is read back. Its name comes back from the words it was packed into (`nameOf?_pack`), what is
told of the module from all the words (`decode?_encode`), and the link from its own, if a word can tell it
(`linkOf_linkWord`): so a cell holds what was written last (`read_write`), and a new link leaves the rest of it
(`read_relink`). Writing alters the cell only (`alters_write`, `alters_relink`), and a cell that is not altered holds the
same record (`read_congr`), also when texts are added to the table (`read_mono`).
-/

namespace Keel.Cell

open Keel.Memory (Alters block ofBytes wordBytes)

variable {texts texts' : List String} {m m' : Memory} {p : Ptr} {i i' : ModuleInfo} {r : Record} {S : Set Ptr}
  {next : Option RecordId} {linked : Bool}

/-! ## Names -/

theorem length_pack (n : Nat) (bs : List UInt8) : (pack n bs).length = n := by
  induction n generalizing bs with
  | zero => rfl
  | succ n ih => rw [pack, List.length_cons, ih]

/-- Packed bytes come back with the zeros behind them. -/
theorem flatMap_pack {n : Nat} {bs : List UInt8} (h : bs.length ≤ 8 * n) :
    (pack n bs).flatMap wordBytes = bs ++ List.replicate (8 * n - bs.length) 0 := by
  induction n generalizing bs with
  | zero =>
    obtain rfl := List.length_eq_zero_iff.1 (Nat.le_zero.1 h)
    rfl
  | succ n ih =>
    have hword : ((bs.take 8).rightpad 8 (0 : UInt8)).length = 8 := by
      simp only [List.rightpad, List.length_append, List.length_replicate, List.length_take]
      omega
    rw [pack, List.flatMap_cons, Memory.wordBytes_ofBytes hword, ih (by rw [List.length_drop]; omega), List.rightpad,
      List.length_take, List.length_drop]
    by_cases hlen : 8 ≤ bs.length
    · rw [Nat.min_eq_left hlen, Nat.sub_self, List.replicate_zero, List.append_nil, ← List.append_assoc,
        List.take_append_drop]
      congr 2
      omega
    · have hle : bs.length ≤ 8 := by omega
      rw [List.take_of_length_le hle, List.drop_of_length_le hle, Nat.min_eq_right hle, List.nil_append,
        List.append_assoc, List.replicate_append_replicate]
      congr 2
      omega

/-- **A name** is what its words spell. -/
theorem nameOf?_pack (n : ModuleName) :
    nameOf? (pack nameWords n.text.toUTF8.data.toList) n.text.utf8ByteSize = some n := by
  have hsize : n.text.toUTF8.data.toList.length = n.text.utf8ByteSize := by rw [Array.length_toList]; rfl
  have hbytes : ((pack nameWords n.text.toUTF8.data.toList).flatMap wordBytes).take n.text.utf8ByteSize =
      n.text.toUTF8.data.toList := by
    rw [flatMap_pack (by rw [hsize]; exact n.fits), ← hsize, List.take_left]
  have htext : String.fromUTF8? ⟨n.text.toUTF8.data⟩ = some n.text := dif_pos n.text.isValidUTF8
  rw [nameOf?, hbytes, Array.toArray_toList, htext]
  exact dif_pos ⟨n.nonempty, n.fits⟩

/-! ## Texts -/

theorem mem_intern (texts : List String) (text : String) : text ∈ intern texts text := by
  unfold intern
  split
  · assumption
  · simp

theorem prefix_intern (texts : List String) (text : String) : texts <+: intern texts text := by
  unfold intern
  split
  · exact List.prefix_rfl
  · exact List.prefix_append _ _

/-! ## Modules -/

theorem length_encode (texts : List String) (i : ModuleInfo) : (encode texts i).length = infoWords := by
  rw [encode, List.length_append, length_pack]
  rfl

/-- What the words of a module tell: a word has room for so many imports only, and for so many texts. -/
theorem decode?_encode {loader : String} (h : texts[texts.idxOf i.loader % 2 ^ 64]? = some loader) :
    decode? texts (encode texts i) =
      some ⟨i.name, loader, { i.module with imports := i.module.imports % 2 ^ 64 }⟩ := by
  have hlen := length_pack nameWords i.name.text.toUTF8.data.toList
  have hsize : i.name.text.utf8ByteSize % 2 ^ 64 = i.name.text.utf8ByteSize :=
    Nat.mod_eq_of_lt (Nat.lt_of_le_of_lt i.name.fits (by decide))
  have hentry : (if (if i.module.entry.isSome then (1 : UInt64) else 0) = 0 then none
      else some (⟨(i.module.entry.getD .zero).raw⟩ : VirtAddr)) = i.module.entry := by
    cases i.module.entry <;> rfl
  unfold decode? encode
  rw [List.drop_left' hlen]
  dsimp only
  rw [List.take_left' hlen, UInt64.toNat_ofNat', hsize, nameOf?_pack, UInt64.toNat_ofNat', h, UInt64.toNat_ofNat', hentry]
  rfl

/-- What is told of a module whose loader has a place in the table. -/
theorem exists_decode?_encode (h : i.loader ∈ texts) : ∃ loader, decode? texts (encode texts i) =
    some ⟨i.name, loader, { i.module with imports := i.module.imports % 2 ^ 64 }⟩ := by
  have hlt : texts.idxOf i.loader % 2 ^ 64 < texts.length :=
    Nat.lt_of_le_of_lt (Nat.mod_le _ _) (List.idxOf_lt_length_iff.2 h)
  exact ⟨texts[texts.idxOf i.loader % 2 ^ 64], decode?_encode (List.getElem?_eq_getElem hlt)⟩

/-- **Nothing of a module is lost** that has no more imports than a word counts, if no more texts are in the table. -/
theorem decode?_encode_self (h : i.loader ∈ texts) (htexts : texts.length ≤ 2 ^ 64)
    (himports : i.module.imports < 2 ^ 64) : decode? texts (encode texts i) = some i := by
  have hlt := List.idxOf_lt_length_iff.2 h
  have hloader : texts[texts.idxOf i.loader % 2 ^ 64]? = some i.loader := by
    rw [Nat.mod_eq_of_lt (Nat.lt_of_lt_of_le hlt htexts), List.getElem?_eq_getElem hlt, List.getElem_idxOf]
  rw [decode?_encode hloader, Nat.mod_eq_of_lt himports]

/-! ## Links -/

/-- A link that a word can tell. -/
def Linkable : Option RecordId → Prop
  | none => True
  | some (.stored p) => p ≠ 0 ∧ p.toNat % 2 = 0
  | some (.owned n) => 2 * n + 1 < 2 ^ 64

theorem linkOf_linkWord (h : Linkable next) : linkOf (linkWord next) = next := by
  match next, h with
  | none, _ => rfl
  | some (.stored p), h =>
    obtain ⟨hp, heven⟩ := h
    rw [linkWord, linkOf, if_neg hp, if_neg (by omega)]
  | some (.owned n), h =>
    have hn : (UInt64.ofNat (2 * n + 1)).toNat = 2 * n + 1 := by rw [UInt64.toNat_ofNat', Nat.mod_eq_of_lt h]
    have hne : UInt64.ofNat (2 * n + 1) ≠ 0 := fun he => by
      rw [he] at hn
      cases hn
    rw [linkWord, linkOf, if_neg hne, hn, if_pos (by omega)]
    congr 2
    omega

/-! ## Cells -/

/-- The bytes of a cell. -/
def bytes (p : Ptr) : Set Ptr := block p (8 * words)

theorem info_subset (p : Ptr) : block p (8 * infoWords) ⊆ bytes p := Memory.block_mono (by decide)

theorem link_subset (p : Ptr) : block (p + linkField) 8 ⊆ bytes p := Memory.block_add_subset (j := 128) (by decide)

theorem mark_subset (p : Ptr) : block (p + markField) 8 ⊆ bytes p := Memory.block_add_subset (j := 136) (by decide)

/-- **A cell that is not altered** holds the same record. -/
theorem read_congr (h : Alters S m m') (hd : Disjoint (bytes p) S) : read texts m' p = read texts m p := by
  unfold read
  rw [h.wordsAt (hd.mono_left (info_subset p)), h.word (hd.mono_left (link_subset p)),
    h.word (hd.mono_left (mark_subset p))]

/-- Texts that are added to the table change no record. -/
theorem read_mono (h : read texts m p = some r) (ht : texts <+: texts') : read texts' m p = some r := by
  obtain ⟨more, rfl⟩ := ht
  simp only [read, Option.bind_eq_bind, Option.bind_eq_some_iff] at h ⊢
  obtain ⟨i, hi, hr⟩ := h
  refine ⟨i, ?_, hr⟩
  unfold decode? at hi ⊢
  split at hi
  · simp only [Option.bind_eq_bind, Option.bind_eq_some_iff] at hi ⊢
    obtain ⟨name, hname, loader, hloader, hi⟩ := hi
    refine ⟨name, hname, loader, ?_, hi⟩
    rw [List.getElem?_append_left (List.getElem?_eq_some_iff.1 hloader).1, hloader]
  · cases hi

theorem alters_relink (m : Memory) (p : Ptr) (next : Option RecordId) (linked : Bool) :
    Alters (block (p + linkField) 16) m (relink m p next linked) :=
  Memory.alters_setWords m (p + linkField) [linkWord next, if linked then 1 else 0]

theorem relink_subset (p : Ptr) : block (p + linkField) 16 ⊆ bytes p := Memory.block_add_subset (j := 128) (by decide)

/-- **A new link** leaves what is told of the module, and is read as its word can tell it. -/
theorem read_relink (h : read texts m p = some r) (next : Option RecordId) (linked : Bool) :
    read texts (relink m p next linked) p = some { r with next := linkOf (linkWord next), linked } := by
  simp only [read, Option.bind_eq_bind, Option.bind_eq_some_iff] at h ⊢
  obtain ⟨i, hi, hr⟩ := h
  obtain rfl := Option.some.inj hr
  have hinfo : (relink m p next linked).wordsAt p infoWords = m.wordsAt p infoWords := by
    refine (alters_relink m p next linked).wordsAt ?_
    have hd := Memory.disjoint_block_add (a := p) (j := 0) (n := 8 * infoWords) (k := 128) (l := 16) (by decide)
      (by decide)
    rwa [show p + UInt64.ofNat 0 = p from UInt64.add_zero p] at hd
  have hword : ∀ j (hj : j < 2), (relink m p next linked).word (p + linkField + UInt64.ofNat (8 * j)) =
      [linkWord next, if linked then 1 else 0][j] := fun j hj => Memory.word_setWords hj (Nat.le_of_ble_eq_true rfl)
  have hlink : (relink m p next linked).word (p + linkField) = linkWord next := by
    have h0 := hword 0 (by decide)
    rwa [Nat.mul_zero, show p + linkField + UInt64.ofNat 0 = p + linkField from UInt64.add_zero _] at h0
  have hmark : (relink m p next linked).word (p + markField) = if linked then 1 else 0 := by
    have h1 := hword 1 (by decide)
    rwa [UInt64.add_assoc, show linkField + UInt64.ofNat (8 * 1) = markField from rfl] at h1
  refine ⟨i, by rw [hinfo, hi], ?_⟩
  rw [hlink, hmark]
  cases linked <;> rfl

theorem alters_write (texts : List String) (m : Memory) (p : Ptr) (i : ModuleInfo) :
    Alters (bytes p) m (write texts m p i) := by
  have hinfo := Memory.alters_setWords m p (encode texts i)
  rw [length_encode] at hinfo
  exact (hinfo.mono (info_subset p)).trans ((alters_relink _ p none false).mono (relink_subset p))

/-- **A record that is written** is read back as a record of no list. -/
theorem read_write (h : decode? texts (encode texts i) = some i') (m : Memory) (p : Ptr) :
    read texts (write texts m p i) p = some (.fresh i') := by
  have hwords : (m.setWords p (encode texts i)).wordsAt p infoWords = (encode texts i).toArray := by
    have hsize : (encode texts i).toArray.size = infoWords := (List.size_toArray ..).trans (length_encode texts i)
    have hsmall : 8 * (encode texts i).toArray.size ≤ 2 ^ 64 := by
      rw [hsize]
      decide
    rw [← hsize]
    exact Memory.wordsAt_setWords hsmall
  have hread : read texts (m.setWords p (encode texts i)) p = some ⟨i',
      linkOf ((m.setWords p (encode texts i)).word (p + linkField)),
      (m.setWords p (encode texts i)).word (p + markField) != 0⟩ := by
    rw [read, hwords, h]
    rfl
  have hnext : Linkable none := trivial
  rw [write, read_relink hread, linkOf_linkWord hnext]
  rfl

end Keel.Cell
