import Mathlib.Tactic.SplitIfs
import Keel.Module.Elf.Layout
import Keel.Proofs.Checked
import Keel.Proofs.Rounding

/-!
# Packing the sections of an object

Asking for the offset of a section changes nothing about how sections are packed: the blocks come out the same, and the
packing fails in the same way (`pack_sizes`). The blocks only grow (`le_pack`), each section starts at or past the end
its block had before (`span_eq_ok`), so the section asked for lies inside its block, and has an offset there if it takes
up memory (`pack_offset`, `layout_offset`).
-/

namespace Keel.Elf

variable {o : Object} {s : Section}

/-- What follows a check answers where the check is passed. -/
theorem check_eq_ok {α β : Type} {c : Prop} [Decidable c] {e : Malformed} {f : β → Read α} {x : Read α} {a : α} :
    (if c then malformed e >>= f else x) = .ok a ↔ ¬c ∧ x = .ok a := by
  by_cases hc : c
  · rw [if_pos hc]
    exact iff_of_false nofun fun h => h.1 hc
  · rw [if_neg hc, and_iff_right hc]

namespace BlockLayout

/-- The end of the block that a section goes to. -/
def stop (l : BlockLayout) (s : Section) : UInt64 := if s.isText then l.text else l.data

/-- The layout after a section has been put at the end of its block. -/
def extend (l : BlockLayout) (s : Section) (stop : UInt64) (offset : Option UInt64) : BlockLayout :=
  if s.isText then { l with text := stop, offset } else { l with data := stop, offset }

/-- The sizes of both blocks. -/
def sizes (l : BlockLayout) : UInt64 × UInt64 := (l.text, l.data)

theorem pack_cons (o : Object) (wanted : Option Nat) (i : Nat) (is : List Nat) (l : BlockLayout) :
    pack o wanted (i :: is) l = o.section? i >>= fun s =>
      if !s.flags.isAllocated then pack o wanted is l
      else span o s (l.stop s) >>= fun p =>
        pack o wanted is (l.extend s p.2 (if wanted = some i then some p.1 else l.offset)) := rfl

@[simp] theorem stop_extend_self (l : BlockLayout) (s : Section) (n : UInt64) (a : Option UInt64) :
    (l.extend s n a).stop s = n := by
  unfold extend stop
  split_ifs <;> rfl

@[simp] theorem offset_extend (l : BlockLayout) (s : Section) (n : UInt64) (a : Option UInt64) :
    (l.extend s n a).offset = a := by
  unfold extend
  split_ifs <;> rfl

theorem sizes_extend {l l' : BlockLayout} (h : l.sizes = l'.sizes) (s : Section) (n : UInt64) (a a' : Option UInt64) :
    (l.extend s n a).sizes = (l'.extend s n a').sizes := by
  obtain ⟨htext, hdata⟩ := Prod.mk.inj h
  unfold extend sizes
  split_ifs <;> simp [htext, hdata]

theorem stop_of_sizes {l l' : BlockLayout} (h : l.sizes = l'.sizes) (s : Section) : l.stop s = l'.stop s := by
  obtain ⟨htext, hdata⟩ := Prod.mk.inj h
  rw [stop, stop, htext, hdata]

/-- A section whose alignment is a power of two and whose bytes are there starts where its block's end is rounded up to,
and takes its size. -/
theorem span_eq_ok_iff {cursor start stop : UInt64} : span o s cursor = .ok (start, stop) ↔
    Align.isPower s.alignment = true ∧ (s.type ≠ noBitsType → ∃ c, o.content s = .ok c) ∧
      Align.ceil? cursor s.alignment = some start ∧ start.toNat + s.size.toNat = stop.toNat := by
  have hplace : Align.isPower s.alignment = true →
      ((Align.up cursor s.alignment >>= fun a => orFault Malformed.outOfBounds a >>= fun start =>
        orFault .outOfBounds (Word.add? start s.size) >>= fun stop => pure (start, stop)) = .ok (start, stop) ↔
      Align.ceil? cursor s.alignment = some start ∧ start.toNat + s.size.toNat = stop.toNat) := by
    intro hpower
    rw [Align.up, if_pos hpower, Checked.ok_bind]
    simp only [Checked.bind_eq_ok, Checked.orFault_eq_ok, Word.add?_eq_some, Checked.pure_eq, Except.ok.injEq,
      Prod.mk.injEq]
    constructor
    · rintro ⟨a, ha, b, hb, rfl, rfl⟩
      exact ⟨ha, hb⟩
    · rintro ⟨ha, hb⟩
      exact ⟨start, ha, stop, hb, rfl, rfl⟩
  unfold span
  dsimp only
  rw [check_eq_ok]
  simp only [Bool.not_eq_true', Bool.not_eq_false]
  refine and_congr_right fun hpower => ?_
  by_cases hbits : s.type = noBitsType
  · rw [if_neg (not_not_intro hbits), hplace hpower]
    exact (and_iff_right fun h => absurd hbits h).symm
  · rw [if_pos hbits, Checked.bind_eq_ok, forall_prop_of_true hbits]
    simp only [hplace hpower, exists_and_right]

/-- A section starts at or past the end of its block and takes its own size. -/
theorem span_eq_ok {cursor start stop : UInt64} (h : span o s cursor = .ok (start, stop)) :
    cursor.toNat ≤ start.toNat ∧ start.toNat + s.size.toNat = stop.toNat := by
  obtain ⟨hpower, -, hceil, hstop⟩ := span_eq_ok_iff.1 h
  exact ⟨Align.le_ceil? hpower hceil, hstop⟩

/-- What packing one more section takes. -/
theorem pack_cons_eq_ok {wanted : Option Nat} {i : Nat} {is : List Nat} {l m : BlockLayout} :
    pack o wanted (i :: is) l = .ok m ↔ ∃ s, o.section? i = .ok s ∧
      (s.flags.isAllocated = false ∧ pack o wanted is l = .ok m ∨
        s.flags.isAllocated = true ∧ ∃ start stop, span o s (l.stop s) = .ok (start, stop) ∧
          pack o wanted is (l.extend s stop (if wanted = some i then some start else l.offset)) = .ok m) := by
  rw [pack_cons, Checked.bind_eq_ok]
  refine exists_congr fun s => and_congr_right fun _ => ?_
  cases s.flags.isAllocated with
  | false => simp
  | true => simp [Checked.bind_eq_ok]

/-- Packing does not depend on which section is asked for. -/
theorem pack_sizes (o : Object) (wanted wanted' : Option Nat) (is : List Nat) {l l' : BlockLayout}
    (h : l.sizes = l'.sizes) : (pack o wanted is l).map sizes = (pack o wanted' is l').map sizes := by
  induction is generalizing l l' with
  | nil => simp [pack, Except.map, h]
  | cons i is ih =>
    rw [pack_cons, pack_cons]
    cases hs : o.section? i with
    | error e => rfl
    | ok s =>
      simp only [Checked.ok_bind]
      cases s.flags.isAllocated with
      | false => exact ih h
      | true =>
        rw [stop_of_sizes h]
        cases span o s (l'.stop s) with
        | error e => rfl
        | ok p => exact ih (sizes_extend h s p.2 _ _)

/-- One block grows where a section is put at its end, and the other stays. -/
theorem le_stop_extend {l : BlockLayout} {t : Section} {n : UInt64} (h : (l.stop t).toNat ≤ n.toNat)
    (a : Option UInt64) (s : Section) : (l.stop s).toNat ≤ ((l.extend t n a).stop s).toNat := by
  unfold stop at h ⊢
  unfold extend
  split_ifs <;> simp_all

/-- The blocks only grow. -/
theorem le_pack {wanted : Option Nat} {is : List Nat} {l m : BlockLayout} (h : pack o wanted is l = .ok m) (s : Section) :
    (l.stop s).toNat ≤ (m.stop s).toNat := by
  induction is generalizing l with
  | nil =>
    cases h
    exact Nat.le_refl _
  | cons i is ih =>
    obtain ⟨t, -, ⟨-, hrest⟩ | ⟨-, start, stop, hspan, hrest⟩⟩ := pack_cons_eq_ok.1 h
    · exact ih hrest
    · obtain ⟨hstart, hstop⟩ := span_eq_ok hspan
      exact Nat.le_trans (le_stop_extend (by omega) _ s) (ih hrest)

/-- A section that is not packed any more keeps its offset. -/
theorem offset_pack_of_notMem {i : Nat} {is : List Nat} {l m : BlockLayout} (h : pack o (some i) is l = .ok m)
    (hi : i ∉ is) : m.offset = l.offset := by
  induction is generalizing l with
  | nil =>
    cases h
    rfl
  | cons j is ih =>
    rw [List.mem_cons, not_or] at hi
    obtain ⟨t, -, ⟨-, hrest⟩ | ⟨-, start, stop, -, hrest⟩⟩ := pack_cons_eq_ok.1 h
    · exact ih hrest hi.2
    · rw [ih hrest hi.2, offset_extend, if_neg (by simpa using hi.1)]

/-- A section that takes up memory has an offset, and lies inside its block. -/
theorem pack_offset {i : Nat} {is : List Nat} {l m : BlockLayout} (h : pack o (some i) is l = .ok m)
    (hnodup : is.Nodup) (hi : i ∈ is) (hs : o.section? i = .ok s) (halloc : s.flags.isAllocated = true) :
    ∃ start, m.offset = some start ∧ start.toNat + s.size.toNat ≤ (m.stop s).toNat := by
  induction is generalizing l with
  | nil => cases hi
  | cons j is ih =>
    obtain ⟨hj, hnodup⟩ := List.nodup_cons.1 hnodup
    obtain ⟨t, ht, hcases⟩ := pack_cons_eq_ok.1 h
    cases List.mem_cons.1 hi with
    | inl heq =>
      subst heq
      obtain rfl : s = t := Except.ok.inj (hs.symm.trans ht)
      obtain ⟨hno, -⟩ | ⟨-, start, stop, hspan, hrest⟩ := hcases
      · simp [halloc] at hno
      · refine ⟨start, ?_, ?_⟩
        · rw [offset_pack_of_notMem hrest hj, offset_extend, if_pos rfl]
        · have hgrow := le_pack hrest s
          rw [stop_extend_self] at hgrow
          exact (span_eq_ok hspan).2 ▸ hgrow
    | inr hmem =>
      obtain ⟨-, hrest⟩ | ⟨-, start, stop, -, hrest⟩ := hcases
      · exact ih hrest hnodup hmem
      · exact ih hrest hnodup hmem

end BlockLayout

open BlockLayout

theorem Object.section?_lt {i : Nat} (h : o.section? i = .ok s) : i < o.sectionCount := by
  refine Nat.lt_of_not_le fun hle => ?_
  simp [Object.section?, hle, malformed] at h

/-- **Where the layout of an object is found, that of a section that takes up memory is found as well: the blocks are
the same, and the section lies inside its block.** -/
theorem Object.layout_offset {i : Nat} {m : BlockLayout} (h : o.layout none = .ok m) (hs : o.section? i = .ok s)
    (halloc : s.flags.isAllocated = true) : ∃ m' start, o.layout (some i) = .ok m' ∧ m'.sizes = m.sizes ∧
      m'.offset = some start ∧ start.toNat + s.size.toNat ≤ (m.stop s).toNat := by
  have hsizes := pack_sizes o (some i) none (List.range o.sectionCount) (l := .empty) rfl
  unfold layout at h ⊢
  rw [h] at hsizes
  cases hm : pack o (some i) (List.range o.sectionCount) .empty with
  | error e => simp [hm, Except.map] at hsizes
  | ok m' =>
    have heq : m'.sizes = m.sizes := by simpa [hm, Except.map] using hsizes
    obtain ⟨start, hoffset, hinside⟩ :=
      pack_offset hm List.nodup_range (List.mem_range.2 (Object.section?_lt hs)) hs halloc
    exact ⟨m', start, rfl, heq, hoffset, stop_of_sizes heq s ▸ hinside⟩

end Keel.Elf
