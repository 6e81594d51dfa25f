import Mathlib.Order.Bounds.Basic
import Mathlib.Order.Interval.Set.Disjoint
import Keel.Proofs.Module.Elf.Alignment

/-!
# The greedy packing

Where the sections of an object belong is said on natural numbers, which have no end: a section that takes up memory
starts at the least multiple of its alignment that is not below the end of its block so far (`Object.reach`,
`Object.startOf`), so that the sections of a block follow one another (`Object.Greedy`). The layout finds exactly this,
with one cursor for each block, as long as every section so far can be placed (`Packed`): one more section is put where
it belongs, or cannot be placed (`span_cases`, `packs`). So the layout fails exactly where some section cannot be placed
(`Object.Misfits`), and otherwise answers the ends of both blocks and the offset that was asked for
(**`packs_greedily`**).
-/

namespace Keel.Elf

open Keel.Align (leastMultiple)
open Keel.Windows (Side)

variable {o : Object} {s : Section} {i n : Nat} {wanted : Option Nat} {l : BlockLayout}

/-! ## Blocks -/

/-- The block a section goes to if it takes up memory. -/
def Section.side (s : Section) : Side := if s.flags.isExecutable then .text else .data

theorem Section.alignment_pos (s : Section) : 0 < s.alignment.toNat := by
  unfold Section.alignment
  split
  · decide
  · rename_i h
    exact Nat.pos_of_ne_zero fun hzero => h (UInt64.toNat_inj.1 hzero)

namespace BlockLayout

/-- The size of a block. -/
def block (l : BlockLayout) : Side → UInt64
  | .text => l.text
  | .data => l.data

theorem stop_eq_block (halloc : s.flags.isAllocated = true) (l : BlockLayout) : l.stop s = l.block s.side := by
  unfold stop Section.isText Section.side
  rw [halloc]
  cases s.flags.isExecutable <;> rfl

theorem block_extend (halloc : s.flags.isAllocated = true) (l : BlockLayout) (stop : UInt64) (offset : Option UInt64)
    (b : Side) : (l.extend s stop offset).block b = if s.side = b then stop else l.block b := by
  unfold extend Section.isText Section.side
  rw [halloc]
  cases s.flags.isExecutable <;> cases b <;> rfl

theorem pack_append (o : Object) (wanted : Option Nat) (is js : List Nat) (l : BlockLayout) :
    pack o wanted (is ++ js) l = pack o wanted is l >>= pack o wanted js := by
  induction is generalizing l with
  | nil => rfl
  | cons i is ih =>
    rw [List.cons_append, pack_cons, pack_cons, bind_assoc]
    refine bind_congr fun s => ?_
    split
    · exact ih l
    · rw [bind_assoc]
      exact bind_congr fun p => ih _

end BlockLayout

/-! ## Where sections belong -/

namespace Object

/-- The section at index `i` takes up memory. -/
def Takes (o : Object) (i : Nat) (s : Section) : Prop := o.section? i = .ok s ∧ s.flags.isAllocated = true

/-- The end of a block that holds those of its sections that have an index below `n`. -/
def reach (o : Object) (b : Side) : Nat → Nat
  | 0 => 0
  | n + 1 =>
    match o.section? n with
    | .ok s =>
      if s.flags.isAllocated ∧ s.side = b then leastMultiple (o.reach b n) s.alignment.toNat + s.size.toNat
      else o.reach b n
    | .error _ => o.reach b n

/-- Where the section at index `i` starts in its block. -/
def startOf (o : Object) (i : Nat) (s : Section) : Nat := leastMultiple (o.reach s.side i) s.alignment.toNat

/-- The start of a section by its index alone, if it takes up memory. -/
def start? (o : Object) (i : Nat) : Option Nat :=
  match o.section? i with
  | .ok s => if s.flags.isAllocated then some (o.startOf i s) else none
  | .error _ => none

/-- Why the section at index `i` cannot be placed. -/
inductive Misfits (o : Object) (i : Nat) (s : Section) : Prop
  | alignment (h : ¬∃ k, s.alignment.toNat = 2 ^ k)
  | outside (hbits : s.type ≠ noBitsType) (h : o.bytes.size < s.offset.toNat + s.size.toNat)
  | start (h : 2 ^ 64 ≤ o.startOf i s)
  | stop (h : 2 ^ 64 ≤ o.startOf i s + s.size.toNat)

theorem reach_succ_of_takes (h : o.Takes n s) (b : Side) :
    o.reach b (n + 1) = if s.side = b then o.startOf n s + s.size.toNat else o.reach b n := by
  rw [reach, h.1]
  by_cases hside : s.side = b
  · subst hside
    simp [h.2, startOf]
  · simp [hside]

theorem reach_succ_of_not_takes (h : ∀ s, ¬o.Takes n s) (b : Side) : o.reach b (n + 1) = o.reach b n := by
  rw [reach]
  split
  · rename_i s hs
    exact if_neg fun hc => h s ⟨hs, hc.1⟩
  · rfl

theorem start?_of_takes (h : o.Takes i s) : o.start? i = some (o.startOf i s) := by
  rw [start?, h.1]
  exact if_pos h.2

theorem start?_of_not_takes (h : ∀ s, ¬o.Takes i s) : o.start? i = none := by
  rw [start?]
  split
  · rename_i s hs
    exact if_neg fun hc => h s ⟨hs, hc⟩
  · rfl

theorem Takes.eq {t : Section} (h : o.Takes i s) (h' : o.Takes i t) : s = t := Except.ok.inj (h.1.symm.trans h'.1)

theorem isLeast_startOf (o : Object) (i : Nat) (s : Section) :
    IsLeast {n | s.alignment.toNat ∣ n ∧ o.reach s.side i ≤ n} (o.startOf i s) :=
  Align.isLeast_leastMultiple s.alignment_pos _

theorem reach_le_startOf (o : Object) (i : Nat) (s : Section) : o.reach s.side i ≤ o.startOf i s :=
  (o.isLeast_startOf i s).1.2

/-- A block that holds more sections ends later. -/
theorem reach_mono (o : Object) (b : Side) : Monotone (o.reach b) := by
  refine monotone_nat_of_le_succ fun n => ?_
  by_cases htakes : ∃ s, o.Takes n s
  · obtain ⟨s, hs⟩ := htakes
    rw [reach_succ_of_takes hs]
    split
    · rename_i hside
      exact Nat.le_trans (hside ▸ o.reach_le_startOf n s) (Nat.le_add_right _ _)
    · exact Nat.le_refl _
  · rw [reach_succ_of_not_takes fun s hs => htakes ⟨s, hs⟩]

theorem stop_le_reach (h : o.Takes i s) (hlt : i < n) : o.startOf i s + s.size.toNat ≤ o.reach s.side n := by
  have hsucc := reach_succ_of_takes h s.side
  rw [if_pos rfl] at hsucc
  exact hsucc ▸ o.reach_mono s.side hlt

/-- A block ends with the last of its sections. -/
theorem reach_cases (o : Object) (b : Side) (n : Nat) :
    (o.reach b n = 0 ∧ ∀ i < n, ∀ s, o.Takes i s → s.side ≠ b) ∨
    ∃ i < n, ∃ s, o.Takes i s ∧ s.side = b ∧ o.reach b n = o.startOf i s + s.size.toNat ∧
      ∀ j, i < j → j < n → ∀ t, o.Takes j t → t.side ≠ b := by
  induction n with
  | zero => exact .inl ⟨rfl, nofun⟩
  | succ n ih =>
    by_cases hlast : ∃ s, o.Takes n s ∧ s.side = b
    · obtain ⟨s, hs, hside⟩ := hlast
      have hsucc := reach_succ_of_takes hs b
      rw [if_pos hside] at hsucc
      exact .inr ⟨n, Nat.lt_succ_self n, s, hs, hside, hsucc, fun j hj hj' => by omega⟩
    · -- Nothing is added to the block, so its last section is the one it had before.
      have hno : ∀ s, o.Takes n s → s.side ≠ b := fun s hs hside => hlast ⟨s, hs, hside⟩
      have hsucc : o.reach b (n + 1) = o.reach b n := by
        by_cases htakes : ∃ s, o.Takes n s
        · obtain ⟨s, hs⟩ := htakes
          rw [reach_succ_of_takes hs, if_neg (hno s hs)]
        · exact reach_succ_of_not_takes (fun s hs => htakes ⟨s, hs⟩) b
      have hbelow : ∀ {j}, j < n + 1 → j = n ∨ j < n := fun hj => by omega
      rw [hsucc]
      obtain ⟨hzero, hall⟩ | ⟨i, hi, s, hs, hside, hend, hall⟩ := ih
      · refine .inl ⟨hzero, fun i hi => ?_⟩
        rcases hbelow hi with rfl | hi
        · exact hno
        · exact hall i hi
      · refine .inr ⟨i, Nat.lt_succ_of_lt hi, s, hs, hside, hend, fun j hj hj' => ?_⟩
        rcases hbelow hj' with rfl | hj'
        · exact hno
        · exact hall j hj hj'

/-- The sections of each block follow one another as closely as their alignments allow. -/
structure Greedy (o : Object) : Prop where
  /-- A section starts at the least multiple of its alignment that is not below the end of its block so far. -/
  least : ∀ i s, o.Takes i s → IsLeast {n | s.alignment.toNat ∣ n ∧ o.reach s.side i ≤ n} (o.startOf i s)
  /-- The end of a block is the end of the last section in it; without a section the block is empty. -/
  last : ∀ b n, (o.reach b n = 0 ∧ ∀ i < n, ∀ s, o.Takes i s → s.side ≠ b) ∨
    ∃ i < n, ∃ s, o.Takes i s ∧ s.side = b ∧ o.reach b n = o.startOf i s + s.size.toNat ∧
      ∀ j, i < j → j < n → ∀ t, o.Takes j t → t.side ≠ b
  ordered : ∀ i j s t, o.Takes i s → o.Takes j t → s.side = t.side → i < j →
    o.startOf i s + s.size.toNat ≤ o.startOf j t
  disjoint : ∀ i j s t, o.Takes i s → o.Takes j t → s.side = t.side → i ≠ j →
    Disjoint (Set.Ico (o.startOf i s) (o.startOf i s + s.size.toNat))
      (Set.Ico (o.startOf j t) (o.startOf j t + t.size.toNat))

theorem greedy (o : Object) : o.Greedy := by
  have hordered : ∀ i j s t, o.Takes i s → o.Takes j t → s.side = t.side → i < j →
      o.startOf i s + s.size.toNat ≤ o.startOf j t := fun i j s t hs _ hside hlt =>
    Nat.le_trans (stop_le_reach hs hlt) (hside ▸ o.reach_le_startOf j t)
  refine ⟨fun i s _ => o.isLeast_startOf i s, o.reach_cases, hordered, fun i j s t hs ht hside hne => ?_⟩
  rw [Set.Ico_disjoint_Ico]
  rcases Nat.lt_or_gt_of_ne hne with hlt | hlt
  · have := hordered i j s t hs ht hside hlt
    omega
  · have := hordered j i t s ht hs hside.symm hlt
    omega

/-! ## One section -/

theorem content_isOk_iff : (∃ c, o.content s = .ok c) ↔ s.offset.toNat + s.size.toNat ≤ o.bytes.size := by
  unfold content slice
  split
  · rename_i h
    exact iff_of_true ⟨_, rfl⟩ h
  · rename_i h
    exact iff_of_false (fun hc => nomatch hc.choose_spec) h

end Object

open Object

/-- A section can be placed behind `cursor` if its alignment is a power of two, its bytes are in the image and neither
its start nor its end leaves the words. -/
theorem span_least {cursor start stop : UInt64} : BlockLayout.span o s cursor = .ok (start, stop) ↔
    Align.isPower s.alignment = true ∧
      (s.type ≠ noBitsType → s.offset.toNat + s.size.toNat ≤ o.bytes.size) ∧
      start.toNat = leastMultiple cursor.toNat s.alignment.toNat ∧ stop.toNat = start.toNat + s.size.toNat := by
  rw [BlockLayout.span_eq_ok_iff, content_isOk_iff]
  refine and_congr_right fun hpower => ?_
  rw [Align.ceil?_eq_leastMultiple hpower, eq_comm (a := stop.toNat)]

/-- A section is put where it belongs, or it cannot be placed. -/
theorem span_cases {cursor : UInt64} (hcursor : cursor.toNat = o.reach s.side i) :
    (∃ start stop, BlockLayout.span o s cursor = .ok (start, stop) ∧ start.toNat = o.startOf i s ∧
      stop.toNat = o.startOf i s + s.size.toNat ∧ ¬o.Misfits i s) ∨
    (∃ f, BlockLayout.span o s cursor = .error (.fault f)) ∧ o.Misfits i s := by
  by_cases hfits : o.Misfits i s
  · refine .inr ⟨?_, hfits⟩
    have hsettles := reads_span o s cursor
    cases hspan : BlockLayout.span o s cursor with
    | error e =>
      rw [hspan] at hsettles
      obtain ⟨f, rfl⟩ := hsettles.exists_fault
      exact ⟨f, rfl⟩
    | ok p =>
      obtain ⟨start, stop⟩ := p
      obtain ⟨hpower, hinside, hstart, hstop⟩ := span_least.1 hspan
      rw [hcursor, ← startOf] at hstart
      rw [hstart] at hstop
      exfalso
      cases hfits with
      | alignment h => exact h (Align.isPower_iff.1 hpower)
      | outside hbits h => exact absurd (hinside hbits) (Nat.not_le.2 h)
      | start h => exact absurd start.toNat_lt (Nat.not_lt.2 (hstart ▸ h))
      | stop h => exact absurd stop.toNat_lt (Nat.not_lt.2 (hstop ▸ h))
  · refine .inl ?_
    have hstart : o.startOf i s < 2 ^ 64 := Nat.lt_of_not_le fun h => hfits (.start h)
    have hstop : o.startOf i s + s.size.toNat < 2 ^ 64 := Nat.lt_of_not_le fun h => hfits (.stop h)
    have hstartNat : (UInt64.ofNat (o.startOf i s)).toNat = o.startOf i s := by
      rw [UInt64.toNat_ofNat', Nat.mod_eq_of_lt hstart]
    have hstopNat : (UInt64.ofNat (o.startOf i s + s.size.toNat)).toNat = o.startOf i s + s.size.toNat := by
      rw [UInt64.toNat_ofNat', Nat.mod_eq_of_lt hstop]
    refine ⟨_, _, span_least.2 ⟨?_, fun hbits => ?_, hstartNat.trans ?_, hstopNat.trans ?_⟩, hstartNat, hstopNat,
      hfits⟩
    · exact Align.isPower_iff.2 (Classical.not_not.1 fun h => hfits (.alignment h))
    · exact Nat.le_of_not_lt fun h => hfits (.outside hbits h)
    · rw [hcursor, startOf]
    · rw [hstartNat]

/-! ## All sections -/

/-- Every index of the table has a section, and no other has. -/
theorem Object.section?_isOk_iff (ho : o.Inside) : (∃ s, o.section? i = .ok s) ↔ i < o.sectionCount :=
  ⟨fun ⟨_, hs⟩ => Object.section?_lt hs, ho.section_isOk⟩

/-- The layout after the sections with an index below `n`, all of which could be placed. -/
structure Packed (o : Object) (wanted : Option Nat) (n : Nat) (l : BlockLayout) : Prop where
  ends : ∀ b, (l.block b).toNat = o.reach b n
  offset : l.offset.map UInt64.toNat = (wanted.filter (· < n)).bind o.start?
  fits : ∀ i < n, ∀ s, o.Takes i s → ¬o.Misfits i s

theorem packed_empty (o : Object) (wanted : Option Nat) : Packed o wanted 0 .empty where
  ends b := by cases b <;> rfl
  offset := by cases wanted <;> rfl
  fits := nofun

/-- The section asked for is among those with an index up to `n` if it is among those below or is the next one. -/
theorem filter_lt_succ (wanted : Option Nat) (n : Nat) :
    wanted.filter (· < n + 1) = if wanted = some n then some n else wanted.filter (· < n) := by
  cases wanted with
  | none => rfl
  | some i =>
    simp only [Option.some.injEq, Option.filter_some, decide_eq_true_eq]
    by_cases hi : i = n
    · rw [if_pos hi, if_pos (by omega), hi]
    · have hlt : i < n + 1 ↔ i < n := by omega
      rw [if_neg hi]
      simp only [hlt]

/-- A section that takes up no memory is passed over. -/
theorem Packed.skip (h : Packed o wanted n l) (hno : ∀ s, ¬o.Takes n s) : Packed o wanted (n + 1) l where
  ends b := (h.ends b).trans (reach_succ_of_not_takes hno b).symm
  offset := by
    rw [h.offset, filter_lt_succ]
    split
    · rename_i hwanted
      rw [hwanted, Option.bind_some, start?_of_not_takes hno]
      simp
    · rfl
  fits i hi s hs := by
    rcases Nat.lt_succ_iff_lt_or_eq.1 hi with hi | rfl
    · exact h.fits i hi s hs
    · exact absurd hs (hno s)

/-- A section is put at the end of its block. -/
theorem Packed.put (h : Packed o wanted n l) (hs : o.Takes n s) (hfits : ¬o.Misfits n s) {start stop : UInt64}
    (hstart : start.toNat = o.startOf n s) (hstop : stop.toNat = o.startOf n s + s.size.toNat) :
    Packed o wanted (n + 1) (l.extend s stop (if wanted = some n then some start else l.offset)) where
  ends b := by
    rw [BlockLayout.block_extend hs.2, reach_succ_of_takes hs]
    split
    · exact hstop
    · exact h.ends b
  offset := by
    rw [BlockLayout.offset_extend, filter_lt_succ]
    split
    · rw [Option.bind_some, start?_of_takes hs, Option.map_some, hstart]
    · exact h.offset
  fits i hi t ht := by
    rcases Nat.lt_succ_iff_lt_or_eq.1 hi with hi | rfl
    · exact h.fits i hi t ht
    · exact hs.eq ht ▸ hfits

/-- **The sections below an index are packed where they belong, or one of them cannot be placed.** -/
theorem packs (ho : o.Inside) (wanted : Option Nat) (hn : n ≤ o.sectionCount) :
    (∃ l, BlockLayout.pack o wanted (List.range n) .empty = .ok l ∧ Packed o wanted n l) ∨
    (∃ f, BlockLayout.pack o wanted (List.range n) .empty = .error (.fault f)) ∧
      ∃ i < n, ∃ s, o.Takes i s ∧ o.Misfits i s := by
  induction n with
  | zero => exact .inl ⟨_, rfl, packed_empty o wanted⟩
  | succ n ih =>
    rw [List.range_succ, BlockLayout.pack_append]
    obtain ⟨l, hl, hpacked⟩ | ⟨⟨f, hf⟩, i, hi, s, hs, hmisfits⟩ := ih (Nat.le_of_lt hn)
    · rw [hl, Checked.ok_bind, BlockLayout.pack_cons]
      obtain ⟨s, hs⟩ := (Object.section?_isOk_iff ho).2 hn
      rw [hs, Checked.ok_bind]
      cases halloc : s.flags.isAllocated with
      | false =>
        refine .inl ⟨l, rfl, hpacked.skip fun t ht => ?_⟩
        obtain rfl : s = t := Except.ok.inj (hs.symm.trans ht.1)
        exact absurd (halloc.symm.trans ht.2) (by decide)
      | true =>
        have htakes : o.Takes n s := ⟨hs, halloc⟩
        have hcursor : (l.stop s).toNat = o.reach s.side n := by
          rw [BlockLayout.stop_eq_block halloc, hpacked.ends]
        obtain ⟨start, stop, hspan, hstart, hstop, hfits⟩ | ⟨⟨f, hf⟩, hmisfits⟩ := span_cases hcursor
        · refine .inl ⟨_, ?_, hpacked.put htakes hfits hstart hstop⟩
          rw [hspan]
          rfl
        · refine .inr ⟨⟨f, ?_⟩, n, Nat.lt_succ_self n, s, htakes, hmisfits⟩
          rw [hf]
          rfl
    · exact .inr ⟨⟨f, by rw [hf]; rfl⟩, i, Nat.lt_succ_of_lt hi, s, hs, hmisfits⟩

/-- The layout of all sections is where they belong, or some section cannot be placed. -/
theorem layout_cases (ho : o.Inside) (wanted : Option Nat) :
    (∃ l, o.layout wanted = .ok l ∧ Packed o wanted o.sectionCount l ∧ ∀ i s, o.Takes i s → ¬o.Misfits i s) ∨
    (∃ f, o.layout wanted = .error (.fault f)) ∧ ∃ i s, o.Takes i s ∧ o.Misfits i s := by
  unfold Object.layout
  obtain ⟨l, hl, hpacked⟩ | ⟨hf, i, -, s, hs, hmisfits⟩ := packs ho wanted (Nat.le_refl _)
  · exact .inl ⟨l, hl, hpacked, fun i s hs => hpacked.fits i (Object.section?_lt hs.1) s hs⟩
  · exact .inr ⟨hf, i, s, hs, hmisfits⟩

/-- What the layout of the sections of an image is. -/
structure PacksGreedily (image : Image) (o : Object) : Prop where
  bytes : o.bytes = image.bytes
  /-- Every index below the number of sections has a section. -/
  sections : ∀ i, (∃ s, o.section? i = .ok s) ↔ i < o.sectionCount
  greedy : o.Greedy
  /-- The layout fails exactly where a section that takes up memory cannot be placed. -/
  fails_iff : ∀ wanted, (∃ f, o.layout wanted = .error (.fault f)) ↔ ∃ i s, o.Takes i s ∧ o.Misfits i s
  /-- Where it does not fail it is found. -/
  found : ∀ wanted, (¬∃ i s, o.Takes i s ∧ o.Misfits i s) → ∃ l, o.layout wanted = .ok l
  /-- The size of a block is the end of its last section. -/
  sizes : ∀ wanted l, o.layout wanted = .ok l → ∀ b, (l.block b).toNat = o.reach b o.sectionCount
  /-- The sizes do not depend on what is asked for. -/
  same : ∀ i, (o.layout (some i)).map BlockLayout.sizes = (o.layout none).map BlockLayout.sizes
  /-- The offset of a section is where it starts in its block; without memory it has none. -/
  offset : ∀ i s l, o.section? i = .ok s → o.layout (some i) = .ok l →
    l.offset.map UInt64.toNat = if s.flags.isAllocated then some (o.startOf i s) else none
  inside : ∀ i s l, o.Takes i s → o.layout (some i) = .ok l →
    o.startOf i s + s.size.toNat ≤ (l.block s.side).toNat
  /-- The ranges of a module have the sizes of the blocks, and one of size zero is the empty range. -/
  ranges : ∀ exports w m, (load image exports w).result = .ok m → ∃ l, o.layout none = .ok l ∧
    m.text.length = l.text ∧ (l.text = 0 → m.text = .empty) ∧ m.data.length = l.data ∧ (l.data = 0 → m.data = .empty)

/-- **The sections of every object that is accepted are packed greedily.** The bytes of its image lie in memory, so
there are fewer than `2 ^ 64` of them. -/
theorem packs_greedily {image : Image} (hsize : image.bytes.size < 2 ^ 64) (hread : Object.read image.bytes = .ok o) :
    PacksGreedily image o := by
  have ho := inside_read hsize hread
  have hpacked : ∀ {wanted l}, o.layout wanted = .ok l → Packed o wanted o.sectionCount l := by
    intro wanted l hl
    obtain ⟨l', hl', hpacked, -⟩ | ⟨⟨f, hf⟩, -⟩ := layout_cases ho wanted
    · cases hl.symm.trans hl'
      exact hpacked
    · cases hl.symm.trans hf
  have hends : ∀ wanted l, o.layout wanted = .ok l → ∀ b, (l.block b).toNat = o.reach b o.sectionCount :=
    fun wanted l hl => (hpacked hl).ends
  refine ⟨(read_eq_ok hread).1, fun i => Object.section?_isOk_iff ho, o.greedy, fun wanted => ?_, fun wanted hfits => ?_,
    hends, fun i => BlockLayout.pack_sizes o (some i) none _ rfl, fun i s l hs hl => ?_, fun i s l hs hl => ?_,
    fun exports w m hm => ?_⟩
  · obtain ⟨l, hl, -, hfits⟩ | ⟨hf, hmisfits⟩ := layout_cases ho wanted
    · exact iff_of_false (fun ⟨f, hf⟩ => nomatch hl.symm.trans hf) fun ⟨i, s, hs, h⟩ => hfits i s hs h
    · exact iff_of_true hf hmisfits
  · obtain ⟨l, hl, -⟩ | ⟨-, hmisfits⟩ := layout_cases ho wanted
    · exact ⟨l, hl⟩
    · exact absurd hmisfits hfits
  · have hoffset := (hpacked hl).offset
    rw [Option.filter_some, if_pos (decide_eq_true (Object.section?_lt hs)), Option.bind_some, Object.start?,
      hs] at hoffset
    exact hoffset
  · rw [hends _ l hl]
    exact Object.stop_le_reach hs (Object.section?_lt hs.1)
  · obtain ⟨v, hfound, hplaced⟩ := load_found hm
    obtain rfl : o = v.object := Except.ok.inj (hread.symm.trans hfound.object)
    exact ⟨v.layout, hfound.layout, hplaced.text.1, hplaced.text.2, hplaced.data.1, hplaced.data.2⟩

/-! ## An object with two sections in each block -/

/-- The header of a file with `count` section headers at `offset`. -/
def fileHeader (offset count : Nat) : List UInt8 :=
  [0x7f, 0x45, 0x4c, 0x46, 2, 1, 1, 0] ++ littleEndian 8 0 ++ littleEndian 2 1 ++ littleEndian 2 62 ++
    littleEndian 4 1 ++ littleEndian 16 0 ++ littleEndian 8 offset ++ littleEndian 4 0 ++ littleEndian 2 64 ++
    littleEndian 4 0 ++ littleEndian 2 64 ++ littleEndian 2 count ++ littleEndian 2 0

/-- An object with code in its sections 1 and 3, data in its sections 2 and 4, and a symbol table and names of the given
bytes. -/
def twoBlockObject (symbols names : List UInt8) : Image :=
  let namesAt := 528 + symbols.length
  let sections := headerBytes 0 0 0 0 0 0 0 ++ headerBytes 1 6 512 5 0 4 0 ++ headerBytes 1 3 517 3 0 8 0 ++
    headerBytes 1 6 520 4 0 16 0 ++ headerBytes 8 3 524 9 0 8 0 ++ headerBytes 2 0 528 symbols.length 6 8 24 ++
    headerBytes 3 0 namesAt names.length 0 1 0
  ⟨"two.ko", (fileHeader 64 7 ++ sections ++ littleEndian 16 0xcc ++ symbols ++ names).toArray⟩

/-- The second section of code starts past a gap, and the block of data grows in between. -/
theorem packs_twoBlockObject : (twoBlockObject [] []).bytes.size < 2 ^ 64 ∧
    ∃ o, Object.read (twoBlockObject [] []).bytes = .ok o ∧ o.layout (some 3) = .ok ⟨20, 17, some 16⟩ ∧
      PacksGreedily (twoBlockObject [] []) o := by
  have hsize : (twoBlockObject [] []).bytes.size < 2 ^ 64 := by decide +kernel
  have hlayout : (Object.read (twoBlockObject [] []).bytes >>= fun o => o.layout (some 3)) =
      .ok ⟨20, 17, some 16⟩ := by decide +kernel
  obtain ⟨o, hread, hlayout⟩ := Checked.bind_eq_ok.1 hlayout
  exact ⟨hsize, o, hread, hlayout, packs_greedily hsize hread⟩

end Keel.Elf
