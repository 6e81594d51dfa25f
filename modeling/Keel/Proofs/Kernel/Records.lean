import Keel.Proofs.Kernel.Objects

/-!
# Records in the heap

The record of a loaded module lies in a heap object that nobody else has. `Filed` says so of a kernel and a list of
entries: the registry lists them, and the objects are those of others and, apart from these, one cell for each entry, so
that the number of objects tells how many there are (`Filed.encard`). Objects do not meet, so the records lie apart
(`Filed.shelves`), and what leaves the bytes of their cells leaves what is on file (`Filed.carry`); writing links and marks
is writing into objects (`Filed.relinked`).

Storing a record gets an object first, writes the record into it, and registers it then. Where the name is taken the
object is given back, and all is as before (`storeRecord_ends`, `objects_restored`). Unloading takes the record out of the
list and reads it before its object goes, so no link is left to it, and what is answered is what was stored
(`unloadModule_ends`).
-/

namespace Keel.Kernel

open Keel.Cell (Linkable)
open Keel.Heap (Object classFor)
open Keel.Memory (Alters block)
open Keel.Registry (Entry)
open Keel.Slab (Estate)

attribute [local irreducible] Memory.word Cell.read

variable {E : Estate} {k k' : Kernel} {others others' : Set Object} {es es' xs ys : List Entry} {x : Ptr}
  {i : ModuleInfo} {r : Record} {ids : List RecordId}

/-! ## Records and objects -/

/-- The class of the objects that hold records. -/
def recordClass : SizeClass := ⟨4, by decide⟩

theorem classFor_recordSize : classFor recordSize = .ok recordClass := by decide

/-- A cell has room for a record. -/
theorem cell_subset (x : Ptr) : Cell.bytes x ⊆ Object.bytes ⟨x, recordClass⟩ :=
  Memory.block_mono (Heap.le_classSize classFor_recordSize)

/-- The objects that hold the records of some entries. -/
def cells (es : List Entry) : Set Object := {o | o.sizeClass = recordClass ∧ ∃ e ∈ es, e.id = .stored o.start}

@[simp] theorem cells_nil : cells [] = ∅ := Set.eq_empty_of_forall_notMem fun o ho => by
  obtain ⟨-, e, he, -⟩ := ho
  cases he

theorem mem_cells : ⟨x, recordClass⟩ ∈ cells es ↔ ∃ e ∈ es, e.id = .stored x := and_iff_right rfl

theorem cells_cons : cells (⟨.stored x, i⟩ :: es) = insert ⟨x, recordClass⟩ (cells es) := by
  ext o
  obtain ⟨y, j⟩ := o
  simp only [cells, Set.mem_insert_iff, Set.mem_ofPred_eq, Object.mk.injEq, List.exists_mem_cons_iff,
    RecordId.stored.injEq, and_or_left, eq_comm (a := x), and_comm (a := j = recordClass)]

theorem cells_middle : cells (xs ++ ⟨.stored x, i⟩ :: ys) = insert ⟨x, recordClass⟩ (cells (xs ++ ys)) := by
  rw [← cells_cons (i := i)]
  ext o
  simp only [cells, Set.mem_ofPred_eq, List.perm_middle.mem_iff]

/-- The registry lists `es`, and the objects are those of `others` and those that hold the records of `es`. -/
structure Filed (E : Estate) (k : Kernel) (others : Set Object) (es : List Entry) : Prop where
  stands : k.Stands E
  lists : k.shelf.Lists es
  stored : ∀ e ∈ es, ∃ x, e.id = .stored x
  objects : k.objects = others ∪ cells es
  apart : Disjoint others (cells es)

theorem objects_congr (h : k'.ground = k.ground) : k'.objects = k.objects := by
  obtain ⟨ground, _, _, _, _, _, _, _⟩ := k
  obtain rfl : k'.ground = ground := h
  rfl

/-- A record is what it was if its object has stayed. -/
theorem record?_of_preserves (h : k.Preserves k') (htexts : k.texts <+: k'.texts)
    (hx : ⟨x, recordClass⟩ ∈ k.objects) (hx' : ⟨x, recordClass⟩ ∈ k'.objects) (hr : k.record? (.stored x) = some r) :
    k'.record? (.stored x) = some r := by
  have halters : Alters (Cell.bytes x)ᶜ k.ground.arena.memory k'.ground.arena.memory := fun a ha =>
    h _ hx hx' a (cell_subset x (not_not.1 ha))
  have hread := Cell.read_mono (m := k.ground.arena.memory) hr htexts
  exact (Cell.read_congr halters disjoint_compl_right).trans hread

/-- Links can lead to objects. -/
theorem linkable_object {o : Object} (h : k.Stands E) (ho : o ∈ k.objects) : Linkable (some (.stored o.start)) := by
  obtain ⟨hstart, hmod⟩ := object_start h ho
  have heven : o.start.toNat % 2 = 0 := by omega
  exact ⟨hstart, heven⟩

/-! ## Counting records -/

/-- Every record has an object of its own. -/
theorem encard_cells (hd : (es.map Entry.id).Nodup) (hs : ∀ e ∈ es, ∃ x, e.id = .stored x) :
    (cells es).encard = es.length := by
  induction es with
  | nil =>
    rw [cells_nil, Set.encard_empty]
    rfl
  | cons e es ih =>
    obtain ⟨id, i⟩ := e
    obtain ⟨x, rfl⟩ := hs _ List.mem_cons_self
    obtain ⟨hx, hd⟩ := List.nodup_cons.1 hd
    have hnew : ⟨x, recordClass⟩ ∉ cells es := by
      rw [mem_cells]
      intro h
      obtain ⟨e, he, hid⟩ := h
      exact hx (List.mem_map.2 ⟨e, he, hid⟩)
    rw [cells_cons, Set.encard_insert_of_notMem hnew, ih hd fun e he => hs e (List.mem_cons_of_mem _ he)]
    rfl

namespace Filed

/-- The registered modules are those of the entries. -/
theorem modules_eq (h : Filed E k others es) : k.modules = es.map Entry.info := by
  rw [← h.lists.records_eq, List.map_map]
  rfl

theorem encard (h : Filed E k others es) : k.objects.encard = others.encard + es.length := by
  rw [h.objects, Set.encard_union_eq h.apart, encard_cells h.lists.distinct h.stored]

theorem length_lt (h : Filed E k others es) : es.length + 1 < 2 ^ 64 := by
  obtain ⟨n, -, hn, hlt⟩ := stats_objects h.stands
  rw [h.encard] at hn
  have hle : (es.length : ℕ∞) ≤ n.inUse := by
    rw [hn]
    exact le_add_self
  have := ENat.natCast_le_natCast.1 hle
  omega

theorem other_mem (h : Filed E k others es) {o : Object} (ho : o ∈ others) : o ∈ k.objects := by
  rw [h.objects]
  exact .inl ho

/-- The cell of a record is an object. -/
theorem cell_mem (h : Filed E k others es) {e : Entry} (he : e ∈ es) (hx : e.id = .stored x) :
    ⟨x, recordClass⟩ ∈ k.objects := by
  rw [h.objects]
  exact .inr (mem_cells.2 ⟨e, he, hx⟩)

/-- The bytes of a record are bytes of an object. -/
theorem bytes_subset (h : Filed E k others es) {e : Entry} (he : e ∈ es) {a : Ptr} (ha : a ∈ e.id.bytes) :
    ∃ o ∈ k.objects, a ∈ o.bytes := by
  obtain ⟨x, hx⟩ := h.stored e he
  rw [hx] at ha
  exact ⟨_, h.cell_mem he hx, cell_subset x ha⟩

/-- The records lie apart from each other. -/
theorem disjoint_records (h : Filed E k others es) {e e' : Entry} (he : e ∈ es) (he' : e' ∈ es) (hne : e.id ≠ e'.id) :
    Disjoint e.id.bytes e'.id.bytes := by
  obtain ⟨x, hx⟩ := h.stored e he
  obtain ⟨y, hy⟩ := h.stored e' he'
  have hxy : (⟨x, recordClass⟩ : Object) ≠ ⟨y, recordClass⟩ := by
    rintro heq
    obtain rfl : x = y := congrArg Object.start heq
    exact hne (hx.trans hy.symm)
  rw [hx, hy]
  exact (disjoint_objects h.stands (h.cell_mem he hx) (h.cell_mem he' hy) hxy).mono (cell_subset x) (cell_subset y)

/-- **The records lie apart**, and where links can lead. -/
theorem shelves (h : Filed E k others es) : k.Shelves es where
  lists := h.lists
  few := Nat.lt_of_succ_lt h.length_lt
  apart := by
    intro id hid id' hid' hne
    obtain ⟨e, he, rfl⟩ := List.mem_map.1 hid
    obtain ⟨e', he', rfl⟩ := List.mem_map.1 hid'
    exact h.disjoint_records he he' hne
  linkable := fun e he => by
    obtain ⟨x, hx⟩ := h.stored e he
    rw [hx]
    exact linkable_object h.stands (h.cell_mem he hx)

/-- **What leaves the records** leaves what is on file. -/
theorem carry (h : Filed E k others es) (hst : k'.Stands E) (hobj : k'.objects = others' ∪ cells es)
    (hapart : Disjoint others' (cells es)) (hregistry : k'.registry = k.registry)
    (hrecords : ∀ e ∈ es, k'.record? e.id = k.record? e.id) : Filed E k' others' es ∧ k'.shelf = k.shelf := by
  obtain ⟨hshelves, hshelf⟩ := h.shelves.congr hregistry hrecords
  exact ⟨⟨hst, hshelves.lists, h.stored, hobj, hapart⟩, hshelf⟩

/-- What leaves the objects of records leaves the records. -/
theorem record?_preserved (h : Filed E k others es) (hp : k.Preserves k') (hobj : k'.objects = others' ∪ cells es)
    (htexts : k.texts <+: k'.texts) : ∀ e ∈ es, k'.record? e.id = k.record? e.id := by
  intro e he
  obtain ⟨x, hx⟩ := h.stored e he
  obtain ⟨next, hr⟩ := h.shelves.record? he
  rw [hr]
  rw [hx] at hr ⊢
  exact record?_of_preserves hp htexts (h.cell_mem he hx) (hobj ▸ .inr (mem_cells.2 ⟨e, he, hx⟩)) hr

/-- What the memory services do to objects of others leaves what is on file. -/
theorem onGround (h : Filed E k others es) (hk : ∃ g, k' = { k with ground := g }) (hst : k'.Stands E)
    (hp : k.Preserves k') (hobj : k'.objects = others' ∪ cells es) (hapart : Disjoint others' (cells es)) :
    Filed E k' others' es ∧ k'.shelf = k.shelf := by
  obtain ⟨g, rfl⟩ := hk
  exact h.carry hst hobj hapart rfl (h.record?_preserved hp hobj List.prefix_rfl)

/-- **Links and marks** are written into objects, so the list is all that changes. -/
theorem relinked (h : Filed E k others es) (hs : k'.Shelves es') (hr : Relinks ids k k')
    (hids : ∀ id ∈ ids, ∀ a ∈ id.bytes, ∃ o ∈ k.objects, a ∈ o.bytes) (hstored : ∀ e ∈ es', ∃ x, e.id = .stored x)
    (hobj : others ∪ cells es = others' ∪ cells es') (hapart : Disjoint others' (cells es')) :
    Filed E k' others' es' ∧ Leads E ∅ k k' := by
  obtain ⟨⟨m, o, g, rfl⟩, halters⟩ := hr
  have hwritten : ∀ a ∈ {a | ∃ id ∈ ids, a ∈ id.bytes}, ∃ o ∈ k.objects, a ∈ o.bytes := by
    rintro a ⟨id, hid, ha⟩
    exact hids id hid a ha
  obtain ⟨hst, hsame, hleads⟩ := write_objects h.stands hwritten halters
  refine ⟨⟨hst, hs.lists, hstored, ?_, hapart⟩, hleads⟩
  rw [← hobj, ← h.objects, ← hsame]
  rfl

/-- The records are objects apart from each other and from those of others. -/
theorem starts (h : Filed E k others es) : ∃ xs : List Ptr, xs.Nodup ∧ es.map Entry.id = xs.map .stored ∧
    cells es = {o | o.sizeClass = recordClass ∧ o.start ∈ xs} ∧
    ∀ x ∈ xs, ∀ o ∈ others, Disjoint (block x recordSize) o.bytes := by
  have hrange : es.map Entry.id ∈ Set.range (List.map RecordId.stored) := by
    rw [Set.range_list_map]
    intro id hid
    obtain ⟨e, he, rfl⟩ := List.mem_map.1 hid
    obtain ⟨x, hx⟩ := h.stored e he
    exact ⟨x, hx.symm⟩
  obtain ⟨xs, hxs⟩ := hrange
  have hmem : ∀ x, x ∈ xs ↔ ∃ e ∈ es, e.id = .stored x := fun x => by
    rw [← List.mem_map, ← hxs, List.mem_map_of_injective fun _ _ => RecordId.stored.inj]
  refine ⟨xs, List.Nodup.of_map _ (hxs ▸ h.lists.distinct), hxs.symm, ?_, fun x hx o ho => ?_⟩
  · ext o
    exact and_congr_right fun _ => (hmem o.start).symm
  · obtain ⟨e, he, hid⟩ := (hmem x).1 hx
    have hne : ⟨x, recordClass⟩ ≠ o := by
      rintro rfl
      exact Set.disjoint_left.1 h.apart ho (mem_cells.2 ⟨e, he, hid⟩)
    exact (disjoint_objects h.stands (h.cell_mem he hid) (h.other_mem ho) hne).mono_left (cell_subset x)

end Filed

/-! ## What is refused -/

theorem ends_require {s : Stage} {Q : Checked Fault Unit → Kernel → Prop} : (require s).Ends k Q ↔
    if k.stage.rank < s.rank then Q (.error (.fault .notInit)) k else Q (.ok ()) k := by
  unfold require
  rw [Action.ends_bind, Action.ends_get, Action.goes_ok, Action.ends_ite]
  rfl

theorem Refused.escalated {α : Type} {r : Checked Fault α} (h : Refused r k) : Refused (escalated r) k := by
  rcases h with ⟨f, hf, rfl⟩ | ⟨rfl, hk⟩
  · cases f <;> first | exact refused_fault nofun | exact absurd rfl hf
  · exact .inr ⟨rfl, hk⟩

/-- What is refused stops what comes after it. -/
theorem Refused.goes {α β : Type} {r : Checked Fault α} {f : α → Action Kernel β} {Q : Checked Fault β → Kernel → Prop}
    (h : Refused r k) (hQ : ∀ r', Refused r' k → Q r' k) : Action.Goes f Q r k := by
  rcases h with ⟨f, hf, rfl⟩ | ⟨rfl, hk⟩
  · exact hQ _ (refused_fault hf)
  · exact hQ _ (.inr ⟨rfl, hk⟩)

/-! ## Storing -/

/-- An object that was added goes, and the others are left. -/
theorem objects_restored {c : SizeClass} {s : Set Object} (h : k.Stands E) (hobj : k.objects = insert ⟨x, c⟩ s)
    (hnew : ⟨x, c⟩ ∉ s) : {o ∈ k.objects | o.start ≠ x} = s := by
  ext o
  obtain ⟨y, j⟩ := o
  rw [Set.mem_sep_iff]
  constructor
  · intro ho
    obtain ⟨ho, hne⟩ := ho
    rw [hobj, Set.mem_insert_iff, Object.mk.injEq] at ho
    exact ho.resolve_left fun he => hne he.1
  · intro ho
    have hmem : ⟨y, j⟩ ∈ k.objects := hobj ▸ Set.mem_insert_of_mem _ ho
    refine ⟨hmem, ?_⟩
    rintro rfl
    obtain rfl := object_unique h hmem (hobj ▸ Set.mem_insert _ _)
    exact hnew ho

/-- **An object that is given back** leaves what is on file, if it holds no record of that. -/
theorem releaseRecord_ends (h : Filed E k (insert ⟨x, recordClass⟩ others) es) (hnew : ⟨x, recordClass⟩ ∉ others) :
    (releaseRecord (.stored x)).Ends k fun r k' => r = .ok () ∧ Leads E ∅ k k' ∧ Filed E k' others es ∧
      k'.shelf = k.shelf := by
  obtain ⟨hcell, hapart⟩ := Set.disjoint_insert_left.1 h.apart
  have hall : k.objects = insert ⟨x, recordClass⟩ (others ∪ cells es) := by rw [h.objects, Set.insert_union]
  have hleads : (onGround (Ground.free x)).Ends k fun _ k' => Leads E ∅ k k' := steps_onGround (Ground.steps_free x) k
  unfold releaseRecord
  rw [ends_escalate]
  refine (hleads.and (free_objects h.stands x)).mono ?_
  intro r k' hends
  obtain ⟨hleads, ⟨-, rfl, hk, hst, hp, hobj⟩ | ⟨hno, -⟩⟩ := hends
  · rw [objects_restored h.stands hall fun hmem => hmem.elim hnew hcell] at hobj
    exact ⟨rfl, hleads, h.onGround hk hst hp hobj hapart⟩
  · exact absurd (hall ▸ Set.mem_insert _ _) (hno recordClass)

/-- **A record that is written** into an object of others is fresh, and leaves what is on file. -/
theorem keepRecord_ends (h : Filed E k others es) (hx : ⟨x, recordClass⟩ ∈ others) (i : ModuleInfo) :
    (keepRecord (.stored x) i).Ends k fun r k' => r = .ok () ∧ Leads E ∅ k k' ∧ Filed E k' others es ∧
      k'.shelf = k.shelf ∧ ∃ i', i'.name = i.name ∧ k'.record? (.stored x) = some (.fresh i') := by
  let texts := Cell.intern k.texts i.loader
  have hwrite := Cell.alters_write texts k.ground.arena.memory x i
  obtain ⟨hst, hobj, hleads⟩ := write_objects h.stands (fun a ha => ⟨_, h.other_mem hx, cell_subset x ha⟩) hwrite
  let k₁ : Kernel := { k with texts, ground.arena.memory := Cell.write texts k.ground.arena.memory x i }
  have hrecords : ∀ e ∈ es, k₁.record? e.id = k.record? e.id := by
    intro e he
    obtain ⟨y, hy⟩ := h.stored e he
    obtain ⟨next, hr⟩ := h.shelves.record? he
    have hne : (⟨y, recordClass⟩ : Object) ≠ ⟨x, recordClass⟩ := by
      rintro heq
      exact Set.disjoint_left.1 h.apart hx (heq ▸ mem_cells.2 ⟨e, he, hy⟩)
    have hd := (disjoint_objects h.stands (h.cell_mem he hy) (h.other_mem hx) hne).mono (cell_subset y) (cell_subset x)
    rw [hr]
    rw [hy] at hr ⊢
    exact (Cell.read_congr hwrite hd).trans (Cell.read_mono hr (Cell.prefix_intern _ _))
  have hstands : k₁.Stands E := hst
  obtain ⟨hfiled, hshelf⟩ := h.carry hstands (hobj.trans h.objects) h.apart rfl hrecords
  obtain ⟨loader, hdecode⟩ := Cell.exists_decode?_encode (Cell.mem_intern k.texts i.loader)
  exact ⟨rfl, hleads, hfiled, hshelf, ⟨i.name, loader, _⟩, rfl, Cell.read_write hdecode _ x⟩

/-- **A fresh record** in an object of others is registered, and then the object is no longer theirs. -/
theorem addModule_filed (h : Filed E k (insert ⟨x, recordClass⟩ others) es) (hnew : ⟨x, recordClass⟩ ∉ others)
    (hfresh : k.record? (.stored x) = some (.fresh i)) : (addModule (.stored x)).Ends k fun r k' =>
      (r = .error (.fault .badArgs) ∧ k' = k) ∨
      (r = .ok () ∧ Leads E ∅ k k' ∧ Filed E k' others (⟨.stored x, i⟩ :: es)) := by
  have hx : ⟨x, recordClass⟩ ∈ k.objects := h.other_mem (Set.mem_insert _ _)
  obtain ⟨hcell, hapart⟩ := Set.disjoint_insert_left.1 h.apart
  have hapart' : ∀ e ∈ es, RecordId.stored x ≠ e.id ∧ Disjoint (RecordId.stored x).bytes e.id.bytes := by
    intro e he
    obtain ⟨y, hy⟩ := h.stored e he
    have hne : (⟨x, recordClass⟩ : Object) ≠ ⟨y, recordClass⟩ := fun heq => hcell (heq ▸ mem_cells.2 ⟨e, he, hy⟩)
    rw [hy]
    refine ⟨fun heq => hne (by rw [RecordId.stored.inj heq]), ?_⟩
    exact (disjoint_objects h.stands hx (h.cell_mem he hy) hne).mono (cell_subset x) (cell_subset y)
  refine (addModule_ends h.shelves hfresh hapart' (linkable_object h.stands hx) h.length_lt).mono ?_
  intro r k' hends
  refine hends.imp_right fun hends => ?_
  obtain ⟨rfl, hshelves, hrelinks⟩ := hends
  have hids : ∀ id ∈ RecordId.stored x :: es.map Entry.id, ∀ a ∈ id.bytes, ∃ o ∈ k.objects, a ∈ o.bytes := by
    intro id hid a ha
    rcases List.mem_cons.1 hid with rfl | hid
    · exact ⟨_, hx, cell_subset x ha⟩
    · obtain ⟨e, he, rfl⟩ := List.mem_map.1 hid
      exact h.bytes_subset he ha
  have hcells : insert ⟨x, recordClass⟩ others ∪ cells es = others ∪ cells (⟨.stored x, i⟩ :: es) := by
    rw [cells_cons, Set.insert_union, Set.union_insert]
  have hdisjoint : Disjoint others (cells (⟨.stored x, i⟩ :: es)) := by
    rw [cells_cons, Set.disjoint_insert_right]
    exact ⟨hnew, hapart⟩
  obtain ⟨hfiled, hleads⟩ := h.relinked hshelves hrelinks hids (List.forall_mem_cons.2 ⟨⟨x, rfl⟩, h.stored⟩) hcells
    hdisjoint
  exact ⟨rfl, hleads, hfiled⟩

/-- **Storing a record** registers it in a new object, or leaves the registry and the number of objects. -/
theorem storeRecord_ends (h : Filed E k others es) (i : ModuleInfo) : (storeRecord i).Ends k fun r k' =>
    Leads E Set.univ k k' ∧
      ((∃ x i', r = .ok (.stored x) ∧ i'.name = i.name ∧ Filed E k' others (⟨.stored x, i'⟩ :: es)) ∨
        (Refused r k' ∧ k'.shelf = k.shelf ∧ Filed E k' others es)) := by
  have hallocate : (onGround (Ground.allocate recordSize)).Ends k fun _ k' => Leads E Set.univ k k' :=
    steps_onGround (Ground.steps_allocate recordSize) k
  unfold storeRecord
  rw [Action.ends_bind, ends_escalate]
  refine (hallocate.and (allocate_objects h.stands recordSize)).mono ?_
  intro r k₁ hends
  obtain ⟨hleads₁, hk, hst, hp, ⟨x, c, rfl, hc, hnew, hobj⟩ | ⟨href, hobj⟩⟩ := hends
  · obtain rfl : recordClass = c := Except.ok.inj (classFor_recordSize.symm.trans hc)
    have hother : ⟨x, recordClass⟩ ∉ others := fun hmem => hnew (h.other_mem hmem)
    have hcell : ⟨x, recordClass⟩ ∉ cells es := fun hmem => hnew (h.objects ▸ .inr hmem)
    -- until it is registered, the new object counts as one of others
    rw [h.objects, ← Set.insert_union] at hobj
    obtain ⟨hfiled₁, hshelf₁⟩ := h.onGround hk hst hp hobj (Set.disjoint_insert_left.2 ⟨hcell, h.apart⟩)
    rw [escalated_eq_ok.2 rfl, Action.goes_ok]
    dsimp only
    refine (keepRecord_ends hfiled₁ (Set.mem_insert _ _) i).bind ?_
    intro r k₂ hends
    obtain ⟨rfl, hleads₂, hfiled₂, hshelf₂, i', hname, hfresh⟩ := hends
    have hleads₂ := hleads₁.trans (hleads₂.mono (Set.empty_subset _))
    rw [Action.goes_ok, Action.ends_bind, Action.ends_attempt]
    refine (addModule_filed hfiled₂ hother hfresh).mono ?_
    intro r k₃ hends
    rcases hends with ⟨rfl, rfl⟩ | ⟨rfl, hleads₃, hfiled₃⟩
    · -- the name is listed, so the object comes back
      rw [Action.attempted_fault, Action.goes_ok]
      refine (releaseRecord_ends hfiled₂ hother).bind ?_
      intro r k₄ hends
      obtain ⟨rfl, hleads₄, hfiled₄, hshelf₄⟩ := hends
      exact ⟨hleads₂.trans (hleads₄.mono (Set.empty_subset _)),
        .inr ⟨refused_fault nofun, hshelf₄.trans (hshelf₂.trans hshelf₁), hfiled₄⟩⟩
    · exact ⟨hleads₂.trans (hleads₃.mono (Set.empty_subset _)), .inl ⟨x, i', rfl, hname, hfiled₃⟩⟩
  · rw [h.objects] at hobj
    obtain ⟨hfiled₁, hshelf₁⟩ := h.onGround hk hst hp hobj h.apart
    exact href.escalated.goes fun r' hr' => ⟨hleads₁, .inr ⟨hr', hshelf₁, hfiled₁⟩⟩

/-! ## Unloading -/

/-- **The record of a name** leaves the list, and its object counts as one of others again. -/
theorem removeModule_filed (h : Filed E k others es) (name : String) : (removeModule name).Ends k fun r k' =>
    (r = .error (.fault .noSuch) ∧ (∀ e ∈ es, e.name ≠ name) ∧ k' = k) ∨
    ∃ xs x i ys, es = xs ++ ⟨.stored x, i⟩ :: ys ∧ i.name.text = name ∧ r = .ok (.stored x) ∧ Leads E ∅ k k' ∧
      ⟨x, recordClass⟩ ∉ others ∧ Filed E k' (insert ⟨x, recordClass⟩ others) (xs ++ ys) ∧
      k'.record? (.stored x) = some (.fresh i) := by
  refine (removeModule_ends h.shelves name).mono ?_
  intro r k' hends
  refine hends.imp_right fun hends => ?_
  obtain ⟨xs, id, i, ys, rfl, hname, rfl, hshelves, hfresh, hrelinks⟩ := hends
  obtain ⟨x, rfl⟩ := h.stored ⟨id, i⟩ (by simp)
  obtain ⟨hidx, hidy, -⟩ := Registry.lists_middle h.lists
  have hapart := h.apart
  rw [cells_middle, Set.disjoint_insert_right] at hapart
  obtain ⟨hnew, hapart⟩ := hapart
  have hcell : ⟨x, recordClass⟩ ∉ cells (xs ++ ys) := by
    rw [mem_cells]
    rintro ⟨e, he, hid⟩
    rcases List.mem_append.1 he with he | he
    · exact hidx (List.mem_map.2 ⟨e, he, hid⟩)
    · exact hidy (List.mem_map.2 ⟨e, he, hid⟩)
  have hids : ∀ id ∈ (xs ++ ⟨.stored x, i⟩ :: ys).map Entry.id, ∀ a ∈ id.bytes, ∃ o ∈ k.objects, a ∈ o.bytes := by
    intro id hid a ha
    obtain ⟨e, he, rfl⟩ := List.mem_map.1 hid
    exact h.bytes_subset he ha
  obtain ⟨hfiled, hleads⟩ := h.relinked hshelves hrelinks hids
    (fun e he => h.stored e (List.perm_middle.mem_iff.2 (List.mem_cons_of_mem _ he)))
    (by rw [cells_middle, Set.insert_union, Set.union_insert]) (Set.disjoint_insert_left.2 ⟨hcell, hapart⟩)
  exact ⟨xs, x, i, ys, rfl, hname, rfl, hleads, hnew, hfiled, hfresh⟩

/-- Modules are the last stage. -/
theorem stage_eq_modules {s : Stage} (h : ¬s.rank < Stage.modules.rank) : s = .modules := by
  cases s with
  | modules => rfl
  | early => exact absurd (by decide) h
  | memory => exact absurd (by decide) h

/-- **Unloading** answers the module of the name and gives its record back, or it changes nothing. -/
theorem unloadModule_ends (h : Filed E k others es) (name : String) : (unloadModule name).Ends k fun r k' =>
    Leads E ∅ k k' ∧
      ((∃ xs e ys, es = xs ++ e :: ys ∧ e.name = name ∧ k.stage = .modules ∧ r = .ok e.info ∧
        Filed E k' others (xs ++ ys)) ∨
      (r = .error (.fault .notInit) ∧ k.stage ≠ .modules ∧ k' = k) ∨
      (r = .error (.fault .noSuch) ∧ (∀ e ∈ es, e.name ≠ name) ∧ k' = k)) := by
  unfold unloadModule
  rw [Action.ends_bind, ends_require]
  split
  · rename_i hrank
    refine ⟨refl k, .inr (.inl ⟨rfl, fun hs => ?_, rfl⟩)⟩
    rw [hs] at hrank
    exact absurd hrank (by decide)
  · rename_i hrank
    have hstage := stage_eq_modules hrank
    rw [Action.goes_ok]
    refine (removeModule_filed h name).bind ?_
    intro r k₁ hends
    rcases hends with ⟨rfl, hno, rfl⟩ | ⟨xs, x, i, ys, rfl, hname, rfl, hleads₁, hnew, hfiled₁, hfresh⟩
    · exact ⟨refl _, .inr (.inr ⟨rfl, hno, rfl⟩)⟩
    · rw [Action.goes_ok, Action.ends_bind, record, Action.ends_bind, Action.ends_get, Action.goes_ok, hfresh,
        Action.ends_some, Action.goes_ok]
      refine (releaseRecord_ends hfiled₁ hnew).bind ?_
      intro r k₂ hends
      obtain ⟨rfl, hleads₂, hfiled₂, -⟩ := hends
      exact ⟨hleads₁.trans hleads₂, .inl ⟨xs, ⟨.stored x, i⟩, ys, rfl, hname, hstage, rfl, hfiled₂⟩⟩

end Keel.Kernel
