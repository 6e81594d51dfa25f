import Keel.Kernel.State
import Keel.Proofs.Module.Cells
import Keel.Proofs.Module.Registry

/-!
# The registry in memory

The registry sees the records as they are read (`record?_of_mem`), and a list of which it sees all records is one it has
(`lists_shelf`). What it writes back is read again: records that lie apart take their links and marks one after the
other, and none of them touches another (`record?_setShelf`). Nothing else is written (`alters_setShelf`), and nothing at
all if nothing has changed (`setShelf_shelfWith`).

`Shelves k es` says that the registry of a kernel lists `es` and that the records of `es` lie apart. So what the registry
does to its list, it does to the records in memory: a fresh record apart from them joins in front (`addModule_ends`),
the record of a name leaves and is free (`removeModule_ends`), and what fails leaves the kernel as it was.
-/

namespace Keel

/-- Where in memory a record is. -/
def RecordId.bytes : RecordId → Set Ptr
  | .owned _ => ∅
  | .stored p => Cell.bytes p

namespace Kernel

open Keel.Action (Steps)
open Keel.Memory (Alters)
open Keel.Registry (Entry Links)
open Keel.Cell (Linkable)

attribute [local irreducible] Memory.word Cell.read

variable {k k' : Kernel} {ids : List RecordId} {b : Shelf} {es xs ys : List Entry} {ts : List (RecordId × Record)}
  {e : RecordId × Record} {id : RecordId} {r : Record} {i : ModuleInfo}

/-! ## Reading -/

/-- The registry sees records as they are. -/
theorem record?_of_mem (h : e ∈ (k.shelfWith ids).store.entries) : k.record? e.1 = some e.2 := by
  rcases List.mem_append.1 h with h | h
  · obtain ⟨id, -, hr⟩ := List.mem_filterMap.1 h
    cases hid : k.record? id with
    | none => simp [hid] at hr
    | some r =>
      rw [hid, Option.map_some, Option.some.injEq] at hr
      rw [← hr]
      exact hid
  · exact Registry.get?_of_mem_recordsFrom h

theorem get?_of_mem_shelfWith (h : id ∈ (k.shelfWith ids).store.entries.map Prod.fst) :
    (k.shelfWith ids).store.get? id = k.record? id := RecordStore.get?_of_graph (fun _ he => record?_of_mem he) h

/-- The registry sees the record that it was asked to look at. -/
theorem get?_shelfWith (hid : id ∈ ids) (hr : k.record? id = some r) : (k.shelfWith ids).store.get? id = some r := by
  rw [get?_of_mem_shelfWith, hr]
  refine List.mem_map.2 ⟨(id, r), List.mem_append_left _ (List.mem_filterMap.2 ⟨id, hid, ?_⟩), rfl⟩
  rw [hr, Option.map_some]

theorem record?_of_lists (h : (k.shelfWith ids).Lists es) {e : Entry} (he : e ∈ es) :
    (k.shelfWith ids).store.get? e.id = k.record? e.id := by
  obtain ⟨next, hget⟩ := h.links.get? he
  exact get?_of_mem_shelfWith (RecordStore.mem_of_get? hget)

/-- The records of a list are all that the registry sees. -/
theorem entries_shelf (h : b.Lists es) (hregistry : k.registry = b.registry)
    (hrecords : ∀ e ∈ es, k.record? e.id = b.store.get? e.id) (hlt : es.length < 2 ^ 64) :
    k.shelf.store.entries = b.registry.records b.store := by
  show Registry.recordsFrom k.record? k.recordLimit k.registry.head = _
  rw [hregistry]
  refine h.links.recordsFrom_congr hrecords ?_ h.length_le
  exact (Nat.le_of_lt hlt).trans (Nat.le_add_right _ _)

/-- **A list** of which all records are there is one that the registry has. -/
theorem lists_shelf (h : b.Lists es) (hregistry : k.registry = b.registry)
    (hrecords : ∀ e ∈ es, k.record? e.id = b.store.get? e.id) (hlt : es.length < 2 ^ 64) : k.shelf.Lists es := by
  have hsame := h.congr (s := k.shelf.store) fun e he => by
    have hmem : e.id ∈ (k.shelfWith []).store.entries.map Prod.fst := by
      rw [show (k.shelfWith []).store.entries = _ from entries_shelf h hregistry hrecords hlt]
      rw [← h.records_eq] at he
      obtain ⟨e', he', rfl⟩ := List.mem_map.1 he
      exact List.mem_map.2 ⟨e', he', rfl⟩
    exact (get?_of_mem_shelfWith hmem).trans (hrecords e he)
  rwa [← hregistry] at hsame

/-- Nothing is listed where nothing is registered. -/
theorem lists_empty (h : k.registry = .empty) : k.shelf.Lists [] := by
  unfold shelf shelfWith
  rw [h]
  exact .empty _

/-- The registry has the same list whichever records it looks at besides. -/
theorem lists_shelfWith (h : k.shelf.Lists es) (ids : List RecordId) : (k.shelfWith ids).Lists es :=
  h.congr fun e he => by
    obtain ⟨next, hget⟩ := h.links.get? he
    have hmem : e.id ∈ k.shelf.store.entries.map Prod.fst := RecordStore.mem_of_get? hget
    have hmem' : e.id ∈ (k.shelfWith ids).store.entries.map Prod.fst := by
      rw [shelfWith, List.map_append, List.mem_append]
      exact .inr hmem
    exact (get?_of_mem_shelfWith hmem').trans (record?_of_lists h he).symm

/-! ## Writing -/

theorem record?_owned (k : Kernel) (n : Nat) : k.record? (.owned n) = k.owned.get? (.owned n) := rfl

theorem relink_owned (k : Kernel) (n : Nat) (r : Record) : k.relink (.owned n, r) =
    { k with owned := k.owned.update (.owned n) fun _ => r } := rfl

theorem relink_stored (k : Kernel) (p : Ptr) (r : Record) : k.relink (.stored p, r) =
    { k with ground.arena.memory := Cell.relink k.ground.arena.memory p r.next r.linked } := rfl

/-- Writing a link changes a record outside memory, or memory. -/
theorem relink_eq (k : Kernel) (e : RecordId × Record) :
    ∃ m o, k.relink e = { k with ground.arena.memory := m, owned := o } := by
  unfold relink
  split
  · exact ⟨_, _, rfl⟩
  · exact ⟨_, _, rfl⟩

theorem alters_relink (k : Kernel) (e : RecordId × Record) :
    Alters e.1.bytes k.ground.arena.memory (k.relink e).ground.arena.memory := by
  obtain ⟨id, r⟩ := e
  cases id with
  | owned n => exact Alters.refl _ _
  | stored p => exact (Cell.alters_relink _ p r.next r.linked).mono (Cell.relink_subset p)

theorem record?_relink_stored {p : Ptr} (hr : k.record? (.stored p) = some r) (t : Record) :
    (k.relink (.stored p, t)).record? (.stored p) =
      some { r with next := Cell.linkOf (Cell.linkWord t.next), linked := t.linked } := by
  rw [relink_stored]
  exact Cell.read_relink hr t.next t.linked

/-- **A link that is written** is read again. -/
theorem record?_relink (hr : k.record? e.1 = some r) (hi : r.info = e.2.info) (hnext : Linkable e.2.next) :
    (k.relink e).record? e.1 = some e.2 := by
  obtain ⟨id, r'⟩ := e
  cases id with
  | owned n =>
    have hget : k.owned.get? (.owned n) = some r := hr
    rw [relink_owned, record?_owned, RecordStore.get?_update, if_pos rfl, hget, Option.map_some]
  | stored p =>
    rw [record?_relink_stored hr, Cell.linkOf_linkWord hnext, hi]

/-- A record is left as it is by links that are written apart from it. -/
theorem record?_relink_of_apart (hne : id ≠ e.1) (hd : Disjoint id.bytes e.1.bytes) :
    (k.relink e).record? id = k.record? id := by
  obtain ⟨id', r'⟩ := e
  cases id with
  | owned n =>
    cases id' with
    | owned n' =>
      rw [relink_owned, record?_owned, RecordStore.get?_update, if_neg hne, record?_owned]
    | stored p => rw [relink_stored, record?_owned, record?_owned]
  | stored p =>
    have htexts : (k.relink (id', r')).texts = k.texts := by
      obtain ⟨m, o, hk⟩ := k.relink_eq (id', r')
      rw [hk]
    show Cell.read (k.relink (id', r')).texts (k.relink (id', r')).ground.arena.memory p = k.record? (.stored p)
    rw [htexts]
    exact Cell.read_congr (k.alters_relink (id', r')) hd

/-- Records of which none lies in another. -/
def Apart (ids : List RecordId) : Prop := ∀ id ∈ ids, ∀ id' ∈ ids, id ≠ id' → Disjoint id.bytes id'.bytes

theorem record?_foldl_of_apart (h : ∀ e ∈ ts, id ≠ e.1 ∧ Disjoint id.bytes e.1.bytes) :
    (ts.foldl relink k).record? id = k.record? id := by
  induction ts generalizing k with
  | nil => rfl
  | cons t ts ih =>
    obtain ⟨hne, hd⟩ := h t List.mem_cons_self
    rw [List.foldl_cons, ih fun e he => h e (List.mem_cons_of_mem _ he), record?_relink_of_apart hne hd]

theorem record?_foldl (hdistinct : (ts.map Prod.fst).Nodup) (hapart : Apart (ts.map Prod.fst))
    (hfit : ∀ e ∈ ts, Linkable e.2.next ∧ ∃ r, k.record? e.1 = some r ∧ r.info = e.2.info) (he : e ∈ ts) :
    (ts.foldl relink k).record? e.1 = some e.2 := by
  induction ts generalizing k with
  | nil => cases he
  | cons t ts ih =>
    obtain ⟨hnew, hdistinct⟩ := List.nodup_cons.1 hdistinct
    have hfirst : ∀ e ∈ ts, t.1 ≠ e.1 ∧ Disjoint t.1.bytes e.1.bytes := fun e he => by
      have hmem : e.1 ∈ ts.map Prod.fst := List.mem_map_of_mem he
      have hne : t.1 ≠ e.1 := fun heq => hnew (heq ▸ hmem)
      exact ⟨hne, hapart _ List.mem_cons_self _ (List.mem_cons_of_mem _ hmem) hne⟩
    obtain ⟨⟨hnext, r, hr, hi⟩, hfit⟩ := List.forall_mem_cons.1 hfit
    rw [List.foldl_cons]
    rcases List.mem_cons.1 he with rfl | he
    · rw [record?_foldl_of_apart hfirst, record?_relink hr hi hnext]
    · have hrest : Apart (ts.map Prod.fst) := fun id hid id' hid' =>
        hapart id (List.mem_cons_of_mem _ hid) id' (List.mem_cons_of_mem _ hid')
      refine ih hdistinct hrest (fun e he => ?_) he
      obtain ⟨hne, hd⟩ := hfirst e he
      rw [record?_relink_of_apart hne.symm hd.symm]
      exact hfit e he

theorem foldl_relink_eq (k : Kernel) (ts : List (RecordId × Record)) :
    ∃ m o, ts.foldl relink k = { k with ground.arena.memory := m, owned := o } := by
  induction ts generalizing k with
  | nil => exact ⟨_, _, rfl⟩
  | cons t ts ih =>
    obtain ⟨m, o, hk⟩ := k.relink_eq t
    obtain ⟨m', o', hk'⟩ := ih (k.relink t)
    exact ⟨m', o', by rw [List.foldl_cons, hk', hk]⟩

theorem alters_foldl_relink (k : Kernel) (ts : List (RecordId × Record)) :
    Alters {a | ∃ id ∈ ts.map Prod.fst, a ∈ id.bytes} k.ground.arena.memory
      (ts.foldl relink k).ground.arena.memory := by
  induction ts generalizing k with
  | nil => exact Alters.refl _ _
  | cons t ts ih =>
    have hfirst := (k.alters_relink t).mono (T := {a | ∃ id ∈ (t :: ts).map Prod.fst, a ∈ id.bytes}) fun a ha =>
      ⟨t.1, by simp, ha⟩
    exact hfirst.trans ((ih (k.relink t)).mono fun a ⟨id, hid, ha⟩ => ⟨id, List.mem_cons_of_mem _ hid, ha⟩)

theorem mem_changed : e ∈ k.changed b ↔ e ∈ b.store.entries ∧ k.record? e.1 ≠ some e.2 := by
  rw [changed, List.mem_filter, decide_eq_true_iff]

/-- What the registry writes are records, in memory and with their owners, and its own head and count. -/
theorem setShelf_eq (k : Kernel) (b : Shelf) :
    ∃ m o, k.setShelf b = { k with ground.arena.memory := m, owned := o, registry := b.registry } := by
  obtain ⟨m, o, hk⟩ := k.foldl_relink_eq (k.changed b)
  exact ⟨m, o, by rw [setShelf, hk]⟩

/-- What is done to the registry changes memory, what owners keep and the registry. -/
theorem steps_onShelfWith {α : Type} {R : Kernel → Kernel → Prop}
    (hR : ∀ k m o g, R k { k with ground.arena.memory := m, owned := o, registry := g }) (ids : List RecordId)
    (x : Action Shelf α) : Steps R (onShelfWith ids x) := by
  intro k
  obtain ⟨m, o, hk⟩ := k.setShelf_eq (x (k.shelfWith ids)).state
  show R k (k.setShelf (x (k.shelfWith ids)).state)
  rw [hk]
  exact hR k m o _

/-- Making a record changes memory, what owners keep and the table of texts. -/
theorem steps_keepRecord {R : Kernel → Kernel → Prop}
    (hR : ∀ k m o t, R k { k with ground.arena.memory := m, owned := o, texts := t }) (id : RecordId) (i : ModuleInfo) :
    Steps R (keepRecord id i) := by
  intro k
  cases id with
  | owned n => exact hR k k.ground.arena.memory _ k.texts
  | stored p => exact hR k _ k.owned _

/-- **In memory** the registry writes into the records it has seen. -/
theorem alters_setShelf (k : Kernel) (b : Shelf) : Alters {a | ∃ id ∈ b.store.entries.map Prod.fst, a ∈ id.bytes}
    k.ground.arena.memory (k.setShelf b).ground.arena.memory := by
  refine (k.alters_foldl_relink (k.changed b)).mono ?_
  rintro a ⟨id, hid, ha⟩
  obtain ⟨e, he, rfl⟩ := List.mem_map.1 hid
  exact ⟨e.1, List.mem_map_of_mem (mem_changed.1 he).1, ha⟩

/-- **A shelf that has not changed** is not written back. -/
theorem setShelf_shelfWith (k : Kernel) (ids : List RecordId) : k.setShelf (k.shelfWith ids) = k := by
  have hnone : k.changed (k.shelfWith ids) = [] := List.eq_nil_iff_forall_not_mem.2 fun e he =>
    (mem_changed.1 he).2 (record?_of_mem (mem_changed.1 he).1)
  rw [setShelf, hnone]
  rfl

theorem ids_of_same (h : Registry.SameModules (k.shelfWith ids) b) :
    b.store.entries.map Prod.fst = (k.shelfWith ids).store.entries.map Prod.fst := by
  have hmap := congrArg (List.map Entry.id) h
  rwa [List.map_map, List.map_map] at hmap

/-- **What is written back** is read again, where the records lie apart and words can tell the links. -/
theorem record?_setShelf (hsame : Registry.SameModules (k.shelfWith ids) b)
    (hdistinct : ((k.shelfWith ids).store.entries.map Prod.fst).Nodup)
    (hapart : Apart ((k.shelfWith ids).store.entries.map Prod.fst))
    (hlinks : ∀ e ∈ b.store.entries, Linkable e.2.next) (he : e ∈ b.store.entries) :
    (k.setShelf b).record? e.1 = some e.2 := by
  rw [← ids_of_same hsame] at hdistinct hapart
  show ((k.changed b).foldl relink k).record? e.1 = some e.2
  have hsub : (k.changed b).Sublist b.store.entries := List.filter_sublist
  by_cases hnew : k.record? e.1 = some e.2
  · rw [record?_foldl_of_apart, hnew]
    intro e' he'
    obtain ⟨hmem, hne⟩ := mem_changed.1 he'
    have hid : e.1 ≠ e'.1 := fun heq => by
      rw [List.inj_on_of_nodup_map hdistinct he hmem heq] at hnew
      exact hne hnew
    exact ⟨hid, hapart _ (List.mem_map_of_mem he) _ (List.mem_map_of_mem hmem) hid⟩
  · have hmem : ∀ id ∈ (k.changed b).map Prod.fst, id ∈ b.store.entries.map Prod.fst := fun id hid =>
      (hsub.map Prod.fst).subset hid
    refine record?_foldl (hdistinct.sublist (hsub.map Prod.fst))
      (fun id hid id' hid' => hapart id (hmem id hid) id' (hmem id' hid')) (fun e he => ?_) (mem_changed.2 ⟨he, hnew⟩)
    have he := hsub.subset he
    have hof : Entry.of e ∈ (k.shelfWith ids).store.entries.map Entry.of := hsame ▸ List.mem_map_of_mem he
    obtain ⟨e', he', heq⟩ := List.mem_map.1 hof
    rw [Entry.of, Entry.of, Entry.mk.injEq] at heq
    obtain ⟨hid, hinfo⟩ := heq
    exact ⟨hlinks e he, e'.2, hid ▸ record?_of_mem he', hinfo⟩

/-! ## Lists of records in memory -/

/-- The registry lists `es`, and the records are apart and where links can lead. -/
structure Shelves (k : Kernel) (es : List Entry) : Prop where
  lists : k.shelf.Lists es
  few : es.length < 2 ^ 64
  apart : Apart (es.map Entry.id)
  linkable : ∀ e ∈ es, Linkable (some e.id)

/-- Only the registry and the records `ids` have changed, and in memory no byte beside them. -/
def Relinks (ids : List RecordId) (k k' : Kernel) : Prop :=
  (∃ m o g, k' = { k with ground.arena.memory := m, owned := o, registry := g }) ∧
    Alters {a | ∃ id ∈ ids, a ∈ id.bytes} k.ground.arena.memory k'.ground.arena.memory

namespace Shelves

/-- The registry sees the records of a list. -/
theorem sees (h : k.Shelves es) {e : Entry} (he : e ∈ es) : k.shelf.store.get? e.id = k.record? e.id :=
  record?_of_lists h.lists he

theorem entries (h : k.Shelves es) : k.shelf.store.entries.map Entry.of = es := by
  have hentries : k.shelf.store.entries = k.shelf.registry.records k.shelf.store :=
    entries_shelf h.lists rfl (fun e he => (h.sees he).symm) h.few
  rw [hentries, h.lists.records_eq]

theorem map_fst (h : k.Shelves es) : k.shelf.store.entries.map Prod.fst = es.map Entry.id := by
  have hmap := congrArg (List.map Entry.id) h.entries
  rwa [List.map_map] at hmap

/-- The record of an entry. -/
theorem record? (h : k.Shelves es) {e : Entry} (he : e ∈ es) :
    ∃ next, k.record? e.id = some ⟨e.info, next, true⟩ := by
  obtain ⟨next, hget⟩ := h.lists.links.get? he
  exact ⟨next, (h.sees he).symm.trans hget⟩

/-- **A list stays** if its records and the head of the registry do, and the registry sees the same. -/
theorem congr (h : k.Shelves es) (hregistry : k'.registry = k.registry)
    (hrecords : ∀ e ∈ es, k'.record? e.id = k.record? e.id) : k'.Shelves es ∧ k'.shelf = k.shelf := by
  have hsees : ∀ e ∈ es, k'.record? e.id = k.shelf.store.get? e.id := fun e he =>
    (hrecords e he).trans (h.sees he).symm
  refine ⟨⟨lists_shelf h.lists hregistry hsees h.few, h.few, h.apart, h.linkable⟩, ?_⟩
  have hentries : k'.shelf.store.entries = k.shelf.store.entries := by
    rw [entries_shelf h.lists hregistry hsees h.few,
      entries_shelf h.lists rfl (fun e he => (h.sees he).symm) h.few]
  show (⟨⟨k'.shelf.store.entries⟩, k'.registry⟩ : Shelf) = ⟨⟨k.shelf.store.entries⟩, k.registry⟩
  rw [hentries, hregistry]

/-- What the registry does to the records it sees is what becomes of them, if those it no longer lists lead nowhere. -/
theorem setShelf {ids : List RecordId} (hsame : Registry.SameModules (k.shelfWith ids) b) (hb : b.Lists es)
    (hids : (k.shelfWith ids).store.entries.map Prod.fst = xs.map Entry.id) (hdistinct : (xs.map Entry.id).Nodup)
    (hapart : Apart (xs.map Entry.id)) (hlinkable : ∀ e ∈ xs, Linkable (some e.id)) (hsub : es ⊆ xs)
    (hfew : es.length < 2 ^ 64) (hfree : ∀ e ∈ xs, e ∈ es ∨ ∃ i, b.store.get? e.id = some (.fresh i)) :
    (k.setShelf b).Shelves es ∧ (∀ e r, b.store.get? e = some r → (k.setShelf b).record? e = some r) ∧
      Relinks (xs.map Entry.id) k (k.setShelf b) := by
  have hsees : b.store.entries.map Prod.fst = xs.map Entry.id := (ids_of_same hsame).trans hids
  have hgraph : ∀ e ∈ b.store.entries, b.store.get? e.1 = some e.2 := fun e he =>
    RecordStore.get?_of_mem (hsees ▸ hdistinct) he
  have hlinks : ∀ e ∈ b.store.entries, Linkable e.2.next := fun e he => by
    have hmem : e.1 ∈ xs.map Entry.id := hsees ▸ List.mem_map_of_mem he
    obtain ⟨x, hx, hid⟩ := List.mem_map.1 hmem
    rcases hfree x hx with hlisted | ⟨i, hfresh⟩
    · rcases hb.links.next_mem hlisted (hid ▸ hgraph e he) with hnext | ⟨e', he', hnext⟩
      · rw [hnext]
        trivial
      · rw [hnext]
        exact hlinkable e' (hsub he')
    · rw [hid, hgraph e he, Option.some.injEq] at hfresh
      rw [hfresh]
      trivial
  have hread : ∀ id r, b.store.get? id = some r → (k.setShelf b).record? id = some r := fun id r hget =>
    record?_setShelf hsame (hids ▸ hdistinct) (hids ▸ hapart) hlinks (RecordStore.mem_entries_of_get? hget)
  refine ⟨⟨lists_shelf hb ?_ (fun e he => ?_) hfew, hfew, ?_, fun e he => hlinkable e (hsub he)⟩, hread, ?_, ?_⟩
  · obtain ⟨m, o, hk⟩ := k.setShelf_eq b
    rw [hk]
  · obtain ⟨next, hget⟩ := hb.links.get? he
    rw [hget, hread _ _ hget]
  · exact fun id hid id' hid' => hapart id (List.map_subset _ hsub hid) id' (List.map_subset _ hsub hid')
  · obtain ⟨m, o, hk⟩ := k.setShelf_eq b
    exact ⟨m, o, _, hk⟩
  · rw [← hsees]
    exact k.alters_setShelf b

end Shelves

/-! ## Operations -/

theorem ends_onShelfWith {α : Type} {ids : List RecordId} {x : Action Shelf α} {Q : Checked Fault α → Kernel → Prop} :
    (onShelfWith ids x).Ends k Q ↔ x.Ends (k.shelfWith ids) fun r b => Q r (k.setShelf b) := Iff.rfl

/-- Links change nothing of what a record in memory tells of its module. -/
theorem info_foldl_relink {p : Ptr} (hts : ∀ e ∈ ts, e.1 = .stored p) (hr : k.record? (.stored p) = some r) :
    ∃ r', (ts.foldl relink k).record? (.stored p) = some r' ∧ r'.info = r.info := by
  induction ts generalizing k r with
  | nil => exact ⟨r, hr, rfl⟩
  | cons t ts ih =>
    obtain ⟨id, t⟩ := t
    obtain ⟨hid, hrest⟩ := List.forall_mem_cons.1 hts
    obtain rfl : id = .stored p := hid
    obtain ⟨r', hr', hinfo⟩ := ih hrest (record?_relink_stored hr t)
    rw [List.foldl_cons]
    exact ⟨r', hr', hinfo⟩

theorem info_setShelf {p : Ptr} (hkeeps : Registry.KeepsOthers (.stored p) (k.shelfWith ids) b)
    (hr : k.record? (.stored p) = some r) :
    ∃ r', (k.setShelf b).record? (.stored p) = some r' ∧ r'.info = r.info := by
  refine info_foldl_relink (fun e he => ?_) hr
  obtain ⟨hmem, hne⟩ := mem_changed.1 he
  by_contra hid
  exact hne (record?_of_mem (hkeeps e hmem hid))

/-- **Whatever the registry lists**, a record that is added tells of the same module. -/
theorem info_addModule {p : Ptr} (hr : k.record? (.stored p) = some r) : (addModule (.stored p)).Ends k fun _ k' =>
    ∃ r', k'.record? (.stored p) = some r' ∧ r'.info = r.info := by
  unfold addModule
  refine Action.Ends.bind (P := fun _ k' => ∃ r', k'.record? (.stored p) = some r' ∧ r'.info = r.info) ?_ ?_
  · rw [ends_onShelfWith]
    exact (Registry.keepsOthers_add (.stored p) _).mono fun _ _ hkeeps => info_setShelf hkeeps hr
  · intro a k' hends
    cases a with
    | error e => exact hends
    | ok _ =>
      obtain ⟨r', hr', hinfo⟩ := hends
      rw [Action.goes_ok, Action.ends_bind, record, Action.ends_bind, Action.ends_get, Action.goes_ok, hr',
        Action.ends_some, Action.goes_ok, Action.ends_note]
      exact ⟨r', hr', hinfo⟩

/-- **A fresh record** joins the list in front, unless its name is listed. -/
theorem addModule_ends (h : k.Shelves es) (hid : k.record? id = some (.fresh i))
    (hnew : ∀ e ∈ es, id ≠ e.id ∧ Disjoint id.bytes e.id.bytes) (hlinkable : Linkable (some id))
    (hlt : es.length + 1 < 2 ^ 64) : (addModule id).Ends k fun a k' =>
      (a = .error (.fault .badArgs) ∧ k' = k) ∨
      (a = .ok () ∧ k'.Shelves (⟨id, i⟩ :: es) ∧ Relinks (id :: es.map Entry.id) k k') := by
  have hentries : (k.shelfWith [id]).store.entries = (id, .fresh i) :: k.shelf.store.entries := by
    simp only [shelf, shelfWith, List.filterMap_cons, hid, Option.map_some, List.filterMap_nil, List.cons_append,
      List.nil_append]
  have hids : (k.shelfWith [id]).store.entries.map Prod.fst = ((⟨id, i⟩ : Entry) :: es).map Entry.id := by
    rw [hentries, List.map_cons, h.map_fst]
    rfl
  have hapart : Apart (((⟨id, i⟩ : Entry) :: es).map Entry.id) := by
    rw [List.map_cons]
    intro x hx y hy hne
    rcases List.mem_cons.1 hx with rfl | hmem
    · obtain ⟨e, he, rfl⟩ := List.mem_map.1 ((List.mem_cons.1 hy).resolve_left (Ne.symm hne))
      exact (hnew e he).2
    · rcases List.mem_cons.1 hy with rfl | hy
      · obtain ⟨e, he, rfl⟩ := List.mem_map.1 hmem
        exact (hnew e he).2.symm
      · exact h.apart x hmem y hy hne
  unfold addModule record
  rw [Action.ends_bind, ends_onShelfWith]
  have hadd := Registry.add_ends (lists_shelfWith h.lists [id]) (get?_shelfWith (List.mem_singleton_self id) hid)
    fun _ => hlt
  refine ((Registry.steps_add id _).and hadd).mono ?_
  intro a b hends
  obtain ⟨hsame, ⟨rfl, -, rfl⟩ | ⟨rfl, -, hb, -⟩⟩ := hends
  · rw [setShelf_shelfWith]
    exact .inl ⟨rfl, rfl⟩
  · obtain ⟨hshelves, hread, hrelinks⟩ := Shelves.setShelf hsame hb hids hb.distinct hapart
      (List.forall_mem_cons.2 ⟨hlinkable, h.linkable⟩) (List.Subset.refl _) hlt fun e he => .inl he
    obtain ⟨next, hget⟩ := hb.links.get? List.mem_cons_self
    rw [Action.goes_ok]
    simp only [Action.ends_bind, Action.ends_get, Action.goes_ok, hread _ _ hget, Action.ends_some, Action.ends_note]
    exact .inr ⟨trivial, hshelves, hrelinks⟩

/-- **The record of a name** leaves the list and is free, if the name is listed. -/
theorem removeModule_ends (h : k.Shelves es) (name : String) : (removeModule name).Ends k fun a k' =>
    (a = .error (.fault .noSuch) ∧ (∀ e ∈ es, e.name ≠ name) ∧ k' = k) ∨
    ∃ xs id i ys, es = xs ++ ⟨id, i⟩ :: ys ∧ i.name.text = name ∧ a = .ok id ∧ k'.Shelves (xs ++ ys) ∧
      k'.record? id = some (.fresh i) ∧ Relinks (es.map Entry.id) k k' := by
  unfold removeModule onShelf
  rw [Action.ends_bind, ends_onShelfWith]
  refine ((Registry.steps_removeByName name _).and (Registry.removeByName_ends (lists_shelfWith h.lists []) name)).mono ?_
  intro a b hends
  obtain ⟨hsame, ⟨rfl, hno, rfl⟩ | ⟨xs, id, i, ys, rfl, hname, rfl, hb⟩⟩ := hends
  · rw [setShelf_shelfWith]
    exact .inl ⟨rfl, hno, rfl⟩
  · have hsub : xs ++ ys ⊆ xs ++ ⟨id, i⟩ :: ys := fun e he => List.perm_middle.mem_iff.2 (List.mem_cons_of_mem _ he)
    have hfew : (xs ++ ys).length < 2 ^ 64 := by
      have hle := h.few
      rw [List.length_append, List.length_cons] at hle
      rw [List.length_append]
      omega
    obtain ⟨hshelves, hread, hrelinks⟩ := Shelves.setShelf hsame hb.lists h.map_fst h.lists.distinct h.apart h.linkable
      hsub hfew fun e he => (List.mem_cons.1 (List.perm_middle.mem_iff.1 he)).symm.imp_right fun he =>
        ⟨i, by rw [he]; exact hb.freed⟩
    exact .inr ⟨xs, id, i, ys, rfl, hname, rfl, hshelves, hread _ _ hb.freed, hrelinks⟩

end Kernel

end Keel
