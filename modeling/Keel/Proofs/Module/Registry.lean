import Mathlib.Data.List.Nodup
import Mathlib.Data.List.Perm.Subperm
import Keel.Module.Registry
import Keel.Proofs.Checked
import Keel.Proofs.Steps

/-!
# Registries as lists

A shelf *lists* entries, a record and its module each, if its head leads through exactly these records, in this order
(`Links`), no record or name comes twice, and the count is the length (`Shelf.Lists`). Then the walks along the links see
the list (`Lists.records_eq`, `Lists.find?_eq`), and the operations do to it what they do to lists: a record joins in
front unless it is linked or its name is taken (`add_ends`), a record of the list leaves and the others stay in order
(`remove_ends`, `removeByName_ends`), and what fails changes nothing. No other records are written, and those that are
tell of the same modules afterwards (`steps_add`, `steps_removeByName`).
-/

namespace Keel

variable {s s' : RecordStore} {id id' : RecordId} {r : Record} {i : ModuleInfo}

/-! ## Stores -/

namespace RecordStore

/-- A record that is looked up is an entry. -/
theorem mem_entries_of_get? (h : s.get? id = some r) : (id, r) ∈ s.entries := by
  obtain ⟨xs, ys, hxs, -⟩ := List.lookup_eq_some_iff.1 h
  simp [hxs]

theorem mem_of_get? (h : s.get? id = some r) : id ∈ s.entries.map Prod.fst :=
  List.mem_map_of_mem (mem_entries_of_get? h)

/-- Where every entry is what some function tells of its id, a record that there is is looked up like that too. -/
theorem get?_of_graph {f : RecordId → Option Record} (h : ∀ e ∈ s.entries, f e.1 = some e.2)
    (hid : id ∈ s.entries.map Prod.fst) : s.get? id = f id := by
  unfold get?
  cases hl : s.entries.lookup id with
  | none =>
    obtain ⟨e, he, rfl⟩ := List.mem_map.1 hid
    have hne := List.lookup_eq_none_iff.1 hl e he
    simp at hne
  | some r =>
    obtain ⟨xs, ys, hxs, -⟩ := List.lookup_eq_some_iff.1 hl
    exact (h (id, r) (by simp [hxs])).symm

/-- An entry is looked up where no id comes twice. -/
theorem get?_of_mem {e : RecordId × Record} (hn : (s.entries.map Prod.fst).Nodup) (he : e ∈ s.entries) :
    s.get? e.1 = some e.2 := by
  obtain ⟨xs, ys, hxs⟩ := List.append_of_mem he
  refine List.lookup_eq_some_iff.2 ⟨xs, ys, hxs, fun e' he' => ?_⟩
  rw [hxs, List.map_append, List.map_cons, List.nodup_middle, List.nodup_cons] at hn
  rw [bne_iff_ne]
  intro heq
  exact hn.1 (List.mem_append_left _ (heq ▸ List.mem_map_of_mem he'))

end RecordStore

/-! ## Lists of records -/

namespace Registry

/-- A record and its module. -/
structure Entry where
  id : RecordId
  info : ModuleInfo

/-- The name under which an entry is found. -/
def Entry.name (e : Entry) : String := e.info.name.text

/-- The entry of a record, its link left out. -/
def Entry.of (e : RecordId × Record) : Entry := ⟨e.1, e.2.info⟩

/-- The records of `es` are linked each to the next, from `start` to `stop`. -/
def Links (s : RecordStore) : Option RecordId → List Entry → Option RecordId → Prop
  | start, [], stop => start = stop
  | start, e :: es, stop => start = some e.id ∧ ∃ next, s.get? e.id = some ⟨e.info, next, true⟩ ∧ Links s next es stop

variable {start stop next : Option RecordId} {e : Entry} {es xs ys : List Entry}

theorem links_append : Links s start (xs ++ ys) stop ↔ ∃ mid, Links s start xs mid ∧ Links s mid ys stop := by
  induction xs generalizing start with
  | nil => simp [Links]
  | cons x xs ih =>
    simp only [List.cons_append, Links, ih]
    constructor
    · intro h
      obtain ⟨hx, next, hget, mid, hxs, hys⟩ := h
      exact ⟨mid, ⟨hx, next, hget, hxs⟩, hys⟩
    · intro h
      obtain ⟨mid, ⟨hx, next, hget, hxs⟩, hys⟩ := h
      exact ⟨hx, next, hget, mid, hxs, hys⟩

/-- Links go through their own records only. -/
theorem Links.congr (h : Links s start es stop) (hs : ∀ e ∈ es, s'.get? e.id = s.get? e.id) : Links s' start es stop := by
  induction es generalizing start with
  | nil => exact h
  | cons e es ih =>
    obtain ⟨he, next, hget, hes⟩ := h
    refine ⟨he, next, ?_, ih hes fun e' he' => hs e' (List.mem_cons_of_mem _ he')⟩
    rw [hs e List.mem_cons_self, hget]

theorem Links.get? (h : Links s start es stop) (he : e ∈ es) : ∃ next, s.get? e.id = some ⟨e.info, next, true⟩ := by
  induction es generalizing start with
  | nil => cases he
  | cons e' es ih =>
    obtain ⟨-, next, hget, hes⟩ := h
    rcases List.mem_cons.1 he with rfl | he
    · exact ⟨next, hget⟩
    · exact ih hes he

/-- A link leads on to a record of the list, or to its stop. -/
theorem Links.next_mem (h : Links s start es stop) (he : e ∈ es) (hget : s.get? e.id = some r) :
    r.next = stop ∨ ∃ e' ∈ es, r.next = some e'.id := by
  induction es generalizing start with
  | nil => cases he
  | cons e' es ih =>
    obtain ⟨-, next, hget', hes⟩ := h
    rcases List.mem_cons.1 he with rfl | he
    · obtain rfl := Option.some.inj (hget.symm.trans hget')
      cases es with
      | nil => exact .inl hes
      | cons e' es => exact .inr ⟨e', by simp, hes.1⟩
    · exact (ih hes he).imp_right fun ⟨e, he, hnext⟩ => ⟨e, List.mem_cons_of_mem _ he, hnext⟩

/-- What a walk finds are records. -/
theorem get?_of_mem_recordsFrom {f : RecordId → Option Record} {n : Nat} {e : RecordId × Record}
    (h : e ∈ recordsFrom f n start) : f e.1 = some e.2 := by
  induction n generalizing start with
  | zero => cases h
  | succ n ih =>
    cases start with
    | none => cases h
    | some id =>
      rw [recordsFrom] at h
      cases hid : f id with
      | none =>
        rw [hid] at h
        cases h
      | some r =>
        rw [hid] at h
        rcases List.mem_cons.1 h with rfl | h
        · exact hid
        · exact ih h

/-- A walk along the links finds the same records in whatever has the records of the list. -/
theorem Links.recordsFrom_congr {f : RecordId → Option Record} {n k : Nat} (h : Links s start es none)
    (hf : ∀ e ∈ es, f e.id = s.get? e.id) (hn : es.length ≤ n) (hk : es.length ≤ k) :
    recordsFrom f n start = recordsFrom s.get? k start := by
  induction es generalizing start n k with
  | nil =>
    obtain rfl : start = none := h
    cases n <;> cases k <;> rfl
  | cons e es ih =>
    obtain ⟨rfl, next, hget, hes⟩ := h
    cases n with
    | zero => exact absurd hn (Nat.not_succ_le_zero _)
    | succ n =>
      cases k with
      | zero => exact absurd hk (Nat.not_succ_le_zero _)
      | succ k =>
        rw [recordsFrom, recordsFrom, hf e List.mem_cons_self, hget]
        dsimp only
        rw [ih hes (fun e' he' => hf e' (List.mem_cons_of_mem _ he')) (Nat.le_of_succ_le_succ hn)
          (Nat.le_of_succ_le_succ hk)]

/-- A walk along the links finds the entries. -/
theorem recordsFrom_of_links {n : Nat} (h : Links s start es none) (hn : es.length ≤ n) :
    (recordsFrom s.get? n start).map Entry.of = es := by
  induction es generalizing start n with
  | nil =>
    obtain rfl : start = none := h
    cases n <;> rfl
  | cons e es ih =>
    obtain ⟨rfl, next, hget, hes⟩ := h
    cases n with
    | zero => exact absurd hn (Nat.not_succ_le_zero _)
    | succ n =>
      rw [recordsFrom, hget]
      dsimp only
      rw [List.map_cons, ih hes (Nat.le_of_succ_le_succ hn)]
      rfl

end Registry

open Registry (Entry Links)

variable {b : Shelf} {e : Entry} {es : List Entry}

/-- The shelf's registry is the list of some entries. -/
structure Shelf.Lists (b : Shelf) (es : List Entry) : Prop where
  links : Links b.store b.registry.head es none
  count : b.registry.count = es.length
  distinct : (es.map Entry.id).Nodup
  names : (es.map Entry.name).Nodup

namespace Shelf.Lists

theorem empty (store : RecordStore) : Lists ⟨store, .empty⟩ [] := ⟨rfl, rfl, List.nodup_nil, List.nodup_nil⟩

/-- A list is the same in every store that has its records. -/
theorem congr (h : b.Lists es) (hs : ∀ e ∈ es, s.get? e.id = b.store.get? e.id) : Lists ⟨s, b.registry⟩ es :=
  ⟨h.links.congr hs, h.count, h.distinct, h.names⟩

/-- A list is no longer than its store. -/
theorem length_le (h : b.Lists es) : es.length ≤ b.store.entries.length := by
  have hsub : es.map Entry.id ⊆ b.store.entries.map Prod.fst := by
    intro id hid
    obtain ⟨e, he, rfl⟩ := List.mem_map.1 hid
    obtain ⟨next, hget⟩ := h.links.get? he
    exact RecordStore.mem_of_get? hget
  have hle := (h.distinct.subperm hsub).length_le
  rwa [List.length_map, List.length_map] at hle

/-- The records of a registry are its entries. -/
theorem records_eq (h : b.Lists es) : (b.registry.records b.store).map Entry.of = es :=
  Registry.recordsFrom_of_links h.links h.length_le

/-- A name is looked up in the list. -/
theorem find?_eq (h : b.Lists es) (name : String) :
    (b.registry.find? b.store name).map Entry.of = es.find? fun e => e.name == name := by
  conv => rhs; rw [← h.records_eq]
  rw [Registry.find?, List.find?_map]
  rfl

theorem contains_iff (h : b.Lists es) (name : String) :
    b.registry.contains b.store name = true ↔ ∃ e ∈ es, e.name = name := by
  have hfind : b.registry.contains b.store name = (es.find? fun e => e.name == name).isSome := by
    rw [← h.find?_eq name, Option.isSome_map]
    rfl
  rw [hfind, List.find?_isSome]
  simp

end Shelf.Lists

namespace Registry

open Keel.Action (Ends Steps)

/-! ## Adding -/

/-- Links to records that are not changed. -/
theorem Links.update (h : Links s start es stop) (hid : id ∉ es.map Entry.id) (f : Record → Record) :
    Links (s.update id f) start es stop := by
  refine h.congr fun e he => ?_
  have hne : e.id ≠ id := by
    rintro rfl
    exact hid (List.mem_map_of_mem he)
  rw [RecordStore.get?_update, if_neg hne]

/-- **Adding** puts a record in front of the list, unless it is part of a list or its name is listed. -/
theorem add_ends (h : b.Lists es) (hr : b.store.get? id = some r) (hlt : r.linked = false → es.length + 1 < 2 ^ 64) :
    (add id).Ends b fun a t =>
      (a = .error (.fault .badArgs) ∧ (r.linked = true ∨ ∃ e ∈ es, e.name = r.name) ∧ t = b) ∨
      (a = .ok () ∧ ¬(r.linked = true ∨ ∃ e ∈ es, e.name = r.name) ∧ t.Lists (⟨id, r.info⟩ :: es) ∧
        ∀ id' ≠ id, t.store.get? id' = b.store.get? id') := by
  unfold add
  rw [Action.ends_bind, Action.ends_get, Action.goes_ok, Action.ends_bind, hr, Action.ends_some, Action.goes_ok]
  dsimp only
  rw [Action.ends_ite]
  split
  · rename_i hlinked
    exact .inl ⟨rfl, .inl hlinked, rfl⟩
  · rename_i hfree
    rw [Action.ends_ite]
    split
    · rename_i hname
      exact .inl ⟨rfl, .inr ((h.contains_iff _).1 hname), rfl⟩
    · rename_i hname
      have hid : id ∉ es.map Entry.id := by
        intro hid
        obtain ⟨e, he, rfl⟩ := List.mem_map.1 hid
        obtain ⟨next, hget⟩ := h.links.get? he
        rw [hr] at hget
        cases hget
        exact hfree rfl
      have hnew : r.name ∉ es.map Entry.name := by
        intro hmem
        obtain ⟨e, he, hen⟩ := List.mem_map.1 hmem
        exact hname ((h.contains_iff _).2 ⟨e, he, hen⟩)
      rw [Action.ends_bind, updateRecord, Action.ends_modify, Action.goes_ok, Action.ends_bind, update,
        Action.ends_modify, Action.goes_ok, Action.ends_bind, Action.ends_lift, h.count,
        Count.add_eq_ok.2 ⟨hlt (Bool.eq_false_iff.2 hfree), rfl⟩, Action.goes_ok, Action.ends_bind, update,
        Action.ends_modify, Action.goes_ok, Action.ends_note]
      have hlinks := h.links.update hid fun r => { r with next := b.registry.head, linked := true }
      have hnone : ¬(r.linked = true ∨ ∃ e ∈ es, e.name = r.name) :=
        not_or.2 ⟨hfree, fun hn => hname ((h.contains_iff _).2 hn)⟩
      refine .inr ⟨rfl, hnone, ⟨⟨rfl, _, ?_, hlinks⟩, rfl, ?_, ?_⟩, fun id' hne => ?_⟩
      · rw [RecordStore.get?_update, if_pos rfl, hr]
        rfl
      · exact List.nodup_cons.2 ⟨hid, h.distinct⟩
      · exact List.nodup_cons.2 ⟨hnew, h.names⟩
      · rw [RecordStore.get?_update, if_neg hne]

/-! ## Removing -/

/-- Links of which the stop is led elsewhere. -/
theorem Links.redirect (h : Links s start (xs ++ [e]) stop) (hid : e.id ∉ xs.map Entry.id) (next : Option RecordId) :
    Links (s.update e.id fun r => { r with next }) start (xs ++ [e]) next := by
  obtain ⟨mid, hxs, rfl, stop, hget, -⟩ := links_append.1 h
  refine links_append.2 ⟨_, hxs.update hid _, rfl, next, ?_, rfl⟩
  rw [RecordStore.get?_update, if_pos rfl, hget]
  rfl

/-- What a removal does to the list `xs ++ ⟨id, i⟩ :: ys`: the record is free, and the others are listed as before. -/
structure Removes (b t : Shelf) (xs : List Entry) (id : RecordId) (i : ModuleInfo) (ys : List Entry) : Prop where
  lists : t.Lists (xs ++ ys)
  freed : t.store.get? id = some (.fresh i)
  others : ∀ id', (∀ e ∈ xs ++ ⟨id, i⟩ :: ys, e.id ≠ id') → t.store.get? id' = b.store.get? id'

/-- An entry comes once, and a list without it has no name or record twice. -/
theorem lists_middle (h : b.Lists (xs ++ e :: ys)) : e.id ∉ xs.map Entry.id ∧ e.id ∉ ys.map Entry.id ∧
    ((xs ++ ys).map Entry.id).Nodup ∧ ((xs ++ ys).map Entry.name).Nodup := by
  have hdistinct := h.distinct
  have hnames := h.names
  rw [List.map_append, List.map_cons, List.nodup_middle, ← List.map_append, List.nodup_cons] at hdistinct hnames
  rw [List.map_append, List.mem_append, not_or] at hdistinct
  exact ⟨hdistinct.1.1, hdistinct.1.2, by simpa using hdistinct.2, hnames.2⟩

/-- Once the links go around a record, it is taken out. -/
theorem removes_of_links {first : Option RecordId} (h : b.Lists (xs ++ ⟨id, i⟩ :: ys)) (hxs : Links s first xs next)
    (hys : Links s next ys none) (hid : s.get? id = some ⟨i, none, true⟩)
    (hothers : ∀ id', (∀ e ∈ xs ++ ⟨id, i⟩ :: ys, e.id ≠ id') → s.get? id' = b.store.get? id') :
    Removes b ⟨s.update id fun r => { r with linked := false }, ⟨first, (xs ++ ys).length⟩⟩ xs id i ys := by
  obtain ⟨hidx, hidy, hdistinct, hnames⟩ := lists_middle h
  have hxs := hxs.update hidx fun r => { r with linked := false }
  have hys := hys.update hidy fun r => { r with linked := false }
  refine ⟨⟨links_append.2 ⟨next, hxs, hys⟩, rfl, hdistinct, hnames⟩, ?_, fun id' hne => ?_⟩
  · rw [RecordStore.get?_update, if_pos rfl, hid]
    rfl
  · rw [RecordStore.get?_update, if_neg, hothers id' hne]
    rintro rfl
    exact hne ⟨id', i⟩ (by simp) rfl

/-- At the record it looks for, a walk takes it out. -/
theorem unlinkFrom_here (h : b.Lists (xs ++ ⟨id, i⟩ :: ys)) (n : Nat) :
    (unlinkFrom id (n + 1) (xs.getLast?.map Entry.id) (some id)).Ends b fun a t =>
      a = .ok () ∧ Removes b t xs id i ys := by
  obtain ⟨mid, hxs, rfl, next, hget, hys⟩ := links_append.1 h.links
  obtain ⟨hidx, hidy, hdistinct, -⟩ := lists_middle h
  have hcount : Count.sub (ε := Fault) b.registry.count 1 = .ok (xs ++ ys).length := by
    rw [h.count, List.length_append, List.length_append, List.length_cons, ← Nat.add_assoc]
    exact Count.sub_eq_ok.2 ⟨Nat.le_add_left _ _, rfl⟩
  have hfreed : (b.store.update id fun r => { r with next := none }).get? id = some ⟨i, none, true⟩ := by
    rw [RecordStore.get?_update, if_pos rfl, hget]
    rfl
  have hothers : ∀ id', (∀ e ∈ xs ++ ⟨id, i⟩ :: ys, e.id ≠ id') →
      (b.store.update id fun r => { r with next := none }).get? id' = b.store.get? id' := fun id' hne => by
    rw [RecordStore.get?_update, if_neg]
    rintro rfl
    exact hne ⟨id', i⟩ (by simp) rfl
  have hys := hys.update hidy fun r => { r with next := none }
  have hxs := hxs.update hidx fun r => { r with next := none }
  unfold unlinkFrom
  rw [Action.ends_bind, Action.ends_get, Action.goes_ok, Action.ends_bind, hget, Action.ends_some, Action.goes_ok]
  dsimp only
  rw [if_pos rfl, Action.ends_bind, updateRecord, Action.ends_modify, Action.goes_ok]
  rcases xs.eq_nil_or_concat' with rfl | ⟨vs, p, rfl⟩
  · simp only [List.getLast?_nil, Option.map_none, Action.ends_bind, update, updateRecord, Action.ends_modify,
      Action.goes_ok, Action.ends_get, Action.ends_lift, hcount, Action.ends_note]
    exact ⟨trivial, removes_of_links h rfl hys hfreed hothers⟩
  · simp only [List.getLast?_concat, Option.map_some, Action.ends_bind, update, updateRecord, Action.ends_modify,
      Action.goes_ok, Action.ends_get, Action.ends_lift, hcount, Action.ends_note]
    have hp : b.Lists (vs ++ p :: ⟨id, i⟩ :: ys) := by rwa [List.append_assoc] at h
    obtain ⟨hpv, hpy, -⟩ := lists_middle hp
    rw [List.map_cons, List.mem_cons, not_or] at hpy
    refine ⟨trivial, removes_of_links h (hxs.redirect hpv next) (hys.update hpy.2 _) ?_ fun id' hne => ?_⟩
    · rw [RecordStore.get?_update, if_neg (Ne.symm hpy.1), hfreed]
    · rw [RecordStore.get?_update, if_neg, hothers id' hne]
      rintro rfl
      exact hne p (by simp) rfl

/-- A walk that has gone through `xs` takes out the record it looks for, if that is ahead. -/
theorem unlinkFrom_ends {n : Nat} {mid : Option RecordId} (h : b.Lists (xs ++ es))
    (hxs : Links b.store b.registry.head xs mid) (hes : Links b.store mid es none) (hn : es.length ≤ n) (id : RecordId) :
    (unlinkFrom id n (xs.getLast?.map Entry.id) mid).Ends b fun a t =>
      (a = .error (.fault .noSuch) ∧ (∀ e ∈ es, e.id ≠ id) ∧ t = b) ∨
      ∃ vs i ys, es = vs ++ ⟨id, i⟩ :: ys ∧ a = .ok () ∧ Removes b t (xs ++ vs) id i ys := by
  induction n generalizing xs es mid with
  | zero =>
    obtain rfl := List.length_eq_zero_iff.1 (Nat.le_zero.1 hn)
    exact .inl ⟨rfl, nofun, rfl⟩
  | succ n ih =>
    cases es with
    | nil =>
      obtain rfl : mid = none := hes
      exact .inl ⟨rfl, nofun, rfl⟩
    | cons e es =>
      obtain ⟨rfl, next, hget, hes'⟩ := hes
      by_cases he : e.id = id
      · subst he
        refine (unlinkFrom_here h n).mono ?_
        intro a t hends
        exact .inr ⟨[], e.info, es, rfl, hends.1, by rw [List.append_nil]; exact hends.2⟩
      · have hwalked : Links b.store b.registry.head (xs ++ [e]) next :=
          links_append.2 ⟨_, hxs, rfl, next, hget, rfl⟩
        have hlists : b.Lists ((xs ++ [e]) ++ es) := by rwa [List.append_assoc]
        have hnext := ih hlists hwalked hes' (Nat.le_of_succ_le_succ hn)
        rw [List.getLast?_concat] at hnext
        unfold unlinkFrom
        rw [Action.ends_bind, Action.ends_get, Action.goes_ok, Action.ends_bind, hget, Action.ends_some, Action.goes_ok]
        dsimp only
        rw [if_neg he]
        refine hnext.mono ?_
        intro a t hends
        rcases hends with ⟨rfl, hno, rfl⟩ | ⟨vs, i, ys, rfl, rfl, hr⟩
        · exact .inl ⟨rfl, List.forall_mem_cons.2 ⟨he, hno⟩, rfl⟩
        · exact .inr ⟨e :: vs, i, ys, rfl, rfl, by rwa [List.append_assoc] at hr⟩

/-- **Removing** takes a record out of the list, if it is there. -/
theorem remove_ends (h : b.Lists es) (id : RecordId) : (remove id).Ends b fun a t =>
    (a = .error (.fault .noSuch) ∧ (∀ e ∈ es, e.id ≠ id) ∧ t = b) ∨
    ∃ xs i ys, es = xs ++ ⟨id, i⟩ :: ys ∧ a = .ok () ∧ Removes b t xs id i ys := by
  unfold remove
  rw [Action.ends_bind, Action.ends_get, Action.goes_ok]
  have hstart : b.Lists ([] ++ es) := h
  exact unlinkFrom_ends hstart rfl h.links h.length_le id

/-- The module of a name leaves the list, if there is one. -/
theorem removeByName_ends (h : b.Lists es) (name : String) : (removeByName name).Ends b fun a t =>
    (a = .error (.fault .noSuch) ∧ (∀ e ∈ es, e.name ≠ name) ∧ t = b) ∨
    ∃ xs id i ys, es = xs ++ ⟨id, i⟩ :: ys ∧ i.name.text = name ∧ a = .ok id ∧ Removes b t xs id i ys := by
  have hfind := h.find?_eq name
  unfold removeByName find
  rw [Action.ends_bind, Action.ends_bind, Action.ends_get, Action.goes_ok]
  cases hf : b.registry.find? b.store name with
  | none =>
    rw [hf, Option.map_none, eq_comm, List.find?_eq_none] at hfind
    exact .inl ⟨rfl, fun e he => by simpa using hfind e he, rfl⟩
  | some e =>
    rw [hf, Option.map_some, eq_comm] at hfind
    have hname : (Entry.of e).name = name := by simpa using List.find?_some hfind
    have hmem := List.mem_of_find?_eq_some hfind
    rw [Action.ends_some, Action.goes_ok]
    dsimp only
    refine (remove_ends h e.1).bind ?_
    intro a t hends
    rcases hends with ⟨-, hno, -⟩ | ⟨xs, i, ys, rfl, rfl, hr⟩
    · exact absurd rfl (hno _ hmem)
    · -- the record that is found is the one that leaves, since no record is listed twice
      obtain ⟨hidx, hidy, -⟩ := lists_middle h
      have hinfo : (Entry.of e) = ⟨e.1, i⟩ := by
        rcases List.mem_append.1 hmem with hx | hy
        · exact absurd (List.mem_map_of_mem hx) hidx
        · exact (List.mem_cons.1 hy).resolve_right fun hy => hidy (List.mem_map.2 ⟨_, hy, rfl⟩)
      rw [hinfo] at hname
      exact .inr ⟨xs, e.1, i, ys, rfl, hname, rfl, hr⟩

/-! ## What stays -/

/-- The records are the same ones, of the same modules; links and marks may differ. -/
def SameModules (b t : Shelf) : Prop := t.store.entries.map Entry.of = b.store.entries.map Entry.of

instance : IsPreorder Shelf SameModules where
  refl _ := rfl
  trans _ _ _ h h' := h'.trans h

theorem steps_update (f : Registry → Registry) : Steps SameModules (update f) := fun _ => rfl

theorem steps_updateRecord {f : Record → Record} (hf : ∀ r, (f r).info = r.info) (id : RecordId) :
    Steps SameModules (updateRecord id f) := fun b => by
  show ((b.store.update id f).entries).map Entry.of = b.store.entries.map Entry.of
  rw [RecordStore.update, List.map_map]
  refine List.map_congr_left fun e _ => ?_
  rw [Function.comp_apply]
  split
  · rw [Entry.of, Entry.of, hf]
  · rfl

/-- Adding changes links and marks only. -/
theorem steps_add (id : RecordId) : Steps SameModules (add id) := by
  refine Action.steps_get.bind fun b => (Action.steps_ofOption _ _).bind fun r => ?_
  dsimp only
  refine Steps.ite ((Action.steps_note _).bind fun _ => Action.steps_fail_bind _ _) ?_
  refine Steps.ite ((Action.steps_note _).bind fun _ => Action.steps_fail_bind _ _) ?_
  exact (steps_updateRecord (fun _ => by rfl) id).bind fun _ => (steps_update _).bind fun _ =>
    (Action.steps_lift _).bind fun _ => (steps_update _).bind fun _ => Action.steps_note _

/-- Records other than that of an id are as they were. -/
def KeepsOthers (id : RecordId) (b t : Shelf) : Prop := ∀ e ∈ t.store.entries, e.1 ≠ id → e ∈ b.store.entries

instance (id : RecordId) : IsPreorder Shelf (KeepsOthers id) where
  refl _ := fun _ he _ => he
  trans _ _ _ h h' := fun e he hne => h e (h' e he hne) hne

theorem keepsOthers_updateRecord (id : RecordId) (f : Record → Record) :
    Steps (KeepsOthers id) (updateRecord id f) := by
  intro b e he hne
  obtain ⟨e', he', heq⟩ := List.mem_map.1 (show e ∈ (b.store.update id f).entries from he)
  split at heq
  · rename_i hid
    exact absurd (heq ▸ hid) hne
  · exact heq ▸ he'

/-- **Adding** a record leaves all others as they are. -/
theorem keepsOthers_add (id : RecordId) : Steps (KeepsOthers id) (add id) := by
  have hupdate : ∀ f, Steps (KeepsOthers id) (update f) := fun _ _ _ he _ => he
  refine Action.steps_get.bind fun b => (Action.steps_ofOption _ _).bind fun r => ?_
  dsimp only
  refine Steps.ite ((Action.steps_note _).bind fun _ => Action.steps_fail_bind _ _) ?_
  refine Steps.ite ((Action.steps_note _).bind fun _ => Action.steps_fail_bind _ _) ?_
  exact (keepsOthers_updateRecord id _).bind fun _ => (hupdate _).bind fun _ => (Action.steps_lift _).bind fun _ =>
    (hupdate _).bind fun _ => Action.steps_note _

theorem steps_unlinkFrom (target : RecordId) (n : Nat) (before cursor : Option RecordId) :
    Steps SameModules (unlinkFrom target n before cursor) := by
  induction n generalizing before cursor with
  | zero => exact Action.steps_fail _
  | succ n ih =>
    cases cursor with
    | none => exact Action.steps_fail _
    | some id =>
      rw [unlinkFrom]
      refine Action.steps_get.bind fun b => (Action.steps_ofOption _ _).bind fun r => Steps.ite ?_ (ih _ _)
      have hcount : Steps SameModules (do
          updateRecord id fun r => { r with linked := false }
          let count ← Action.lift (Count.sub (← get).registry.count 1)
          update fun g => { g with count }
          Action.note (unlinkedLine r.name count)) :=
        (steps_updateRecord (fun _ => by rfl) id).bind fun _ => Action.steps_get.bind fun _ =>
          (Action.steps_lift _).bind fun _ => (steps_update _).bind fun _ => Action.steps_note _
      refine (steps_updateRecord (fun _ => by rfl) id).bind fun _ => ?_
      dsimp only
      cases before with
      | none => exact (steps_update _).bind fun _ => hcount
      | some b => exact (steps_updateRecord (fun _ => by rfl) b).bind fun _ => hcount

/-- Removing changes links and marks only. -/
theorem steps_removeByName (name : String) : Steps SameModules (removeByName name) := by
  have hfind : Steps SameModules (find name) := Action.steps_get.bind fun _ => Action.steps_ofOption _ _
  refine hfind.bind fun e => Steps.bind ?_ fun _ => Action.steps_pure _
  exact Action.steps_get.bind fun _ => steps_unlinkFrom _ _ _ _

end Registry

end Keel
