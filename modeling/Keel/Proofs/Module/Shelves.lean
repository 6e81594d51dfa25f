import Keel.Proofs.Module.Registry

/-!
# Several registries with common records

`Shelves n` are `n` registries that share a store of records, as they are from `Shelves.start` on: all records free, all
registries empty. A `Catalog` is what they stand for, a list of entries for each registry, where an addition is a cons and
a removal takes an entry out. `Shelves.Stands` says which record is where: a listed one is in one list only, and carries
the link of that list (`Shelf.Lists`); any other is as it was made. A request changes one registry and records of that
registry or of none, so the other lists stay (`Stands.beside`), and every request keeps the two together
(`Stands.request`). So at every point of a run the registries show the catalog's lists and answer as the catalog does
(**`mirrors_run`**).
-/

namespace Keel

open Keel.Action (Ends zoom)
open Keel.Registry (Entry Links Removes)

variable {n : Nat}

/-- What is asked of one of the registries. -/
inductive Registry.Request (n : Nat)
  | add (j : Fin n) (id : RecordId)
  | remove (j : Fin n) (id : RecordId)
  | removeByName (j : Fin n) (name : String)
  | find (j : Fin n) (name : String)

open Keel.Registry (Request)

/-! ## Registries with a common store -/

/-- Some registries and the records they link. -/
structure Shelves (n : Nat) where
  store : RecordStore
  registries : Fin n → Registry

namespace Shelves

/-- One registry with the store. -/
def shelf (j : Fin n) : Part (Shelves n) Shelf where
  get s := ⟨s.store, s.registries j⟩
  set s b := ⟨b.store, Function.update s.registries j b.registry⟩

/-- A request to one of the registries; the answer is the record that was found or has left. -/
def serve : Request n → Action (Shelves n) (Option RecordId)
  | .add j id => do
    zoom (shelf j) (Registry.add id)
    return none
  | .remove j id => do
    zoom (shelf j) (Registry.remove id)
    return none
  | .removeByName j name => do return some (← zoom (shelf j) (Registry.removeByName name))
  | .find j name => do return some (← zoom (shelf j) (Registry.find name)).1

/-- Empty registries, and records that are part of none. -/
def start (n : Nat) (records : List (RecordId × ModuleInfo)) : Shelves n :=
  ⟨⟨records.map fun e => (e.1, .fresh e.2)⟩, fun _ => .empty⟩

/-- The registries after some requests. -/
def run (s : Shelves n) (qs : List (Request n)) : Shelves n := qs.foldl (fun s q => (serve q s).state) s

end Shelves

/-! ## Lists -/

/-- The modules there are, and the lists of some of them. -/
structure Catalog (n : Nat) where
  records : List (RecordId × ModuleInfo)
  lists : Fin n → List Entry

namespace Catalog

/-- The catalog of empty lists. -/
def start (n : Nat) (records : List (RecordId × ModuleInfo)) : Catalog n := ⟨records, fun _ => []⟩

/-- Whether a record is in some list. -/
def Linked (c : Catalog n) (id : RecordId) : Prop := ∃ j, ∃ e ∈ c.lists j, e.id = id

instance (c : Catalog n) (id : RecordId) : Decidable (c.Linked id) :=
  inferInstanceAs (Decidable (∃ j, ∃ e ∈ c.lists j, e.id = id))

/-- The entry of a name in a list. -/
def find? (c : Catalog n) (j : Fin n) (name : String) : Option Entry := (c.lists j).find? fun e => e.name == name

/-- One list replaced. -/
def set (c : Catalog n) (j : Fin n) (es : List Entry) : Catalog n := { c with lists := Function.update c.lists j es }

/-- What a catalog answers. -/
def answer (c : Catalog n) : Request n → Checked Fault (Option RecordId)
  | .add j id =>
    match c.records.lookup id with
    | none => .error (.fault .noSuch)
    | some i =>
      if c.Linked id ∨ ∃ e ∈ c.lists j, e.name = i.name.text then .error (.fault .badArgs) else .ok none
  | .remove j id => if ∃ e ∈ c.lists j, e.id = id then .ok none else .error (.fault .noSuch)
  | .removeByName j name | .find j name =>
    match c.find? j name with
    | none => .error (.fault .noSuch)
    | some e => .ok (some e.id)

/-- What a request that is granted does: an entry is put in front, or taken out. -/
def grant (c : Catalog n) : Request n → Catalog n
  | .add j id =>
    match c.records.lookup id with
    | none => c
    | some i => c.set j (⟨id, i⟩ :: c.lists j)
  | .remove j id => c.set j ((c.lists j).eraseP fun e => e.id == id)
  | .removeByName j name => c.set j ((c.lists j).eraseP fun e => e.name == name)
  | .find _ _ => c

/-- The catalog after a request. -/
def next (c : Catalog n) (q : Request n) : Catalog n :=
  match c.answer q with
  | .ok _ => c.grant q
  | .error _ => c

/-- A request changes lists only. -/
theorem records_next (c : Catalog n) (q : Request n) : (c.next q).records = c.records := by
  have hgrant : (c.grant q).records = c.records := by
    cases q with
    | add j id => rw [grant]; split <;> rfl
    | remove j id => rfl
    | removeByName j name => rfl
    | find j name => rfl
  rw [next]
  split
  · exact hgrant
  · rfl

/-- The catalog after some requests. -/
def run (c : Catalog n) (qs : List (Request n)) : Catalog n := qs.foldl next c

end Catalog

/-! ## Agreement -/

namespace Shelves

/-- The registries are the lists of the catalog, and a record that is in none is as it was made. -/
structure Stands (s : Shelves n) (c : Catalog n) : Prop where
  lists : ∀ j, ((shelf j).get s).Lists (c.lists j)
  apart : ∀ j k, j ≠ k → ∀ e ∈ c.lists j, ∀ e' ∈ c.lists k, e.id ≠ e'.id
  known : ∀ j, ∀ e ∈ c.lists j, c.records.lookup e.id = some e.info
  free : ∀ id, ¬c.Linked id → s.store.get? id = (c.records.lookup id).map .fresh

/-- The records of fresh shelves. -/
theorem get?_start (n : Nat) (records : List (RecordId × ModuleInfo)) (id : RecordId) :
    (start n records).store.get? id = (records.lookup id).map .fresh := by
  unfold start RecordStore.get?
  induction records with
  | nil => rfl
  | cons e es ih =>
    rw [List.map_cons, List.lookup_cons, ih, List.lookup_cons]
    split <;> rfl

theorem stands_start (n : Nat) (records : List (RecordId × ModuleInfo)) :
    Stands (start n records) (.start n records) where
  lists _ := Shelf.Lists.empty _
  apart := nofun
  known := nofun
  free id _ := get?_start n records id

namespace Stands

variable {s : Shelves n} {c : Catalog n} {j : Fin n} {id : RecordId} {es : List Entry} {i : ModuleInfo}

/-- The record of a listed entry. -/
theorem listed (h : s.Stands c) {e : Entry} (he : e ∈ c.lists j) :
    ∃ next, s.store.get? e.id = some ⟨e.info, next, true⟩ := (h.lists j).links.get? he

/-- A record that there is says of itself whether some list has it. -/
theorem record (h : s.Stands c) (hi : c.records.lookup id = some i) :
    ∃ r, s.store.get? id = some r ∧ r.info = i ∧ (r.linked = true ↔ c.Linked id) := by
  by_cases hl : c.Linked id
  · obtain ⟨j, e, he, rfl⟩ := hl
    obtain ⟨next, hget⟩ := h.listed he
    refine ⟨_, hget, ?_, iff_of_true rfl ⟨j, e, he, rfl⟩⟩
    exact Option.some.inj ((h.known j e he).symm.trans hi)
  · refine ⟨.fresh i, ?_, rfl, iff_of_false Bool.false_ne_true hl⟩
    rw [h.free id hl, hi, Option.map_some]

theorem no_record (h : s.Stands c) (hi : c.records.lookup id = none) : s.store.get? id = none := by
  have hl : ¬c.Linked id := by
    rintro ⟨j, e, he, rfl⟩
    rw [h.known j e he] at hi
    cases hi
  rw [h.free id hl, hi, Option.map_none]

/-- A list with one more record is no longer than all records. -/
theorem length_lt (h : s.Stands c) (hi : c.records.lookup id = some i) (hl : ¬c.Linked id) :
    (c.lists j).length + 1 ≤ c.records.length := by
  have hnodup : (id :: (c.lists j).map Entry.id).Nodup := by
    refine List.nodup_cons.2 ⟨fun hm => ?_, (h.lists j).distinct⟩
    obtain ⟨e, he, rfl⟩ := List.mem_map.1 hm
    exact hl ⟨j, e, he, rfl⟩
  have hkey : ∀ {id : RecordId} {i : ModuleInfo}, c.records.lookup id = some i → id ∈ c.records.map Prod.fst :=
    fun hi => by
      obtain ⟨xs, ys, hsplit, -⟩ := List.lookup_eq_some_iff.1 hi
      rw [hsplit]
      simp
  have hsub : id :: (c.lists j).map Entry.id ⊆ c.records.map Prod.fst := by
    refine List.cons_subset.2 ⟨hkey hi, fun id' hm => ?_⟩
    obtain ⟨e, he, rfl⟩ := List.mem_map.1 hm
    exact hkey (h.known j e he)
  have hle := (hnodup.subperm hsub).length_le
  rwa [List.length_cons, List.length_map, List.length_map] at hle

/-- What becomes of one list leaves the others alone. -/
theorem beside (h : s.Stands c) {t : Shelf} (ht : t.Lists es) (hknown : ∀ e ∈ es, c.records.lookup e.id = some e.info)
    (hapart : ∀ k ≠ j, ∀ e ∈ c.lists k, e.id ∉ es.map Entry.id ∧ t.store.get? e.id = s.store.get? e.id)
    (hfree : ∀ id, id ∉ es.map Entry.id → (∀ k ≠ j, ∀ e ∈ c.lists k, e.id ≠ id) →
      t.store.get? id = (c.records.lookup id).map .fresh) : ((shelf j).set s t).Stands (c.set j es) := by
  have hself : (c.set j es).lists j = es := Function.update_self ..
  have hother : ∀ {k}, k ≠ j → (c.set j es).lists k = c.lists k := fun hk => Function.update_of_ne hk ..
  have hnew : ∀ k ≠ j, ∀ e ∈ c.lists k, ∀ e' ∈ es, e'.id ≠ e.id := fun k hk e he e' he' heq =>
    (hapart k hk e he).1 (heq ▸ List.mem_map_of_mem he')
  refine ⟨fun k => ?_, fun k l hkl e he e' he' => ?_, fun k e he => ?_, fun id hl => ?_⟩
  · by_cases hk : k = j
    · subst hk
      rw [hself]
      show Shelf.Lists ⟨t.store, Function.update s.registries k t.registry k⟩ es
      rw [Function.update_self]
      exact ht
    · rw [hother hk]
      show Shelf.Lists ⟨t.store, Function.update s.registries j t.registry k⟩ (c.lists k)
      rw [Function.update_of_ne hk]
      exact (h.lists k).congr fun e he => (hapart k hk e he).2
  · by_cases hk : k = j
    · subst hk
      rw [hself] at he
      rw [hother (Ne.symm hkl)] at he'
      exact hnew l (Ne.symm hkl) e' he' e he
    · rw [hother hk] at he
      by_cases hl : l = j
      · subst hl
        rw [hself] at he'
        exact (hnew k hk e he e' he').symm
      · rw [hother hl] at he'
        exact h.apart k l hkl e he e' he'
  · by_cases hk : k = j
    · subst hk
      rw [hself] at he
      exact hknown e he
    · rw [hother hk] at he
      exact h.known k e he
  · refine hfree id (fun hm => ?_) fun k hk e he heq => hl ⟨k, e, by rwa [hother hk], heq⟩
    obtain ⟨e, he, rfl⟩ := List.mem_map.1 hm
    exact hl ⟨j, e, by rwa [hself], rfl⟩

/-! ### Requests -/

end Stands

/-- A request is answered as the catalog answers it, leaves what the catalog becomes, and changes nothing if it is
refused. -/
structure Serves (s : Shelves n) (c : Catalog n) (q : Request n) (r : Checked Fault (Option RecordId)) (t : Shelves n) :
    Prop where
  answer : r = c.answer q
  stands : t.Stands (c.next q)
  refused : ∀ e, r = .error e → t = s

variable {s t : Shelves n} {c : Catalog n} {q : Request n}

theorem Serves.refuse (h : s.Stands c) {f : Fault} (ha : c.answer q = .error (.fault f)) :
    Serves s c q (.error (.fault f)) s := by
  refine ⟨ha.symm, ?_, fun _ _ => rfl⟩
  rw [Catalog.next, ha]
  exact h

theorem Serves.grant {a : Option RecordId} (ha : c.answer q = .ok a) (ht : t.Stands (c.grant q)) :
    Serves s c q (.ok a) t := by
  refine ⟨ha.symm, ?_, nofun⟩
  rw [Catalog.next, ha]
  exact ht

namespace Stands

variable {j : Fin n} {id : RecordId} {i : ModuleInfo} {xs ys : List Entry}

@[simp] theorem set_get (s : Shelves n) (j : Fin n) : (shelf j).set s ((shelf j).get s) = s := by
  show (⟨s.store, Function.update s.registries j (s.registries j)⟩ : Shelves n) = s
  rw [Function.update_eq_self]

/-- A record joins a list if it is in none and its name is new there. -/
theorem add (h : s.Stands c) (hlt : c.records.length < 2 ^ 64) (j : Fin n) (id : RecordId) :
    (serve (.add j id)).Ends s (Serves s c (.add j id)) := by
  rw [serve, Action.ends_bind, Action.ends_zoom]
  cases hi : c.records.lookup id with
  | none =>
    have hget : ((shelf j).get s).store.get? id = none := h.no_record hi
    have hnone : (Registry.add id).Ends ((shelf j).get s) fun r t =>
        r = .error (.fault .noSuch) ∧ t = (shelf j).get s := by
      unfold Registry.add
      rw [Action.ends_bind, Action.ends_get, Action.goes_ok, Action.ends_bind, hget, Action.ends_none]
      exact ⟨rfl, rfl⟩
    refine hnone.mono ?_
    rintro r t ⟨rfl, rfl⟩
    rw [Action.goes_error, set_get]
    exact .refuse h (by rw [Catalog.answer, hi])
  | some i =>
    obtain ⟨r, hget, rfl, hlinked⟩ := h.record hi
    have hanswer : c.answer (.add j id) = if c.Linked id ∨ ∃ e ∈ c.lists j, e.name = r.name then
        .error (.fault .badArgs) else .ok none := by
      rw [Catalog.answer, hi]
      rfl
    have hgrant : c.grant (.add j id) = c.set j (⟨id, r.info⟩ :: c.lists j) := by rw [Catalog.grant, hi]
    have hlen : r.linked = false → (c.lists j).length + 1 < 2 ^ 64 := fun hl => by
      have hle := h.length_lt (j := j) hi fun hc => by rw [hlinked.2 hc] at hl; cases hl
      omega
    refine (Registry.add_ends (h.lists j) hget hlen).mono ?_
    rintro _ t (⟨rfl, hcause, rfl⟩ | ⟨rfl, hcause, ht, hothers⟩)
    · rw [Action.goes_error, set_get]
      exact .refuse h (by rw [hanswer, if_pos (hcause.imp_left hlinked.1)])
    · rw [hlinked] at hcause
      rw [Action.goes_ok, Action.ends_pure]
      refine .grant (by rw [hanswer, if_neg hcause]) ?_
      rw [hgrant]
      have hnew : ∀ k, ∀ e ∈ c.lists k, e.id ≠ id := fun k e he heq => hcause (.inl ⟨k, e, he, heq⟩)
      refine h.beside ht ?_ (fun k hk e he => ⟨?_, hothers _ (hnew k e he)⟩) fun id' hnot hrest => ?_
      · exact List.forall_mem_cons.2 ⟨hi, h.known j⟩
      · rw [List.map_cons, List.mem_cons, not_or]
        refine ⟨hnew k e he, fun hm => ?_⟩
        obtain ⟨e', he', heq⟩ := List.mem_map.1 hm
        exact h.apart k j hk e he e' he' heq.symm
      · rw [List.map_cons, List.mem_cons, not_or] at hnot
        rw [hothers id' hnot.1]
        refine h.free id' ?_
        rintro ⟨k, e, he, rfl⟩
        by_cases hk : k = j
        · exact hnot.2 (List.mem_map_of_mem (hk ▸ he))
        · exact hrest k hk e he rfl

/-- In a list without repetitions, a key finds and takes out the one entry that has it. -/
theorem keyed_middle {α β : Type} [BEq β] [LawfulBEq β] {f : α → β} {xs ys : List α} {e : α} {b : β}
    (h : ((xs ++ e :: ys).map f).Nodup) (hb : f e = b) : ((xs ++ e :: ys).find? fun e => f e == b) = some e ∧
      ((xs ++ e :: ys).eraseP fun e => f e == b) = xs ++ ys := by
  rw [List.map_append, List.map_cons, List.nodup_middle, List.nodup_cons, List.mem_append, not_or] at h
  have hxs : ∀ e' ∈ xs, (f e' == b) = false := fun e' he' => by
    rw [beq_eq_false_iff_ne, ← hb]
    exact fun heq => h.1.1 (heq ▸ List.mem_map_of_mem he')
  constructor
  · rw [List.find?_append, List.find?_eq_none.2 fun e' he' => by simp [hxs e' he'], Option.none_or,
      List.find?_cons_of_pos (by simp [hb])]
  · rw [List.eraseP_append_right _ fun e' he' => by simp [hxs e' he'], List.eraseP_cons_of_pos (by simp [hb])]

/-- What is left of a list stands, and the record that has left is free again. -/
theorem removed (h : s.Stands c) {t : Shelf} (hes : c.lists j = xs ++ ⟨id, i⟩ :: ys)
    (hr : Removes ((shelf j).get s) t xs id i ys) : ((shelf j).set s t).Stands (c.set j (xs ++ ys)) := by
  have hmem : ∀ e ∈ xs ++ ys, e ∈ c.lists j := fun e he => by
    rw [hes]
    rcases List.mem_append.1 he with hx | hy
    · exact List.mem_append_left _ hx
    · exact List.mem_append_right _ (List.mem_cons_of_mem _ hy)
  have hid : ⟨id, i⟩ ∈ c.lists j := by simp [hes]
  refine h.beside hr.lists (fun e he => h.known j e (hmem e he)) (fun k hk e he => ⟨fun hm => ?_, ?_⟩)
    fun id' hnot hothers => ?_
  · obtain ⟨e', he', heq⟩ := List.mem_map.1 hm
    exact h.apart k j hk e he e' (hmem e' he') heq.symm
  · exact hr.others e.id fun e' he' => (h.apart k j hk e he e' (hes ▸ he')).symm
  · by_cases hi : id' = id
    · rw [hi, hr.freed, h.known j _ hid, Option.map_some]
    · have hgone : ∀ e ∈ c.lists j, e.id ≠ id' := fun e he heq => by
        rw [hes, List.mem_append, List.mem_cons] at he
        rcases he with hx | rfl | hy
        · exact hnot (heq ▸ List.mem_map_of_mem (List.mem_append_left _ hx))
        · exact hi heq.symm
        · exact hnot (heq ▸ List.mem_map_of_mem (List.mem_append_right _ hy))
      rw [hr.others id' fun e he => hgone e (hes ▸ he)]
      refine h.free id' ?_
      rintro ⟨k, e, he, heq⟩
      by_cases hk : k = j
      · exact hgone e (hk ▸ he) heq
      · exact hothers k hk e he heq

/-- A record leaves the list that it is in. -/
theorem remove (h : s.Stands c) (j : Fin n) (id : RecordId) :
    (serve (.remove j id)).Ends s (Serves s c (.remove j id)) := by
  rw [serve, Action.ends_bind, Action.ends_zoom]
  refine (Registry.remove_ends (h.lists j) id).mono ?_
  rintro _ t (⟨rfl, hnone, rfl⟩ | ⟨xs, i, ys, hes, rfl, hr⟩)
  · rw [Action.goes_error, set_get]
    refine .refuse h (if_neg ?_)
    rintro ⟨e, he, heq⟩
    exact hnone e he heq
  · rw [Action.goes_ok, Action.ends_pure]
    refine .grant (if_pos ⟨⟨id, i⟩, by simp [hes], rfl⟩) ?_
    have herase := (keyed_middle (f := Entry.id) (hes ▸ (h.lists j).distinct) rfl).2
    rw [Catalog.grant, hes, herase]
    exact h.removed hes hr

/-- The record of a name leaves the list. -/
theorem removeByName (h : s.Stands c) (j : Fin n) (name : String) :
    (serve (.removeByName j name)).Ends s (Serves s c (.removeByName j name)) := by
  rw [serve, Action.ends_bind, Action.ends_zoom]
  refine (Registry.removeByName_ends (h.lists j) name).mono ?_
  rintro _ t (⟨rfl, hnone, rfl⟩ | ⟨xs, id, i, ys, hes, hname, rfl, hr⟩)
  · rw [Action.goes_error, set_get]
    have hfind : c.find? j name = none := List.find?_eq_none.2 fun e he => by simpa using hnone e he
    exact .refuse h (by rw [Catalog.answer, hfind])
  · rw [Action.goes_ok, Action.ends_pure]
    obtain ⟨hfind, herase⟩ := keyed_middle (f := Entry.name) (e := ⟨id, i⟩) (hes ▸ (h.lists j).names) hname
    refine .grant (by rw [Catalog.answer, Catalog.find?, hes, hfind]) ?_
    rw [Catalog.grant, hes, herase]
    exact h.removed hes hr

/-- The record of a name is found. -/
theorem find (h : s.Stands c) (j : Fin n) (name : String) :
    (serve (.find j name)).Ends s (Serves s c (.find j name)) := by
  have hfind : (((shelf j).get s).registry.find? ((shelf j).get s).store name).map Entry.of = c.find? j name :=
    (h.lists j).find?_eq name
  rw [serve, Action.ends_bind, Action.ends_zoom, Registry.find, Action.ends_bind, Action.ends_get, Action.goes_ok]
  cases hf : ((shelf j).get s).registry.find? ((shelf j).get s).store name with
  | none =>
    rw [hf, Option.map_none, eq_comm] at hfind
    rw [Action.ends_none, Action.goes_error, set_get]
    exact .refuse h (by rw [Catalog.answer, hfind])
  | some e =>
    rw [hf, Option.map_some, eq_comm] at hfind
    rw [Action.ends_some, Action.goes_ok, set_get, Action.ends_pure]
    exact .grant (by rw [Catalog.answer, hfind]; rfl) h

/-- **Every request** is answered from the catalog, and leaves what the catalog becomes. -/
theorem request (h : s.Stands c) (hlt : c.records.length < 2 ^ 64) (q : Request n) : (serve q).Ends s (Serves s c q) := by
  cases q with
  | add j id => exact h.add hlt j id
  | remove j id => exact h.remove j id
  | removeByName j name => exact h.removeByName j name
  | find j name => exact h.find j name

end Stands

/-! ## Runs -/

/-- What the registries show of the catalog's lists. -/
structure Mirrors (s : Shelves n) (c : Catalog n) : Prop where
  records : ∀ j, ((s.registries j).records s.store).map Entry.of = c.lists j
  count : ∀ j, (s.registries j).count = (c.lists j).length
  /-- From the head of a registry the links lead through the records of its list, each once, and end. -/
  links : ∀ j, Links s.store (s.registries j).head (c.lists j) none ∧ ((c.lists j).map Entry.id).Nodup
  names : ∀ j, ((c.lists j).map Entry.name).Nodup
  sole : ∀ j k, ∀ e ∈ c.lists j, ∀ e' ∈ c.lists k, e.id = e'.id → j = k
  linked : ∀ id r, s.store.get? id = some r → (r.linked = true ↔ c.Linked id)
  /-- The next request is answered as from the lists, and changes nothing if it is refused. -/
  answers : ∀ q, (serve q s).result = c.answer q ∧ ∀ e, c.answer q = .error e → (serve q s).state = s

theorem Stands.linked_iff (h : s.Stands c) {id : RecordId} {r : Record} (hr : s.store.get? id = some r) :
    r.linked = true ↔ c.Linked id := by
  cases hi : c.records.lookup id with
  | none =>
    rw [h.no_record hi] at hr
    cases hr
  | some i =>
    obtain ⟨r', hr', -, hiff⟩ := h.record hi
    obtain rfl : r' = r := Option.some.inj (hr'.symm.trans hr)
    exact hiff

theorem Stands.mirrors (h : s.Stands c) (hlt : c.records.length < 2 ^ 64) : s.Mirrors c where
  records j := (h.lists j).records_eq
  count j := (h.lists j).count
  links j := ⟨(h.lists j).links, (h.lists j).distinct⟩
  names j := (h.lists j).names
  sole j k e he e' he' heq := by
    by_contra hjk
    exact h.apart j k hjk e he e' he' heq
  linked id r hr := h.linked_iff hr
  answers q := by
    have hq : Serves s c q (serve q s).result (serve q s).state := h.request hlt q
    exact ⟨hq.answer, fun e he => hq.refused e (hq.answer.trans he)⟩

theorem Stands.run (h : s.Stands c) (hlt : c.records.length < 2 ^ 64) (qs : List (Request n)) :
    (s.run qs).Stands (c.run qs) ∧ (c.run qs).records = c.records := by
  induction qs generalizing s c with
  | nil => exact ⟨h, rfl⟩
  | cons q qs ih =>
    have hq : Serves s c q (serve q s).result (serve q s).state := h.request hlt q
    have hrecords := c.records_next q
    obtain ⟨hstands, hsame⟩ := ih hq.stands (hrecords ▸ hlt)
    exact ⟨hstands, hsame.trans hrecords⟩

/-- **Registries mirror lists**, at every point of every run. The records lie in memory, so there are fewer than
`2 ^ 64`. -/
theorem mirrors_run {records : List (RecordId × ModuleInfo)} (hlt : records.length < 2 ^ 64) (qs : List (Request n)) :
    ((start n records).run qs).Mirrors ((Catalog.start n records).run qs) := by
  obtain ⟨hstands, hrecords⟩ := (stands_start n records).run hlt qs
  exact hstands.mirrors (hrecords ▸ hlt)

/-- Two modules of one name, and another. -/
def namesakes : List (RecordId × ModuleInfo) :=
  let info (name : ModuleName) : ModuleInfo := ⟨name, "elf", .empty⟩
  [(.owned 0, info ⟨"disk", by decide, by decide⟩), (.owned 1, info ⟨"disk", by decide, by decide⟩),
    (.owned 2, info ⟨"net", by decide, by decide⟩)]

/-- A name taken and a record linked elsewhere are refused, and a record that has left may join another list. -/
def handover : List (Request 2) :=
  [.add 0 (.owned 0), .add 0 (.owned 1), .add 0 (.owned 2), .add 1 (.owned 0), .removeByName 0 "disk",
    .add 1 (.owned 0), .remove 0 (.owned 0), .find 1 "disk"]

theorem mirrors_handover : namesakes.length < 2 ^ 64 ∧
    (((Catalog.start 2 namesakes).run handover).lists 0).map Entry.id = [.owned 2] ∧
    (((Catalog.start 2 namesakes).run handover).lists 1).map Entry.id = [.owned 0] ∧
    ((start 2 namesakes).run handover).Mirrors ((Catalog.start 2 namesakes).run handover) :=
  ⟨by decide, by decide, by decide, mirrors_run (by decide) handover⟩

end Shelves

end Keel
