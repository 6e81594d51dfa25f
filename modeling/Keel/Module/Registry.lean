import Keel.Module.Info

/-!
# The registry of modules

The loaded modules are a linked list through records that lie elsewhere: a record carries the link, and whether it is
part of a list at all. Several registries may share a store of records.
- `Registry.records` is the list a registry stands for, the youngest module first;
- `add` refuses a record that is part of any list, and a name the list has already; `remove` takes a record out.
-/

namespace Keel

open Keel.Action (note fail lift)

/-- Which record: one that its owner keeps, or one in a heap object. -/
inductive RecordId
  | owned (index : Nat)
  | stored (start : Ptr)
  deriving DecidableEq

/-- A module with its place in a list. -/
structure Record where
  info : ModuleInfo
  next : Option RecordId
  linked : Bool
  deriving DecidableEq

namespace Record

/-- A record that is part of no list. -/
def fresh (info : ModuleInfo) : Record := ⟨info, none, false⟩

/-- The module's name. -/
def name (r : Record) : String := r.info.name.text

/-- The record with its fields named, the link left out. -/
def describe (r : Record) : String :=
  "ModuleRecord \x7b info: " ++ r.info.describe ++ ", linked: " ++ toString r.linked ++ ", .. \x7d"

end Record

/-! ## The store -/

/-- The records there are. -/
structure RecordStore where
  entries : List (RecordId × Record)

namespace RecordStore

/-- A store without records. -/
def empty : RecordStore := ⟨[]⟩

/-- The record of an id. -/
def get? (s : RecordStore) (id : RecordId) : Option Record := s.entries.lookup id

/-- The store without the record of an id. -/
def erase (s : RecordStore) (id : RecordId) : RecordStore := ⟨s.entries.filter fun e => e.1 != id⟩

/-- The store with a new record. -/
def insert (s : RecordStore) (id : RecordId) (r : Record) : RecordStore := ⟨(id, r) :: (s.erase id).entries⟩

/-- The store with the record of an id changed. -/
def update (s : RecordStore) (id : RecordId) (f : Record → Record) : RecordStore :=
  ⟨s.entries.map fun e => if e.1 = id then (e.1, f e.2) else e⟩

theorem get?_insert_self (s : RecordStore) (id : RecordId) (r : Record) : (s.insert id r).get? id = some r := by
  simp [get?, insert]

theorem get?_update (s : RecordStore) (id id' : RecordId) (f : Record → Record) :
    (s.update id f).get? id' = if id' = id then (s.get? id').map f else s.get? id' := by
  obtain ⟨es⟩ := s
  unfold get? update
  induction es with
  | nil => simp
  | cons e es ih =>
    obtain ⟨k, r⟩ := e
    simp only [List.map_cons, List.lookup_cons]
    by_cases hk : k = id
    · by_cases hi : id' = k
      · simp [hk, hi]
      · rw [if_pos hk, List.lookup_cons, beq_false_of_ne hi]; exact ih
    · by_cases hi : id' = k
      · subst hi; simp [hk]
      · rw [if_neg hk, List.lookup_cons, beq_false_of_ne hi]; exact ih

end RecordStore

/-! ## Registries -/

/-- A list of records by its head and its length. -/
structure Registry where
  head : Option RecordId
  count : Nat
  deriving DecidableEq

/-- A registry and the records it links. -/
structure Shelf where
  store : RecordStore
  registry : Registry

namespace Registry

/-- The registry without modules. -/
def empty : Registry := ⟨none, 0⟩

/-- The records linked from `id` on, at most `n` of them, where `get?` tells which record an id has. -/
def recordsFrom (get? : RecordId → Option Record) : Nat → Option RecordId → List (RecordId × Record)
  | 0, _ => []
  | _ + 1, none => []
  | n + 1, some id =>
    match get? id with
    | none => []
    | some r => (id, r) :: recordsFrom get? n r.next

/-- The records of a registry, the youngest first. A list without a cycle has no more records than the store. -/
def records (s : RecordStore) (r : Registry) : List (RecordId × Record) := recordsFrom s.get? s.entries.length r.head

/-- The record of a name. -/
def find? (s : RecordStore) (r : Registry) (name : String) : Option (RecordId × Record) :=
  (r.records s).find? fun e => e.2.name == name

/-- Whether a name is registered. -/
def contains (s : RecordStore) (r : Registry) (name : String) : Bool := (r.find? s name).isSome

/-! ## Lines -/

/-- The record is part of a list already. -/
def linkedTwiceLine (name : String) : Line := ⟨.warn, s!"registry: {name} is already linked"⟩

/-- The name is registered already. -/
def duplicateLine (name : String) : Line := ⟨.warn, s!"registry: duplicate module name {name}"⟩

/-- A record joined the list. -/
def linkedLine (name : String) (count : Nat) : Line := ⟨.debug, s!"registry: linked {name} ({count} modules)"⟩

/-- A record left the list. -/
def unlinkedLine (name : String) (count : Nat) : Line := ⟨.debug, s!"registry: unlinked {name} ({count} modules)"⟩

/-! ## Operations -/

/-- Changes the record of an id. -/
def updateRecord (id : RecordId) (f : Record → Record) : Action Shelf Unit :=
  modify fun s => { s with store := s.store.update id f }

/-- Changes the registry. -/
def update (f : Registry → Registry) : Action Shelf Unit := modify fun s => { s with registry := f s.registry }

/-- Puts a record in front of the list. -/
def add (id : RecordId) : Action Shelf Unit := do
  let s ← get
  let r ← Action.ofOption .noSuch (s.store.get? id)
  if r.linked then
    note (linkedTwiceLine r.name)
    fail .badArgs
  if s.registry.contains s.store r.name then
    note (duplicateLine r.name)
    fail .badArgs
  updateRecord id fun r => { r with next := s.registry.head, linked := true }
  update fun g => { g with head := some id }
  let count ← lift (Count.add s.registry.count 1)
  update fun g => { g with count }
  note (linkedLine r.name count)

/-- The id of the record of a name. -/
def find (name : String) : Action Shelf (RecordId × Record) := do
  let s ← get
  Action.ofOption .noSuch (s.registry.find? s.store name)

/-- Takes `target` out of the list from `cursor` on; `before` is the record in front of it. -/
def unlinkFrom (target : RecordId) : Nat → Option RecordId → Option RecordId → Action Shelf Unit
  | 0, _, _ => fail .noSuch
  | _ + 1, _, none => fail .noSuch
  | n + 1, before, some id => do
    let r ← Action.ofOption .noSuch ((← get).store.get? id)
    if id = target then
      updateRecord id fun r => { r with next := none }
      match before with
      | none => update fun g => { g with head := r.next }
      | some b => updateRecord b fun p => { p with next := r.next }
      updateRecord id fun r => { r with linked := false }
      let count ← lift (Count.sub (← get).registry.count 1)
      update fun g => { g with count }
      note (unlinkedLine r.name count)
    else unlinkFrom target n (some id) r.next

/-- Takes a record out of the list. -/
def remove (id : RecordId) : Action Shelf Unit := do
  let s ← get
  unlinkFrom id s.store.entries.length none s.registry.head

/-- Takes the record of a name out of the list and answers which it was. -/
def removeByName (name : String) : Action Shelf RecordId := do
  let (id, _) ← find name
  remove id
  return id

end Registry

end Keel
