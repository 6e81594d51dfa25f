import Keel.Proofs.Kernel.Loading
import Keel.Proofs.Kernel.Maps

/-!
# Modules among the tenants of the heap

A tenancy is a session with a kernel in which books are kept of who has what: clients have the objects that allocating
answered them and that did not come back, and loaded are the modules whose load has answered them and that were not
unloaded. Clients may give back what they like, but no record, and write into their own objects and frames.

`Tenancy.Kept` is the invariant: the session is in order, and the records of what is loaded are on file in objects that
clients do not have (`Files`). Bringing memory up leaves nothing on file (`kept_start`), and every request keeps the
invariant: loading and unloading change the file as they change the books (`step_load`, `step_loadAll`, `step_unload`),
objects of clients come and go beside it (`step_allocate`, `step_free`), what is asked of the pool leaves all objects
(`step_onPool`), and what clients write meets no record (`step_write`). A request also changes memory and the pool as it
may (`Step`), so a run writes pages of the heap and the bitmap and nothing else (`kept_run`).
-/

namespace Keel.Kernel

open Keel.Action (Steps)
open Keel.Frame (Pool)
open Keel.Heap (Object classFor)
open Keel.Memory (Alters block pageAt)
open Keel.Registry (Entry)
open Keel.Slab (Estate)

attribute [local irreducible] Memory.word Cell.read

variable {α : Type} {E : Estate} {k k' : Kernel}

/-! ## Bringing memory up -/

/-- What bringing memory up leaves alone. -/
structure Rises (k k' : Kernel) : Prop where
  windows : k'.windows = k.windows
  exports : k'.exports = k.exports
  loaders : k'.loaders = k.loaders
  registry : k'.registry = k.registry
  stage : k'.stage = .modules ↔ k.stage = .modules

instance : IsPreorder Kernel Rises where
  refl := fun _ => ⟨rfl, rfl, rfl, rfl, Iff.rfl⟩
  trans := fun _ _ _ h h' => ⟨h'.windows.trans h.windows, h'.exports.trans h.exports, h'.loaders.trans h.loaders,
    h'.registry.trans h.registry, h'.stage.trans h.stage⟩

theorem rises_onGround (x : Action Ground α) : Steps Rises (onGround x) := fun _ => ⟨rfl, rfl, rfl, rfl, Iff.rfl⟩

theorem rises_advance : Steps Rises (advance .memory) := by
  intro k
  refine ⟨rfl, rfl, rfl, rfl, ?_⟩
  show k.stage.later .memory = .modules ↔ k.stage = .modules
  cases k.stage <;> decide

/-- Bringing memory up concerns neither windows, exports and loaders nor the registry. -/
theorem rises_startMemory (rs : List Region) (ms : List BootModule) (mapper : Mapper) :
    Steps Rises (startMemory rs ms mapper) := by
  refine steps_startMemory (fun _ => rises_onGround _) (fun _ _ => rises_onGround _) (fun bitmap words => ?_) ms
  exact (steps_escalate (rises_onGround _)).bind fun _ => (rises_onGround _).bind fun _ => rises_advance.bind fun _ =>
    (Action.steps_lift _).bind fun _ => (Action.steps_note _).bind fun _ => Action.steps_pure _

theorem Ready.rises (h : k.Ready) (hr : Rises k k') : k'.Ready := by
  unfold Ready
  rw [hr.windows, hr.exports, hr.loaders, ne_eq, hr.stage]
  exact h

/-! ## Tenancies -/

/-- A session with a kernel, the objects that clients have of its heap, and the modules that are loaded, the youngest
first. -/
structure Tenancy where
  session : Session
  others : Set Object
  loaded : List ModuleInfo

namespace Tenancy

/-- The tenancy in which memory has just come up, and nobody has anything. -/
def start (rs : List Region) (ms : List BootModule) (mapper : Mapper) (k : Kernel) : Tenancy :=
  ⟨.start rs ms mapper k, ∅, []⟩

/-- The kernel of a tenancy. -/
def kernel (t : Tenancy) : Kernel := t.session.kernel

/-- The objects that clients have after a request. -/
def othersAfter (t : Tenancy) : Request → Set Object
  | .allocate size =>
    match (onGround (Ground.allocate size) t.kernel).result, classFor size with
    | .ok x, .ok i => insert ⟨x, i⟩ t.others
    | _, _ => t.others
  | .free x =>
    match (onGround (Ground.free x) t.kernel).result with
    | .ok () => {o ∈ t.others | o.start ≠ x}
    | .error _ => t.others
  | _ => t.others

/-- The modules that are loaded after a request: those whose load has answered them, without those that were unloaded. -/
def loadedAfter (t : Tenancy) : Request → List ModuleInfo
  | .load m mapper =>
    match (loadBootModule m mapper t.kernel).result with
    | .ok i => i :: t.loaded
    | .error _ => t.loaded
  | .loadAll ms mapper => gained mapper ms t.kernel ++ t.loaded
  | .unload name =>
    match (unloadModule name t.kernel).result with
    | .ok _ => t.loaded.filter fun i => i.name.text ≠ name
    | .error _ => t.loaded
  | _ => t.loaded

/-- One request or write. -/
def step (t : Tenancy) (q : Request) : Tenancy := ⟨t.session.step q, t.othersAfter q, t.loadedAfter q⟩

/-- The tenancy after a list of requests. -/
def run (t : Tenancy) (qs : List Request) : Tenancy := qs.foldl step t

theorem kernel_start (rs : List Region) (ms : List BootModule) (mapper : Mapper) (k : Kernel) :
    (start rs ms mapper k).kernel = (startMemory rs ms mapper k).state := rfl

theorem kernel_step (t : Tenancy) (q : Request) : (t.step q).kernel = q.on t.kernel := rfl

/-- Whoever gets an object has it. -/
theorem others_of_allocate {t : Tenancy} {size : Nat} {x : Ptr} {i : SizeClass}
    (h : (onGround (Ground.allocate size) t.kernel).result = .ok x) (hi : classFor size = .ok i) :
    (t.step (.allocate size)).others = insert ⟨x, i⟩ t.others := by
  show t.othersAfter (.allocate size) = _
  rw [othersAfter, h, hi]

/-- Whoever gets a frame holds it. -/
theorem held_of_alloc {t : Tenancy} {pa : PhysAddr} (h : (onPool Pool.alloc t.kernel).result = .ok pa) :
    Align.frameOf pa.raw ∈ (t.step .allocFrame).session.held := by
  show _ ∈ t.session.heldAfter .allocFrame
  rw [Session.heldAfter, show onPool Pool.alloc t.session.kernel = onPool Pool.alloc t.kernel from rfl, h]
  exact Set.mem_insert _ _

/-- What clients may do: they give back no record and no frame but those they hold, and write into their own objects and
frames. -/
def Permits (t : Tenancy) : Request → Prop
  | .free x => ∀ e ∈ t.kernel.shelf.registry.records t.kernel.shelf.store, e.1 ≠ .stored x
  | .freeFrame pa => t.session.Permits (.freeFrame pa)
  | .write a bytes => (∃ o ∈ t.others, block a bytes.length ⊆ o.bytes) ∨
      ∃ f ∈ t.session.held, block a bytes.length ⊆ pageAt (t.session.mapper.page f)
  | _ => True

/-- Every one of some requests is permitted when it is made. -/
def Permitted (t : Tenancy) : List Request → Prop
  | [] => True
  | q :: qs => t.Permits q ∧ (t.step q).Permitted qs

/-- A client may write into what it has, and has it still. -/
theorem permits_write {t : Tenancy} {o : Object} {a : Ptr} (bytes : List UInt8) (ho : o ∈ t.others) (j : Nat)
    (ha : a = o.start + UInt64.ofNat j) (h : j + bytes.length ≤ classSize o.sizeClass) :
    t.Permits (.write a bytes) ∧ (t.step (.write a bytes)).others = t.others :=
  ⟨.inl ⟨o, ho, ha ▸ Memory.block_add_subset h⟩, rfl⟩

/-! ## The invariant -/

variable {t : Tenancy} {q : Request} {qs : List Request} {es : List Entry} {rs : List Region} {ms : List BootModule}
  {mapper : Mapper} {stats : Frame.PoolStats}

/-- The entries `es` are on file for what is loaded. -/
structure Files (E : Estate) (t : Tenancy) (es : List Entry) : Prop where
  filed : Filed E t.kernel t.others es
  infos : es.map Entry.info = t.loaded

/-- The memory services of a tenancy are in order, and something is on file for what is loaded. -/
def Kept (E : Estate) (t : Tenancy) : Prop := t.session.Kept E ∧ ∃ es, t.Files E es

/-- The registry lists what is loaded. -/
theorem Files.modules_eq (h : t.Files E es) : t.kernel.modules = t.loaded := h.filed.modules_eq.trans h.infos

/-- The clients of a tenancy are clients of its session. -/
theorem Files.permits (h : t.Files E es) (hq : t.Permits q) : t.session.Permits q := by
  cases q with
  | freeFrame pa => exact hq
  | write a bytes =>
    refine hq.imp_left fun ho => ?_
    obtain ⟨o, ho, hsub⟩ := ho
    exact ⟨o.start, classSize o.sizeClass, h.filed.other_mem ho, hsub⟩
  | _ => trivial

/-- Clients may give back what they have. -/
theorem Files.permits_free (h : t.Files E es) {o : Object} (ho : o ∈ t.others) : t.Permits (.free o.start) := by
  intro e he hid
  have hmem : Entry.of e ∈ es := by
    rw [← h.filed.lists.records_eq]
    exact List.mem_map_of_mem he
  have hclass := object_unique h.filed.stands (h.filed.other_mem ho) (h.filed.cell_mem hmem hid)
  exact Set.disjoint_left.1 h.filed.apart ho ⟨hclass, Entry.of e, hmem, hid⟩

/-! ## One request -/

/-- What a request does: of the pool it asks what it may, it writes where it may, and something is on file after it. -/
def Step (E : Estate) (t : Tenancy) (q : Request) : Prop :=
  (∃ p rs, t.session.Changes E q p rs) ∧ ∃ es, (t.step q).Files E es

/-- What is asked of the memory services, with the file that there is afterwards. -/
theorem step_of_leads (hs : t.session.Kept E) (hl : Leads E q.asks t.kernel (q.on t.kernel))
    (hheld : t.session.heldAfter q = t.session.held) (hf : ∃ es, (t.step q).Files E es) : t.Step E q :=
  ⟨Session.changes_of_leads hs hl hheld, hf⟩

/-- The file after a request that leaves clients what they have. -/
theorem files_of_filed (hon : q.on t.kernel = k) (hothers : t.othersAfter q = t.others) (hf : Filed E k t.others es)
    (hinfos : es.map Entry.info = t.loadedAfter q) : (t.step q).Files E es := by
  subst hon
  refine ⟨?_, hinfos⟩
  show Filed E (q.on t.kernel) (t.othersAfter q) es
  rw [hothers]
  exact hf

/-- What leaves the objects, and all that is not memory, leaves what is on file. -/
theorem Files.beside (h : t.Files E es) (hg : ∃ g, q.on t.kernel = { t.kernel with ground := g })
    (hst : (q.on t.kernel).Stands E) (hobj : (q.on t.kernel).objects = t.kernel.objects)
    (hp : t.kernel.Preserves (q.on t.kernel)) (hothers : t.othersAfter q = t.others)
    (hloaded : t.loadedAfter q = t.loaded) : (t.step q).Files E es :=
  files_of_filed rfl hothers (h.filed.onGround hg hst hp (hobj.trans h.filed.objects) h.filed.apart).1
    (h.infos.trans hloaded.symm)

/-- Bringing loading up leaves the registry and what its records tell. -/
theorem files_startModules (h : t.Files E es) (exports : ExportTable) :
    (t.step (.startModules exports)).Files E es := by
  obtain ⟨r, k, log, hk, hrests⟩ := (rests_startModules exports t.kernel).trace
  have hst : k.Stands E := by
    obtain ⟨p, V, hV⟩ := h.filed.stands
    exact ⟨p, V, hrests.ground ▸ hV⟩
  have hrecords : ∀ e ∈ es, k.record? e.id = t.kernel.record? e.id := fun e _ => by
    unfold record?
    rw [hrests.ground, hrests.owned, hrests.texts]
  obtain ⟨hfiled, -⟩ := h.filed.carry hst ((objects_congr hrests.ground).trans h.filed.objects) h.filed.apart
    hrests.registry hrecords
  exact files_of_filed (congrArg Trace.state hk) rfl hfiled h.infos

/-- A module that is loaded joins what is on file. -/
theorem step_load (hs : t.session.Kept E) (h : t.Files E es) (m : BootModule) (mapper : Mapper) :
    t.Step E (.load m mapper) := by
  obtain ⟨r, k, log, hk, hleads, -, hr⟩ := (loadBootModule_ends h.filed m mapper).trace
  have hon : Request.on t.kernel (.load m mapper) = k := congrArg Trace.state hk
  refine step_of_leads hs (hon ▸ hleads) rfl ?_
  rcases hr with ⟨x, i, rfl, -, hfiled⟩ | ⟨⟨e, rfl⟩, -, -, hfiled⟩
  · refine ⟨_, files_of_filed hon rfl hfiled ?_⟩
    rw [loadedAfter, hk, List.map_cons, h.infos]
  · refine ⟨es, files_of_filed hon rfl hfiled ?_⟩
    rw [loadedAfter, hk]
    exact h.infos

theorem step_loadAll (hs : t.session.Kept E) (h : t.Files E es) (ms : List BootModule) (mapper : Mapper) :
    t.Step E (.loadAll ms mapper) := by
  obtain ⟨r, k, log, hk, hleads, -, new, hloads⟩ := (loadAll_ends h.filed ms mapper).trace
  have hon : Request.on t.kernel (.loadAll ms mapper) = k := congrArg Trace.state hk
  refine step_of_leads hs (hon ▸ hleads) rfl ⟨_, files_of_filed hon rfl hloads.filed ?_⟩
  rw [loadedAfter, List.map_append, hloads.placed, h.infos]

/-- Leaving the name of an entry out of a list leaves out the entry. -/
theorem filter_names {xs ys : List Entry} {e : Entry} (hnames : ((xs ++ e :: ys).map Entry.name).Nodup) :
    ((xs ++ e :: ys).map Entry.info).filter (fun i => i.name.text ≠ e.name) = (xs ++ ys).map Entry.info := by
  rw [List.map_append, List.map_cons, List.nodup_middle, List.nodup_cons, ← List.map_append] at hnames
  have hne : ∀ e' ∈ xs ++ ys, e'.name ≠ e.name := fun e' he' hn => hnames.1 (hn ▸ List.mem_map_of_mem he')
  have hkeep : ∀ zs : List Entry, (∀ e' ∈ zs, e'.name ≠ e.name) →
      (zs.map Entry.info).filter (fun i => i.name.text ≠ e.name) = zs.map Entry.info := fun zs hz => by
    rw [List.filter_eq_self]
    intro i hi
    obtain ⟨e', he', rfl⟩ := List.mem_map.1 hi
    exact decide_eq_true (hz e' he')
  rw [List.map_append, List.map_cons, List.filter_append, List.filter_cons_of_neg, hkeep xs, hkeep ys, ← List.map_append]
  · exact fun e' he' => hne e' (List.mem_append_right _ he')
  · exact fun e' he' => hne e' (List.mem_append_left _ he')
  · simp [Entry.name]

theorem step_unload (hs : t.session.Kept E) (h : t.Files E es) (name : String) : t.Step E (.unload name) := by
  obtain ⟨r, k, log, hk, hleads, hr⟩ := (unloadModule_ends h.filed name).trace
  have hon : Request.on t.kernel (.unload name) = k := congrArg Trace.state hk
  refine step_of_leads hs (hon ▸ hleads) rfl ?_
  rcases hr with ⟨xs, e, ys, rfl, rfl, -, rfl, hfiled⟩ | ⟨rfl, -, rfl⟩ | ⟨rfl, -, rfl⟩
  · refine ⟨_, files_of_filed hon rfl hfiled ?_⟩
    rw [loadedAfter, hk]
    dsimp only
    rw [← h.infos, filter_names h.filed.lists.names]
  · refine ⟨es, files_of_filed hon rfl h.filed ?_⟩
    rw [loadedAfter, hk]
    exact h.infos
  · refine ⟨es, files_of_filed hon rfl h.filed ?_⟩
    rw [loadedAfter, hk]
    exact h.infos

theorem step_allocate (hs : t.session.Kept E) (h : t.Files E es) (size : Nat) : t.Step E (.allocate size) := by
  refine step_of_leads hs (steps_onGround (Ground.steps_allocate size) t.kernel) rfl ⟨es, ?_, h.infos⟩
  obtain ⟨r, k, log, hk, hg, hst, hp, hr⟩ := (allocate_objects h.filed.stands size).trace
  have hon : (t.step (.allocate size)).kernel = k := congrArg Trace.state hk
  show Filed E _ (t.othersAfter (.allocate size)) es
  rw [hon, othersAfter, hk]
  rcases hr with ⟨x, i, rfl, hi, hnew, hobj⟩ | ⟨href, hobj⟩
  · rw [hi]
    dsimp only
    have hcell : ⟨x, i⟩ ∉ cells es := fun hx => hnew (h.filed.objects ▸ .inr hx)
    rw [h.filed.objects, ← Set.insert_union] at hobj
    exact (h.filed.onGround hg hst hp hobj (Set.disjoint_insert_left.2 ⟨hcell, h.filed.apart⟩)).1
  · have hsame := (h.filed.onGround hg hst hp (hobj.trans h.filed.objects) h.filed.apart).1
    rcases href with ⟨f, -, rfl⟩ | ⟨rfl, -⟩
    · exact hsame
    · exact hsame

/-- What clients give back is no record, so the records stay in their objects. -/
theorem step_free (hs : t.session.Kept E) (h : t.Files E es) {x : Ptr} (hq : t.Permits (.free x)) :
    t.Step E (.free x) := by
  refine step_of_leads hs (steps_onGround (Ground.steps_free x) t.kernel) rfl ⟨es, ?_, h.infos⟩
  have hno : ∀ e ∈ es, e.id ≠ .stored x := by
    intro e he
    rw [← h.filed.lists.records_eq] at he
    obtain ⟨e', he', rfl⟩ := List.mem_map.1 he
    exact hq e' he'
  have hcells : ∀ o ∈ cells es, o.start ≠ x := by
    rintro o ⟨-, e, he, hid⟩ rfl
    exact hno e he hid
  obtain ⟨r, k, log, hk, hr⟩ := (free_objects h.filed.stands x).trace
  have hon : (t.step (.free x)).kernel = k := congrArg Trace.state hk
  show Filed E _ (t.othersAfter (.free x)) es
  rw [hon, othersAfter, hk]
  rcases hr with ⟨-, rfl, hg, hst, hp, hobj⟩ | ⟨-, ⟨f, rfl⟩, rfl⟩
  · have hobj' : k.objects = {o ∈ t.others | o.start ≠ x} ∪ cells es := by
      rw [hobj, h.filed.objects]
      ext o
      simp only [Set.mem_union, Set.mem_sep_iff, or_and_right]
      exact or_congr_right (and_iff_left_of_imp (hcells o))
    exact (h.filed.onGround hg hst hp hobj' (h.filed.apart.mono_left (Set.sep_subset _ _))).1
  · exact h.filed

theorem step_shrink (hs : t.session.Kept E) (h : t.Files E es) : t.Step E .shrink := by
  obtain ⟨p, rs, hc⟩ := Session.changes_of_leads (q := .shrink) hs (steps_onGround Ground.steps_shrink t.kernel) rfl
  obtain ⟨p', V, hV, -⟩ := hc.kept.2
  obtain ⟨hobj, hp⟩ := shrink_objects h.filed.stands
  exact ⟨⟨p, rs, hc⟩, es, h.beside ⟨_, rfl⟩ ⟨p', V, hV⟩ hobj hp rfl rfl⟩

/-- What is asked of the pool leaves the records. -/
theorem step_onPool (hs : t.session.Kept E) (h : t.Files E es) (hq : t.Permits q) (hpool : (∃ pa, q = .freeFrame pa) ∨
    q = .allocFrame ∨ ∃ base length, q = .reserve base length) : t.Step E q := by
  obtain ⟨hobj, hp⟩ := Session.pool_objects hs (h.permits hq) hpool
  have hchanges : ∃ p rs, t.session.Changes E q p rs := by
    rcases hpool with ⟨pa, rfl⟩ | rfl | ⟨base, length, rfl⟩
    · exact Session.changes_freeFrame hs hq
    · exact Session.changes_allocFrame hs
    · exact Session.changes_of_leads hs (steps_onGround (Ground.steps_reserve base length) t.kernel) rfl
  obtain ⟨p, rs, hc⟩ := id hchanges
  obtain ⟨p', V, hV, -⟩ := hc.kept.2
  refine ⟨hchanges, es, ?_⟩
  rcases hpool with ⟨pa, rfl⟩ | rfl | ⟨base, length, rfl⟩
  · exact h.beside ⟨_, rfl⟩ ⟨p', V, hV⟩ hobj hp rfl rfl
  · exact h.beside ⟨_, rfl⟩ ⟨p', V, hV⟩ hobj hp rfl rfl
  · exact h.beside ⟨_, rfl⟩ ⟨p', V, hV⟩ hobj hp rfl rfl

/-- What clients write meets no record. -/
theorem disjoint_write (hE : Session.Visible E) (hs : t.session.Kept E) (h : t.Files E es) {a : Ptr} {bytes : List UInt8}
    (hq : t.Permits (.write a bytes)) {e : Entry} (he : e ∈ es) {x : Ptr} (hx : e.id = .stored x) :
    Disjoint (Cell.bytes x) (block a bytes.length) := by
  have hcell : ⟨x, recordClass⟩ ∈ t.kernel.objects := h.filed.cell_mem he hx
  rcases hq with ⟨o, ho, hsub⟩ | ⟨f, hf, hsub⟩
  · have hne : ⟨x, recordClass⟩ ≠ o := by
      rintro rfl
      exact Set.disjoint_left.1 h.filed.apart ho (mem_cells.2 ⟨e, he, hx⟩)
    exact (disjoint_objects h.filed.stands hcell (h.filed.other_mem ho) hne).mono (cell_subset x) hsub
  · exact (Session.disjoint_held hE hs hcell hf).mono (cell_subset x) hsub

theorem step_write (hE : Session.Visible E) (hs : t.session.Kept E) (h : t.Files E es) {a : Ptr} {bytes : List UInt8}
    (hq : t.Permits (.write a bytes)) : t.Step E (.write a bytes) := by
  obtain ⟨p, rs, hc⟩ := Session.changes_write hE hs (h.permits hq)
  obtain ⟨p', V, hV, -⟩ := hc.kept.2
  have hobj := Session.objects_write hE hs (h.permits hq)
  have halters := Memory.alters_setBytes t.kernel.ground.arena.memory a bytes
  have hrecords : ∀ e ∈ es, (Request.on t.kernel (.write a bytes)).record? e.id = t.kernel.record? e.id := by
    intro e he
    obtain ⟨x, hx⟩ := h.filed.stored e he
    rw [hx]
    exact Cell.read_congr halters (disjoint_write hE hs h hq he hx)
  refine ⟨⟨p, rs, hc⟩, es, ?_, h.infos⟩
  exact (h.filed.carry ⟨p', V, hV⟩ (hobj.trans h.filed.objects) h.filed.apart rfl hrecords).1

/-- **Whatever is permitted** keeps the registry, the records and the heap in step, and writes where it may. -/
theorem step_of_kept (hE : Session.Visible E) (h : t.Kept E) (hq : t.Permits q) : t.Step E q := by
  obtain ⟨hs, es, hf⟩ := h
  cases q with
  | startModules exports =>
    exact step_of_leads hs (steps_startModules exports t.kernel) rfl ⟨es, files_startModules hf exports⟩
  | load m mapper => exact step_load hs hf m mapper
  | loadAll ms mapper => exact step_loadAll hs hf ms mapper
  | unload name => exact step_unload hs hf name
  | allocate size => exact step_allocate hs hf size
  | free x => exact step_free hs hf hq
  | shrink => exact step_shrink hs hf
  | allocFrame => exact step_onPool hs hf hq (.inr (.inl rfl))
  | freeFrame pa => exact step_onPool hs hf hq (.inl ⟨pa, rfl⟩)
  | reserve base length => exact step_onPool hs hf hq (.inr (.inr ⟨base, length, rfl⟩))
  | write a bytes => exact step_write hE hs hf hq

theorem Step.kept (h : t.Step E q) : (t.step q).Kept E := by
  obtain ⟨⟨p, rs, hc⟩, hf⟩ := h
  exact ⟨hc.kept, hf⟩

/-! ## Runs -/

/-- **A run** keeps the invariant and writes pages of the heap and the bitmap only. -/
theorem kept_run (hE : Session.Visible E) (h : t.Kept E) (hqs : t.Permitted qs) :
    (t.run qs).Kept E ∧ Alters (E.reach ∪ E.bitmap) t.session.memory (t.run qs).session.memory := by
  unfold run
  induction qs generalizing t with
  | nil => exact ⟨h, Alters.refl _ _⟩
  | cons q qs ih =>
    obtain ⟨hq, hqs⟩ := hqs
    have hstep := step_of_kept hE h hq
    obtain ⟨p, rs, hc⟩ := hstep.1
    obtain ⟨hkept, halters⟩ := ih hstep.kept hqs
    exact ⟨hkept, (hc.alters.mono (Set.union_subset_union_right _ (E.asked_subset rs))).trans halters⟩

/-- A kernel in which nothing is registered has nothing on file when memory has come up, and only the bitmap was written
till then. -/
theorem kept_start (h : (startMemory rs ms mapper k).result = .ok stats) (hregistry : k.registry = .empty)
    (hm : Maps rs ms mapper) : ∃ words first p g, Online rs ms mapper words first p k.ground g ∧
      (start rs ms mapper k).Kept (estate rs mapper words first p) ∧
      Alters (estate rs mapper words first p).bitmap k.ground.arena.memory (start rs ms mapper k).session.memory := by
  obtain ⟨words, first, p, o⟩ := startMemory_ends rs ms mapper k stats h
  let k' : Kernel := (startMemory rs ms mapper k).state
  have hV : Ground.Stands (estate rs mapper words first p) p k'.ground fun _ => [] := o.stands hm
  have hempty : k'.registry = .empty := (rises_startMemory rs ms mapper k).registry.trans hregistry
  have hnone : k'.objects = ∅ := Set.eq_empty_of_forall_notMem fun o ho => by
    obtain ⟨v, hv, -⟩ := (mem_objects hV).1 ho
    cases hv
  have hfiled : Filed (estate rs mapper words first p) k' ∅ [] := {
    stands := ⟨p, _, hV⟩
    lists := lists_empty hempty
    stored := nofun
    objects := by rw [hnone, cells_nil, Set.union_empty]
    apart := Set.empty_disjoint _ }
  refine ⟨words, first, p, k'.ground, o, ⟨⟨rfl, p, _, hV, ?_⟩, [], hfiled, rfl⟩, ?_⟩
  · exact fun f hf => absurd hf (Set.notMem_empty f)
  · exact o.becomes.alters.mono (Set.empty_union _).subset

end Tenancy

end Keel.Kernel
