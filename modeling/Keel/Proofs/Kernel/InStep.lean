import Keel.Proofs.Kernel.Tenants

/-!
# Registry, records and heap in step

Of a tenancy that is in order (`Tenancy.Kept`) the registry, the records and the report of the heap agree with the books:
the modules listed are those that are loaded, each record is an object of its own apart from those of clients, and the
heap reports as many objects as clients and modules have (`Tenancy.inStep_of_kept`). Where loading has what it needs, which
stays so (`Tenancy.ready_run`), loads and unloads answer for what they have done, and no load stops the machine but for
want of a count in the pool (`Tenancy.answers_of_kept`). So all that is in step stays so (`Tenancy.inStep_run`), if nothing
was registered before and the mapper shows the frames of the bitmap in a row (`Tenancy.outOfStep`).
-/

namespace Keel.Kernel

open Keel.Action (Steps)
open Keel.Frame (Pool)
open Keel.Heap (Object)
open Keel.Memory (block)
open Keel.Registry (Entry)
open Keel.Slab (Estate)

attribute [local irreducible] Memory.word Cell.read

variable {E : Estate} {k k' : Kernel}

/-! ## Reports -/

/-- The objects in use that the heap of a kernel reports. -/
def inUse (k : Kernel) : Checked Fault Nat := (onGround (Ground.onHeap Heap.stats) k).result.map HeapStats.inUse

/-- The heap reports its objects. -/
theorem inUse_eq (h : k.Stands E) : ∃ n : Nat, k.inUse = .ok n ∧ (n : ℕ∞) = k.objects.encard := by
  obtain ⟨s, hs, hcard, -⟩ := stats_objects h
  refine ⟨s.inUse, ?_, hcard⟩
  rw [inUse, hs]
  rfl

theorem inUse_congr (h : k.Stands E) (h' : k'.Stands E) (hobj : k'.objects = k.objects) : k'.inUse = k.inUse := by
  obtain ⟨n, hn, hcard⟩ := inUse_eq h
  obtain ⟨n', hn', hcard'⟩ := inUse_eq h'
  rw [hobj, ← hcard] at hcard'
  rw [hn, hn', ENat.natCast_inj.1 hcard']

namespace Tenancy

variable {t : Tenancy} {q : Request} {qs : List Request} {es : List Entry} {rs : List Region} {ms : List BootModule}
  {mapper : Mapper} {stats : Frame.PoolStats}

/-! ## In step -/

/-- The registry, the records and the heap are in step. -/
structure InStep (t : Tenancy) : Prop where
  /-- The registry lists what is loaded, the youngest first, and no name twice. -/
  modules : t.kernel.modules = t.loaded
  count : t.kernel.shelf.registry.count = t.loaded.length
  names : (t.loaded.map fun i => i.name.text).Nodup
  /-- The objects are those of others and, apart from these, one for each record. -/
  records : ∃ xs : List Ptr, xs.Nodup ∧
    (t.kernel.shelf.registry.records t.kernel.shelf.store).map Prod.fst = xs.map .stored ∧
    t.kernel.objects = t.others ∪ {o | o.sizeClass = recordClass ∧ o.start ∈ xs} ∧
    ∀ x ∈ xs, ∀ o ∈ t.others, Disjoint (block x recordSize) o.bytes
  inUse : ∃ n : Nat, t.kernel.inUse = .ok n ∧ (n : ℕ∞) = t.others.encard + t.loaded.length

/-- What a tenancy owes who loads and unloads modules. Where loading has what it needs, only a pool that cannot count
another failure stops the machine. -/
def Answers (t : Tenancy) : Request → Prop
  | .load m mapper =>
    match loadBootModule m mapper t.kernel with
    | ⟨.ok i, k, _⟩ => i.name.text = m.fileName ∧ k.modules = i :: t.kernel.modules
    | ⟨.error (.fault _), k, _⟩ => k.shelf = t.kernel.shelf ∧ k.inUse = t.kernel.inUse
    | ⟨.error (.halt h), k, _⟩ => t.kernel.Ready → h = .addOverflow ∧ k.Saturated
  | .loadAll ms mapper =>
    match loadAll ms mapper t.kernel with
    | ⟨.ok n, k, _⟩ => n.loaded + n.failed = ms.length ∧
        ∃ new, k.modules = new ++ t.kernel.modules ∧ new.length = n.loaded
    | ⟨.error e, k, _⟩ => ∃ h, e = .halt h ∧ (t.kernel.Ready → h = .addOverflow ∧ k.Saturated)
  | .unload name =>
    match unloadModule name t.kernel with
    | ⟨.ok i, k, _⟩ => i ∈ t.loaded ∧ i.name.text = name ∧
        k.modules = t.kernel.modules.filter fun i => i.name.text ≠ name
    | ⟨.error e, k, _⟩ => k = t.kernel ∧ (t.kernel.stage = .modules →
        e = .fault .noSuch ∧ ∀ i ∈ t.loaded, i.name.text ≠ name)
  | _ => True

/-! ## What loading needs -/

/-- Loading has what it needs, or is not up yet, whatever is permitted. -/
theorem ready_step (h : t.Kept E) (hready : t.kernel.Ready) (q : Request) : (t.step q).kernel.Ready := by
  obtain ⟨hs, es, hf⟩ := h
  have hground : ∀ g, Ready { t.kernel with ground := g } := fun _ => hready.equips ⟨rfl, rfl, rfl, rfl⟩
  cases q with
  | startModules exports => exact (startModules_ends hready exports).mono fun _ _ h => h.1
  | load m mapper =>
    obtain ⟨r, k, log, hk, -, hkept, -⟩ := (loadBootModule_ends hf.filed m mapper).trace
    have hon : (t.step (.load m mapper)).kernel = k := congrArg Trace.state hk
    exact hon ▸ hkept hready
  | loadAll ms mapper =>
    obtain ⟨r, k, log, hk, -, hkept, -⟩ := (loadAll_ends hf.filed ms mapper).trace
    have hon : (t.step (.loadAll ms mapper)).kernel = k := congrArg Trace.state hk
    exact hon ▸ hkept hready
  | unload name => exact hready.equips (steps_unloadModule stores_equips.toReleases name t.kernel)
  | _ => exact hground _

theorem ready_run (hE : Session.Visible E) (h : t.Kept E) (hready : t.kernel.Ready) (hqs : t.Permitted qs) :
    (t.run qs).kernel.Ready := by
  unfold run
  induction qs generalizing t with
  | nil => exact hready
  | cons q qs ih =>
    obtain ⟨hq, hqs⟩ := hqs
    exact ih (step_of_kept hE h hq).kept (ready_step h hready q) hqs

/-! ## What is in step -/

/-- What is on file shows that all is in step. -/
theorem inStep_of_kept (h : t.Kept E) : t.InStep := by
  obtain ⟨-, es, hf⟩ := h
  have hlength : es.length = t.loaded.length := by rw [← hf.infos, List.length_map]
  obtain ⟨xs, hnodup, hids, hcells, happart⟩ := hf.filed.starts
  obtain ⟨n, hn, hcard⟩ := inUse_eq hf.filed.stands
  refine ⟨hf.modules_eq, hf.filed.lists.count.trans hlength, ?_, ⟨xs, hnodup, ?_, hcells ▸ hf.filed.objects, happart⟩,
    n, hn, ?_⟩
  · rw [← hf.infos, List.map_map]
    exact hf.filed.lists.names
  · rw [← hids, ← hf.filed.lists.records_eq, List.map_map]
    rfl
  · rw [hcard, hf.filed.encard, hlength]

/-- What is on file shows what loading and unloading answer. -/
theorem answers_of_kept (h : t.Kept E) (q : Request) : t.Answers q := by
  obtain ⟨-, es, hf⟩ := h
  cases q with
  | load m mapper =>
    obtain ⟨r, k, log, hk, -, -, hr⟩ := (loadBootModule_ends hf.filed m mapper).trace
    rw [Answers, hk]
    rcases hr with ⟨x, i, rfl, hname, hfiled⟩ | ⟨⟨f | e, rfl⟩, hrefused, hshelf, hfiled⟩
    · refine ⟨hname, ?_⟩
      rw [hfiled.modules_eq, hf.filed.modules_eq, List.map_cons]
    · exact ⟨hshelf, inUse_congr hf.filed.stands hfiled.stands (hfiled.objects.trans hf.filed.objects.symm)⟩
    · intro hready
      rcases hrefused hready with ⟨f, -, hf⟩ | ⟨he, hfull⟩
      · cases hf
      · cases he
        exact ⟨rfl, hfull⟩
  | loadAll ms mapper =>
    obtain ⟨r, k, log, hk, -, -, new, hloads⟩ := (loadAll_ends hf.filed ms mapper).trace
    rw [Answers, hk]
    rcases hloads.reports with ⟨n, rfl, hloaded, htotal⟩ | ⟨e, rfl, hfull⟩
    · refine ⟨htotal, new.map Entry.info, ?_, ?_⟩
      · rw [hloads.filed.modules_eq, hf.filed.modules_eq, List.map_append]
      · rw [List.length_map, hloaded, Nat.zero_add]
    · exact ⟨e, rfl, hfull⟩
  | unload name =>
    obtain ⟨r, k, log, hk, -, hr⟩ := (unloadModule_ends hf.filed name).trace
    rw [Answers, hk]
    rcases hr with ⟨xs, e, ys, rfl, rfl, -, rfl, hfiled⟩ | ⟨rfl, hstage, rfl⟩ | ⟨rfl, hno, rfl⟩
    · refine ⟨?_, rfl, ?_⟩
      · rw [← hf.infos]
        exact List.mem_map_of_mem (by simp)
      · rw [hfiled.modules_eq, hf.filed.modules_eq, filter_names hf.filed.lists.names]
    · exact ⟨rfl, fun hs => absurd hs hstage⟩
    · refine ⟨rfl, fun _ => ⟨rfl, ?_⟩⟩
      rw [← hf.infos]
      exact List.forall_mem_map.2 hno
  | _ => trivial

/-- **Registry, records and heap stay in step**, whatever is asked of the kernel once memory is up, as long as clients
touch only what they hold; and loading and unloading answer for exactly what they have done. What loading needs is there
to stay. -/
theorem inStep_run (h : (startMemory rs ms mapper k).result = .ok stats) (hregistry : k.registry = .empty)
    (hm : Maps rs ms mapper) (qs : List Request) (q : Request) (hqs : (start rs ms mapper k).Permitted qs) :
    ((start rs ms mapper k).run qs).InStep ∧ ((start rs ms mapper k).run qs).Answers q ∧
      (k.Ready → ((start rs ms mapper k).run qs).kernel.Ready) := by
  obtain ⟨words, first, p, g, o, hstart, -⟩ := kept_start h hregistry hm
  obtain ⟨hkept, -⟩ := kept_run (o.visible hm) hstart hqs
  refine ⟨inStep_of_kept hkept, answers_of_kept hkept q, fun hready => ?_⟩
  exact ready_run (o.visible hm) hstart (hready.rises (rises_startMemory rs ms mapper k)) hqs

/-- A map of two regions. -/
def twoRegions : List Region := [.usable ⟨0x1000⟩ 0x5000, .usable ⟨0x8000⟩ 0x2000]

/-- A boot module with some code, some data and an entry point. -/
def driver : BootModule := ⟨"/boot/driver", ⟨0x1000⟩, 456⟩

/-- A kernel with the image of the module in memory. -/
def stocked : Kernel := .boot (Memory.blank.setBytes 0x400000001000 (Elf.objectWithInit 0).bytes.toList) false

/-- The tenancy with that kernel, with modules online. -/
def online : Tenancy :=
  (start twoRegions [driver] (.direct 0x400000000000) stocked).step (.startModules ⟨[]⟩)

/-- Memory comes up, and a client gets an object when modules are online. -/
theorem runs_stocked : (startMemory twoRegions [driver] (.direct 0x400000000000) stocked).result = .ok ⟨7, 2, 5, 0, 2⟩ ∧
    (onGround (Ground.allocate 1000) online.kernel).result = .ok 0x400000003830 := by decide +kernel

/-- A client may fill an object, and give it back when a module has been loaded meanwhile. -/
theorem permitted_lease (hE : Session.Visible E) (h : t.Kept E) {o : Object} (ho : o ∈ t.others) {bytes : List UInt8}
    (hb : bytes.length ≤ classSize o.sizeClass) (m : BootModule) (ms : List BootModule) (mapper : Mapper)
    (name : String) :
    t.Permitted [.write o.start bytes, .load m mapper, .free o.start, .loadAll ms mapper, .unload name] := by
  have hwrite : t.Permits (.write o.start bytes) := .inl ⟨o, ho, Memory.block_mono hb⟩
  have hload : ((t.step (.write o.start bytes)).step (.load m mapper)).Kept E :=
    (step_of_kept (q := .load m mapper) hE (step_of_kept hE h hwrite).kept trivial).kept
  obtain ⟨-, es, hf⟩ := hload
  exact ⟨hwrite, trivial, hf.permits_free ho, trivial, trivial, trivial⟩

/-- A client fills an object while the module is loaded, and gives it back before the module is unloaded. -/
theorem inStep_stocked :
    ((start twoRegions [driver] (.direct 0x400000000000) stocked).run
      [.startModules ⟨[]⟩, .allocate 1000, .write 0x400000003830 [1, 2], .load driver (.direct 0x400000000000),
        .free 0x400000003830, .loadAll [driver] (.direct 0x400000000000), .unload "driver"]).InStep ∧
    ((start twoRegions [driver] (.direct 0x400000000000) stocked).run
      [.startModules ⟨[]⟩, .allocate 1000, .write 0x400000003830 [1, 2], .load driver (.direct 0x400000000000),
        .free 0x400000003830, .loadAll [driver] (.direct 0x400000000000), .unload "driver"]).Answers
      (.load driver (.direct 0x400000000000)) ∧
    (stocked.Ready → ((start twoRegions [driver] (.direct 0x400000000000) stocked).run
      [.startModules ⟨[]⟩, .allocate 1000, .write 0x400000003830 [1, 2], .load driver (.direct 0x400000000000),
        .free 0x400000003830, .loadAll [driver] (.direct 0x400000000000), .unload "driver"]).kernel.Ready) := by
  have hm : Maps twoRegions [driver] (.direct 0x400000000000) := maps_direct (by decide) _ _
  obtain ⟨hmemory, hallocate⟩ := runs_stocked
  have ho : ⟨0x400000003830, ⟨6, by decide⟩⟩ ∈ (online.step (.allocate 1000)).others := by
    show _ ∈ online.othersAfter (.allocate 1000)
    rw [othersAfter, hallocate]
    exact Set.mem_insert _ _
  obtain ⟨words, first, p, g, o, hstart, -⟩ := kept_start hmemory rfl hm
  have hE := o.visible hm
  have honline : online.Kept (estate twoRegions (.direct 0x400000000000) words first p) :=
    (step_of_kept (q := .startModules ⟨[]⟩) hE hstart trivial).kept
  have hkept := (step_of_kept (q := .allocate 1000) hE honline trivial).kept
  exact inStep_run hmemory rfl hm _ _
    ⟨trivial, trivial, permitted_lease hE hkept ho (by decide) driver [driver] (.direct 0x400000000000) "driver"⟩

/-! ## Out of step -/

/-- A boot module in the last two frames that a bitmap over the wide map has bits for. -/
def stray : BootModule := ⟨"/boot/stray", ⟨0x8001000⟩, 0x2000⟩

theorem ofBootModule_stray : Blob.ofBootModule stray swapped =
    .ok ⟨"stray", swapped.toVirt stray.addr, 0x2000⟩ := by rfl

/-- Loading stops where the frames of the blob cannot be counted. -/
theorem loadAll_stray {k : Kernel} {p : Pool} (hstage : k.stage = .modules) (hregistry : k.registry = .empty)
    (hpool : k.ground.arena.pool? = some p)
    (hreserve : (Pool.reserve stray.addr stray.size).Ends p fun r _ => r = .error (.halt .subOverflow)) :
    (loadAll [stray] swapped).Ends k fun r _ => r = .error (.halt .subOverflow) := by
  have honPool : (onPool (Pool.reserve stray.addr stray.size)).Ends k fun r _ => r = .error (.halt .subOverflow) := by
    obtain ⟨home, hhome, rfl⟩ := Option.map_eq_some_iff.1 hpool
    exact (Arena.onPool_result hhome).trans hreserve
  have hload : (loadBootModule stray swapped).Ends k fun r _ => r = .error (.halt .subOverflow) := by
    unfold loadBootModule
    rw [Action.ends_bind, ends_require, hstage, if_neg (by decide), Action.goes_ok, ofBootModule_stray, Action.ends_bind,
      Action.ends_lift, Action.goes_ok, Action.ends_bind, Action.ends_get, Action.goes_ok]
    have hcontains : k.shelf.registry.contains k.shelf.store "stray" = false := by
      rw [Bool.eq_false_iff]
      intro h
      obtain ⟨e, he, -⟩ := ((lists_empty hregistry).contains_iff _).1 h
      cases he
    dsimp only
    rw [hcontains, Action.ends_ite, if_neg (by decide)]
    refine honPool.bind ?_
    intro r k' hr
    subst hr
    rfl
  unfold loadAll
  rw [loadEach]
  refine Action.Ends.bind (P := fun r _ => r = .error (.halt .subOverflow)) ?_ ?_
  · rw [Action.ends_bind, Action.ends_attempt]
    refine hload.mono ?_
    intro r k' hr
    subst hr
    rfl
  · intro r k' hr
    subst hr
    rfl

/-- What is left of the pool when a frame of the wide map was handed out: the last frame is free. -/
theorem alloc_wideRegions {p : Pool} {g g' : Ground} (o : Online wideRegions [] swapped 513 1 p g g') :
    (Pool.alloc p).result = .ok ⟨0x3000⟩ ∧ ∀ f, (Frame.Request.on p .alloc).Free f ↔ f = 0x8002 := by
  have hfree : ∀ f, p.Free f ↔ f = 3 ∨ f = 0x8002 := by
    intro f
    have hframes : bitmapFrames 513 = 2 := rfl
    rw [o.free, usable_wideRegions o, hframes]
    simp only [List.not_mem_nil, false_implies, implies_true, and_true]
    omega
  cases hs : p.scan with
  | none =>
    have hpos := o.sound.freeFrames_pos.2 ⟨3, (hfree 3).2 (.inl rfl)⟩
    have hzero := o.sound.scan_free.1 hs
    omega
  | some i =>
    obtain ⟨hmem, hleast⟩ := Pool.free_of_scan hs
    have hi : p.base + i = 3 := by
      have h3 := hleast 3 ((hfree 3).2 (.inl rfl))
      have := (hfree _).1 hmem
      omega
    obtain ⟨hok, hafter⟩ := o.sound.free_alloc hs
    rw [hi] at hok hafter
    refine ⟨hok, fun f => ?_⟩
    rw [hafter, hfree]
    omega

section Overdrawn

variable {p : Pool} {g g' : Ground} {b : Frame.Bitmap}

/-- The books know of one free frame when one was handed out. -/
theorem freeFrames_wideRegions (o : Online wideRegions [] swapped 513 1 p g g') :
    (Frame.Request.on p .alloc).freeFrames ≤ 1 := by
  have hsound := (o.sound.on .alloc).1
  have hafter := (alloc_wideRegions o).2
  generalize Frame.Request.on p .alloc = q at hsound hafter
  have hclear : ∀ i ∈ q.bitmap.clearIn (Finset.range q.frames), q.base + i = 0x8002 := by
    intro i hi
    obtain ⟨hlt, hset⟩ := Frame.Bitmap.mem_clearIn.1 hi
    have hlt := Finset.mem_range.1 hlt
    exact (hafter _).1 ⟨by omega, by omega, by rwa [Nat.add_sub_cancel_left]⟩
  rw [hsound.free, Finset.card_le_one]
  intro i hi j hj
  have := hclear i hi
  have := hclear j hj
  omega

/-- With zeros in the last word, two frames have a clear bit. -/
theorem clear_wideRegions {q : Pool} (hbase : q.base ≤ 1) (hstop : 0x8003 ≤ q.base + q.frames)
    (hset : ∀ i, i / 64 = 512 → b.isSet i = false) :
    2 ≤ (b.clearIn ((q.withBitmap b).touchedBits stray.addr stray.size)).card := by
  have hmem : ∀ f, 0x8001 ≤ f → f ≤ 0x8002 →
      f - q.base ∈ b.clearIn ((q.withBitmap b).touchedBits stray.addr stray.size) := by
    intro f hlo hhi
    refine Frame.Bitmap.mem_clearIn.2 ⟨Finset.mem_filter.2 ⟨Finset.mem_range.2 ?_, ?_, ?_⟩, hset _ (by omega)⟩
    · show f - q.base < q.frames
      omega
    · show 0x8001 ≤ q.base + (f - q.base)
      omega
    · show q.base + (f - q.base) < 0x8003
      omega
  have hpair : ({0x8001 - q.base, 0x8002 - q.base} : Finset Nat).card = 2 := Finset.card_pair (by omega)
  rw [← hpair]
  refine Finset.card_le_card fun i hi => ?_
  rcases Finset.mem_insert.1 hi with rfl | hi
  · exact hmem _ (by decide) (by decide)
  · rw [Finset.mem_singleton.1 hi]
    exact hmem _ (by decide) (by decide)

theorem reserve_wideRegions (o : Online wideRegions [] swapped 513 1 p g g') (hsize : b.words.size = 513)
    (hset : ∀ i, i / 64 = 512 → b.isSet i = false) :
    (Pool.reserve stray.addr stray.size).Ends ((Frame.Request.on p .alloc).withBitmap b) fun r _ =>
      r = .error (.halt .subOverflow) := by
  obtain ⟨hbase, hstop, hframes⟩ := index_wideRegions o
  obtain ⟨hsound, hmap⟩ := o.sound.on .alloc
  have hone := freeFrames_wideRegions o
  generalize Frame.Request.on p .alloc = q at hsound hmap hone
  rw [← hmap.base] at hbase hstop
  rw [← hmap.frames] at hstop hframes
  have hlimit := hsound.charts.limit
  have htotal := hsound.total
  have hlt := hsound.total_lt
  have htwo := clear_wideRegions hbase hstop hset
  have hfew : (b.clearIn ((q.withBitmap b).touchedBits stray.addr stray.size)).card ≤ q.frames := by
    refine (Finset.card_le_card (Finset.filter_subset _ _)).trans ?_
    exact (Finset.card_le_card (Finset.filter_subset _ _)).trans (Finset.card_range _).le
  refine Pool.reserve_overdrawn ⟨by decide, by decide, ?_⟩ (fun i hi => ?_) (hlimit.trans (by decide)) ?_ ?_
  · show q.base < 0x8003 ∧ 0x8001 < q.base + q.frames
    omega
  · show i / 64 < b.words.size
    have hi : i < q.frames := hi
    omega
  · exact lt_of_le_of_lt (Nat.add_le_add_left hfew q.usedFrames) (by omega)
  · exact lt_of_le_of_lt hone htwo

end Overdrawn

/-- A client that writes into frame three, which it holds, writes into the bitmap, and the next load stops the machine. -/
theorem loadAll_wideRegions {k : Kernel} {p : Pool} {g : Ground}
    (o : Online wideRegions [] swapped 513 1 p g k.ground) (hstage : k.stage = .modules)
    (hregistry : k.registry = .empty) :
    (onPool Pool.alloc k).result = .ok ⟨0x3000⟩ ∧ (loadAll [stray] swapped).Ends
      (Request.on (Request.on k .allocFrame) (.write (swapped.page 3) (Memory.wordBytes 0))) fun r _ =>
        r = .error (.halt .subOverflow) := by
  have halloc : (onPool Pool.alloc).Ends k fun r k' => r = .ok ⟨0x3000⟩ ∧ k'.stage = .modules ∧ k'.registry = .empty ∧
      k'.ground.arena.pool = some ⟨(Frame.Request.on p .alloc).toLedger, .resident (swapped.page 1) 513⟩ := by
    rw [ends_onPool]
    refine ((Arena.allocFrame_ends o.becomes.keeps o.sound ∅).and (Arena.steps_onPool _ _)).mono ?_
    intro r a hends
    obtain ⟨⟨rfl, ha⟩, hplace⟩ := hends
    exact ⟨(alloc_wideRegions o).1, hstage, hregistry, (ha.keeps.resident (hplace.trans o.place)).1⟩
  obtain ⟨r, k', log, hk, rfl, hstage', hregistry', hpool⟩ := halloc.trace
  refine ⟨congrArg Trace.result hk, ?_⟩
  have hon : Request.on k .allocFrame = k' := congrArg Trace.state hk
  rw [hon]
  let m := k'.ground.arena.memory.setWord (swapped.page 3) 0
  refine loadAll_stray (p := (Frame.Request.on p .alloc).withBitmap ⟨m.wordsAt (swapped.page 1) 513⟩) hstage' hregistry' ?_
    (reserve_wideRegions o ?_ fun i hi => ?_)
  · show Option.map _ k'.ground.arena.pool = _
    rw [hpool]
    rfl
  · rw [Memory.wordsAt, Array.size_ofFn]
  · rw [isSet_swapped m hi, Memory.word_setWord]
    simp

theorem placed_wideRegions : Frame.PlacedAt wideRegions 513 [] 1 := by
  unfold Frame.PlacedAt
  decide +kernel

/-- What a client of the wide map does before it asks for modules to be loaded: it clears the frame that it gets. -/
def clearing : List Request := [.startModules ⟨[]⟩, .allocFrame, .write (swapped.page 3) (Memory.wordBytes 0)]

/-- The tenancy over the wide map. -/
def crosswise : Tenancy := start wideRegions [] swapped (.boot .blank false)

theorem online_crosswise : ∃ p g,
    Online wideRegions [] swapped 513 1 p g (crosswise.step (.startModules ⟨[]⟩)).kernel.ground ∧
    (crosswise.step (.startModules ⟨[]⟩)).kernel.stage = .modules ∧
    (crosswise.step (.startModules ⟨[]⟩)).kernel.registry = .empty := by
  obtain ⟨r, k, log, hk, p, rfl, o, hkernel⟩ := (startMemory_swapped placed_wideRegions .blank false).trace
  have hrests : Rests k (startModules ⟨[]⟩ k).state := rests_startModules ⟨[]⟩ k
  have hstage : ∀ g, (startModules ⟨[]⟩ { boot .blank false with ground := g, stage := .memory }).state.stage = .modules :=
    fun _ => rfl
  rw [kernel_step, crosswise, kernel_start, hk, Request.on]
  refine ⟨p, (boot .blank false).ground, ?_, ?_, ?_⟩
  · rw [hrests.ground]
    exact o
  · rw [hkernel]
    exact hstage _
  · rw [hrests.registry, hkernel]
    rfl

/-! ### What was registered before -/

/-- What is known of a module that is registered before memory comes up. -/
def early : ModuleInfo := ⟨⟨"early", by decide, by decide⟩, "elf", ⟨⟨⟨0⟩, 0⟩, ⟨⟨0⟩, 0⟩, none, 0⟩⟩

/-- A kernel with that module in its registry. -/
def prepared : Kernel := (addModule (.owned 0) (keepRecord (.owned 0) early (boot .blank false)).state).state

/-- The module is listed when memory is up. -/
theorem runs_prepared :
    (startMemory twoRegions [] (.direct 0x400000000000) prepared).result = .ok ⟨7, 1, 6, 0, 2⟩ ∧
    ((start twoRegions [] (.direct 0x400000000000) prepared).run
      [.startModules ⟨[]⟩]).kernel.shelf.registry.count = 1 := by decide +kernel

/-- Nothing was loaded. -/
theorem not_inStep_prepared :
    ¬((start twoRegions [] (.direct 0x400000000000) prepared).run [.startModules ⟨[]⟩]).InStep :=
  fun h => absurd (runs_prepared.2.symm.trans h.count) (by decide)

/-! ### A bitmap whose frames are in no row -/

theorem permitted_crosswise : crosswise.Permitted clearing := by
  obtain ⟨p, g, o, hstage, hregistry⟩ := online_crosswise
  have hheld := held_of_alloc (loadAll_wideRegions o hstage hregistry).1
  exact ⟨trivial, trivial, .inr ⟨_, hheld, Memory.block_mono (by decide)⟩, trivial⟩

theorem kernel_clearing (t : Tenancy) : (t.run clearing).kernel = Request.on (Request.on
    (t.step (.startModules ⟨[]⟩)).kernel .allocFrame) (.write (swapped.page 3) (Memory.wordBytes 0)) := rfl

theorem ready_clearing {t : Tenancy} (h : t.kernel.Ready) : (t.run clearing).kernel.Ready := by
  have hmodules : (startModules ⟨[]⟩ t.kernel).state.Ready := (startModules_ends h ⟨[]⟩).1
  have hwrite : ∀ (k : Kernel) (a : Ptr) (bytes : List UInt8), Equips k (Request.on k (.write a bytes)) := fun _ _ _ =>
    ⟨rfl, rfl, rfl, rfl⟩
  have halloc : ∀ k, Equips k (Request.on k .allocFrame) := equips_onGround _
  rw [kernel_clearing, kernel_step, Request.on]
  exact (hmodules.equips (halloc _)).equips (hwrite _ _ _)

theorem ready_crosswise : crosswise.kernel.Ready := by
  have hearly : (boot .blank false).Ready := .inl ⟨nofun, rfl, rfl, rfl⟩
  rw [crosswise, kernel_start]
  exact hearly.rises (rises_startMemory wideRegions [] swapped _)

theorem not_answers_crosswise : ¬(crosswise.run clearing).Answers (.loadAll [stray] swapped) := by
  have hready := ready_clearing ready_crosswise
  obtain ⟨p, g, o, hstage, hregistry⟩ := online_crosswise
  obtain ⟨r, k, log, hk, rfl⟩ := (loadAll_wideRegions o hstage hregistry).2.trace
  rw [kernel_clearing] at hready
  rw [Answers, kernel_clearing, hk]
  rintro ⟨e, he, hfull⟩
  obtain ⟨rfl, -⟩ := hfull hready
  cases he

/-- **All gets out of step** where something was registered before memory came up, and where the mapper shows the frames
of the bitmap in no row. -/
theorem outOfStep :
    ((∃ stats, (startMemory twoRegions [] (.direct 0x400000000000) prepared).result = .ok stats) ∧
      Maps twoRegions [] (.direct 0x400000000000) ∧
      ¬((start twoRegions [] (.direct 0x400000000000) prepared).run [.startModules ⟨[]⟩]).InStep) ∧
    ((∃ stats, (startMemory wideRegions [] swapped (boot .blank false)).result = .ok stats) ∧
      swapped.Covers (ram wideRegions []) ∧ crosswise.Permitted clearing ∧
      ¬(crosswise.run clearing).Answers (.loadAll [stray] swapped)) := by
  obtain ⟨r, k, log, hk, p, rfl, -, -⟩ := (startMemory_swapped placed_wideRegions .blank false).trace
  exact ⟨⟨⟨_, runs_prepared.1⟩, maps_direct (by decide) _ _, not_inStep_prepared⟩,
    ⟨p.stats, congrArg Trace.result hk⟩, covers_swapped _, permitted_crosswise, not_answers_crosswise⟩

end Tenancy
end Keel.Kernel
