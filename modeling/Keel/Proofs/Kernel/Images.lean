import Keel.Proofs.Kernel.InStep

/-!
# Boot images

The bytes of a boot image lie in frames that are not free when memory has come up, and the mapper shows these apart from
the frames that slabs are made from and from the bitmap (`Online.image_apart`). A run of a tenancy writes nowhere else
(`Tenancy.kept_run`), so no image is ever overwritten, and the bitmap is written as requests to the pool write it
(`Tenancy.spares_run`). What callers have to promise for this is needed: of the mapper, of the frames and objects that are
given back, and of what is registered before memory comes up (`Tenancy.images_overwritten`).
-/

namespace Keel.Kernel.Tenancy

open Keel.Heap (Object classFor)
open Keel.Memory (block)
open Keel.Slab (Estate)

attribute [local irreducible] Memory.word Cell.read

variable {rs : List Region} {ms : List BootModule} {mapper : Mapper} {k : Kernel} {stats : Frame.PoolStats}

/-- What a tenancy owes the boot images and the bitmap, before and during one more request; `m` is memory before it came
up. -/
structure Spares (ms : List BootModule) (mapper : Mapper) (m : Memory) (t : Tenancy) (q : Request) : Prop where
  /-- Every byte of a boot image whose end can be rounded up to a page is what it was. -/
  images : ∀ b ∈ ms, (b.addr.raw.toNat + b.size.toNat + 4095) / 4096 * 4096 < 2 ^ 64 → ∀ i < b.size.toNat,
    t.session.memory.read (mapper.toVirt ⟨b.addr.raw + UInt64.ofNat i⟩).raw =
      m.read (mapper.toVirt ⟨b.addr.raw + UInt64.ofNat i⟩).raw
  /-- The bitmap changes as the requests say that are made of the pool, and not at all if there are none. -/
  bitmap : ∃ p rs, t.session.pool? = some p ∧ (t.session.step q).pool? = some (p.after rs) ∧ (∀ r ∈ rs, r ∈ q.asks) ∧
    (rs = [] → ∀ h ∈ t.kernel.ground.arena.pool, ∀ a ∈ h.home.bytes,
      (t.session.step q).memory.read a = t.session.memory.read a)

/-- **Boot images are never overwritten**, whatever is asked of the kernel once memory is up, as long as clients touch
only what they hold; and the bitmap is written by requests to the pool alone. -/
theorem spares_run (h : (startMemory rs ms mapper k).result = .ok stats) (hregistry : k.registry = .empty)
    (hm : Maps rs ms mapper) (qs : List Request) (q : Request) (hqs : (start rs ms mapper k).Permitted qs)
    (hq : ((start rs ms mapper k).run qs).Permits q) :
    ((start rs ms mapper k).run qs).Spares ms mapper k.ground.arena.memory q := by
  obtain ⟨words, first, p, g, o, hstart, hbefore⟩ := kept_start h hregistry hm
  have hE := o.visible hm
  obtain ⟨hkept, hrun⟩ := kept_run hE hstart hqs
  refine ⟨fun b hb hfits i hi => ?_, ?_⟩
  · have hout := o.image_apart hm hb (by omega) hi
    rw [hrun _ hout]
    exact hbefore _ fun ha => hout (.inr ha)
  · obtain ⟨⟨p', rs', hc⟩, -⟩ := step_of_kept hE hkept hq
    refine ⟨p', rs', hc.before, hc.after, hc.asks, ?_⟩
    rintro rfl home hhome a ha
    obtain ⟨⟨-, _, _, ⟨_, -, hh⟩, -⟩, -⟩ := hkept
    obtain ⟨home', hpool, -, hbytes, -⟩ := hh.supplies.keeps
    obtain rfl : home' = home := Option.some.inj (hpool.symm.trans hhome)
    rw [hbytes] at ha
    refine hc.alters a ?_
    rw [Estate.asked_nil, Set.union_empty]
    exact fun hreach => Set.disjoint_left.1 hE.apart hreach ha

/-- A boot module of two bytes, in the first two frames of a map. -/
def straddler : BootModule := ⟨"/boot/straddler", ⟨0x1fff⟩, 2⟩

/-- A kernel with the image of the module in memory. -/
def straddled : Kernel := .boot (Memory.blank.setBytes 0x400000001fff [0x7f, 0x45]) false

/-- The tenancy with that kernel, with modules online, and with an object and a frame for clients. -/
def leased : Tenancy := (start twoRegions [straddler] (.direct 0x400000000000) straddled).run
  [.startModules ⟨[]⟩, .allocate 2000, .allocFrame]

/-- Memory comes up, and clients get an object and a frame. -/
theorem runs_straddled :
    (startMemory twoRegions [straddler] (.direct 0x400000000000) straddled).result = .ok ⟨7, 3, 4, 0, 2⟩ ∧
    (onGround (Ground.allocate 2000) ((start twoRegions [straddler] (.direct 0x400000000000) straddled).run
      [.startModules ⟨[]⟩]).kernel).result = .ok 0x400000004030 ∧
    (onPool Frame.Pool.alloc ((start twoRegions [straddler] (.direct 0x400000000000) straddled).run
      [.startModules ⟨[]⟩, .allocate 2000]).session.kernel).result = .ok ⟨0x5000⟩ := by decide +kernel

theorem others_leased : ⟨0x400000004030, ⟨7, by decide⟩⟩ ∈ leased.others := by
  show _ ∈ ((start twoRegions [straddler] (.direct 0x400000000000) straddled).run [.startModules ⟨[]⟩]).othersAfter
    (.allocate 2000)
  rw [othersAfter, runs_straddled.2.1]
  exact Set.mem_insert _ _

theorem held_leased : 5 ∈ leased.session.held := by
  show 5 ∈ ((start twoRegions [straddler] (.direct 0x400000000000) straddled).run
    [.startModules ⟨[]⟩, .allocate 2000]).session.heldAfter .allocFrame
  rw [Session.heldAfter, runs_straddled.2.2]
  exact Set.mem_insert _ _

/-- Clients fill an object and a frame, give the frame back, and load the module. -/
theorem spares_straddled : ((start twoRegions [straddler] (.direct 0x400000000000) straddled).run
    [.startModules ⟨[]⟩, .allocate 2000, .allocFrame, .write 0x400000004030 [1, 2], .write 0x400000005000 [3],
      .freeFrame ⟨0x5000⟩, .load straddler (.direct 0x400000000000)]).Spares [straddler] (.direct 0x400000000000)
      straddled.ground.arena.memory .shrink := by
  refine spares_run runs_straddled.1 rfl (maps_direct (by decide) _ _) _ _
    ⟨trivial, trivial, trivial, .inl ⟨_, others_leased, Memory.block_mono (by decide)⟩,
      .inr ⟨5, held_leased, Memory.block_mono (by decide)⟩, fun _ => held_leased, trivial, trivial⟩ trivial

/-! ## Where images are overwritten -/

/-- Some byte of a boot image whose end can be rounded up to a page is not what it was in `m`. -/
inductive Overwritten (ms : List BootModule) (mapper : Mapper) (m : Memory) (t : Tenancy) : Prop
  | byte (b : BootModule) (i : Nat) (listed : b ∈ ms)
      (fits : (b.addr.raw.toNat + b.size.toNat + 4095) / 4096 * 4096 < 2 ^ 64) (lt : i < b.size.toNat)
      (changed : t.session.memory.read (mapper.toVirt ⟨b.addr.raw + UInt64.ofNat i⟩).raw ≠
        m.read (mapper.toVirt ⟨b.addr.raw + UInt64.ofNat i⟩).raw)

theorem changed_of_read {m m' : Memory} {a : Ptr} (hbefore : m.read a = 1) (hafter : m'.read a = 0) :
    m'.read a ≠ m.read a := by
  rw [hbefore, hafter]
  decide

/-! ### A bitmap whose frames are in no row -/

/-- A boot module of one word, in a frame that the swapped mapper shows behind the first frame of the bitmap. -/
def wedged : BootModule := ⟨"/boot/wedged", ⟨0x3000⟩, 8⟩

theorem placed_wedged : Frame.PlacedAt wideRegions 513 [wedged] 1 := by
  unfold Frame.PlacedAt
  decide +kernel

theorem memory_start (rs : List Region) (ms : List BootModule) (mapper : Mapper) (k : Kernel) :
    (start rs ms mapper k).session.memory = (startMemory rs ms mapper k).state.ground.arena.memory := rfl

/-- The last word of the bitmap is written over the image. -/
theorem overwritten_wedged :
    (∃ stats, (startMemory wideRegions [wedged] swapped (.boot .blank false)).result = .ok stats) ∧
      (start wideRegions [wedged] swapped (.boot .blank false)).Overwritten [wedged] swapped .blank := by
  obtain ⟨r, k, log, hk, p, rfl, o, -⟩ := (startMemory_swapped placed_wedged .blank false).trace
  refine ⟨⟨p.stats, congrArg Trace.result hk⟩, ?_⟩
  by_contra hno
  have hnone : ∀ i < 8, (start wideRegions [wedged] swapped (.boot .blank false)).session.memory.read
      (swapped.toVirt ⟨wedged.addr.raw + UInt64.ofNat i⟩).raw =
        Memory.blank.read (swapped.toVirt ⟨wedged.addr.raw + UInt64.ofNat i⟩).raw := fun i hi => by
    by_contra hne
    exact hno ⟨wedged, i, List.mem_singleton_self _, by decide, hi, hne⟩
  rw [memory_start, hk] at hnone
  have hbytes : (List.range 8).map (fun i => k.ground.arena.memory.read (swapped.page 3 + UInt64.ofNat i)) =
      List.replicate 8 0 := by
    rw [List.eq_replicate_iff, List.length_map, List.length_range]
    refine ⟨rfl, fun b hb => ?_⟩
    obtain ⟨i, hi, rfl⟩ := List.mem_map.1 hb
    have hi := List.mem_range.1 hi
    have hbyte := (covers_swapped Set.univ).bytes 3 trivial i (by omega)
    rw [← hbyte]
    exact hnone i hi
  refine word_swapped o ?_
  rw [Memory.word, hbytes]
  rfl

/-! ### A frame given back twice -/

/-- A map of four frames. -/
def fourFrames : List Region := [.usable ⟨0x1000⟩ 0x4000]

/-- A boot module whose image looks like a slab with one free cell. -/
def forger : BootModule := ⟨"/boot/forger", ⟨0x2000⟩, 64⟩

/-- A kernel with that image in memory. -/
def forged : Kernel := .boot (Memory.blank.setWords 0x400000002000
  [0, 0x400000002030, 2048, 1, 1, Layout.slabMagic, 0, Layout.freeMagic]) false

/-- The tenancy with that kernel. -/
def forging : Tenancy := start fourFrames [forger] (.direct 0x400000000000) forged

/-- The tenancy when a client has given a frame back, a slab has been made of it, and the client gives it back again. -/
def freedTwice : Tenancy := forging.run [.allocFrame, .freeFrame ⟨0x3000⟩, .allocate 2000, .freeFrame ⟨0x3000⟩]

/-- The client gets the frame of the slab, and leads the heap from there to the image. -/
def linker : List Request :=
  [.allocFrame, .write 0x400000003000 (Memory.wordBytes 0x400000002000), .allocate 2000]

/-- The client gets the frame both times, and the forged slab counts one free cell less in the end. -/
theorem runs_forging :
    (startMemory fourFrames [forger] (.direct 0x400000000000) forged).result = .ok ⟨4, 2, 2, 0, 1⟩ ∧
    (onPool Frame.Pool.alloc forging.kernel).result = .ok ⟨0x3000⟩ ∧
    (onPool Frame.Pool.alloc freedTwice.kernel).result = .ok ⟨0x3000⟩ ∧
    forged.ground.arena.memory.read 0x400000002020 = 1 ∧
    (freedTwice.run linker).session.memory.read 0x400000002020 = 0 := by decide +kernel

theorem permitted_linker : freedTwice.Permitted linker := by
  have hheld : 3 ∈ (freedTwice.step .allocFrame).session.held := held_of_alloc runs_forging.2.2.1
  exact ⟨trivial, .inr ⟨3, hheld, Memory.block_mono (by decide)⟩, trivial, trivial⟩

theorem overwritten_linker :
    (freedTwice.run linker).Overwritten [forger] (.direct 0x400000000000) forged.ground.arena.memory := by
  obtain ⟨-, -, -, hbefore, hafter⟩ := runs_forging
  exact ⟨forger, 0x20, List.mem_singleton_self _, by decide, by decide, changed_of_read hbefore hafter⟩

/-! ### A record given back while its module is registered -/

/-- A loader that takes every image and places nothing. -/
def plain : Loader := ⟨"plain", fun _ => true, fun _ _ => pure ⟨⟨⟨0⟩, 0⟩, ⟨⟨0⟩, 0⟩, none, 0⟩⟩

/-- A boot module whose image looks like a registered record of the name `b`. -/
def prey : BootModule := ⟨"/boot/prey", ⟨0x2000⟩, 144⟩

/-- A kernel with that loader, and that image in memory. -/
def baited : Kernel := (registerLoader plain (boot (((Memory.blank.setWord 0x400000002000 0x62).setWord
  0x400000002030 1).setWord 0x400000002088 1) false)).state

/-- The tenancy with that kernel. -/
def poaching : Tenancy := start fourFrames [prey] (.direct 0x400000000000) baited

/-- The tenancy when the module has been loaded, and a client gives its record back. -/
def poached : Tenancy :=
  poaching.run [.startModules ⟨[]⟩, .load prey (.direct 0x400000000000), .free 0x400000003e30]

/-- The client gets the object of the record, puts the image behind it, and has the module of that name unloaded. -/
def poacher : List Request :=
  [.allocate 144, .write 0x400000003eb0 (Memory.wordBytes 0x400000002000), .unload "b"]

/-- The client gets the object of the record, and the record in the image is marked as unlinked in the end. -/
theorem runs_poaching :
    (startMemory fourFrames [prey] (.direct 0x400000000000) baited).result = .ok ⟨4, 2, 2, 0, 1⟩ ∧
    (onGround (Ground.allocate 144) poached.kernel).result = .ok 0x400000003e30 ∧
    baited.ground.arena.memory.read 0x400000002088 = 1 ∧
    (poached.run poacher).session.memory.read 0x400000002088 = 0 := by decide +kernel

theorem permitted_poacher : poached.Permitted poacher := by
  have hothers := others_of_allocate runs_poaching.2.1 classFor_recordSize
  have hobject : ⟨0x400000003e30, recordClass⟩ ∈ (poached.step (.allocate 144)).others := by
    rw [hothers]
    exact Set.mem_insert _ _
  obtain ⟨hlink, -⟩ := permits_write (Memory.wordBytes 0x400000002000) hobject 128 rfl (by decide)
  exact ⟨trivial, hlink, trivial, trivial⟩

theorem overwritten_poacher :
    (poached.run poacher).Overwritten [prey] (.direct 0x400000000000) baited.ground.arena.memory := by
  obtain ⟨-, -, hbefore, hafter⟩ := runs_poaching
  exact ⟨prey, 0x88, List.mem_singleton_self _, by decide, by decide, changed_of_read hbefore hafter⟩

/-! ### A record in an image -/

/-- A boot module in whose image a record lies. -/
def squatter : BootModule := ⟨"/boot/squatter", ⟨0x2000⟩, 144⟩

/-- A kernel in which that record has been registered. -/
def squatted : Kernel :=
  (addModule (.stored 0x400000002000) (keepRecord (.stored 0x400000002000) early (boot .blank false)).state).state

/-- The tenancy with that kernel. -/
def squatting : Tenancy := start fourFrames [squatter] (.direct 0x400000000000) squatted

/-- The record is marked as unlinked when its module is unloaded. -/
theorem runs_squatting :
    (startMemory fourFrames [squatter] (.direct 0x400000000000) squatted).result = .ok ⟨4, 2, 2, 0, 1⟩ ∧
    squatted.ground.arena.memory.read 0x400000002088 = 1 ∧
    (squatting.run [.startModules ⟨[]⟩, .unload "early"]).session.memory.read 0x400000002088 = 0 := by decide +kernel

theorem overwritten_squatting : (squatting.run [.startModules ⟨[]⟩, .unload "early"]).Overwritten [squatter]
    (.direct 0x400000000000) squatted.ground.arena.memory := by
  obtain ⟨-, hbefore, hafter⟩ := runs_squatting
  exact ⟨squatter, 0x88, List.mem_singleton_self _, by decide, by decide, changed_of_read hbefore hafter⟩

/-- **Images are overwritten** where the mapper shows the frames of the bitmap in no row, where a client gives back a
frame that it got but has given back before, where a client gives back the record of a registered module, and where a
record was registered before memory came up. -/
theorem images_overwritten :
    ((∃ stats, (startMemory wideRegions [wedged] swapped (.boot .blank false)).result = .ok stats) ∧
      swapped.Covers (ram wideRegions [wedged]) ∧
      (start wideRegions [wedged] swapped (.boot .blank false)).Overwritten [wedged] swapped .blank) ∧
    ((∃ stats, (startMemory fourFrames [forger] (.direct 0x400000000000) forged).result = .ok stats) ∧
      forging.Permitted [.allocFrame, .freeFrame ⟨0x3000⟩, .allocate 2000] ∧
      (onPool Frame.Pool.alloc forging.kernel).result = .ok ⟨0x3000⟩ ∧
      freedTwice.Permitted linker ∧ (freedTwice.run linker).Overwritten [forger] (.direct 0x400000000000)
        forged.ground.arena.memory) ∧
    ((∃ stats, (startMemory fourFrames [prey] (.direct 0x400000000000) baited).result = .ok stats) ∧
      poaching.Permitted [.startModules ⟨[]⟩, .load prey (.direct 0x400000000000)] ∧ poached.Permitted poacher ∧
      (poached.run poacher).Overwritten [prey] (.direct 0x400000000000) baited.ground.arena.memory) ∧
    ((∃ stats, (startMemory fourFrames [squatter] (.direct 0x400000000000) squatted).result = .ok stats) ∧
      squatting.Permitted [.startModules ⟨[]⟩, .unload "early"] ∧
      (squatting.run [.startModules ⟨[]⟩, .unload "early"]).Overwritten [squatter] (.direct 0x400000000000)
        squatted.ground.arena.memory) := by
  obtain ⟨hwedged, hover⟩ := overwritten_wedged
  obtain ⟨hforging, halloc, -⟩ := runs_forging
  have hheld : 3 ∈ (forging.step .allocFrame).session.held := held_of_alloc halloc
  exact ⟨⟨hwedged, covers_swapped _, hover⟩,
    ⟨⟨_, hforging⟩, ⟨trivial, fun _ => hheld, trivial, trivial⟩, halloc, permitted_linker, overwritten_linker⟩,
    ⟨⟨_, runs_poaching.1⟩, ⟨trivial, trivial, trivial⟩, permitted_poacher, overwritten_poacher⟩,
    ⟨_, runs_squatting.1⟩, ⟨trivial, trivial, trivial⟩, overwritten_squatting⟩

end Keel.Kernel.Tenancy
