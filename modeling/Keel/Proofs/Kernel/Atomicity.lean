import Keel.Proofs.Blind
import Keel.Proofs.Frame.Exactness
import Keel.Proofs.Kernel.Lifetime

/-!
# Memory comes up as a whole or not at all

`startMemory_cases` tells what bring-up does to one kernel; this file reads it for every kernel there can be. Without
a heap over no pool (`rooted_run`), it is refused for a reason the kernel and the map have before it begins
(`Declines`), and a refusal leaves every byte, the pool, the heap and the stage alone. That is all that bring-up
reads: kernels alike in it are brought up alike (`blind_startMemory`), so a refused attempt does not show in a later
one (`Unmoved.again`). Where memory comes up, the free frames are said in bytes: those that a usable region holds
whole, frame zero apart, and that neither the bitmap nor a boot module has a byte in (`Raised.free`).
-/

namespace Keel

open Keel.Action (Blind)
open Keel.Memory (block Alters)
open Keel.Frame (Pool frameBytes frameBytes_meets)
open Keel.Frame.Pool (Touched)

variable {α : Type}

/-! ## Kernels that are alike are brought up alike -/

namespace Arena

/-- A pool is kept alike in arenas that are alike. -/
theorem Alike.withPool {s t : Arena} (h : s.Alike t) (home : Home) (p : Pool) :
    (s.withPool home p).Alike (t.withPool home p) := by
  obtain ⟨hhome, hmemory⟩ := Home.store_congr (h := home) (b := p.bitmap) h.alters
  exact ⟨hmemory, congrArg (fun home => some (HousedPool.mk p.toLedger home)) hhome, h.poison⟩

theorem Alike.load {s t : Arena} (h : s.Alike t) (home : Home) : home.load t.memory = home.load s.memory :=
  Home.load_congr h.alters (Set.empty_disjoint _)

/-- A pool answers alike in arenas that are alike. -/
theorem blind_onPool (x : Action Pool α) : Blind Alike (onPool x) := by
  intro s t h
  unfold onPool
  rw [h.pool]
  cases s.pool with
  | none => exact ⟨rfl, rfl, h⟩
  | some p =>
    dsimp only
    rw [h.load]
    exact ⟨rfl, rfl, h.withPool p.home _⟩

end Arena

namespace Ground

theorem blind_inArena {x : Action Arena α} (hx : Blind Arena.Alike x) : Blind Alike (inArena x) :=
  hx.zoom (fun _ _ h => h.arena) fun _ _ _ _ h ha => ⟨ha, h.heap⟩

theorem blind_createPool (rs : List Region) (home : Home) : Blind Arena.Alike (createPool rs home) := by
  intro s t h
  unfold createPool
  dsimp only
  rw [h.load]
  have hstore := fun l : Frame.Ledger => h.withPool home (l.withBitmap (Pool.create rs (home.load s.memory)).state)
  cases (Pool.create rs (home.load s.memory)).result with
  | ok l => exact ⟨rfl, rfl, hstore l⟩
  | error e => exact ⟨rfl, rfl, (Home.store_congr h.alters).2, h.pool, h.poison⟩

theorem Alike.poolStarted {g g' : Ground} (h : g.Alike g') : g'.poolStarted = g.poolStarted :=
  congrArg Option.isSome h.arena.pool

theorem blind_startPool (rs : List Region) (home : Home) : Blind Alike (startPool rs home) := by
  refine Blind.get_bind (fun g g' h => ?_) fun g => Blind.ite ?_ ?_
  · rw [h.poolStarted]
  · exact (Action.blind_note _).bind fun _ => Action.blind_fail _
  · exact (blind_inArena (blind_createPool rs home)).bind fun _ => (Action.blind_note _).bind fun _ =>
      Action.blind_pure _

theorem blind_startHeap (mapper : Mapper) : Blind Alike (startHeap mapper) := by
  rintro ⟨⟨m, pool, poison⟩, heap⟩ ⟨⟨m', pool', poison'⟩, heap'⟩ ⟨⟨hm, hpool, hpoison⟩, hheap⟩
  obtain rfl : pool' = pool := hpool
  obtain rfl : heap' = heap := hheap
  cases pool' with
  | none => exact ⟨rfl, rfl, ⟨hm, rfl, hpoison⟩, rfl⟩
  | some p =>
    cases heap' with
    | none => exact ⟨rfl, rfl, ⟨hm, rfl, hpoison⟩, rfl⟩
    | some h => exact ⟨rfl, rfl, ⟨hm, rfl, hpoison⟩, rfl⟩

end Ground

namespace Kernel

theorem blind_onGround {x : Action Ground α} (hx : Blind Ground.Alike x) : Blind Alike (onGround x) :=
  hx.zoom (fun _ _ h => h.ground) fun s t u v h hg => ⟨hg, by rw [h.rest]; rfl⟩

theorem blind_onPool (x : Action Pool α) : Blind Alike (onPool x) :=
  blind_onGround (Ground.blind_inArena (Arena.blind_onPool x))

theorem blind_escalate {x : Action Kernel α} (hx : Blind Alike x) : Blind Alike (escalate x) := by
  refine hx.attempt.bind fun r => ?_
  rcases r with f | a
  · cases f
    all_goals first
      | exact (Action.blind_note _).bind fun _ => Action.blind_lift _
      | exact Action.blind_fail _
  · exact Action.blind_pure _

theorem blind_place (rs : List Region) (words : Nat) (ms : List BootModule) :
    Blind Alike (Frame.place rs words ms : Action Kernel PhysAddr) := by
  refine (Action.blind_lift _).bind fun bytes => (Action.blind_lift _).bind fun first => ?_
  cases first with
  | some first => exact (Action.blind_lift _).bind fun _ => Action.blind_pure _
  | none => exact (Action.blind_note _).bind fun _ => Action.blind_fail _

theorem blind_reserveModules (ms : List BootModule) : Blind Alike (reserveModules ms) := by
  induction ms with
  | nil => exact Action.blind_pure _
  | cons m ms ih =>
    rw [reserveModules]
    refine Blind.ite ((blind_onPool _).attempt.bind fun r => ?_) ih
    cases r with
    | ok _ => exact ih
    | error f => exact (Action.blind_note _).bind fun _ => ih

theorem blind_advance (s : Stage) : Blind Alike (advance s) := Action.blind_modify fun _ _ h => ⟨h.ground, by rw [h.rest]⟩

/-- Kernels that are alike are brought up alike. -/
theorem blind_startMemory (rs : List Region) (ms : List BootModule) (mapper : Mapper) :
    Blind Alike (startMemory rs ms mapper) := by
  refine Blind.get_bind (fun k k' h => ?_) fun k => Blind.ite ?_ ?_
  · rw [h.ground.poolStarted]
  · exact (Action.blind_note _).bind fun _ => Action.blind_fail _
  refine (Action.blind_lift _).bind fun words => (blind_place rs words ms).bind fun bitmap => ?_
  refine (blind_onGround (Ground.blind_startPool _ _)).bind fun _ => (Action.blind_lift _).bind fun bytes => ?_
  refine (blind_onPool _).bind fun _ => (blind_reserveModules ms).bind fun _ => ?_
  refine (blind_escalate (blind_onGround (Ground.blind_startHeap mapper))).bind fun _ => ?_
  refine (blind_onPool _).bind fun stats => (blind_advance _).bind fun _ => ?_
  exact (Action.blind_lift _).bind fun _ => (Action.blind_note _).bind fun _ => Action.blind_pure _

/-! ## Bytes of frames -/

/-- A frame has one of the `length` bytes from `start` on. -/
def Has (f start length : Nat) : Prop := (frameBytes f ∩ Set.Ico start (start + length)).Nonempty

/-- The end of a boot module, rounded up to whole frames, is a number of 64 bits. -/
def RoundsUp (m : BootModule) : Prop := (m.addr.raw.toNat + m.size.toNat + 4095) / 4096 * 4096 < 2 ^ 64

/-- The frames that a boot module touches are those with a byte of it, if its end can be rounded. -/
theorem touched_iff {m : BootModule} {f : Nat} :
    Touched m.addr m.size f ↔ RoundsUp m ∧ Has f m.addr.raw.toNat m.size.toNat := by
  have hsize : m.size ≠ 0 ↔ m.size.toNat ≠ 0 := not_congr UInt64.toNat_inj.symm
  rw [Touched, RoundsUp, Has, frameBytes_meets, hsize, Pool.firstTouched, Pool.stopTouched]
  omega

/-- The frames of a bitmap are those with a byte of it. -/
theorem has_bitmap {f words first : Nat} (hpos : 0 < words) :
    Has f (first * 4096) (8 * words) ↔ first ≤ f ∧ f < first + bitmapFrames words := by
  rw [Has, frameBytes_meets, bitmapFrames]
  omega

/-! ## All or nothing -/

/-- What a refusal to bring memory up leaves behind. -/
structure Unmoved (k k' : Kernel) : Prop where
  bytes : ∀ a, k'.ground.arena.memory.read a = k.ground.arena.memory.read a
  /-- The pool, the heap, the stage and all the rest are as they were. -/
  rest : k' = { k with ground.arena.memory := k'.ground.arena.memory }
  /-- A later attempt goes as if this one had not been made. -/
  again : ∀ rs ms mapper, (startMemory rs ms mapper k').result = (startMemory rs ms mapper k).result ∧
    (startMemory rs ms mapper k').log = (startMemory rs ms mapper k).log ∧
    (startMemory rs ms mapper k).state.Alike (startMemory rs ms mapper k').state

/-- What bringing memory up leaves behind: the pool `p` with a bitmap of `words` words in the frames from `first` on. -/
structure Raised (rs : List Region) (ms : List BootModule) (mapper : Mapper) (words first : Nat) (p : Pool)
    (k k' : Kernel) : Prop where
  stage : Stage.memory.rank ≤ k'.stage.rank
  sized : Frame.wordsFor rs = .ok words
  pool : k'.ground.arena.Keeps p (block (mapper.page first) (8 * words))
  sound : p.Sound rs
  /-- The heap has no slab. -/
  heap : k'.ground.heap = some (Heap.empty mapper)
  /-- Free are the frames that a usable region holds whole, but frame zero and those with a byte of the bitmap or of a boot
  module whose end can be rounded. -/
  free : ∀ f, p.Free f ↔ (∃ r ∈ rs, r.kind = .usable ∧ frameBytes f ⊆ r.bytes) ∧ f ≠ 0 ∧
    ¬Has f (first * 4096) (8 * words) ∧ ∀ m ∈ ms, RoundsUp m → ¬Has f m.addr.raw.toNat m.size.toNat
  /-- Memory is written where the bitmap is seen, and nowhere else. -/
  alters : Alters (block (mapper.page first) (8 * words)) k.ground.arena.memory k'.ground.arena.memory

theorem Alike.unmoved {k k' : Kernel} (h : k.Alike k') : k.Unmoved k' where
  bytes := fun a => h.ground.arena.alters a (Set.notMem_empty a)
  rest := by
    obtain ⟨⟨⟨m, pool, poison⟩, heap⟩, windows, exports, loaders, registry, owned, texts, stage⟩ := k'
    obtain rfl : pool = k.ground.arena.pool := h.ground.arena.pool
    obtain rfl : poison = k.ground.arena.poison := h.ground.arena.poison
    obtain rfl : heap = k.ground.heap := h.ground.heap
    exact h.rest
  again := fun rs ms mapper => blind_startMemory rs ms mapper k k' h

theorem Online.raised {rs : List Region} {ms : List BootModule} {mapper : Mapper} {words first : Nat} {p : Pool}
    {k k' : Kernel} (h : Online rs ms mapper words first p k.ground k'.ground) (hstage : k'.stage = k.stage.later .memory) :
    Raised rs ms mapper words first p k k' where
  stage := by
    rw [hstage]
    cases k.stage <;> decide
  sized := h.sized
  pool := h.becomes.keeps
  sound := h.sound
  heap := h.heap
  free := fun f => by
    rw [h.free, h.sound.charts.usable_iff, and_assoc, has_bitmap (wordsFor_ok h.sized).1]
    refine and_congr_right fun _ => and_congr_right fun _ => and_congr_right fun _ => ?_
    refine forall_congr' fun m => imp_congr_right fun _ => ?_
    rw [touched_iff, not_and]
  alters := by
    have halters := h.becomes.alters
    rwa [Set.empty_union] at halters

/-- **Memory comes up as a whole or not at all**, in every state that a kernel can be brought into. -/
theorem startMemory_atomic (memory : Memory) (poison : Bool) (cs : List Call) (rs : List Region) (ms : List BootModule)
    (mapper : Mapper) : (startMemory rs ms mapper).Ends ((boot memory poison).run cs) fun r k' =>
      ((∃ f, r = .error (.fault f)) ∧ ((boot memory poison).run cs).Declines rs ms ∧
          ((boot memory poison).run cs).Unmoved k') ∨
        ∃ words first p, r = .ok p.stats ∧ Raised rs ms mapper words first p ((boot memory poison).run cs) k' := by
  have hrooted := rooted_run (rooted_boot memory poison) cs
  refine (startMemory_cases rs ms mapper _).mono fun r k' h => ?_
  rcases h with ⟨words, first, p, hr, ho, hk⟩ | ⟨hr, ⟨hdeclines, halike⟩ | ⟨hpool, hheap⟩⟩
  · exact .inr ⟨words, first, p, hr, ho.raised (by rw [hk])⟩
  · exact .inl ⟨hr, hdeclines, halike.unmoved⟩
  · exact absurd (hrooted hpool) hheap

end Kernel

end Keel
