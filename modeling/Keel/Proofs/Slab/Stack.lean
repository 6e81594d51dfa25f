import Keel.Proofs.Heap.Sessions

/-!
# A slab is a stack of its cells

`Stack` is a stack of addresses: `pop` takes the top, `push` puts one of the cells back on top unless it lies on the
stack already. A slab has no such list; it has a header and links in its free cells. `Refines` says that a run of pops,
pushes and writes by clients is answered by the slab as by the stack, that what is refused changes nothing, and that the
header counts the stack at every point of the run. Clients write any bytes, but only into cells that are off the stack.

The two agree as long as the free list of the page is the stack, cell by cell (`Agrees`): then each request is answered
alike and leaves them so (`Agrees.pop`, `Agrees.push`, `Agrees.write`), whence a run does (`Agrees.refines`). A fresh slab
agrees with the stack of all its cells, the highest on top (`agrees_carve`, **`refines_run`**); a slab is fresh in just
this way (`carve_eq_ok`).
-/

namespace Keel.Slab

open Keel.Action (Ends lift)
open Keel.Memory (block)

attribute [local irreducible] Memory.word

variable {s : Arena} {page a : Ptr} {c : Nat} {bytes : List UInt8}

/-! ## Stacks -/

/-- What is asked of a slab, or written by a client. -/
inductive Request
  | pop
  | push (p : Ptr)
  | write (a : Ptr) (bytes : List UInt8)

/-- What a request is told. -/
inductive Reply
  | cell (p : Option Ptr)
  | done
  deriving DecidableEq

/-- The cells of a page, and those that are free, the top first. -/
structure Stack where
  cells : List Ptr
  free : List Ptr

namespace Stack

/-- The stack of all of some cells. -/
def full (cells : List Ptr) : Stack := ⟨cells, cells⟩

/-- What a stack answers. -/
def answer (k : Stack) : Request → Checked Fault Reply
  | .pop => .ok (.cell k.free.head?)
  | .push p =>
    if p ∉ k.cells then .error (.fault .badArgs)
    else if p ∈ k.free then .error (.fault .dangling)
    else .ok .done
  | .write _ _ => .ok .done

/-- The stack after a request. -/
def next (k : Stack) : Request → Stack
  | .pop => { k with free := k.free.tail }
  | .push p => if p ∈ k.cells ∧ p ∉ k.free then { k with free := p :: k.free } else k
  | .write _ _ => k

/-- Clients write into one cell of `c` bytes at a time, and only where it is off the stack. -/
def Permits (k : Stack) (c : Nat) : Request → Prop
  | .write a bytes => ∃ p ∈ k.cells, p ∉ k.free ∧ block a bytes.length ⊆ block p c
  | _ => True

end Stack

/-- The cells of a page from the highest to the lowest. -/
def cellsDown (page : Ptr) (c capacity : Nat) : List Ptr :=
  (List.range capacity).reverse.map fun i => page + UInt64.ofNat (48 + i * c)

/-- A request to the slab at `page`, or a write into its memory. -/
def serve (page : Ptr) : Request → Action Arena Reply
  | .pop => do return .cell (← pop page)
  | .push p => do
    push page p
    return .done
  | .write a bytes => do
    Arena.write fun m => m.setBytes a bytes
    return .done

/-- Along a run the header counts the stack, requests are answered as the stack answers them, and refused ones change
nothing. -/
def Refines (page : Ptr) (c : Nat) : Stack → Arena → List Request → Prop
  | k, s, [] => (Header.read s.memory page).freeCount = k.free.length
  | k, s, q :: qs => (Header.read s.memory page).freeCount = k.free.length ∧
    (k.Permits c q → (serve page q s).result = k.answer q ∧
      (∀ e, k.answer q = .error e → (serve page q s).state = s) ∧ Refines page c (k.next q) (serve page q s).state qs)

/-! ## Agreement -/

/-- The free list of the page is the stack. -/
def Agrees (page : Ptr) (c : Nat) (k : Stack) (s : Arena) : Prop :=
  k.cells = (allCells c).map (cellAt page c) ∧
    ∃ next free, Holds s.memory page c next free ∧ k.free = free.map (cellAt page c)

namespace Agrees

variable {k : Stack}

theorem count (h : Agrees page c k s) (hc : CellSize c) : (Header.read s.memory page).freeCount = k.free.length := by
  obtain ⟨-, next, free, hpage, hfree⟩ := h
  rw [hpage.header hc, hfree, List.length_map]

/-- The top of the stack is handed out, if there is one. -/
theorem pop (h : Agrees page c k s) (hc : CellSize c) : (serve page .pop).Ends s fun r t =>
    r = k.answer .pop ∧ Agrees page c (k.next .pop) t := by
  obtain ⟨hcells, next, free, hpage, hfree⟩ := h
  cases free with
  | nil =>
    refine (pop_nil hpage).bind fun r t hr => ?_
    obtain ⟨rfl, rfl⟩ := hr
    rw [Action.goes_ok, Action.ends_pure]
    exact ⟨by simp [Stack.answer, hfree], hcells, next, [], hpage, by simp [Stack.next, hfree]⟩
  | cons i is =>
    refine (pop_cons hpage hc).bind fun r t hr => ?_
    obtain ⟨rfl, rfl⟩ := hr
    rw [Action.goes_ok, Action.ends_pure]
    exact ⟨by simp [Stack.answer, hfree], hcells, next, is, hpage.popped hc s.poison, by simp [Stack.next, hfree]⟩

theorem mem_cells (h : Agrees page c k s) {p : Ptr} : p ∈ k.cells ↔ ∃ i < cellCount c, cellAt page c i = p := by
  rw [h.1, List.mem_map]
  simp only [mem_allCells]

/-- A cell is on the stack exactly if it is free. -/
theorem mem_free {next : Ptr} {free : List Nat} (hc : CellSize c) (hpage : Holds s.memory page c next free) {i : Nat}
    (hi : i < cellCount c) : cellAt page c i ∈ free.map (cellAt page c) ↔ i ∈ free := by
  have hoffset : ∀ j < cellCount c, cellOffset c j < 4096 := fun j hj => by
    have := cellOffset_add_le hj
    have := hc.min
    omega
  rw [List.mem_map]
  constructor
  · intro h
    obtain ⟨j, hj, heq⟩ := h
    rwa [← cellAt_inj (hoffset j (hpage.bound j hj)) (hoffset i hi) hc heq]
  · intro h
    exact ⟨i, h, rfl⟩

/-- A cell that is off the stack comes back on top; any other pointer is refused. -/
theorem push (h : Agrees page c k s) (hc : CellSize c) (p : Ptr) : (serve page (.push p)).Ends s fun r t =>
    r = k.answer (.push p) ∧ (∀ e, r = .error e → t = s) ∧ Agrees page c (k.next (.push p)) t := by
  have hmem := h.mem_cells (p := p)
  obtain ⟨hcells, next, free, hpage, hfree⟩ := h
  by_cases hp : ∃ i < cellCount c, cellAt page c i = p
  · obtain ⟨i, hi, rfl⟩ := hp
    have hcell : cellAt page c i ∈ k.cells := hmem.2 ⟨i, hi, rfl⟩
    have hlisted : cellAt page c i ∈ k.free ↔ i ∈ free := hfree ▸ mem_free hc hpage hi
    by_cases hifree : i ∈ free
    · refine (push_free hpage hc hifree).bind fun r t hr => ?_
      obtain ⟨rfl, rfl⟩ := hr
      have hno : ¬ (cellAt page c i ∈ k.cells ∧ cellAt page c i ∉ k.free) := fun h => h.2 (hlisted.2 hifree)
      refine ⟨?_, fun _ _ => rfl, ?_⟩
      · simp [Stack.answer, hcell, hlisted.2 hifree]
      · rw [Stack.next, if_neg hno]
        exact ⟨hcells, next, free, hpage, hfree⟩
    · refine (push_taken hpage hc hi hifree).bind fun r t hr => ?_
      obtain ⟨rfl, rfl⟩ := hr
      rw [Action.goes_ok, Action.ends_pure]
      have hoff : cellAt page c i ∉ k.free := mt hlisted.1 hifree
      refine ⟨?_, fun _ he => (nomatch he), ?_⟩
      · simp [Stack.answer, hcell, hoff]
      · rw [Stack.next, if_pos ⟨hcell, hoff⟩]
        exact ⟨hcells, next, i :: free, hpage.pushed hc hi hifree s.poison, by simp [hfree]⟩
  · have hout : ∀ i < cellCount c, p ≠ cellAt page c i := fun i hi he => hp ⟨i, hi, he.symm⟩
    have hcell : p ∉ k.cells := mt hmem.1 hp
    refine (push_outside hpage hc hout).bind fun r t hr => ?_
    obtain ⟨rfl, rfl⟩ := hr
    refine ⟨?_, fun _ _ => rfl, ?_⟩
    · simp [Stack.answer, hcell]
    · rw [Stack.next, if_neg fun h => hcell h.1]
      exact ⟨hcells, next, free, hpage, hfree⟩

/-- Whatever clients write into cells that are off the stack, the slab does not see it. -/
theorem write (h : Agrees page c k s) (hc : CellSize c) (hw : k.Permits c (.write a bytes)) :
    Agrees page c k { s with memory := s.memory.setBytes a bytes } := by
  obtain ⟨p, hp, hoff, hsub⟩ := hw
  obtain ⟨i, hi, rfl⟩ := h.mem_cells.1 hp
  obtain ⟨hcells, next, free, hpage, hfree⟩ := h
  have hifree : i ∉ free := fun hi' => hoff (hfree ▸ (mem_free hc hpage hi).2 hi')
  refine ⟨hcells, next, free, hpage.congr hc (Memory.alters_setBytes _ a bytes) ?_ fun j hj => ?_, hfree⟩
  · exact (disjoint_headerBlock hi).mono_right hsub
  · have hne : j ≠ i := fun he => hifree (he ▸ hj)
    exact (disjoint_cellBlock (hpage.bound j hj) hi hne).mono_right hsub

/-- One request is answered alike, and the slab and the stack agree afterwards. -/
theorem step (h : Agrees page c k s) (hc : CellSize c) (q : Request) (hq : k.Permits c q) :
    (serve page q).Ends s fun r t =>
      r = k.answer q ∧ (∀ e, r = .error e → t = s) ∧ Agrees page c (k.next q) t := by
  cases q with
  | pop =>
    refine (h.pop hc).mono fun r t hr => ⟨hr.1, fun e he => ?_, hr.2⟩
    cases hr.1.symm.trans he
  | push p => exact h.push hc p
  | write a bytes => exact ⟨rfl, fun e he => (nomatch he), h.write hc hq⟩

/-- A slab that agrees with a stack refines it, whatever the run. -/
theorem refines (h : Agrees page c k s) (hc : CellSize c) (qs : List Request) : Refines page c k s qs := by
  induction qs generalizing k s with
  | nil => exact h.count hc
  | cons q qs ih =>
    refine ⟨h.count hc, fun hq => ?_⟩
    obtain ⟨hanswer, hsame, hnext⟩ := h.step hc q hq
    exact ⟨hanswer, fun e he => hsame e (hanswer.trans he), ih hnext⟩

end Agrees

/-! ## Fresh slabs -/

/-- The cells fill the page: one more would run past its end. -/
theorem cellCount_max (hc : CellSize c) : 48 + cellCount c * c ≤ 4096 ∧ 4096 < 48 + (cellCount c + 1) * c := by
  have hmin := hc.min
  have hmax : Layout.maxCellSize = 4048 := rfl
  have hle : cellCount c * c ≤ Layout.maxCellSize := Nat.div_mul_le_self _ _
  have hlt : Layout.maxCellSize < (cellCount c + 1) * c := Nat.lt_mul_of_div_lt (Nat.lt_succ_self _) (by omega)
  omega

/-- A frame that is visible as a page becomes a slab with free cells only. -/
theorem carve_of_frame {mapper : Mapper} {pa : PhysAddr} (hc : CellSize c)
    (hframe : (Arena.allocFrame s).result = .ok pa) (hal : (mapper.toVirt pa).raw.toNat % 4096 = 0)
    (hne : (mapper.toVirt pa).raw ≠ 0) : (carve mapper c).Ends s fun r t =>
      r = .ok (mapper.toVirt pa).raw ∧ Holds t.memory (mapper.toVirt pa).raw c 0 (allCells c) := by
  unfold carve
  rw [Action.ends_ite, if_neg (by simp [isCellSize_iff.2 hc])]
  have hends : Arena.allocFrame.Ends s fun r _ => r = .ok pa := hframe
  refine hends.bind fun r t hr => ?_
  subst hr
  rw [Action.goes_ok, Action.ends_ite, if_neg fun h => (Mapper.unusable_iff _).1 h ⟨hal, hne⟩, Action.ends_bind,
    Action.ends_lift, hc.capacityFor, Action.goes_ok, Action.ends_bind, Arena.ends_write, Action.goes_ok,
    Action.ends_bind, Action.ends_note, Action.goes_ok, Action.ends_pure]
  exact ⟨rfl, holds_format hc hal hne⟩

/-- A slab is carved exactly where its cells have one of the sizes and the next frame is visible as a page. -/
theorem carve_eq_ok {mapper : Mapper} : (carve mapper c s).result = .ok page ↔
    CellSize c ∧ ∃ pa, (Arena.allocFrame s).result = .ok pa ∧ (mapper.toVirt pa).raw = page ∧
      page.toNat % 4096 = 0 ∧ page ≠ 0 := by
  constructor
  · intro hok
    have hends : (carve mapper c).Ends s fun r _ => r = .ok page := hok
    unfold carve at hends
    rw [Action.ends_ite] at hends
    by_cases hsize : isCellSize c = true
    · rw [if_neg (by simp [hsize]), Action.ends_bind, Action.Ends] at hends
      cases hframe : (Arena.allocFrame s).result with
      | error e =>
        rw [hframe] at hends
        cases hends
      | ok pa =>
        rw [hframe, Action.goes_ok, Action.ends_ite] at hends
        by_cases hbad : ((mapper.toVirt pa).isNull || !Align.isMultiple (mapper.toVirt pa).raw Align.page) = true
        · rw [if_pos hbad] at hends
          rw [Action.ends_bind, Action.ends_note, Action.goes_ok, Action.ends_bind, Action.Ends] at hends
          cases hback : (Arena.freeFrame pa (Arena.allocFrame s).state).result with
          | error e =>
            rw [hback] at hends
            cases hends
          | ok u =>
            rw [hback, Action.goes_ok] at hends
            cases hends
        · have hshow := Classical.not_not.1 (mt (Mapper.unusable_iff _).2 hbad)
          have hc := isCellSize_iff.1 hsize
          have hpage := (carve_of_frame hc hframe hshow.1 hshow.2).1
          cases hok.symm.trans hpage
          exact ⟨hc, pa, rfl, rfl, hshow⟩
    · rw [if_pos (by simpa using hsize)] at hends
      cases hends
  · intro h
    obtain ⟨hc, pa, hframe, rfl, hal, hne⟩ := h
    exact (carve_of_frame hc hframe hal hne).1

/-- A fresh slab agrees with the stack of all its cells. -/
theorem agrees_carve {mapper : Mapper} (hc : CellSize c) (hcarve : (carve mapper c s).result = .ok page) :
    Agrees page c (.full (cellsDown page c (cellCount c))) (carve mapper c s).state := by
  obtain ⟨-, pa, hframe, rfl, hal, hne⟩ := carve_eq_ok.1 hcarve
  exact ⟨rfl, 0, _, (carve_of_frame hc hframe hal hne).2, rfl⟩

/-- **A fresh slab is a stack of its cells**, whatever is taken, given back and written into what was taken. Of each size
there are as many cells as the page has room for behind its header, and the highest one is on top. -/
theorem refines_run {mapper : Mapper} {pa : PhysAddr} (hmin : 16 ≤ c) (hmax : c ≤ 4048) (hstep : c % 16 = 0)
    (hframe : (Arena.allocFrame s).result = .ok pa) (hpage : (mapper.toVirt pa).raw = page)
    (hal : page.toNat % 4096 = 0) (hne : page ≠ 0) (qs : List Request) :
    ∃ n, capacityFor (ε := Fault) c = .ok n ∧ 48 + n * c ≤ 4096 ∧ 4096 < 48 + (n + 1) * c ∧
      (carve mapper c s).result = .ok page ∧
      Refines page c (.full (cellsDown page c n)) (carve mapper c s).state qs := by
  have hc : CellSize c := ⟨hmin, hmax, hstep⟩
  have hcarve := carve_eq_ok.2 ⟨hc, pa, hframe, hpage, hal, hne⟩
  obtain ⟨hle, hlt⟩ := cellCount_max hc
  exact ⟨cellCount c, hc.capacityFor, hle, hlt, hcarve, (agrees_carve hc hcarve).refines hc qs⟩

theorem allocFrame_fourFrames : (Arena.allocFrame Heap.Session.fourFrames).result = .ok ⟨0x1000⟩ := by decide +kernel

/-- A cell is taken, made to look free, given back, and given back once more. -/
theorem refines_fourFrames : ∃ n, capacityFor (ε := Fault) 1024 = .ok n ∧ 48 + n * 1024 ≤ 4096 ∧
    4096 < 48 + (n + 1) * 1024 ∧ (carve .identity 1024 Heap.Session.fourFrames).result = .ok 0x1000 ∧
    Refines 0x1000 1024 (.full (cellsDown 0x1000 1024 n)) (carve .identity 1024 Heap.Session.fourFrames).state
      [.pop, .write 0x1838 (Memory.wordBytes Layout.freeMagic), .push 0x1830, .push 0x1830] :=
  refines_run (by decide) (by decide) (by decide) allocFrame_fourFrames rfl (by decide) (by decide) _

end Keel.Slab
