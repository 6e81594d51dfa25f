import Mathlib.Logic.Function.Iterate
import Mathlib.Order.Bounds.Basic
import Keel.Proofs.Frame.Exactness
import Keel.Proofs.Frame.Placement

/-!
# The first fit

The place of a bitmap is the lowest run of frames in the first usable region that can host it (`Hosts`), and there is
none exactly where no region can. The search in a region goes from one candidate to the next (`hop?`). A run that avoids
what is taken and does not start before a candidate that is in the way starts at the furthest end of what is in its way,
or past it (`Avoids.of_hop`), so no run is skipped (`fit_of_avoids`). Each hop leaves one of the taken ranges behind for
good (`ahead_hop`), so there are no more hops than taken ranges, in whatever order they come and however they overlap
(`rests`). Region by region this finds the first that hosts a run (`placeIn_cases`), and **`first_fit`** puts it all
together.
-/

namespace Keel.Frame

open Pool (Touched firstTouched stopTouched)

variable {taken : List FrameRange} {rs : List Region} {ms : List BootModule} {r : Region}
  {pages stop first past f g words : Nat}

/-! ## Hops -/

/-- The next candidate of a search: one that has room gives way to the furthest end of the taken ranges it meets. -/
def hop? (taken : List FrameRange) (pages stop first : Nat) : Option Nat :=
  if pages ≤ stop - first then furthest? taken first (first + pages) else none

theorem hop?_eq_some (h : hop? taken pages stop first = some past) :
    pages ≤ stop - first ∧ furthest? taken first (first + pages) = some past := by
  unfold hop? at h
  split at h
  · rename_i hroom
    exact ⟨hroom, h⟩
  · cases h

/-- A run that avoids what is taken is not skipped: it starts where a hop leads to, or later. -/
theorem Avoids.of_hop (hg : Avoids taken g pages) (h : hop? taken pages stop first = some past) (hle : first ≤ g) :
    past ≤ g := by
  obtain ⟨t, ht, hlo, hhi, rfl⟩ := mem_of_furthest (hop?_eq_some h).2
  rcases hg t ht with hbefore | hafter
  · exact hbefore
  · omega

/-- One turn of the search: it goes on at the next candidate, or ends with the one it has. -/
theorem fit_eq (hp : 0 < pages) (hstop : stop < 2 ^ 64) (first : Nat) : fit taken pages stop first =
    match hop? taken pages stop first with
    | some past => fit taken pages stop past
    | none => .ok (if pages ≤ stop - first then some first else none) := by
  rw [fit, hop?]
  by_cases hroom : pages ≤ stop - first
  · have hadd : Count.add (ε := Fault) first pages = .ok (first + pages) := Count.add_eq_ok.2 ⟨by omega, rfl⟩
    rw [if_pos hroom, if_pos hroom, hadd]
    dsimp only
    split <;> simp_all
  · rw [if_neg hroom, if_neg hroom, if_neg hroom]

/-- **No run is skipped**: where one avoids what is taken, the search finds it or a lower one. -/
theorem fit_of_avoids (hstop : stop < 2 ^ 64) (hg : Avoids taken g pages) (hle : first ≤ g)
    (hend : g + pages ≤ stop) : ∃ f ≤ g, fit taken pages stop first = .ok (some f) := by
  fun_induction fit taken pages stop first with
  | case1 first hroom e hadd =>
    have hok : Count.add (ε := Fault) first pages = .ok (first + pages) := Count.add_eq_ok.2 ⟨by omega, rfl⟩
    rw [hok] at hadd
    cases hadd
  | case2 first hroom last hadd hnone => exact ⟨first, hle, rfl⟩
  | case3 first hroom last hadd past hsome ih =>
    obtain ⟨-, rfl⟩ := Count.add_eq_ok.1 hadd
    have hhop : hop? taken pages stop first = some past := (if_pos hroom).trans hsome
    exact ih (hg.of_hop hhop hle)
  | case4 first hroom => omega

/-! ## How many hops there are -/

/-- The number of taken ranges that end past a candidate. -/
def ahead (taken : List FrameRange) (first : Nat) : Nat := taken.countP fun t => first < t.2

/-- A hop leaves the range behind that it goes to the end of, and no range gets ahead again. -/
theorem ahead_hop (h : hop? taken pages stop first = some past) : ahead taken past < ahead taken first := by
  obtain ⟨t, ht, -, hhi, rfl⟩ := mem_of_furthest (hop?_eq_some h).2
  obtain ⟨xs, ys, rfl⟩ := List.append_of_mem ht
  have hmono : ∀ zs : List FrameRange, ahead zs t.2 ≤ ahead zs first := fun zs =>
    List.countP_mono_left fun u _ hu => decide_eq_true (Nat.lt_trans hhi (of_decide_eq_true hu))
  have hxs := hmono xs
  have hys := hmono ys
  unfold ahead at *
  rw [List.countP_append, List.countP_append, List.countP_cons_of_neg (by simp),
    List.countP_cons_of_pos (by simpa using hhi)]
  omega

/-- The search from `first` on comes to rest: at most one hop for each taken range leads to a candidate that stays, and
that candidate is the answer if it has room. -/
def Rests (taken : List FrameRange) (pages stop first : Nat) : Prop :=
  ∃ n ≤ taken.length, ∃ last, (· >>= hop? taken pages stop)^[n] (some first) = some last ∧
    hop? taken pages stop last = none ∧
    fit taken pages stop first = .ok (if pages ≤ stop - last then some last else none)

theorem rests (taken : List FrameRange) (hp : 0 < pages) (hstop : stop < 2 ^ 64) (first : Nat) :
    Rests taken pages stop first := by
  have hhops : ∃ n ≤ ahead taken first, ∃ last, (· >>= hop? taken pages stop)^[n] (some first) = some last ∧
      hop? taken pages stop last = none ∧
      fit taken pages stop first = .ok (if pages ≤ stop - last then some last else none) := by
    induction hn : ahead taken first using Nat.strong_induction_on generalizing first with
    | _ n ih =>
      rw [fit_eq hp hstop first]
      cases hhop : hop? taken pages stop first with
      | none => exact ⟨0, Nat.zero_le _, first, rfl, hhop, rfl⟩
      | some past =>
        have hlt := ahead_hop hhop
        obtain ⟨k, hk, last, hlast, hstays, hanswer⟩ := ih _ (hn ▸ hlt) past rfl
        refine ⟨k + 1, by omega, last, ?_, hstays, hanswer⟩
        rw [Function.iterate_succ_apply, Option.bind_eq_bind, Option.bind_some, hhop]
        exact hlast
  obtain ⟨n, hn, hrest⟩ := hhops
  exact ⟨n, Nat.le_trans hn List.countP_le_length, hrest⟩

/-! ## Regions that host a run -/

/-- The `pages` frames from `f` on are frames of a usable region, which holds each of them whole; frame zero is not one
of them, and no boot module touches any. -/
structure Hosts (ms : List BootModule) (pages : Nat) (r : Region) (f : Nat) : Prop where
  usable : r.kind = .usable
  whole : ∀ k, f ≤ k → k < f + pages → frameBytes k ⊆ r.bytes
  pos : 0 < f
  apart : ∀ k, f ≤ k → k < f + pages → ∀ m ∈ ms, ¬Touched m.addr m.size k

/-- `f` starts the lowest run of the first region that hosts any. -/
inductive FirstHost (ms : List BootModule) (pages : Nat) : List Region → Nat → Prop
  | here {r : Region} {f : Nat} (h : IsLeast {g | Hosts ms pages r g} f) (rs : List Region) :
      FirstHost ms pages (r :: rs) f
  | later {r : Region} {rs : List Region} {f : Nat} (hno : ∀ g, ¬Hosts ms pages r g) (h : FirstHost ms pages rs f) :
      FirstHost ms pages (r :: rs) f

theorem FirstHost.unique (hf : FirstHost ms pages rs f) (hg : FirstHost ms pages rs g) : f = g := by
  induction hf with
  | here hleast rs =>
    cases hg with
    | here hleast' => exact hleast.unique hleast'
    | later hno => exact absurd hleast.1 (hno _)
  | later hno _ ih =>
    cases hg with
    | here hleast' => exact absurd hleast'.1 (hno _)
    | later _ hg => exact ih hg

/-- The lowest run is one that a region of the list hosts. -/
theorem FirstHost.exists (hf : FirstHost ms pages rs f) : ∃ r ∈ rs, Hosts ms pages r f := by
  induction hf with
  | here hleast rs => exact ⟨_, List.mem_cons_self, hleast.1⟩
  | later _ _ ih =>
    obtain ⟨r, hr, hhosts⟩ := ih
    exact ⟨r, List.mem_cons_of_mem _ hr, hhosts⟩

/-- A run avoids the ranges of the boot modules exactly if they touch none of its frames. -/
theorem avoids_modules_iff (hp : 0 < pages) : Avoids (ms.filterMap BootModule.frames?) f pages ↔
    ∀ k, f ≤ k → k < f + pages → ∀ m ∈ ms, ¬Touched m.addr m.size k := by
  constructor
  · rintro havoids k hlo hhi m hm ⟨hsize, hfits, hfirst, hstop⟩
    have hframes : m.frames? = some (firstTouched m.addr, stopTouched m.addr m.size) :=
      frames?_eq_some.2 ⟨hsize, hfits, rfl⟩
    have := havoids _ (List.mem_filterMap.2 ⟨m, hm, hframes⟩)
    dsimp only at this
    omega
  · intro hno t ht
    obtain ⟨m, hm, hframes⟩ := List.mem_filterMap.1 ht
    obtain ⟨hsize, hfits, rfl⟩ := frames?_eq_some.1 hframes
    have hlen : m.size.toNat ≠ 0 := fun h => hsize (UInt64.toNat_inj.1 h)
    dsimp only
    refine Classical.byContradiction fun hmeets => ?_
    -- A frame that both have is the higher of the two first ones.
    refine hno (max f (m.addr.raw.toNat / 4096)) (by omega) (by omega) m hm ⟨hsize, hfits, ?_, ?_⟩
    · unfold firstTouched
      omega
    · unfold stopTouched
      omega

/-- The runs of a region are those in its range of frames. -/
theorem hosts_iff {e : Extent} (he : Extent.ofRegion? r = some e) (hu : r.kind = .usable) (hp : 0 < pages) :
    Hosts ms pages r f ↔
      max e.first 1 ≤ f ∧ f + pages ≤ e.stop ∧ Avoids (ms.filterMap BootModule.frames?) f pages := by
  rw [avoids_modules_iff hp, Extent.of_usable he hu]
  dsimp only
  constructor
  · intro h
    have hpos := h.pos
    have hlo := frameBytes_subset.1 (h.whole f (Nat.le_refl _) (by omega))
    have hhi := frameBytes_subset.1 (h.whole (f + pages - 1) (by omega) (by omega))
    exact ⟨by omega, by omega, h.apart⟩
  · rintro ⟨hlo, hhi, hapart⟩
    refine ⟨hu, fun k hk hk' => frameBytes_subset.2 ⟨by omega, by omega⟩, by omega, hapart⟩

theorem not_hosts_of_isEmpty (hr : r.isEmpty = true) (hp : 0 < pages) : ¬Hosts ms pages r f := by
  intro h
  have hlength : r.length.toNat = 0 := by
    rw [Region.isEmpty, beq_iff_eq] at hr
    rw [hr]
    rfl
  have := frameBytes_subset.1 (h.whole f (Nat.le_refl _) (by omega))
  unfold Region.stop at this
  omega

/-! ## Region by region -/

/-- The search in one usable region finds its lowest run, or it has none. -/
theorem fit_cases (ms : List BootModule) {e : Extent} (he : Extent.ofRegion? r = some e) (hu : r.kind = .usable)
    (hp : 0 < pages) (hstop : e.stop < 2 ^ 64) :
    (fit (ms.filterMap BootModule.frames?) pages e.stop (max e.first 1) = .ok none ∧ ∀ g, ¬Hosts ms pages r g) ∨
    ∃ f, fit (ms.filterMap BootModule.frames?) pages e.stop (max e.first 1) = .ok (some f) ∧
      IsLeast {g | Hosts ms pages r g} f := by
  have hlower : ∀ g, Hosts ms pages r g → ∃ f ≤ g,
      fit (ms.filterMap BootModule.frames?) pages e.stop (max e.first 1) = .ok (some f) := by
    intro g hg
    obtain ⟨hlo, hhi, havoids⟩ := (hosts_iff he hu hp).1 hg
    exact fit_of_avoids hstop havoids hlo hhi
  obtain ⟨o, ho⟩ := fit_answers (ms.filterMap BootModule.frames?) hp hstop (max e.first 1)
  cases o with
  | none =>
    refine .inl ⟨ho, fun g hg => ?_⟩
    obtain ⟨f, -, hf⟩ := hlower g hg
    cases ho.symm.trans hf
  | some f =>
    refine .inr ⟨f, ho, (hosts_iff he hu hp).2 (fit_ok hp ho), fun g hg => ?_⟩
    obtain ⟨f', hle, hf'⟩ := hlower g hg
    cases ho.symm.trans hf'
    exact hle

/-- The search in all regions finds the lowest run of the first that hosts any, or none hosts one. -/
theorem placeIn_cases (ms : List BootModule) (hp : 0 < pages) (hfits : ∀ r ∈ Region.nonEmpty rs, r.EndFits) :
    (placeIn (ms.filterMap BootModule.frames?) pages (Region.nonEmpty rs) = .ok none ∧
      ∀ r ∈ rs, ∀ g, ¬Hosts ms pages r g) ∨
    ∃ f, placeIn (ms.filterMap BootModule.frames?) pages (Region.nonEmpty rs) = .ok (some f) ∧
      FirstHost ms pages rs f := by
  induction rs with
  | nil => exact .inl ⟨rfl, nofun⟩
  | cons r rs ih =>
    -- A region without a run is passed over, and what the others answer is the answer.
    have hlater : (∀ g, ¬Hosts ms pages r g) → (∀ q ∈ Region.nonEmpty rs, q.EndFits) →
        placeIn (ms.filterMap BootModule.frames?) pages (Region.nonEmpty (r :: rs)) =
          placeIn (ms.filterMap BootModule.frames?) pages (Region.nonEmpty rs) →
        (placeIn (ms.filterMap BootModule.frames?) pages (Region.nonEmpty (r :: rs)) = .ok none ∧
          ∀ q ∈ r :: rs, ∀ g, ¬Hosts ms pages q g) ∨
        ∃ f, placeIn (ms.filterMap BootModule.frames?) pages (Region.nonEmpty (r :: rs)) = .ok (some f) ∧
          FirstHost ms pages (r :: rs) f := by
      intro hno hrest hsame
      rw [hsame]
      obtain ⟨hnone, hall⟩ | ⟨f, hf, hfirst⟩ := ih hrest
      · exact .inl ⟨hnone, List.forall_mem_cons.2 ⟨hno, hall⟩⟩
      · exact .inr ⟨f, hf, .later hno hfirst⟩
    by_cases hempty : r.isEmpty = true
    · have hsame : Region.nonEmpty (r :: rs) = Region.nonEmpty rs := by simp [Region.nonEmpty, hempty]
      rw [hsame] at hfits
      exact hlater (fun g => not_hosts_of_isEmpty hempty hp) hfits (by rw [hsame])
    · have hcons : Region.nonEmpty (r :: rs) = r :: Region.nonEmpty rs := by simp [Region.nonEmpty, hempty]
      rw [hcons] at hfits
      obtain ⟨hr, hrest⟩ := List.forall_mem_cons.1 hfits
      obtain ⟨e, he, hstop⟩ := extent_of_fits hr
      have hregion := Extent.region_of_ofRegion? he
      by_cases hu : r.kind = .usable
      · have husable : e.isUsable = true := Extent.isUsable_iff.2 (hregion ▸ hu)
        obtain ⟨hnone, hno⟩ | ⟨f, hf, hleast⟩ := fit_cases ms he hu hp hstop
        · refine hlater hno hrest ?_
          rw [hcons, placeIn, he]
          simp [husable, hnone]
        · refine .inr ⟨f, ?_, .here hleast rs⟩
          rw [hcons, placeIn, he]
          simp [husable, hf]
      · have husable : e.isUsable = false := by
          rw [← Bool.not_eq_true, Extent.isUsable_iff, hregion]
          exact hu
        refine hlater (fun g hg => hu hg.usable) hrest ?_
        rw [hcons, placeIn, he]
        simp [husable]

/-! ## The place of a bitmap -/

/-- The frames a bitmap of `words` words takes, at least one. -/
theorem pagesFor_eq (words : Nat) : pagesFor (words * 8) = max 1 ((8 * words + 4095) / 4096) := by
  simp only [pagesFor, Layout.pageSize]
  omega

theorem endFits_of_wordsFor {n : Nat} (h : wordsFor rs = .ok n) : ∀ r ∈ Region.nonEmpty rs, r.EndFits := by
  obtain ⟨a, ha, -⟩ := Checked.bind_eq_ok.1 h
  exact (span_eq_ok.1 ⟨a, ha⟩).2

/-- The lowest run is at an address. -/
theorem FirstHost.toNat_frameStart (hf : FirstHost ms pages rs f) (hp : 0 < pages)
    (hfits : ∀ r ∈ Region.nonEmpty rs, r.EndFits) : (Align.frameStart f).toNat = f * 4096 := by
  obtain ⟨r, hr, hhosts⟩ := hf.exists
  have hwhole := frameBytes_subset.1 (hhosts.whole f (Nat.le_refl _) (by omega))
  have hempty : ¬r.isEmpty = true := fun h => not_hosts_of_isEmpty h hp hhosts
  have hstop := (hfits r (List.mem_filter.2 ⟨hr, by simpa using hempty⟩)).1
  exact Align.toNat_frameStart (by omega)

/-- What is answered where a bitmap of `words` words is to be placed. -/
structure FirstFit (rs : List Region) (words : Nat) (ms : List BootModule) : Prop where
  /-- The answer is the start of the lowest run of the first region that hosts any. -/
  placed : ∀ {σ : Type} (s : σ) (pa : PhysAddr), (place rs words ms s).result = .ok pa ↔
    ∃ f, FirstHost ms (max 1 ((8 * words + 4095) / 4096)) rs f ∧ pa.raw.toNat = f * 4096
  /-- There is no answer exactly where no region hosts a run. -/
  refused : ∀ {σ : Type} (s : σ), (place rs words ms s).result = .error (.fault .tooMany) ↔
    ∀ r ∈ rs, ∀ f, ¬Hosts ms (max 1 ((8 * words + 4095) / 4096)) r f
  /-- The search in each usable region comes to rest. -/
  rests : ∀ r ∈ Region.nonEmpty rs, r.kind = .usable → ∃ e, Extent.ofRegion? r = some e ∧
    Rests (ms.filterMap BootModule.frames?) (max 1 ((8 * words + 4095) / 4096)) e.stop (max e.first 1)

/-- **A bitmap is placed by first fit**, over every map for which the number of words can be told. -/
theorem first_fit {n : Nat} (hmap : wordsFor rs = .ok n) (hwords : words < 2 ^ 61) (ms : List BootModule) :
    FirstFit rs words ms := by
  have hfits := endFits_of_wordsFor hmap
  have hp : 0 < max 1 ((8 * words + 4095) / 4096) := by omega
  have hends : ∀ {σ : Type} (s : σ), (place rs words ms).Ends s fun r _ =>
      (r = .error (.fault .tooMany) ∧ ∀ r ∈ rs, ∀ f, ¬Hosts ms (max 1 ((8 * words + 4095) / 4096)) r f) ∨
      ∃ f, r = .ok ⟨Align.frameStart f⟩ ∧ FirstHost ms (max 1 ((8 * words + 4095) / 4096)) rs f := by
    intro σ s
    have hbytes : Count.mul (ε := Fault) words 8 = .ok (words * 8) := Count.mul_eq_ok.2 ⟨by omega, rfl⟩
    unfold place
    rw [Action.ends_bind, hbytes, Action.ends_lift, Action.goes_ok, Action.ends_bind, pagesFor_eq]
    obtain ⟨hnone, hno⟩ | ⟨f, hf, hfirst⟩ := placeIn_cases ms hp hfits
    · rw [hnone]
      exact .inl ⟨rfl, hno⟩
    · have hstart := hfirst.toNat_frameStart hp hfits
      have hmul : Count.mul (ε := Fault) f Layout.pageSize = .ok (f * 4096) :=
        Count.mul_eq_ok.2 ⟨hstart ▸ (Align.frameStart f).toNat_lt, rfl⟩
      rw [hf, Action.ends_lift, Action.goes_ok]
      dsimp only
      rw [Action.ends_bind, hmul]
      exact .inr ⟨f, rfl, hfirst⟩
  refine ⟨fun s pa => ?_, fun s => ?_, fun r hr hu => ?_⟩
  · obtain ⟨hr, hno⟩ | ⟨f, hr, hfirst⟩ := hends s
    · rw [hr]
      refine iff_of_false nofun ?_
      rintro ⟨f, hfirst, -⟩
      obtain ⟨r, hmem, hhosts⟩ := hfirst.exists
      exact hno r hmem f hhosts
    · have hstart := hfirst.toNat_frameStart hp hfits
      rw [hr, Except.ok.injEq]
      constructor
      · rintro rfl
        exact ⟨f, hfirst, hstart⟩
      · rintro ⟨g, hg, hpa⟩
        obtain rfl := hfirst.unique hg
        obtain ⟨raw⟩ := pa
        rw [Address.mk.injEq, ← UInt64.toNat_inj, hstart]
        exact hpa.symm
  · obtain ⟨hr, hno⟩ | ⟨f, hr, hfirst⟩ := hends s
    · exact iff_of_true hr hno
    · rw [hr]
      obtain ⟨r, hmem, hhosts⟩ := hfirst.exists
      exact iff_of_false nofun fun hno => hno r hmem f hhosts
  · obtain ⟨e, he, hstop⟩ := extent_of_fits (hfits r hr)
    exact ⟨e, he, rests _ hp hstop _⟩

/-- A map of two usable regions. -/
def twoRegions : List Region := [.usable ⟨0x1000⟩ 0x8000, .usable ⟨0x20000⟩ 0x4000]

/-- Three boot modules in the first frames, out of order, two of which share a frame. -/
def outOfOrder : List BootModule := [⟨"c.ko", ⟨0x4800⟩, 0x900⟩, ⟨"b.ko", ⟨0x2800⟩, 0x1000⟩, ⟨"a.ko", ⟨0x1000⟩, 0x2000⟩]

theorem first_fit_outOfOrder : wordsFor twoRegions = .ok 1 ∧ 1024 < 2 ^ 61 ∧ FirstFit twoRegions 1024 outOfOrder ∧
    (place twoRegions 1024 outOfOrder ()).result = .ok ⟨0x6000⟩ :=
  ⟨rfl, by decide, first_fit rfl (by decide) outOfOrder, by decide +kernel⟩

end Keel.Frame
