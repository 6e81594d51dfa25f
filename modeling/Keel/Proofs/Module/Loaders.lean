import Keel.Module.Loader
import Keel.Proofs.Ends
import Mathlib.Data.List.Nodup

/-!
# The loader table is a bounded list

A `Roster` is what a loader table stands for: the loaders in the order of registration, with names that are not empty
and differ, and no more of them than there are slots. A loader joins at the end and the one of a name is taken out, so
the order of the others stays. `LoaderTable.Lists` says that slot `k` holds what the roster has at place `k`, which is
nothing from its end on (`Lists.isSome_iff`); the list that is read off the slots is then the roster (`Lists.list_eq`).
Closing the gap that a loader leaves moves each later one down by one place (`Lists.closeGap`). Every request keeps the
two together and is answered from the roster (`Lists.request`), and so does every run of requests (**`shows_run`**).
-/

namespace Keel

open Keel.Action (Ends)

namespace LoaderTable

/-! ## Requests -/

/-- What is asked of a table. -/
inductive Request
  | register (l : Loader)
  | unregister (name : String)
  | select (image : Image)

/-- A request to a table; the answer is the loader that has left or was selected. -/
def serve : Request → Action LoaderTable (Option Loader)
  | .register l => do
    register l
    return none
  | .unregister name => do return some (← unregister name)
  | .select image => do return some (← (← get).select image)

/-- A table after some requests. -/
def run (t : LoaderTable) (qs : List Request) : LoaderTable := qs.foldl (fun t q => (serve q t).state) t

end LoaderTable

open Keel.LoaderTable (Request)

/-- Loaders, the oldest first. -/
abbrev Roster := List Loader

namespace Roster

/-- Whether a roster has no place for a loader: it has no name, its name is taken, or there are too many. -/
def Refuses (ls : Roster) (l : Loader) : Prop :=
  l.name = "" ∨ (∃ k ∈ ls, k.name = l.name) ∨ ls.length = Layout.maxLoaders

instance (ls : Roster) (l : Loader) : Decidable (ls.Refuses l) := inferInstanceAs (Decidable (_ ∨ _ ∨ _))

/-- What a roster answers. -/
def answer (ls : Roster) : Request → Checked Fault (Option Loader)
  | .register l => if ls.Refuses l then .error (.fault .badArgs) else .ok none
  | .unregister name =>
    match ls.find? fun l => l.name == name with
    | none => .error (.fault .noSuch)
    | some l => .ok (some l)
  | .select image =>
    match ls.find? fun l => l.probe image with
    | none => .error (.fault .noSuch)
    | some l => .ok (some l)

/-- What a request that is granted does: a loader joins at the end, or the one of a name is taken out. -/
def grant (ls : Roster) : Request → Roster
  | .register l => ls ++ [l]
  | .unregister name => ls.eraseP fun l => l.name == name
  | .select _ => ls

/-- The roster after a request. -/
def next (ls : Roster) (q : Request) : Roster :=
  match ls.answer q with
  | .ok _ => ls.grant q
  | .error _ => ls

/-- The roster after some requests. -/
def run (ls : Roster) (qs : List Request) : Roster := qs.foldl next ls

/-- No more loaders than slots, each with a name of its own. -/
structure Proper (ls : Roster) : Prop where
  bounded : ls.length ≤ Layout.maxLoaders
  named : ∀ l ∈ ls, l.name ≠ ""
  distinct : (ls.map Loader.name).Nodup

namespace Proper

variable {ls : Roster}

theorem nil : Proper [] := ⟨Nat.zero_le _, nofun, List.nodup_nil⟩

/-- A loader that is not refused joins. -/
theorem append (h : ls.Proper) {l : Loader} (hl : ¬ls.Refuses l) : Proper (ls ++ [l]) := by
  unfold Refuses at hl
  simp only [not_or, not_exists, not_and] at hl
  obtain ⟨hname, hnew, hroom⟩ := hl
  refine ⟨?_, ?_, ?_⟩
  · have hle := h.bounded
    rw [List.length_append, List.length_singleton]
    omega
  · intro k hk
    rcases List.mem_append.1 hk with hk | hk
    · exact h.named k hk
    · rwa [List.mem_singleton.1 hk]
  · rw [List.map_append, List.nodup_append]
    refine ⟨h.distinct, List.nodup_singleton _, fun a ha b hb => ?_⟩
    obtain ⟨k, hk, rfl⟩ := List.mem_map.1 ha
    rw [List.map_singleton, List.mem_singleton] at hb
    exact hb ▸ hnew k hk

/-- Loaders that leave make room. -/
theorem sublist (h : ls.Proper) {ks : Roster} (hks : ks.Sublist ls) : ks.Proper where
  bounded := Nat.le_trans hks.length_le h.bounded
  named l hl := h.named l (hks.subset hl)
  distinct := h.distinct.sublist (hks.map Loader.name)

/-- What is granted keeps a roster proper. -/
theorem next (h : ls.Proper) (q : Request) : (ls.next q).Proper := by
  unfold Roster.next
  cases q with
  | register l =>
    rw [answer]
    by_cases hl : ls.Refuses l
    · rw [if_pos hl]
      exact h
    · rw [if_neg hl]
      exact h.append hl
  | unregister name =>
    split
    · exact h.sublist List.eraseP_sublist
    · exact h
  | select image => split <;> exact h

end Proper

end Roster

/-! ## Slots -/

namespace LoaderTable

/-- The slots hold a roster from the first one on. -/
structure Lists (t : LoaderTable) (ls : Roster) : Prop where
  count : t.count = ls.length
  slot : ∀ k (hk : k < Layout.maxLoaders), t.slots[k] = ls[k]?

variable {t : LoaderTable} {ls : Roster}

theorem Lists.empty : Lists .empty [] where
  count := rfl
  slot k hk := by simp [LoaderTable.empty]

namespace Lists

/-- The slots below the count are those that are filled. -/
theorem isSome_iff (h : t.Lists ls) (k : Nat) (hk : k < Layout.maxLoaders) :
    t.slots[k].isSome = true ↔ k < t.count := by
  rw [h.slot k hk, h.count, isSome_getElem?]

/-- The list read off the slots. -/
theorem list_eq (h : t.Lists ls) (hls : ls.Proper) : t.list = ls := by
  have hslots : t.slots.toList.take t.count = ls.map some := by
    refine List.ext_getElem? fun k => ?_
    rw [List.getElem?_take, List.getElem?_map, h.count]
    by_cases hk : k < ls.length
    · have hmax : k < Layout.maxLoaders := Nat.lt_of_lt_of_le hk hls.bounded
      rw [if_pos hk, Vector.getElem?_toList, Vector.getElem?_eq_getElem hmax, h.slot k hmax,
        List.getElem?_eq_getElem hk, Option.map_some]
    · rw [if_neg hk, List.getElem?_eq_none (Nat.le_of_not_lt hk), Option.map_none]
  rw [LoaderTable.list, hslots, List.filterMap_map]
  exact List.filterMap_some

/-- A loader in the slot after the last one. -/
theorem append (h : t.Lists ls) (l : Loader) :
    Lists ⟨t.slots.setIfInBounds t.count (some l), t.count + 1⟩ (ls ++ [l]) where
  count := by simp [h.count]
  slot k hk := by
    show (t.slots.setIfInBounds t.count (some l))[k] = (ls ++ [l])[k]?
    rw [Vector.getElem_setIfInBounds hk, h.count]
    by_cases hlast : ls.length = k
    · rw [if_pos hlast, ← hlast, List.getElem?_concat_length]
    · rw [if_neg hlast, h.slot k hk]
      rcases Nat.lt_or_gt_of_ne hlast with hlt | hgt
      · rw [List.getElem?_eq_none (Nat.le_of_lt hlt), List.getElem?_eq_none (by simp; omega)]
      · rw [List.getElem?_append_left hgt]

/-- The gap of a loader closed: those before it stay, those after it move up, and the last slot is empty. -/
theorem closeGap (h : t.Lists ls) (hls : ls.Proper) {i : Nat} (hi : i < ls.length) :
    Lists ⟨t.closeGap i, t.count - 1⟩ (ls.eraseIdx i) where
  count := by
    show t.count - 1 = (ls.eraseIdx i).length
    rw [h.count, List.length_eraseIdx_of_lt hi]
  slot k hk := by
    show (t.closeGap i)[k] = (ls.eraseIdx i)[k]?
    have hbounded := hls.bounded
    rw [LoaderTable.closeGap, Vector.getElem_ofFn, List.getElem?_eraseIdx, h.count, Fin.getElem_fin, h.slot k hk]
    by_cases hki : k < i
    · rw [if_pos (by simp [hki]), if_pos hki]
    · rw [if_neg hki]
      by_cases hend : ls.length ≤ k
      · rw [if_pos (by simp [hend]), List.getElem?_eq_none hend, List.getElem?_eq_none (by omega)]
      · rw [if_neg (by simp; omega)]
        by_cases hlast : k + 1 < ls.length
        · have hmax : k + 1 < Layout.maxLoaders := by omega
          rw [if_pos hlast, Vector.getElem?_eq_getElem hmax, h.slot (k + 1) hmax]
          rfl
        · rw [if_neg hlast, List.getElem?_eq_none (by omega)]

end Lists

/-! ## Agreement -/

/-- A request is answered as the roster answers it, leaves what the roster becomes, and changes nothing if it is
refused. -/
structure Serves (t : LoaderTable) (ls : Roster) (q : Request) (r : Checked Fault (Option Loader)) (t' : LoaderTable) :
    Prop where
  answer : r = ls.answer q
  lists : t'.Lists (ls.next q)
  refused : ∀ e, r = .error e → t' = t

theorem Serves.refuse (h : t.Lists ls) {q : Request} {f : Fault} (ha : ls.answer q = .error (.fault f)) :
    Serves t ls q (.error (.fault f)) t := by
  refine ⟨ha.symm, ?_, fun _ _ => rfl⟩
  rw [Roster.next, ha]
  exact h

theorem Serves.grant {t' : LoaderTable} {q : Request} {a : Option Loader} (ha : ls.answer q = .ok a)
    (h : t'.Lists (ls.grant q)) : Serves t ls q (.ok a) t' := by
  refine ⟨ha.symm, ?_, nofun⟩
  rw [Roster.next, ha]
  exact h

namespace Lists

/-- A loader joins unless it is refused. -/
theorem register (h : t.Lists ls) (hls : ls.Proper) (l : Loader) :
    (serve (.register l)).Ends t (Serves t ls (.register l)) := by
  have hrefused : ls.Refuses l → ls.answer (.register l) = .error (.fault .badArgs) := fun hl => if_pos hl
  have htaken : (ls.any fun k => k.name == l.name) = true ↔ ∃ k ∈ ls, k.name = l.name := by simp
  simp only [serve, LoaderTable.register, Action.ends_bind, Action.ends_get, Action.goes_ok, h.list_eq hls, h.count]
  by_cases hname : l.name = ""
  · rw [if_pos (String.isEmpty_iff.2 hname), Action.ends_bind, Action.ends_fail, Action.goes_error, Action.goes_error]
    exact .refuse h (hrefused (.inl hname))
  rw [if_neg (mt String.isEmpty_iff.1 hname)]
  by_cases hnew : ∃ k ∈ ls, k.name = l.name
  · rw [if_pos (htaken.2 hnew), Action.ends_bind, Action.ends_note, Action.goes_ok, Action.ends_bind, Action.ends_fail,
      Action.goes_error, Action.goes_error]
    exact .refuse h (hrefused (.inr (.inl hnew)))
  rw [if_neg (mt htaken.1 hnew)]
  by_cases hfull : ls.length = Layout.maxLoaders
  · rw [if_pos hfull, Action.ends_bind, Action.ends_note, Action.goes_ok, Action.ends_bind, Action.ends_fail,
      Action.goes_error, Action.goes_error]
    exact .refuse h (hrefused (.inr (.inr hfull)))
  rw [if_neg hfull, Action.ends_set, Action.goes_ok, Action.ends_pure]
  refine .grant (if_neg ?_) (h.count ▸ h.append l)
  rintro (hl | hl | hl)
  · exact hname hl
  · exact hnew hl
  · exact hfull hl

/-- The first that has a property, at its place. -/
theorem find?_at {α : Type} {p : α → Bool} {as : List α} {i : Nat} (h : as.findIdx? p = some i) :
    ∃ a, as[i]? = some a ∧ as.find? p = some a := by
  obtain ⟨hi, hp, hbefore⟩ := List.findIdx?_eq_some_iff_getElem.1 h
  refine ⟨as[i], List.getElem?_eq_getElem hi, List.find?_eq_some_iff_getElem.2 ⟨hp, i, hi, rfl, fun j hj => ?_⟩⟩
  simpa using hbefore j hj

/-- The loader of a name leaves. -/
theorem unregister (h : t.Lists ls) (hls : ls.Proper) (name : String) :
    (serve (.unregister name)).Ends t (Serves t ls (.unregister name)) := by
  rw [serve, Action.ends_bind]
  simp only [LoaderTable.unregister, Action.ends_bind, Action.ends_get, Action.goes_ok, h.list_eq hls]
  cases hfind : ls.findIdx? fun l => l.name == name with
  | none =>
    rw [Action.ends_none, Action.goes_error, Action.goes_error]
    refine .refuse h ?_
    rw [Roster.answer, List.find?_eq_none.2 fun l hl => by simp [List.findIdx?_eq_none_iff.1 hfind l hl]]
  | some i =>
    obtain ⟨l, hl, hfirst⟩ := find?_at hfind
    have hi : i < ls.length := (List.getElem?_eq_some_iff.1 hl).1
    have hmax : i < Layout.maxLoaders := Nat.lt_of_lt_of_le hi hls.bounded
    have hcount : 1 ≤ t.count := by
      rw [h.count]
      omega
    have hslot : (t.slots[i]?).join = some l := by
      rw [Vector.getElem?_eq_getElem hmax, h.slot i hmax, hl]
      rfl
    rw [Action.ends_some, Action.goes_ok, Action.ends_bind, hslot, Action.ends_some, Action.goes_ok, Action.ends_bind,
      Action.ends_lift, Count.sub_eq_ok.2 ⟨hcount, rfl⟩, Action.goes_ok, Action.ends_bind, Action.ends_set,
      Action.goes_ok, Action.ends_pure, Action.goes_ok, Action.ends_pure]
    refine .grant (by rw [Roster.answer, hfirst]) ?_
    rw [Roster.grant, List.eraseP_eq_eraseIdx, hfind]
    exact h.closeGap hls hi

/-- The oldest loader that recognizes an image is selected. -/
theorem select (h : t.Lists ls) (hls : ls.Proper) (image : Image) :
    (serve (.select image)).Ends t (Serves t ls (.select image)) := by
  simp only [serve, LoaderTable.select, Action.ends_bind, Action.ends_get, Action.goes_ok, h.list_eq hls]
  cases hfind : ls.find? fun l => l.probe image with
  | none =>
    rw [Action.ends_none, Action.goes_error, Action.goes_error]
    exact .refuse h (by rw [Roster.answer, hfind])
  | some l =>
    rw [Action.ends_some, Action.goes_ok, Action.ends_bind, Action.ends_note, Action.goes_ok, Action.ends_pure,
      Action.goes_ok, Action.ends_pure]
    exact .grant (by rw [Roster.answer, hfind]) h

/-- **Every request** is answered from the roster, and leaves what the roster becomes. -/
theorem request (h : t.Lists ls) (hls : ls.Proper) (q : Request) : (serve q).Ends t (Serves t ls q) := by
  cases q with
  | register l => exact h.register hls l
  | unregister name => exact h.unregister hls name
  | select image => exact h.select hls image

end Lists

/-! ## Runs -/

/-- What a table shows of a roster. -/
structure Shows (t : LoaderTable) (ls : Roster) : Prop where
  list : t.list = ls
  count : t.count = ls.length
  proper : ls.Proper
  /-- The slots below the count are filled, and no other. -/
  filled : ∀ k (hk : k < Layout.maxLoaders), t.slots[k].isSome = true ↔ k < t.count
  /-- The next request is answered as from the roster, leaves what the roster becomes, and changes nothing if it is
  refused. -/
  answers : ∀ q, (serve q t).result = ls.answer q ∧ (serve q t).state.list = ls.next q ∧
    ∀ e, ls.answer q = .error e → (serve q t).state = t

theorem Lists.shows (h : t.Lists ls) (hls : ls.Proper) : t.Shows ls where
  list := h.list_eq hls
  count := h.count
  proper := hls
  filled := h.isSome_iff
  answers q := by
    have hq : Serves t ls q (serve q t).result (serve q t).state := h.request hls q
    exact ⟨hq.answer, hq.lists.list_eq (hls.next q), fun e he => hq.refused e (hq.answer.trans he)⟩

theorem Lists.run (h : t.Lists ls) (hls : ls.Proper) (qs : List Request) :
    (t.run qs).Lists (ls.run qs) ∧ (ls.run qs).Proper := by
  induction qs generalizing t ls with
  | nil => exact ⟨h, hls⟩
  | cons q qs ih =>
    have hq : Serves t ls q (serve q t).result (serve q t).state := h.request hls q
    exact ih hq.lists (hls.next q)

/-- **The table shows a bounded list of loaders**, at every point of every run of requests. -/
theorem shows_run (qs : List Request) : (empty.run qs).Shows (Roster.run [] qs) := by
  obtain ⟨hlists, hproper⟩ := Lists.empty.run .nil qs
  exact hlists.shows hproper

-- a name that is taken is refused, and the loaders after one that leaves move up
example :
    let elf (name : String) : Loader := ⟨name, fun _ => true, fun _ _ => Action.fail .noSuch⟩
    (empty.run [.register (elf "a"), .register (elf "b"), .register (elf "a"), .register (elf "c"),
      .unregister "a"]).list.map Loader.name = ["b", "c"] := by decide

end LoaderTable

end Keel
