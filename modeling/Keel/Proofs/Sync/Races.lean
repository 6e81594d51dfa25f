import Mathlib.Data.List.Basic
import Keel.Sync.WriteOnce

/-!
# Callers that race on a cell

Any number of callers come to an empty cell, each through one of its entry points, and take their steps in any order.
The history of such a race lists what the steps did: who claimed the cell, who wrote which value, who published it, who
was answered what.
- `Free`: a caller does not hold the claim; it stands at its entry point, goes for the claim, waits or has its answer;
- `Account`: what the callers and the history can be at each phase of the cell: nobody holds the claim while it is
  empty, exactly one caller does while it is claimed, and nobody does any more when it is ready;
- `Told`: each answer agrees with what the history shows when it is given.

A caller without the claim can only try for it, and gets it on an empty cell (`Free.step_empty`); on any other it leaves
the cell alone (`Free.step_settled`). So each step takes the account to the next (`Account.step`), and the value that is
written first is the only one. A race is **`race_once`**: one value at most is stored, callers see nothing before it is
published and nothing else afterwards, a caller of `init` that has moved has either won or its own value back, and
dropping the cell drops what was published.
-/

namespace Keel.Sync

variable {α : Type}

/-- The ways into a cell. -/
inductive Entry (α : Type)
  | get
  | isInitialized
  | init (a : α)
  | getOrInit (a : α)

namespace Entry

/-- A caller that has not taken a step. -/
def call : Entry α → Call α
  | get => .get
  | isInitialized => .isInitialized
  | init a => .init a
  | getOrInit a => .getOrInit a

/-- The caller comes through `init` when `direct`, else through `getOrInit`, and brings this value. -/
def Brings (e : Entry α) (a : α) (direct : Bool) : Prop := e = if direct then .init a else .getOrInit a

/-- The answer of a caller for which nothing is published; `getOrInit` gives none. -/
def Early : Entry α → Reply α → Prop
  | get, r => r = .found none
  | isInitialized, r => r = .initialized false
  | init a, r => r = .refused a
  | getOrInit _, _ => False

/-- The answer of a caller for which `v` is published, by itself if it has won. -/
def Late (v : α) (won : Prop) : Entry α → Reply α → Prop
  | get, r => r = .found (some v)
  | isInitialized, r => r = .initialized true
  | init a, r => won ∧ r = .stored (some v) ∨ ¬ won ∧ r = .refused a
  | getOrInit _, r => r = .value (some v)

end Entry

/-- What steps of callers do, by the caller's place. -/
inductive Event (α : Type)
  | claimed (i : Nat)
  | wrote (i : Nat) (a : α)
  | published (i : Nat)
  | answered (i : Nat) (r : Reply α)

/-! ## Histories -/

/-- Who claimed the cell. -/
def claims (h : List (Event α)) : List Nat :=
  h.filterMap fun | .claimed i => some i | _ => none

/-- Who wrote which value into the cell. -/
def writes (h : List (Event α)) : List (Nat × α) :=
  h.filterMap fun | .wrote i a => some (i, a) | _ => none

/-- Who published the cell. -/
def publications (h : List (Event α)) : List Nat :=
  h.filterMap fun | .published i => some i | _ => none

namespace Call

/-- What one step does to the cell. -/
def acts (i : Nat) : Call α → WriteOnce α → List (Event α)
  | init _, c | claiming _, c => if c.phase = .empty then [.claimed i] else []
  | writing a _, _ => [.wrote i a]
  | publishing _, _ => [.published i]
  | _, _ => []

/-- The answer that one step gives. -/
def answers (i : Nat) (k k' : Call α) : List (Event α) :=
  match k.reply?, k'.reply? with
  | none, some r => [.answered i r]
  | _, _ => []

/-- What one step does, in order. -/
def events (i : Nat) (k : Call α) (c : WriteOnce α) : List (Event α) := k.acts i c ++ answers i k (k.step c).1

/-- What the steps of a run do, in order. -/
def history : List Nat → List (Call α) → WriteOnce α → List (Event α)
  | [], _, _ => []
  | i :: is, ks, c =>
    match ks[i]? with
    | none => history is ks c
    | some k => k.events i c ++ history is (ks.set i (k.step c).1) (k.step c).2

theorem run_cons_some {i : Nat} {is : List Nat} {ks : List (Call α)} {c : WriteOnce α} {k : Call α}
    (hk : ks[i]? = some k) : run (i :: is) ks c = run is (ks.set i (k.step c).1) (k.step c).2 := by
  simp [run, hk]

theorem history_cons_some {i : Nat} {is : List Nat} {ks : List (Call α)} {c : WriteOnce α} {k : Call α}
    (hk : ks[i]? = some k) :
    history (i :: is) ks c = k.events i c ++ history is (ks.set i (k.step c).1) (k.step c).2 := by
  simp [history, hk]

theorem run_cons_none {i : Nat} {ks : List (Call α)} (hi : ks[i]? = none) (is : List Nat) (c : WriteOnce α) :
    run (i :: is) ks c = run is ks c ∧ history (i :: is) ks c = history is ks c := by
  simp [run, history, hi]

end Call

section Histories

variable {h h' : List (Event α)} {i : Nat} {k k' : Call α}

@[simp] theorem claims_append : claims (h ++ h') = claims h ++ claims h' := List.filterMap_append
@[simp] theorem writes_append : writes (h ++ h') = writes h ++ writes h' := List.filterMap_append
@[simp] theorem publications_append : publications (h ++ h') = publications h ++ publications h' :=
  List.filterMap_append

/-- An answer is no event of the cell. -/
theorem quiet_answers : claims (Call.answers i k k') = [] ∧ writes (Call.answers i k k') = [] ∧
    publications (Call.answers i k k') = [] := by
  unfold Call.answers
  split <;> exact ⟨rfl, rfl, rfl⟩

@[simp] theorem claims_answers : claims (Call.answers i k k') = [] := quiet_answers.1
@[simp] theorem writes_answers : writes (Call.answers i k k') = [] := quiet_answers.2.1
@[simp] theorem publications_answers : publications (Call.answers i k k') = [] := quiet_answers.2.2

end Histories

/-! ## Callers without the claim -/

/-- A caller that came in through `e` and does not hold the claim. -/
inductive Free : Entry α → Call α → Prop
  | fresh (e : Entry α) : Free e e.call
  | claiming (a : α) : Free (.getOrInit a) (.claiming a)
  | waiting (a : α) : Free (.getOrInit a) .waiting
  | finished (e : Entry α) (r : Reply α) : Free e (.finished r)

namespace Free

variable {e : Entry α} {k : Call α} {c : WriteOnce α}

/-- On an empty cell a caller stays without the claim and leaves the cell alone, or it wins the claim. -/
theorem step_empty (hf : Free e k) (i : Nat) (hc : c.phase = .empty) :
    (Free e (k.step c).1 ∧ (k.step c).2 = c ∧ k.acts i c = []) ∨
      ∃ a direct, e.Brings a direct ∧ k.step c = (.writing a direct, { c with phase := .claimed }) ∧
        k.acts i c = [.claimed i] := by
  cases hf with
  | fresh =>
    cases e with
    | get => exact .inl ⟨.finished _ _, rfl, rfl⟩
    | isInitialized => exact .inl ⟨.finished _ _, rfl, rfl⟩
    | init a => exact .inr ⟨a, true, rfl, by simp [Entry.call, Call.step, hc], by simp [Entry.call, Call.acts, hc]⟩
    | getOrInit a =>
      refine .inl ⟨?_, rfl, rfl⟩
      simpa [Entry.call, Call.step, hc] using Free.claiming a
  | claiming a => exact .inr ⟨a, false, rfl, by simp [Call.step, hc], by simp [Call.acts, hc]⟩
  | waiting a =>
    refine .inl ⟨?_, rfl, rfl⟩
    simpa [Call.step, hc] using Free.waiting a
  | finished => exact .inl ⟨.finished _ _, rfl, rfl⟩

/-- On a cell that is claimed or ready a caller stays without the claim and leaves the cell alone. -/
theorem step_settled (hf : Free e k) (i : Nat) (hc : c.phase ≠ .empty) :
    Free e (k.step c).1 ∧ (k.step c).2 = c ∧ k.acts i c = [] := by
  cases hf with
  | fresh =>
    cases e with
    | get => exact ⟨.finished _ _, rfl, rfl⟩
    | isInitialized => exact ⟨.finished _ _, rfl, rfl⟩
    | init a =>
      simp only [Entry.call, Call.step, Call.acts, if_neg hc]
      exact ⟨.finished _ _, trivial, trivial⟩
    | getOrInit a =>
      refine ⟨?_, rfl, rfl⟩
      by_cases hready : c.phase = .ready
      · simpa [Entry.call, Call.step, hready] using Free.finished (.getOrInit a) _
      · simpa [Entry.call, Call.step, hready] using Free.claiming a
  | claiming a =>
    simp only [Call.step, Call.acts, if_neg hc]
    exact ⟨.waiting a, trivial, trivial⟩
  | waiting a =>
    refine ⟨?_, rfl, rfl⟩
    by_cases hready : c.phase = .ready
    · simpa [Call.step, hready] using Free.finished (.getOrInit a) _
    · simpa [Call.step, hready] using Free.waiting a
  | finished => exact ⟨.finished _ _, rfl, rfl⟩

/-- A caller without the claim writes and publishes nothing. -/
theorem acts_quiet (hf : Free e k) (i : Nat) (c : WriteOnce α) :
    writes (k.acts i c) = [] ∧ publications (k.acts i c) = [] := by
  by_cases hc : c.phase = .empty
  · cases hf.step_empty i hc with
    | inl h => rw [h.2.2]; exact ⟨rfl, rfl⟩
    | inr h =>
      obtain ⟨a, direct, -, -, hacts⟩ := h
      rw [hacts]
      exact ⟨rfl, rfl⟩
  · rw [(hf.step_settled i hc).2.2]
    exact ⟨rfl, rfl⟩

/-- An answer that is given before the cell is ready shows no value. -/
theorem early (hf : Free e k) (hc : c.phase ≠ .ready) {r : Reply α} (hk : k.reply? = none)
    (hr : (k.step c).1.reply? = some r) : e.Early r := by
  cases hf with
  | fresh =>
    cases e with
    | get => simpa [Entry.Early, Entry.call, Call.step, Call.reply?, WriteOnce.published, hc, eq_comm] using hr
    | isInitialized => simpa [Entry.Early, Entry.call, Call.step, Call.reply?, hc, eq_comm] using hr
    | init a =>
      by_cases hempty : c.phase = .empty
      · simp [Entry.call, Call.step, Call.reply?, hempty] at hr
      · simpa [Entry.Early, Entry.call, Call.step, Call.reply?, hempty, eq_comm] using hr
    | getOrInit a => simp [Entry.call, Call.step, Call.reply?, hc] at hr
  | claiming a =>
    by_cases hempty : c.phase = .empty <;> simp [Call.step, Call.reply?, hempty] at hr
  | waiting a => simp [Call.step, Call.reply?, hc] at hr
  | finished => simp [Call.reply?] at hk

/-- An answer that is given when the cell is ready shows its value, and `init` gives its caller's own value back. -/
theorem late (hf : Free e k) (hc : c.phase = .ready) {v : α} (hv : c.slot = some v) {r : Reply α}
    (hk : k.reply? = none) (hr : (k.step c).1.reply? = some r) {won : Prop} (hwon : ¬ won) : e.Late v won r := by
  cases hf with
  | fresh =>
    cases e with
    | get => simpa [Entry.Late, Entry.call, Call.step, Call.reply?, WriteOnce.published, hc, hv, eq_comm] using hr
    | isInitialized => simpa [Entry.Late, Entry.call, Call.step, Call.reply?, hc, eq_comm] using hr
    | init a => exact .inr ⟨hwon, by simpa [Entry.call, Call.step, Call.reply?, hc, eq_comm] using hr⟩
    | getOrInit a => simpa [Entry.Late, Entry.call, Call.step, Call.reply?, hc, hv, eq_comm] using hr
  | claiming a => simp [Call.step, Call.reply?, hc] at hr
  | waiting a => simpa [Entry.Late, Call.step, Call.reply?, hc, hv, eq_comm] using hr
  | finished => simp [Call.reply?] at hk

end Free

/-! ## The account of a race -/

/-- All callers, or all but the one that is named, are without the claim. -/
def FreeBut (es : List (Entry α)) (ks : List (Call α)) (w : Option Nat) : Prop :=
  ∀ i k, ks[i]? = some k → some i ≠ w → ∃ e, es[i]? = some e ∧ Free e k

/-- What the winner is told. -/
def reward (a : α) (direct : Bool) : Reply α := if direct then .stored (some a) else .value (some a)

/-- Callers, a cell and a history that belong together, one case for each step of the winner. -/
inductive Account (es : List (Entry α)) (ks : List (Call α)) : WriteOnce α → List (Event α) → Prop
  | empty {h : List (Event α)} (hfree : FreeBut es ks none)
    (hclaims : claims h = []) (hwrites : writes h = []) (hpublic : publications h = []) :
    Account es ks ⟨.empty, none⟩ h
  | claimed {h : List (Event α)} {w : Nat} {e : Entry α} {a : α} {direct : Bool} (hfree : FreeBut es ks (some w))
    (he : es[w]? = some e) (hbrings : e.Brings a direct) (hk : ks[w]? = some (.writing a direct))
    (hclaims : claims h = [w]) (hwrites : writes h = []) (hpublic : publications h = []) :
    Account es ks ⟨.claimed, none⟩ h
  | written {h : List (Event α)} {w : Nat} {e : Entry α} {a : α} {direct : Bool} (hfree : FreeBut es ks (some w))
    (he : es[w]? = some e) (hbrings : e.Brings a direct) (hk : ks[w]? = some (.publishing direct))
    (hclaims : claims h = [w]) (hwrites : writes h = [(w, a)]) (hpublic : publications h = []) :
    Account es ks ⟨.claimed, some a⟩ h
  | ready {h : List (Event α)} {w : Nat} {e : Entry α} {a : α} {direct : Bool} (hfree : FreeBut es ks none)
    (he : es[w]? = some e) (hbrings : e.Brings a direct) (hk : ks[w]? = some (.finished (reward a direct)))
    (hclaims : claims h = [w]) (hwrites : writes h = [(w, a)]) (hpublic : publications h = [w]) :
    Account es ks ⟨.ready, some a⟩ h

section Steps

variable {es : List (Entry α)} {ks : List (Call α)} {c : WriteOnce α} {h : List (Event α)} {i : Nat} {k : Call α}

/-- After a caller has moved, the claim may have passed to it or from it. -/
theorem FreeBut.set {w w' : Option Nat} (hfree : FreeBut es ks w) {k' : Call α}
    (hmoved : some i ≠ w' → ∃ e, es[i]? = some e ∧ Free e k')
    (hrest : ∀ j, j ≠ i → some j = w → some j = w') : FreeBut es (ks.set i k') w' := by
  intro j l hj hne
  by_cases hij : i = j
  · subst hij
    obtain ⟨-, rfl⟩ : i < ks.length ∧ k' = l := by simpa [List.getElem?_set] using hj
    exact hmoved hne
  · rw [List.getElem?_set_ne hij] at hj
    exact hfree j l hj fun hw => hne (hrest j (Ne.symm hij) hw)

/-- A caller that has its answer keeps it, whoever moves. -/
theorem finished_stays {w : Nat} {r : Reply α} (hw : ks[w]? = some (.finished r)) (hk : ks[i]? = some k) :
    (ks.set i (k.step c).1)[w]? = some (.finished r) := by
  by_cases hiw : i = w
  · subst hiw
    obtain rfl : k = .finished r := by simpa [hk] using hw
    rw [Call.step_finished, List.getElem?_set_self (List.getElem?_eq_some_iff.1 hk).1]
  · rw [List.getElem?_set_ne hiw, hw]

/-- **Whatever caller moves, the account goes on: an empty cell may become claimed, and only the caller that has claimed
it writes and publishes.** -/
theorem Account.step (ha : Account es ks c h) (hk : ks[i]? = some k) :
    Account es (ks.set i (k.step c).1) (k.step c).2 (h ++ k.acts i c) := by
  have hi : i < ks.length := (List.getElem?_eq_some_iff.1 hk).1
  cases ha with
  | empty hfree hclaims hwrites hpublic =>
    obtain ⟨e, he, hf⟩ := hfree i k hk (by simp)
    cases hf.step_empty (c := ⟨.empty, none⟩) i rfl with
    | inl hstay =>
      obtain ⟨hf', hcell, hacts⟩ := hstay
      rw [hcell, hacts, List.append_nil]
      exact .empty (hfree.set (fun _ => ⟨e, he, hf'⟩) (by simp)) hclaims hwrites hpublic
    | inr hwin =>
      obtain ⟨a, direct, hbrings, hstep, hacts⟩ := hwin
      rw [hstep, hacts]
      refine .claimed (hfree.set (fun hne => absurd rfl hne) (by simp)) he hbrings (List.getElem?_set_self hi) ?_ ?_ ?_
      · rw [claims_append, hclaims]; rfl
      · rw [writes_append, hwrites]; rfl
      · rw [publications_append, hpublic]; rfl
  | @claimed h w e a direct hfree he hbrings hkw hclaims hwrites hpublic =>
    by_cases hiw : i = w
    · subst hiw
      obtain rfl : k = .writing a direct := by simpa [hk] using hkw
      refine .written (hfree.set (fun hne => absurd rfl hne) (by simp)) he hbrings (List.getElem?_set_self hi) ?_ ?_ ?_
      · rw [claims_append, hclaims]; rfl
      · rw [writes_append, hwrites]; rfl
      · rw [publications_append, hpublic]; rfl
    · obtain ⟨e', he', hf⟩ := hfree i k hk (by simpa using hiw)
      obtain ⟨hf', hcell, hacts⟩ := hf.step_settled (c := ⟨.claimed, none⟩) i (by simp)
      rw [hcell, hacts, List.append_nil]
      exact .claimed (hfree.set (fun _ => ⟨e', he', hf'⟩) (by simp)) he hbrings
        (by rw [List.getElem?_set_ne hiw, hkw]) hclaims hwrites hpublic
  | @written h w e a direct hfree he hbrings hkw hclaims hwrites hpublic =>
    by_cases hiw : i = w
    · subst hiw
      obtain rfl : k = .publishing direct := by simpa [hk] using hkw
      refine .ready (hfree.set (fun _ => ⟨e, he, .finished _ _⟩) (by simp)) he hbrings
        (List.getElem?_set_self hi) ?_ ?_ ?_
      · rw [claims_append, hclaims]; rfl
      · rw [writes_append, hwrites]; rfl
      · rw [publications_append, hpublic]; rfl
    · obtain ⟨e', he', hf⟩ := hfree i k hk (by simpa using hiw)
      obtain ⟨hf', hcell, hacts⟩ := hf.step_settled (c := ⟨.claimed, some a⟩) i (by simp)
      rw [hcell, hacts, List.append_nil]
      exact .written (hfree.set (fun _ => ⟨e', he', hf'⟩) (by simp)) he hbrings
        (by rw [List.getElem?_set_ne hiw, hkw]) hclaims hwrites hpublic
  | @ready h w e a direct hfree he hbrings hkw hclaims hwrites hpublic =>
    obtain ⟨e', he', hf⟩ := hfree i k hk (by simp)
    obtain ⟨hf', hcell, hacts⟩ := hf.step_settled (c := ⟨.ready, some a⟩) i (by simp)
    rw [hcell, hacts, List.append_nil]
    exact .ready (hfree.set (fun _ => ⟨e', he', hf'⟩) (by simp)) he hbrings (finished_stays hkw hk)
      hclaims hwrites hpublic

/-- The account depends on the history only by who claimed, wrote and published. -/
theorem Account.congr (ha : Account es ks c h) {h' : List (Event α)} (hclaims : claims h' = claims h)
    (hwrites : writes h' = writes h) (hpublic : publications h' = publications h) : Account es ks c h' := by
  cases ha with
  | empty hfree hc hw hp => exact .empty hfree (hclaims.trans hc) (hwrites.trans hw) (hpublic.trans hp)
  | claimed hfree he hbrings hk hc hw hp =>
    exact .claimed hfree he hbrings hk (hclaims.trans hc) (hwrites.trans hw) (hpublic.trans hp)
  | written hfree he hbrings hk hc hw hp =>
    exact .written hfree he hbrings hk (hclaims.trans hc) (hwrites.trans hw) (hpublic.trans hp)
  | ready hfree he hbrings hk hc hw hp =>
    exact .ready hfree he hbrings hk (hclaims.trans hc) (hwrites.trans hw) (hpublic.trans hp)

/-! ## Answers -/

/-- The answer `r` of the caller in place `i` agrees with what has happened before it. -/
def TellsAt (es : List (Entry α)) (h : List (Event α)) (i : Nat) (r : Reply α) : Prop :=
  ∃ e, es[i]? = some e ∧
    (publications h = [] ∧ e.Early r ∨
      ∃ w v, writes h = [(w, v)] ∧ publications h = [w] ∧ e.Late v (i = w) r)

/-- Each answer of the history agrees with what stands before it. -/
def Told (es : List (Entry α)) (h : List (Event α)) : Prop :=
  ∀ pre i r, pre ++ [.answered i r] <+: h → TellsAt es pre i r

theorem Told.push (ht : Told es h) {e : Event α} (he : ∀ i r, e = .answered i r → TellsAt es h i r) :
    Told es (h ++ [e]) := by
  intro pre j r hpre
  cases List.prefix_concat_iff.1 hpre with
  | inl heq =>
    obtain ⟨rfl, he'⟩ := List.append_inj' heq rfl
    exact he j r (by simpa using he'.symm)
  | inr hpre => exact ht pre j r hpre

/-- What a step does to the cell is no answer. -/
theorem Told.acts (ht : Told es h) (i : Nat) (k : Call α) (c : WriteOnce α) : Told es (h ++ k.acts i c) := by
  unfold Call.acts
  split
  · split
    · exact ht.push (by simp)
    · simpa using ht
  · split
    · exact ht.push (by simp)
    · simpa using ht
  · exact ht.push (by simp)
  · exact ht.push (by simp)
  · simpa using ht

/-- A step that gives an answer gives one that agrees with the history up to it. -/
theorem Account.tells (ha : Account es ks c h) (hk : ks[i]? = some k) {r : Reply α} (hnone : k.reply? = none)
    (hr : (k.step c).1.reply? = some r) : TellsAt es (h ++ k.acts i c) i r := by
  have hearly : ∀ {e : Entry α}, es[i]? = some e → Free e k → c.phase ≠ .ready → publications h = [] →
      TellsAt es (h ++ k.acts i c) i r := by
    intro e he hf hc hpublic
    exact ⟨e, he, .inl ⟨by simp [hpublic, (hf.acts_quiet i c).2], hf.early hc hnone hr⟩⟩
  cases ha with
  | empty hfree _ _ hpublic =>
    obtain ⟨e, he, hf⟩ := hfree i k hk (by simp)
    exact hearly he hf (by simp) hpublic
  | @claimed h w e a direct hfree _ _ hkw _ _ hpublic =>
    by_cases hiw : i = w
    · subst hiw
      obtain rfl : k = .writing a direct := by simpa [hk] using hkw
      simp [Call.step, Call.reply?] at hr
    · obtain ⟨e', he', hf⟩ := hfree i k hk (by simpa using hiw)
      exact hearly he' hf (by simp) hpublic
  | @written h w e a direct hfree he hbrings hkw _ hwrites hpublic =>
    by_cases hiw : i = w
    · subst hiw
      obtain rfl : k = .publishing direct := by simpa [hk] using hkw
      have hreward : r = reward a direct := by simpa [Call.step, Call.reply?, reward, eq_comm] using hr
      refine ⟨e, he, .inr ⟨i, a, ?_, ?_, ?_⟩⟩
      · rw [writes_append, hwrites]; rfl
      · rw [publications_append, hpublic]; rfl
      · cases direct with
        | true => obtain rfl : e = .init a := hbrings; exact .inl ⟨rfl, hreward⟩
        | false => obtain rfl : e = .getOrInit a := hbrings; exact hreward
    · obtain ⟨e', he', hf⟩ := hfree i k hk (by simpa using hiw)
      exact hearly he' hf (by simp) hpublic
  | @ready h w e a direct hfree _ _ hkw _ hwrites hpublic =>
    have hiw : i ≠ w := by
      rintro rfl
      obtain rfl : k = .finished (reward a direct) := by simpa [hk] using hkw
      simp [Call.reply?] at hnone
    obtain ⟨e', he', hf⟩ := hfree i k hk (by simp)
    obtain ⟨hwrites', hpublic'⟩ := hf.acts_quiet i ⟨.ready, some a⟩
    exact ⟨e', he', .inr ⟨w, a, by simp [hwrites, hwrites'], by simp [hpublic, hpublic'],
      hf.late rfl rfl hnone hr hiw⟩⟩

/-- A caller's answer is in the history as soon as the caller is finished. -/
def Ended (ks : List (Call α)) (h : List (Event α)) : Prop :=
  ∀ i r, .answered i r ∈ h ↔ ks[i]? = some (.finished r)

theorem not_answered_acts (j : Nat) (r : Reply α) : .answered j r ∉ k.acts i c := by
  unfold Call.acts
  split
  · split <;> simp
  · split <;> simp
  · simp
  · simp
  · simp

theorem answered_answers {k' : Call α} {j : Nat} {r : Reply α} :
    .answered j r ∈ Call.answers i k k' ↔ j = i ∧ k.reply? = none ∧ k'.reply? = some r := by
  unfold Call.answers
  cases k.reply? <;> cases k'.reply? <;> simp [eq_comm]

theorem reply?_eq_some {r : Reply α} : k.reply? = some r ↔ k = .finished r := by
  cases k <;> simp [Call.reply?]

/-- Histories and callers stay in step: who moves is answered when it is finished by that, and the others stay. -/
theorem Ended.step (hd : Ended ks h) (hk : ks[i]? = some k) :
    Ended (ks.set i (k.step c).1) (h ++ k.events i c) := by
  intro j r
  have hi : i < ks.length := (List.getElem?_eq_some_iff.1 hk).1
  have hevents : .answered j r ∈ h ++ k.events i c ↔
      ks[j]? = some (.finished r) ∨ j = i ∧ k.reply? = none ∧ (k.step c).1 = .finished r := by
    simp [Call.events, not_answered_acts, answered_answers, hd j r, reply?_eq_some]
  rw [hevents]
  by_cases hji : j = i
  · subst hji
    rw [hk, List.getElem?_set_self hi]
    cases hreply : k.reply? with
    | none =>
      have hopen : k ≠ .finished r := fun h => by simp [h, Call.reply?] at hreply
      simp [hopen]
    | some r' =>
      obtain rfl := reply?_eq_some.1 hreply
      simp [Call.step_finished]
  · simp [List.getElem?_set_ne (Ne.symm hji), hji]

end Steps

/-! ## Runs -/

/-- Callers, a cell and a history at one point of a race. -/
structure Race (es : List (Entry α)) (ks : List (Call α)) (c : WriteOnce α) (h : List (Event α)) : Prop where
  account : Account es ks c h
  told : Told es h
  ended : Ended ks h
  callers : ks.length = es.length

namespace Race

variable {es : List (Entry α)} {ks : List (Call α)} {c : WriteOnce α} {h : List (Event α)}

theorem start (es : List (Entry α)) : Race es (es.map Entry.call) .empty [] where
  account := by
    refine .empty ?_ rfl rfl rfl
    intro i k hk _
    obtain ⟨e, he, rfl⟩ : ∃ e, es[i]? = some e ∧ e.call = k := by simpa [List.getElem?_map] using hk
    exact ⟨e, he, .fresh e⟩
  told := by
    intro pre i r hpre
    simp at hpre
  ended := by
    intro i r
    have hfresh : ∀ e : Entry α, e.call ≠ .finished r := by
      intro e
      cases e <;> simp [Entry.call]
    simp [List.getElem?_map, hfresh]
  callers := by simp

theorem step (hr : Race es ks c h) {i : Nat} {k : Call α} (hk : ks[i]? = some k) :
    Race es (ks.set i (k.step c).1) (k.step c).2 (h ++ k.events i c) where
  account := by
    rw [Call.events, ← List.append_assoc]
    exact (hr.account.step hk).congr (by simp) (by simp) (by simp)
  told := by
    rw [Call.events, ← List.append_assoc, Call.answers]
    have hacts := hr.told.acts i k c
    split
    · rename_i r hnone hsome
      refine hacts.push ?_
      intro j r' heq
      obtain ⟨rfl, rfl⟩ : i = j ∧ r = r' := by simpa using heq
      exact hr.account.tells hk hnone hsome
    · simpa using hacts
  ended := hr.ended.step hk
  callers := by rw [List.length_set, hr.callers]

/-- From any point on, a race goes on as a race, whatever order the callers move in. -/
theorem run (hr : Race es ks c h) (is : List Nat) :
    Race es (Call.run is ks c).1 (Call.run is ks c).2 (h ++ Call.history is ks c) := by
  induction is generalizing ks c h with
  | nil => simpa [Call.run, Call.history] using hr
  | cons i is ih =>
    cases hk : ks[i]? with
    | none =>
      obtain ⟨hrun, hhistory⟩ := Call.run_cons_none hk is c
      rw [hrun, hhistory]
      exact ih hr
    | some k =>
      rw [Call.run_cons_some hk, Call.history_cons_some hk, ← List.append_assoc]
      exact ih (hr.step hk)

end Race

section Ends

variable {es : List (Entry α)} {ks : List (Call α)} {c : WriteOnce α} {h : List (Event α)} {i : Nat}

/-- Only the caller that has won the claim publishes. -/
theorem Account.claims_of_publishes (ha : Account es ks c h) (hi : i ∈ publications h) : i ∈ claims h := by
  cases ha with
  | empty _ _ _ hpublic | claimed _ _ _ _ _ _ hpublic | written _ _ _ _ _ _ hpublic => simp [hpublic] at hi
  | ready _ _ _ _ hclaims _ hpublic => rwa [hclaims, ← hpublic]

/-- A caller that has not won the claim is without it. -/
theorem Account.free (ha : Account es ks c h) (hi : i ∉ claims h) {k : Call α} (hk : ks[i]? = some k) :
    ∃ e, es[i]? = some e ∧ Free e k := by
  cases ha with
  | empty hfree | ready hfree => exact hfree i k hk (by simp)
  | claimed hfree _ _ _ hclaims | written hfree _ _ _ hclaims =>
    refine hfree i k hk ?_
    rintro ⟨⟩
    simp [hclaims] at hi

/-- An `init` caller that has won the claim is told that its value is stored. -/
theorem Account.rewards (ha : Account es ks c h) (hi : i ∈ claims h) {a : α} (he : es[i]? = some (.init a))
    {r : Reply α} (hk : ks[i]? = some (.finished r)) : r = .stored (some a) := by
  cases ha with
  | empty _ hclaims => simp [hclaims] at hi
  | claimed _ _ _ hkw hclaims | written _ _ _ hkw hclaims =>
    obtain rfl : i = _ := by simpa [hclaims] using hi
    simp [hk] at hkw
  | @ready h w e v direct _ hew hbrings hkw hclaims =>
    obtain rfl : i = w := by simpa [hclaims] using hi
    obtain rfl : r = reward v direct := by simpa [hk] using hkw
    obtain rfl : e = .init a := by simpa [he, eq_comm] using hew
    cases direct with
    | true =>
      obtain rfl : a = v := by simpa [Entry.Brings] using hbrings
      rfl
    | false => simp [Entry.Brings] at hbrings

namespace Race

/-- What stands before an answer in the history agrees with it. -/
theorem tellsAt (hr : Race es ks c h) {r : Reply α} (hi : .answered i r ∈ h) :
    ∃ pre, pre <+: h ∧ TellsAt es pre i r := by
  obtain ⟨pre, post, rfl⟩ := List.append_of_mem hi
  exact ⟨pre, List.prefix_append _ _, hr.told pre i r ⟨post, by simp⟩⟩

/-- An answered `init` caller has its value stored if it has won the claim, else it has it back. -/
theorem init_answer (hr : Race es ks c h) {a : α} (he : es[i]? = some (.init a)) {r : Reply α}
    (hi : .answered i r ∈ h) : r = .stored (some a) ∧ i ∈ claims h ∨ r = .refused a ∧ i ∉ claims h := by
  by_cases hclaims : i ∈ claims h
  · exact .inl ⟨hr.account.rewards hclaims he ((hr.ended i r).1 hi), hclaims⟩
  · obtain ⟨pre, hpre, e, he', htold⟩ := hr.tellsAt hi
    obtain rfl : e = .init a := by simpa [he, eq_comm] using he'
    cases htold with
    | inl hearly => exact .inr ⟨hearly.2, hclaims⟩
    | inr hlate =>
      obtain ⟨w, v, -, hpublic, hv⟩ := hlate
      have hw : w ∈ claims h := by
        obtain ⟨post, rfl⟩ := hpre
        exact hr.account.claims_of_publishes (by simp [hpublic])
      have hiw : i ≠ w := fun heq => hclaims (heq ▸ hw)
      cases hv with
      | inl hwon => exact absurd hwon.1 hiw
      | inr hlost => exact .inr ⟨hlost.2, hclaims⟩

/-- An `init` caller that has moved and has not won the claim has its own value back already. -/
theorem init_prompt (hr : Race es ks c h) {a : α} (he : es[i]? = some (.init a)) :
    ks[i]? = some (.init a) ∨ i ∈ claims h ∨ .answered i (.refused a) ∈ h := by
  by_cases hclaims : i ∈ claims h
  · exact .inr (.inl hclaims)
  · have hi : i < ks.length := hr.callers ▸ (List.getElem?_eq_some_iff.1 he).1
    obtain ⟨k, hk⟩ : ∃ k, ks[i]? = some k := ⟨ks[i], List.getElem?_eq_getElem hi⟩
    obtain ⟨e, he', hf⟩ := hr.account.free hclaims hk
    obtain rfl : e = .init a := by simpa [he, eq_comm] using he'
    cases hf with
    | fresh => exact .inl hk
    | finished _ r =>
      have hanswered := (hr.ended i r).2 hk
      cases hr.init_answer he hanswered with
      | inl hwon => exact absurd hwon.2 hclaims
      | inr hlost => exact .inr (.inr (hlost.1 ▸ hanswered))

end Race

end Ends

/-! ## Races -/

/-- What callers and cell have come to at one point of a race. -/
structure Once (es : List (Entry α)) (ks : List (Call α)) (c : WriteOnce α) (h : List (Event α)) : Prop where
  /-- One value at most has been written: the value of the only caller that has won the claim. -/
  stored : writes h = [] ∨
    ∃ w e v direct, claims h = [w] ∧ writes h = [(w, v)] ∧ es[w]? = some e ∧ e.Brings v direct
  /-- Whoever was answered before the publication saw nothing, and whoever was answered after it saw that value. -/
  told : Told es h
  /-- An `init` caller is told that its value is stored if it has won, and has its own value back if it has not. -/
  inits : ∀ i a r, es[i]? = some (.init a) → .answered i r ∈ h →
    r = .stored (some a) ∧ i ∈ claims h ∨ r = .refused a ∧ i ∉ claims h
  /-- An `init` caller that has moved has won or has its own value back, at every phase of the cell. -/
  prompt : ∀ i a, es[i]? = some (.init a) →
    ks[i]? = some (.init a) ∨ i ∈ claims h ∨ .answered i (.refused a) ∈ h
  /-- The cell holds what was written last. -/
  slot : c.slot = (writes h).getLast?.map Prod.snd
  /-- Dropping the cell drops the value that was written if it is published, and nothing if it is not. -/
  dropped : publications h = [] ∧ c.dropped = [] ∨
    ∃ w v, writes h = [(w, v)] ∧ publications h = [w] ∧ c.dropped = [v]

theorem Race.once {es : List (Entry α)} {ks : List (Call α)} {c : WriteOnce α} {h : List (Event α)}
    (hr : Race es ks c h) : Once es ks c h where
  stored := by
    cases hr.account with
    | empty _ _ hwrites | claimed _ _ _ _ _ hwrites => exact .inl hwrites
    | written _ he hbrings _ hclaims hwrites | ready _ he hbrings _ hclaims hwrites =>
      exact .inr ⟨_, _, _, _, hclaims, hwrites, he, hbrings⟩
  told := hr.told
  inits := fun _ _ _ he hi => hr.init_answer he hi
  prompt := fun _ _ he => hr.init_prompt he
  slot := by
    cases hr.account with
    | empty _ _ hwrites | claimed _ _ _ _ _ hwrites => rw [hwrites]; rfl
    | written _ _ _ _ _ hwrites | ready _ _ _ _ _ hwrites => rw [hwrites]; rfl
  dropped := by
    cases hr.account with
    | empty _ _ _ hpublic | claimed _ _ _ _ _ _ hpublic | written _ _ _ _ _ _ hpublic =>
      exact .inl ⟨hpublic, rfl⟩
    | ready _ _ _ _ _ hwrites hpublic => exact .inr ⟨_, _, hwrites, hpublic, rfl⟩

/-- The second of two callers of `getOrInit` that meet waits for the first one's value; one of `init` is refused. -/
example : (Call.run Call.meeting [.getOrInit 1, .getOrInit 2] .empty).1 =
    [.finished (.value (some 1)), .finished (.value (some 1))] ∧
    (Call.run [0, 1, 0, 0] [.init 1, .init 2] .empty).1 = [.finished (.stored (some 1)), .finished (.refused 2)] := by
  decide

end Keel.Sync
