import Keel.Proofs.Kernel.Services
import Keel.Proofs.Recoverable

/-!
# What loading and unloading can fail with

The registry has ordinary faults only (`ordinary_add`, `ordinary_removeByName`). So what loading and unloading can fail with
on top of that is what the stage and the memory services fail with: where these stay within `I` and `F` (`Grants`), so do
offering an image, storing a record, and unloading (`within_offerBootModule`, `within_storeRecord`, `within_unloadModule`).
-/

namespace Keel

open Keel.Action (Faults Ordinary Within within_pure within_lift within_fail within_note within_get within_ofOption
  within_refuse faults_modify)
open Keel.Checked (faults_ok faults_orFault faults_demand faults_add faults_sub)

/-! ## The registry -/

namespace Registry

theorem ordinary_add (id : RecordId) : Ordinary (add id) := by
  refine within_get.bind fun s => (within_ofOption (by decide) _).bind fun r => ?_
  refine Within.ite (within_refuse (by decide) _ _) (Within.ite (within_refuse (by decide) _ _) ?_)
  refine (faults_modify _).bind fun _ => (faults_modify _).bind fun _ => ?_
  exact (within_lift (faults_add _ _)).bind fun count => (faults_modify _).bind fun _ => within_note _

theorem ordinary_unlinkFrom (target : RecordId) (n : Nat) (before cursor : Option RecordId) :
    Ordinary (unlinkFrom target n before cursor) := by
  have hfreed : ∀ (id : RecordId) (name : String), Ordinary (do
      updateRecord id fun r => { r with linked := false }
      let count ← Action.lift (Count.sub (← get).registry.count 1)
      update fun g => { g with count }
      Action.note (unlinkedLine name count)) := by
    intro id name
    refine (faults_modify _).bind fun _ => within_get.bind fun s => ?_
    exact (within_lift (faults_sub _ _)).bind fun count => (faults_modify _).bind fun _ => within_note _
  induction n generalizing before cursor with
  | zero => exact within_fail (by decide)
  | succ n ih =>
    cases cursor with
    | none => exact within_fail (by decide)
    | some id =>
      refine within_get.bind fun s => (within_ofOption (by decide) _).bind fun r => Within.ite ?_ (ih _ _)
      refine (faults_modify _).bind fun _ => ?_
      cases before with
      | none => exact (faults_modify _).bind fun _ => hfreed id r.name
      | some b => exact (faults_modify _).bind fun _ => hfreed id r.name

theorem ordinary_removeByName (name : String) : Ordinary (removeByName name) := by
  have hfind : Ordinary (find name) := within_get.bind fun s => within_ofOption (by decide) _
  exact hfind.bind fun e => (within_get.bind fun s => ordinary_unlinkFrom _ _ _ _).bind fun _ => within_pure _

end Registry

namespace Kernel

open Keel.Frame (Pool)

variable {I : Kernel → Prop} {F : Fault → Prop}

/-- What loading and unloading are made of stays within `I` and `F`. -/
structure Grants (I : Kernel → Prop) (F : Fault → Prop) : Prop where
  ordinary : ∀ f : Fault, f.Ordinary → F f
  require : Within I F (require .modules)
  allocate : ∀ size, Within I F (escalate (onGround (Ground.allocate size)))
  free : ∀ p, Within I F (escalate (onGround (Ground.free p)))
  reserve : ∀ base length, Within I F (onPool (Pool.reserve base length))
  keep : ∀ id i, Within I F (keepRecord id i)
  shelf : ∀ {α : Type} (ids : List RecordId) {x : Action Shelf α}, Faults F x → Within I F (onShelfWith ids x)

/-! ## Records -/

theorem within_record (hG : Grants I F) (id : RecordId) : Within I F (record id) :=
  within_get.bind fun _ => within_ofOption (hG.ordinary _ (by decide)) _

theorem within_addModule (hG : Grants I F) (id : RecordId) : Within I F (addModule id) :=
  (hG.shelf _ ((Registry.ordinary_add id).mono hG.ordinary)).bind fun _ => (within_record hG id).bind fun _ =>
    within_note _

theorem within_removeModule (hG : Grants I F) (name : String) : Within I F (removeModule name) :=
  (hG.shelf _ ((Registry.ordinary_removeByName name).mono hG.ordinary)).bind fun id => (within_note _).bind fun _ =>
    within_pure id

theorem within_releaseRecord (hG : Grants I F) (id : RecordId) : Within I F (releaseRecord id) := by
  cases id with
  | owned i => exact within_fail (hG.ordinary _ (by decide))
  | stored p => exact hG.free p

/-- Storing a record. -/
theorem within_storeRecord (hG : Grants I F) (i : ModuleInfo) : Within I F (storeRecord i) := by
  refine (hG.allocate recordSize).bind fun p => (hG.keep _ i).bind fun _ => ?_
  refine (within_addModule hG _).attempt_bind (fun _ => within_pure _) fun f hf => ?_
  exact (within_releaseRecord hG _).bind fun _ => within_fail hf

/-! ## Loading and unloading -/

theorem ordinary_ofBootModule (m : BootModule) (mapper : Mapper) :
    Checked.Faults Fault.Ordinary (Blob.ofBootModule m mapper) :=
  (faults_demand (by decide) _).bind fun _ => (faults_orFault (by decide) _).bind fun _ => faults_ok _

/-- Offering an image. -/
theorem within_offerBootModule (hG : Grants I F) (m : BootModule) (mapper : Mapper) :
    Within I F (offerBootModule m mapper) := by
  refine hG.require.bind fun _ => (within_lift ((ordinary_ofBootModule m mapper).mono hG.ordinary)).bind fun blob => ?_
  refine within_get.bind fun k => Within.ite (within_refuse (hG.ordinary _ (by decide)) _ _) ?_
  exact (hG.reserve m.addr m.size).bind fun _ => within_get.bind fun _ => within_pure _

/-- Unloading a module. -/
theorem within_unloadModule (hG : Grants I F) (name : String) : Within I F (unloadModule name) := by
  refine hG.require.bind fun _ => (within_removeModule hG name).bind fun id => (within_record hG id).bind fun r => ?_
  exact (within_releaseRecord hG id).bind fun _ => (within_note _).bind fun _ => within_pure _

end Kernel

end Keel
