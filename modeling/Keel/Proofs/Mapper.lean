import Keel.Mapper
import Keel.Proofs.Memory

/-!
# Frames as pages

A mapper shows frame `f` at `page f`. `Covers` says that it shows some frames as pages of their own: page by page, byte by
byte, and one-to-one, so pages of two frames do not meet (`Covers.disjoint`); a direct map with an offset of whole pages
covers all frames (`covers_direct`). `Circulates` is the part of it that a heap needs of the frames it makes slabs of.
-/

namespace Keel

open Keel.Memory (pageAt)

namespace Mapper

variable {mp : Mapper} {F : Set Nat} {f g : Nat}

/-- The address at which frame `f` is visible. -/
def page (mp : Mapper) (f : Nat) : Ptr := (mp.toVirt ⟨Align.frameStart f⟩).raw

/-- Whether frame `f` is visible as a page, not at the null address. -/
def Shows (mp : Mapper) (f : Nat) : Prop := (mp.page f).toNat % 4096 = 0 ∧ mp.page f ≠ 0

/-- Addresses that no slab is made at: those that are not of a page, and the null address. -/
theorem unusable_iff (va : VirtAddr) : (va.isNull || !Align.isMultiple va.raw Align.page) = true ↔
    ¬(va.raw.toNat % 4096 = 0 ∧ va.raw ≠ 0) := by
  rw [Bool.or_eq_true, Bool.not_eq_true', ← Bool.not_eq_true, Align.isMultiple_page, Address.isNull, beq_iff_eq,
    not_and_or, not_ne_iff, or_comm]

theorem refuses_iff (mp : Mapper) (f : Nat) : ((mp.toVirt ⟨Align.frameStart f⟩).isNull ||
    !Align.isMultiple (mp.toVirt ⟨Align.frameStart f⟩).raw Align.page) = true ↔ ¬mp.Shows f := unusable_iff _

/-- Two frames to which the mapper leads back are visible at two addresses. -/
theorem page_inj (hf : f < 2 ^ 52) (hg : g < 2 ^ 52)
    (hbf : mp.toPhys (mp.toVirt ⟨Align.frameStart f⟩) = ⟨Align.frameStart f⟩)
    (hbg : mp.toPhys (mp.toVirt ⟨Align.frameStart g⟩) = ⟨Align.frameStart g⟩) (he : mp.page f = mp.page g) : f = g := by
  have hv : mp.toVirt ⟨Align.frameStart f⟩ = mp.toVirt ⟨Align.frameStart g⟩ := congrArg Address.mk he
  have hs := hbf.symm.trans ((congrArg mp.toPhys hv).trans hbg)
  have := congrArg (fun a : PhysAddr => Align.frameOf a.raw) hs
  rwa [Align.frameOf_frameStart hf, Align.frameOf_frameStart hg] at this

/-! ## Frames that are covered -/

/-- The mapper shows the frames of `F` as pages, byte by byte, and leads back to each. -/
structure Covers (mp : Mapper) (F : Set Nat) : Prop where
  aligned : ∀ f ∈ F, (mp.page f).toNat % 4096 = 0
  bytes : ∀ f ∈ F, ∀ i < 4096, (mp.toVirt ⟨Align.frameStart f + UInt64.ofNat i⟩).raw = mp.page f + UInt64.ofNat i
  back : ∀ f ∈ F, mp.toPhys (mp.toVirt ⟨Align.frameStart f⟩) = ⟨Align.frameStart f⟩

namespace Covers

/-- The pages of two frames do not meet. -/
theorem disjoint (h : mp.Covers F) (hf : f ∈ F) (hg : g ∈ F) (hf' : f < 2 ^ 52) (hg' : g < 2 ^ 52) (hne : f ≠ g) :
    Disjoint (pageAt (mp.page f)) (pageAt (mp.page g)) := by
  refine Memory.disjoint_pageAt (h.aligned f hf) (h.aligned g hg) fun he => hne ?_
  exact page_inj hf' hg' (h.back f hf) (h.back g hg) he

/-- A byte is visible in the page of its frame. -/
theorem mem_pageAt {pa : PhysAddr} (h : mp.Covers F) (hf : pa.raw.toNat / 4096 ∈ F) :
    (mp.toVirt pa).raw ∈ pageAt (mp.page (pa.raw.toNat / 4096)) := by
  have hi : pa.raw.toNat % 4096 < 4096 := Nat.mod_lt _ (by decide)
  have hpa := h.bytes _ hf _ hi
  rw [Align.frameStart_add_mod] at hpa
  exact ⟨_, hi, hpa⟩

end Covers

theorem Covers.mono {G : Set Nat} (h : mp.Covers F) (hG : G ⊆ F) : mp.Covers G :=
  ⟨fun f hf => h.aligned f (hG hf), fun f hf => h.bytes f (hG hf), fun f hf => h.back f (hG hf)⟩

/-- A direct map whose offset is a number of pages covers all frames. -/
theorem covers_direct {offset : UInt64} (ho : offset.toNat % 4096 = 0) (F : Set Nat) : (direct offset).Covers F where
  aligned := fun f _ => by
    have hpage : (direct offset).page f = offset + UInt64.ofNat (f * 4096) := rfl
    rw [hpage, UInt64.toNat_add, UInt64.toNat_ofNat']
    omega
  bytes := fun f _ i _ => (UInt64.add_assoc offset (Align.frameStart f) (UInt64.ofNat i)).symm
  back := fun f _ => toPhys_direct offset _

/-- A direct map shows frames in their order. -/
theorem page_succ_direct (offset : UInt64) (f : Nat) : (direct offset).page (f + 1) = (direct offset).page f + 4096 := by
  show offset + UInt64.ofNat ((f + 1) * 4096) = offset + UInt64.ofNat (f * 4096) + 4096
  rw [Nat.succ_mul, UInt64.ofNat_add, ← UInt64.add_assoc]
  rfl

end Mapper

/-- The frames of `D` that are visible as pages can become slabs: the mapper leads back to each of them, and none of their
pages meets the addresses `B`. -/
structure Circulates (mp : Mapper) (D : Set Nat) (B : Set Ptr) : Prop where
  small : ∀ f ∈ D, f < 2 ^ 52
  back : ∀ f ∈ D, mp.Shows f → mp.toPhys (mp.toVirt ⟨Align.frameStart f⟩) = ⟨Align.frameStart f⟩
  apart : ∀ f ∈ D, mp.Shows f → Disjoint (pageAt (mp.page f)) B

theorem Circulates.page_inj {mp : Mapper} {D : Set Nat} {B : Set Ptr} (h : Circulates mp D B) {f g : Nat} (hf : f ∈ D)
    (hg : g ∈ D) (hshow : mp.Shows f) (he : mp.page f = mp.page g) : f = g := by
  have hshow' : mp.Shows g := by
    rw [Mapper.Shows, ← he]
    exact hshow
  exact Mapper.page_inj (h.small f hf) (h.small g hg) (h.back f hf hshow) (h.back g hg hshow') he

/-- The page at which a frame is visible is that of no other frame. -/
theorem Circulates.page_eq_iff {mp : Mapper} {D : Set Nat} {B : Set Ptr} (h : Circulates mp D B) {f g : Nat}
    (hf : f ∈ D) (hg : g ∈ D) (hshow : mp.Shows f) : mp.page f = mp.page g ↔ g = f := by
  constructor
  · intro he
    exact (h.page_inj hf hg hshow he).symm
  · rintro rfl
    rfl

end Keel
