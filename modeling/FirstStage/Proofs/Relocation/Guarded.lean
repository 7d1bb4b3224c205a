import FirstStage.Proofs.Image.Copy
import FirstStage.Proofs.Relocation.Payload

/-! # Guarded plans

The guard accepts bounds in order that are at most one shift apart, whether or not their destination
wraps. What it accepts is the plan of the bounds, and the copy of that plan reads no byte that it
has written: the payload moves whole and stays where it was.
-/

namespace FirstStage.Plan

/-- An image after a copy that kept to its destination and left the payload whole at both places. -/
structure MovedWhole (plan : Plan) (start stop : UInt32) (before after : Ram) : Prop where
  length_eq : plan.length.toNat = stop.toNat - start.toNat
  size_eq : after.bytes.size = before.bytes.size
  extent_eq : after.extent = before.extent
  outside : ∀ index,
    index < plan.dest.toNat ∨ plan.dest.toNat + plan.length.toNat ≤ index →
      after.bytes.byteAt index = before.bytes.byteAt index
  payload : ∀ index, start.toNat ≤ index → index < stop.toNat →
    after.bytes.byteAt index = before.bytes.byteAt index
  copied : ∀ i < stop.toNat - start.toNat,
    after.bytes.byteAt (plan.dest.toNat + i) = before.bytes.byteAt (start.toNat + i)

/-- What the guard makes of bounds, in numbers, and what comes of the plan that it lets through. -/
structure GuardExact (start stop : UInt32) (outcome : Except PlanError Plan) : Prop where
  accepted_iff : (∃ plan, outcome = .ok plan) ↔
    start.toNat ≤ stop.toNat ∧ stop.toNat ≤ start.toNat + 0x10000
  inverted_iff : outcome = .error (.inverted start stop) ↔ stop.toNat < start.toNat
  overlap_iff : outcome = .error (.overlap (stop - start)) ↔ start.toNat + 0x10000 < stop.toNat
  overlap_length : start.toNat + 0x10000 < stop.toNat →
    (stop - start).toNat = stop.toNat - start.toNat
  plan_eq : ∀ plan, outcome = .ok plan → plan = ofBounds start stop
  moved : ∀ plan, outcome = .ok plan → ∀ ram : Ram,
    plan.src.toNat + plan.length.toNat ≤ ram.bytes.size →
    plan.dest.toNat + plan.length.toNat ≤ ram.bytes.size →
      ∃ after, plan.perform.run ram = .ok () after ∧ plan.MovedWhole start stop ram after

theorem exists_movedWhole {start stop : UInt32} {ram : Ram}
    (hOrder : start.toNat ≤ stop.toNat) (hApart : ¬ (ofBounds start stop).Overlaps)
    (hSrc : start.toNat + (ofBounds start stop).length.toNat ≤ ram.bytes.size)
    (hDest : (ofBounds start stop).dest.toNat + (ofBounds start stop).length.toNat ≤
      ram.bytes.size) :
    ∃ after, (ofBounds start stop).perform.run ram = .ok () after ∧
      (ofBounds start stop).MovedWhole start stop ram after := by
  have hStart : (ofBounds start stop).src.toNat = start.toNat := rfl
  have hLength := toNat_length_ofBounds hOrder
  rw [overlaps_iff_exists, hStart] at hApart
  obtain ⟨after, hMove, hExtent, hCopied⟩ :=
    (Ram.copyExact_perform ram (ofBounds start stop)).of_inside hSrc hDest
  refine ⟨after, hMove, {
    length_eq := hLength
    size_eq := hCopied.size_eq
    extent_eq := hExtent
    outside := hCopied.outside
    payload := fun index hLower hUpper => ?_
    copied := fun i hi => ?_ }⟩
  · apply hCopied.outside
    by_contra hInside
    exact hApart ⟨index, by omega, by omega⟩
  · refine hCopied.moved ?_ i (by omega)
    -- Otherwise the first address of the destination lies in the source.
    by_contra hAbove
    exact hApart ⟨(ofBounds start stop).dest.toNat, by omega, by omega⟩

theorem guardExact_guarded (start stop : UInt32) :
    GuardExact start stop (guarded start stop) := by
  rw [guarded_eq_ite]
  split
  · rename_i hInverted
    exact {
      accepted_iff := iff_of_false nofun (by omega)
      inverted_iff := iff_of_true rfl hInverted
      overlap_iff := iff_of_false nofun (by omega)
      overlap_length := by omega
      plan_eq := nofun
      moved := nofun }
  · rename_i hInverted
    have hOrder : start.toNat ≤ stop.toNat := Nat.le_of_not_lt hInverted
    split
    · rename_i hFar
      exact {
        accepted_iff := iff_of_false nofun (by omega)
        inverted_iff := iff_of_false nofun hInverted
        overlap_iff := iff_of_true rfl hFar
        overlap_length := fun _ => toNat_length_ofBounds hOrder
        plan_eq := nofun
        moved := nofun }
    · rename_i hNear
      have hApart := mt (overlaps_ofBounds_iff hOrder).mp hNear
      exact {
        accepted_iff := iff_of_true ⟨_, rfl⟩ ⟨hOrder, Nat.le_of_not_lt hNear⟩
        inverted_iff := iff_of_false nofun hInverted
        overlap_iff := iff_of_false nofun hNear
        overlap_length := fun hFar => absurd hFar hNear
        plan_eq := fun plan hPlan => (Except.ok.inj hPlan).symm
        moved := by
          rintro _ ⟨⟩ ram hSrc hDest
          exact exists_movedWhole hOrder hApart hSrc hDest }

/-- The guard for all bounds, and the test that it rests on for all plans, also such as no bounds
give. -/
theorem guard_exact (start stop : UInt32) (plan : Plan) :
    GuardExact start stop (guarded start stop) ∧
      (plan.Overlaps ↔ ∃ addr : Nat,
        (plan.src.toNat ≤ addr ∧ addr < plan.src.toNat + plan.length.toNat) ∧
          plan.dest.toNat ≤ addr ∧ addr < plan.dest.toNat + plan.length.toNat) :=
  ⟨guardExact_guarded start stop, overlaps_iff_exists⟩

/-- A destination that wraps is accepted. -/
example : guarded 0xFFFF8000 0xFFFFFFFF = .ok ⟨0xFFFF8000, 0x8000, 0x7FFF⟩ := by decide

end FirstStage.Plan
