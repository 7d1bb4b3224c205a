import FirstStage.Proofs.Relocation.Ranges

/-! # Where a shifted address falls

The plan of two bounds shifts addresses by words, which wrap, and is judged by numbers, which do
not. An address keeps its distance from the start, so it is found in the destination exactly when
that distance is less than the length and does not lead past the top of the address space.
-/

namespace FirstStage.Plan

structure ShiftExact (start stop addr : UInt32) : Prop where
  shifted_eq : (shifted addr).toNat =
    ((ofBounds start stop).dest.toNat + distance start addr) % 2 ^ 32
  covers_iff : (ofBounds start stop).Covers (shifted addr) ↔
    distance start addr < (ofBounds start stop).length.toNat ∧
      (ofBounds start stop).dest.toNat + distance start addr < 2 ^ 32
  covers_iff_of_unbroken : start.toNat ≤ stop.toNat →
    stop.toNat + 0x10000 ≤ 2 ^ 32 ∨ 2 ^ 32 - 0x10000 ≤ start.toNat →
      ((ofBounds start stop).Covers (shifted addr) ↔ start ≤ addr ∧ addr < stop)
  stub_eq : (Stub.mk addr).shiftedBy 0x10000 = shifted addr

theorem shift_exact (start stop addr : UInt32) : ShiftExact start stop addr where
  shifted_eq := toNat_shifted_eq_distance start stop addr
  covers_iff := covers_shifted_iff_distance start stop addr
  covers_iff_of_unbroken hOrder hUnbroken :=
    covers_shifted_iff_of_unbroken hOrder hUnbroken addr
  stub_eq := rfl

/-- In a destination that straddles the top, the upper part of the payload is not found. -/
example : (ofBounds 0xFFFEFFF0 0xFFFF0010).Covers (shifted 0xFFFEFFFF) ∧
    ¬ (ofBounds 0xFFFEFFF0 0xFFFF0010).Covers (shifted 0xFFFF0000) := by decide

/-- Bounds in the wrong order make addresses outside them members. -/
example : (ofBounds 500 0).Covers (shifted 600) ∧ ¬ (ofBounds 500 0).Covers (shifted 499) := by
  decide

end FirstStage.Plan
