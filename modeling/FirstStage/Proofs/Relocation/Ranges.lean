import FirstStage.Image.Ram
import FirstStage.Proofs.Relocation.Verdict
import Mathlib.Algebra.Group.Int.Defs
import Mathlib.Algebra.Group.Nat.Defs
import Mathlib.Order.Nat

/-! # The ranges of a plan

Plans are made in words, which wrap. In numbers, the two ranges of a plan meet where an address lies
in both, bounds are refused when they are in the wrong order or more than one shift apart, and a
covered stub was copied up to the end of the destination. Bounds that leave room for the copy above
them behave as if no word wrapped.
-/

namespace FirstStage

theorem toNat_payloadShift : Layout.payloadShift.toNat = 0x10000 := rfl

theorem toNat_shifted (addr : UInt32) : (shifted addr).toNat = (addr.toNat + 0x10000) % 2 ^ 32 := by
  rw [shifted, UInt32.toNat_add, toNat_payloadShift]

/-- How far an address lies above another, around the top of the address space where it lies
below. -/
def distance (start addr : UInt32) : Nat := (((addr.toNat : Int) - start.toNat) % 2 ^ 32).toNat

theorem distance_lt_iff {start stop : UInt32} (h : start.toNat ≤ stop.toNat) (addr : UInt32) :
    distance start addr < stop.toNat - start.toNat ↔ start ≤ addr ∧ addr < stop := by
  have hStop := stop.toNat_lt
  have hAddr := addr.toNat_lt
  rw [distance, UInt32.le_iff_toNat_le, UInt32.lt_iff_toNat_lt]
  omega

namespace Plan

variable {plan : Plan} {start stop : UInt32}

theorem toNat_dest_ofBounds_mod (start stop : UInt32) :
    (ofBounds start stop).dest.toNat = (0x10000 + start.toNat) % 2 ^ 32 := UInt32.toNat_add _ _

theorem toNat_length_ofBounds (h : start.toNat ≤ stop.toNat) :
    (ofBounds start stop).length.toNat = stop.toNat - start.toNat :=
  UInt32.toNat_sub_of_le _ _ (UInt32.le_iff_toNat_le.mpr h)

/-- Where the end of the destination wraps, the distance to it wraps back. -/
theorem toNat_left_of_covers {target : UInt32} (h : plan.Covers target) :
    (plan.dest + plan.length - target).toNat =
      plan.dest.toNat + plan.length.toNat - target.toNat := by
  obtain ⟨hLower, hUpper⟩ := h
  have hTarget := target.toNat_lt
  have hLength := plan.length.toNat_lt
  rw [UInt32.toNat_sub, UInt32.toNat_add]
  omega

theorem overlaps_iff_exists :
    plan.Overlaps ↔ ∃ addr : Nat,
      (plan.src.toNat ≤ addr ∧ addr < plan.src.toNat + plan.length.toNat) ∧
        plan.dest.toNat ≤ addr ∧ addr < plan.dest.toNat + plan.length.toNat := by
  constructor
  · rintro ⟨hSome, hSrc, hDest⟩
    have hLength : plan.length.toNat ≠ 0 := fun hZero => hSome (UInt32.toNat_inj.mp hZero)
    -- The higher of the two beginnings lies in both ranges.
    refine ⟨max plan.src.toNat plan.dest.toNat, ?_, ?_⟩ <;> omega
  · rintro ⟨addr, ⟨hSrc, hSrcEnd⟩, hDest, hDestEnd⟩
    refine ⟨?_, by omega, by omega⟩
    intro hZero
    rw [hZero, UInt32.toNat_zero] at hSrcEnd
    omega

/-- A destination that wraps lies below its source, and bounds as high as that are close together. -/
theorem overlaps_ofBounds_iff (h : start.toNat ≤ stop.toNat) :
    (ofBounds start stop).Overlaps ↔ start.toNat + 0x10000 < stop.toNat := by
  have hSrc : (ofBounds start stop).src.toNat = start.toNat := rfl
  have hStop := stop.toNat_lt
  rw [overlaps_iff_exists, hSrc, toNat_dest_ofBounds_mod, toNat_length_ofBounds h]
  constructor
  · rintro ⟨addr, ⟨hLower, hUpper⟩, hDest, hDestEnd⟩
    omega
  · intro hFar
    exact ⟨start.toNat + 0x10000, by omega, by omega⟩

theorem guarded_eq_ite (start stop : UInt32) :
    guarded start stop =
      if stop.toNat < start.toNat then .error (.inverted start stop)
      else if start.toNat + 0x10000 < stop.toNat then .error (.overlap (stop - start))
      else .ok (ofBounds start stop) := by
  unfold guarded
  dsimp only
  rw [if_congr UInt32.lt_iff_toNat_lt rfl rfl]
  split
  · rfl
  · rename_i hOrder
    rw [if_congr (overlaps_ofBounds_iff (Nat.le_of_not_lt hOrder)) rfl rfl]
    rfl

theorem toNat_shifted_eq_distance (start stop addr : UInt32) :
    (shifted addr).toNat =
      ((ofBounds start stop).dest.toNat + distance start addr) % 2 ^ 32 := by
  rw [toNat_shifted, toNat_dest_ofBounds_mod, distance]
  omega

/-- An address that is shifted past the top of the address space falls below the destination. -/
theorem covers_shifted_iff_distance (start stop addr : UInt32) :
    (ofBounds start stop).Covers (shifted addr) ↔
      distance start addr < (ofBounds start stop).length.toNat ∧
        (ofBounds start stop).dest.toNat + distance start addr < 2 ^ 32 := by
  have hDest := (ofBounds start stop).dest.toNat_lt
  have hDistance : distance start addr < 2 ^ 32 := by
    rw [distance]
    omega
  rw [Covers, toNat_shifted_eq_distance start stop]
  omega

/-- A destination in one piece holds the addresses of the payload, wherever it lies. -/
theorem covers_shifted_iff_of_unbroken (hOrder : start.toNat ≤ stop.toNat)
    (hUnbroken : stop.toNat + 0x10000 ≤ 2 ^ 32 ∨ 2 ^ 32 - 0x10000 ≤ start.toNat) (addr : UInt32) :
    (ofBounds start stop).Covers (shifted addr) ↔ start ≤ addr ∧ addr < stop := by
  have hStop := stop.toNat_lt
  rw [covers_shifted_iff_distance, toNat_length_ofBounds hOrder, ← distance_lt_iff hOrder,
    toNat_dest_ofBounds_mod]
  omega

end Plan

/-- Bounds in order with room for their copy above them. -/
structure RoomyBounds (start stop : UInt32) : Prop where
  ordered : start.toNat ≤ stop.toNat
  start_lt : start.toNat + 0x10000 < 2 ^ 32
  stop_le : stop.toNat + 0x10000 ≤ 2 ^ 32

namespace RoomyBounds

variable {start stop : UInt32}

theorem toNat_dest (h : RoomyBounds start stop) :
    (Plan.ofBounds start stop).dest.toNat = start.toNat + 0x10000 := by
  rw [Plan.toNat_dest_ofBounds_mod, Nat.add_comm, Nat.mod_eq_of_lt h.start_lt]

theorem toNat_length (h : RoomyBounds start stop) :
    (Plan.ofBounds start stop).length.toNat = stop.toNat - start.toNat :=
  Plan.toNat_length_ofBounds h.ordered

/-- The wrapped address of a stub cannot fall into the copy from outside the payload. -/
theorem covers_shifted_iff (h : RoomyBounds start stop) (link : UInt32) :
    (Plan.ofBounds start stop).Covers (shifted link) ↔ start ≤ link ∧ link < stop :=
  Plan.covers_shifted_iff_of_unbroken h.ordered (Or.inl h.stop_le) link

theorem toNat_shifted (h : RoomyBounds start stop) {link : UInt32} (hUpper : link < stop) :
    (shifted link).toNat = link.toNat + 0x10000 := by
  have hLink := UInt32.lt_iff_toNat_lt.mp hUpper
  have hRoom := h.stop_le
  rw [FirstStage.toNat_shifted, Nat.mod_eq_of_lt (by omega)]

theorem probeLength_shifted (h : RoomyBounds start stop) {link : UInt32} (hLower : start ≤ link)
    (hUpper : link < stop) :
    (Plan.ofBounds start stop).probeLength (shifted link) =
      min Layout.probeLimit (stop.toNat - link.toNat) := by
  have hCovers := (h.covers_shifted_iff link).mpr ⟨hLower, hUpper⟩
  have hOrder := h.ordered
  have hLeft : start.toNat + 0x10000 + (stop.toNat - start.toNat) - (link.toNat + 0x10000) =
      stop.toNat - link.toNat := by omega
  rw [Plan.probeLength, Plan.toNat_left_of_covers hCovers, h.toNat_dest, h.toNat_length,
    h.toNat_shifted hUpper, hLeft]

theorem holds_iff (h : RoomyBounds start stop) (ram : Ram) :
    ram.Holds (Plan.ofBounds start stop).dest (Plan.ofBounds start stop).src
        (Plan.ofBounds start stop).length ↔
      0x10000 + stop.toNat ≤ ram.bytes.size := by
  have hOrder := h.ordered
  have hSrc : (Plan.ofBounds start stop).src.toNat = start.toNat := rfl
  rw [Ram.Holds, Bytes.Fits, Bytes.Fits, h.toNat_dest, h.toNat_length, hSrc]
  omega

/-- As far as a stub reaches into the payload, the comparison is one of the bytes of the image. -/
theorem agreeFrom_iff (h : RoomyBounds start stop) {link : UInt32} {count : Nat}
    (hCount : link.toNat + count ≤ stop.toNat) (hUpper : link < stop) (ram : Ram) :
    AgreeFrom (ReadableMemory.view ram) (shifted link) link 0 count ↔
      ∀ k < count, ram.bytes.byteAt (link.toNat + 0x10000 + k) =
        ram.bytes.byteAt (link.toNat + k) := by
  have hRoom := h.stop_le
  rw [agreeFrom_zero_iff]
  apply forall₂_congr
  intro k hk
  have hTarget : (shifted link + .ofNat k).toNat = link.toNat + 0x10000 + k := by
    rw [UInt32.toNat_add, h.toNat_shifted hUpper, UInt32.toNat_ofNat']
    omega
  have hLink : (link + .ofNat k).toNat = link.toNat + k := by
    rw [UInt32.toNat_add, UInt32.toNat_ofNat']
    omega
  change ram.bytes.byteAt (shifted link + .ofNat k).toNat =
    ram.bytes.byteAt (link + .ofNat k).toNat ↔ _
  rw [hTarget, hLink]

end RoomyBounds

end FirstStage
