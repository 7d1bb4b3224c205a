import FirstStage.Image.Flawed
import FirstStage.Proofs.Bytes.Overwritten
import FirstStage.Proofs.Relocation.Ranges

/-! # Moving a payload of the low image

The bounds that a scan finds lie in the lowest 64 KiB. For them nothing wraps: the copy lies wholly
above the payload, no guard objects to it, and afterwards the two agree byte for byte, so a stub
lands exactly when it lies inside the payload.
-/

namespace FirstStage

/-- Bounds in order, with an end that a marker may have. -/
structure LowBounds (start stop : UInt32) : Prop where
  ordered : start.toNat ≤ stop.toNat
  low : stop.toNat ≤ Layout.lastMarkerOffset

theorem Plan.toNat_dest_ofBounds {start : UInt32} (h : start.toNat ≤ Layout.lastMarkerOffset)
    (stop : UInt32) : (ofBounds start stop).dest.toNat = start.toNat + 0x10000 := by
  have hStart : start.toNat ≤ 0xFFFF := h
  rw [toNat_dest_ofBounds_mod, Nat.add_comm, Nat.mod_eq_of_lt (by omega)]

namespace LowBounds

variable {start stop : UInt32}

theorem roomy (h : LowBounds start stop) : RoomyBounds start stop := by
  have hStop : stop.toNat ≤ 0xFFFF := h.low
  have hOrder := h.ordered
  exact ⟨hOrder, by omega, by omega⟩

theorem guarded (h : LowBounds start stop) :
    Plan.guarded start stop = .ok (Plan.ofBounds start stop) := by
  have hStop : stop.toNat ≤ 0xFFFF := h.low
  have hOrder := h.ordered
  rw [Plan.guarded_eq_ite, if_neg (by omega), if_neg (by omega)]

end LowBounds

namespace Ram

def moved (plan : Plan) (ram : Ram) : Ram :=
  { ram with bytes := ram.bytes.copyForward plan.dest.toNat plan.src.toNat plan.length.toNat }

theorem perform_run_of_holds {plan : Plan} {ram : Ram}
    (h : ram.Holds plan.dest plan.src plan.length) :
    (plan.perform : Act Ram Unit).run ram = .ok () (ram.moved plan) := if_pos h

theorem perform_run_of_not_holds {plan : Plan} {ram : Ram}
    (h : ¬ ram.Holds plan.dest plan.src plan.length) :
    (plan.perform : Act Ram Unit).run ram = .error .copyOutside ram := if_neg h

theorem perform_run_eq_ok_iff {plan : Plan} {ram after : Ram} :
    (plan.perform : Act Ram Unit).run ram = .ok () after ↔
      ram.Holds plan.dest plan.src plan.length ∧ after = ram.moved plan := by
  by_cases h : ram.Holds plan.dest plan.src plan.length
  · rw [perform_run_of_holds h]
    simp [h, eq_comm]
  · rw [perform_run_of_not_holds h]
    simp [h]

theorem place_run_of_fits {offset : Nat} {new : List UInt8} {ram : Ram}
    (h : ram.bytes.Fits offset new.length) :
    (place offset new).run ram = .ok () { ram with bytes := ram.bytes.overwrite offset new } :=
  Act.within_ok (Bytes.place_run_of_fits h)

theorem bytes_moved (plan : Plan) (ram : Ram) :
    (ram.moved plan).bytes =
      ram.bytes.copyForward plan.dest.toNat plan.src.toNat plan.length.toNat := rfl

theorem view_eq_of_bytes {ram other : Ram} (h : ram.bytes = other.bytes) :
    (ReadableMemory.view ram : UInt32 → UInt8) = ReadableMemory.view other := by
  funext addr
  exact congrArg (Bytes.byteAt · addr.toNat) h

theorem holds_iff_of_bytes {ram other : Ram} (h : ram.bytes = other.bytes)
    (dest src length : UInt32) : ram.Holds dest src length ↔ other.Holds dest src length := by
  rw [Holds, Holds, h]

theorem bytes_moved_eq {ram other : Ram} (h : ram.bytes = other.bytes) (plan : Plan) :
    (ram.moved plan).bytes = (other.moved plan).bytes := by
  rw [bytes_moved, bytes_moved, h]

theorem view_moved_of_lt {plan : Plan} {addr : UInt32} (h : addr < plan.dest) (ram : Ram) :
    ReadableMemory.view (ram.moved plan) addr = ReadableMemory.view ram addr :=
  Bytes.byteAt_copyForward_of_outside (Or.inl (UInt32.lt_iff_toNat_lt.mp h))

theorem view_moved_dest {plan : Plan} {ram : Ram}
    (hHolds : ram.Holds plan.dest plan.src plan.length) (hSome : plan.length ≠ 0) :
    ReadableMemory.view (ram.moved plan) plan.dest = ReadableMemory.view ram plan.src := by
  have hLength : 0 < plan.length.toNat := by
    apply Nat.pos_of_ne_zero
    intro hZero
    exact hSome (UInt32.toNat_inj.mp hZero)
  exact Bytes.byteAt_copyForward_dest hHolds.2 hLength

theorem moved_of_length_eq_zero {plan : Plan} (h : plan.length = 0) (ram : Ram) :
    ram.moved plan = ram := by
  rw [moved, h]
  rfl

end Ram

/-- The copy of a flawed memory, with the stray byte that follows it. -/
theorem Flawed.exists_perform_run {plan : Plan} {memory : Flawed}
    (hHolds : memory.ram.Holds plan.dest plan.src plan.length)
    (hOffset : memory.offset < memory.ram.bytes.size) :
    ∃ moved, (plan.perform : Act Flawed Unit).run memory = .ok () moved ∧
      moved.ram.bytes =
        (memory.ram.moved plan).bytes.overwrite memory.offset [memory.value] := by
  have hCopy : (onRam (Ram.copy plan.dest plan.src plan.length)).run memory =
      .ok () { memory with ram := memory.ram.moved plan } :=
    Act.within_ok (Ram.perform_run_of_holds hHolds)
  have hInside : (memory.ram.moved plan).bytes.Fits memory.offset [memory.value].length := by
    rw [Bytes.Fits, Ram.bytes_moved, Bytes.size_copyForward]
    exact hOffset
  have hPlace := Ram.place_run_of_fits hInside
  exact ⟨_, (Act.bind_ok hCopy).trans ((Act.bind_ok rfl).trans (Act.within_ok hPlace)), rfl⟩

namespace RoomyBounds

variable {start stop : UInt32}

/-- Payload and copy agree afterwards, also where the payload is so long that they overlap. -/
theorem byteAt_moved_agree (h : RoomyBounds start stop) {ram : Ram}
    (hRoom : 0x10000 + stop.toNat ≤ ram.bytes.size) {link : UInt32} (hLower : start ≤ link)
    {count : Nat} (hCount : link.toNat + count ≤ stop.toNat) {k : Nat} (hk : k < count) :
    (ram.moved (Plan.ofBounds start stop)).bytes.byteAt (link.toNat + 0x10000 + k) =
      (ram.moved (Plan.ofBounds start stop)).bytes.byteAt (link.toNat + k) := by
  have hFits := ((h.holds_iff ram).mpr hRoom).2
  have hDest := h.toNat_dest
  have hLength := h.toNat_length
  have hSrc : (Plan.ofBounds start stop).src.toNat = start.toNat := rfl
  have hStart : start.toNat ≤ link.toNat := UInt32.le_iff_toNat_le.mp hLower
  have hTarget : link.toNat + 0x10000 + k =
      (Plan.ofBounds start stop).dest.toNat + (link.toNat - start.toNat + k) := by omega
  have hLink : link.toNat + k =
      (Plan.ofBounds start stop).src.toNat + (link.toNat - start.toNat + k) := by omega
  rw [hTarget, hLink]
  exact Bytes.byteAt_copyForward_agree hFits (by omega) (by omega)

theorem verdict_moved (h : RoomyBounds start stop) {ram : Ram}
    (hRoom : 0x10000 + stop.toNat ≤ ram.bytes.size) (stub : Stub) :
    (Plan.ofBounds start stop).verdict
        (ReadableMemory.view (ram.moved (Plan.ofBounds start stop))) stub =
      if start ≤ stub.link ∧ stub.link < stop then .ok (shifted stub.link)
      else .error (.outside (shifted stub.link)) := by
  have hCovers := h.covers_shifted_iff stub.link
  split
  · rename_i hInside
    have hUpper := UInt32.lt_iff_toNat_lt.mp hInside.2
    have hCount : stub.link.toNat + min Layout.probeLimit (stop.toNat - stub.link.toNat) ≤
        stop.toNat := by omega
    rw [Plan.verdict_of_covers (hCovers.mpr hInside), h.probeLength_shifted hInside.1 hInside.2,
      if_pos]
    rw [h.agreeFrom_iff hCount hInside.2]
    exact fun k hk => h.byteAt_moved_agree hRoom hInside.1 hCount hk
  · rename_i hOutside
    exact Plan.verdict_of_not_covers (mt hCovers.mp hOutside) _

end RoomyBounds

end FirstStage
