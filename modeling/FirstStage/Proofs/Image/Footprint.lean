import FirstStage.Proofs.Bytes.Copied
import FirstStage.Proofs.Framing.Bounds

/-! # The footprint of a scan

A scan reads an image up to the second byte of the last pair that it tests, and its extent tells
just that. What lies above has no part in the report, whether it is there at all or not, so zeros
behind an image may come and go.
-/

namespace FirstStage

theorem Bytes.byteAt_append_zeros (bytes : Bytes) (count index : Nat) :
    byteAt (bytes ++ Array.replicate count 0) index = byteAt bytes index := by
  rw [byteAt, Array.getElem?_append]
  split
  · rfl
  · rename_i hPast
    rw [byteAt, Array.getElem?_eq_none (Nat.le_of_not_lt hPast)]
    exact byteAt_replicate_zero count _

namespace Ram

theorem toNat_nextWord_ofNat {i : Nat} (h : i + 1 < UInt32.size) :
    (nextWord (.ofNat i)).toNat = i + 1 := by
  have hWords : UInt32.size = 4294967296 := rfl
  rw [toNat_nextWord, UInt32.toNat_ofNat_of_lt' (by omega)]
  omega

theorem farthest_pairAddresses {i count : Nat} (h : i + count + 2 < UInt32.size) :
    farthest (pairAddresses i (count + 1)) = i + count + 2 := by
  induction count generalizing i with
  | zero =>
      rw [pairAddresses, pairAddresses, farthest_cons, farthest_cons,
        toNat_nextWord_ofNat (by omega), toNat_nextWord_ofNat (by omega)]
      change max (i + 1) (max (i + 1 + 1) 0) = _
      omega
  | succ count ih =>
      rw [pairAddresses, farthest_cons, farthest_cons, ih (by omega),
        toNat_nextWord_ofNat (by omega), toNat_nextWord_ofNat (by omega)]
      omega

/-- One image is the other with zeros behind it. -/
def Pads (long short : Ram) : Prop :=
  ∃ count, long.bytes = short.bytes ++ Array.replicate count 0

theorem Pads.view_eq {long short : Ram} (h : long.Pads short) (addr : UInt32) :
    long.view addr = short.view addr := by
  obtain ⟨count, hBytes⟩ := h
  rw [view, hBytes, Bytes.byteAt_append_zeros]
  rfl

end Ram

namespace Scan

/-- An image is scanned with this report, and with the payload or the objection that it gives. -/
structure AnsweredBy (scan : Scan) (ram : Ram) : Prop where
  report : ∃ left, perform.run ram = .ok scan left
  judged : ∃ left, (Scan.payload <$> perform).run ram = .ok scan.payload left

/-- What a scan leaves of an image, and on what of it the report depends. -/
structure Footprint (scan : Scan) (ram after : Ram) : Prop where
  bytes_eq : after.bytes = ram.bytes
  extent_eq : after.extent.toNat = max ram.extent.toNat (scan.lastTested + 2)
  reach : ∀ other : Ram,
    (∀ addr, addr.toNat ≤ scan.lastTested + 1 → other.view addr = ram.view addr) →
      scan.AnsweredBy other
  padded : ∀ other : Ram, other.Pads ram ∨ ram.Pads other → scan.AnsweredBy other

theorem answeredBy_of_ofView {scan : Scan} {ram : Ram}
    (h : ofView (ReadableMemory.view ram) = scan) : scan.AnsweredBy ram := by
  subst h
  exact ⟨⟨_, perform_run ram⟩, _, Act.bind_ok (perform_run ram)⟩

theorem answeredBy_of_agree {ram other : Ram}
    (h : ∀ addr : UInt32, addr.toNat ≤ (ofView (ReadableMemory.view ram)).lastTested + 1 →
      other.view addr = ram.view addr) :
    (ofView (ReadableMemory.view ram)).AnsweredBy other := by
  apply answeredBy_of_ofView
  apply ofView_congr
  intro k hk
  have hLast : (ofView (ReadableMemory.view ram)).lastTested ≤ 0xFFFF := lastTested_le _
  have hWords : UInt32.size = 4294967296 := rfl
  have hValue : (UInt32.ofNat k).toNat = k := UInt32.toNat_ofNat_of_lt' (by omega)
  exact (h (.ofNat k) (by omega)).symm

theorem toNat_extent_scanned (ram : Ram) :
    (scanned ram).extent.toNat =
      max ram.extent.toNat ((ofView (ReadableMemory.view ram)).lastTested + 2) := by
  have hLast : (ofView (ReadableMemory.view ram)).lastTested ≤ 0xFFFF := lastTested_le _
  have hWords : UInt32.size = 4294967296 := rfl
  rw [scanned, Ram.toNat_extent_notedAll, Ram.farthest_pairAddresses (by omega), Nat.zero_add]

/-- Every image has a report, and every image that holds the same bytes as far as the scan reaches
has the same. -/
theorem exists_footprint (ram : Ram) :
    ∃ scan after, perform.run ram = .ok scan after ∧ scan.Footprint ram after := by
  refine ⟨_, _, perform_run ram, {
    bytes_eq := Ram.bytes_notedAll _ _
    extent_eq := toNat_extent_scanned ram
    reach := fun other hAgree => answeredBy_of_agree hAgree
    padded := ?_ }⟩
  rintro other (hLong | hShort)
  · exact answeredBy_of_agree fun addr _ => hLong.view_eq addr
  · exact answeredBy_of_agree fun addr _ => (hShort.view_eq addr).symm

end Scan

end FirstStage
