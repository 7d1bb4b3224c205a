import FirstStage.Proofs.Bytes.Overwritten
import FirstStage.Proofs.Framing.Seams
import FirstStage.Proofs.Relocation.Payload

/-! # Payloads enclosed in markers

Bytes made of a payload between its markers, with anything before and behind it. A scan finds the
payload that was meant exactly when nothing before the end makes another marker count, and what it
finds is then accepted and copied as it stands.
-/

namespace FirstStage

/-- The start marker belongs to the payload, and each marker has one of its two orders. -/
structure Enclosure where
  before : List UInt8
  openLow : UInt8
  openHigh : UInt8
  opens : Marker.opening.Accepts openLow openHigh
  body : List UInt8
  closeLow : UInt8
  closeHigh : UInt8
  closes : Marker.closing.Accepts closeLow closeHigh
  behind : List UInt8

namespace Enclosure

variable (enclosure : Enclosure)

def payload : List UInt8 := enclosure.openLow :: enclosure.openHigh :: enclosure.body

def framed : List UInt8 :=
  enclosure.before ++ enclosure.payload ++ [enclosure.closeLow, enclosure.closeHigh]

def bytes : List UInt8 := enclosure.framed ++ enclosure.behind

/-- The image that holds the bytes and no more. -/
def ram : Ram := { bytes := enclosure.bytes.toArray }

theorem toList_bytes_ram : enclosure.ram.bytes.toList = enclosure.bytes := rfl

theorem size_bytes_ram : enclosure.ram.bytes.size = enclosure.bytes.length := List.size_toArray

def start : Nat := enclosure.before.length

def stop : Nat := enclosure.start + 2 + enclosure.body.length

/-- What a producer has to keep out of the bytes up to the end marker. -/
structure Clean : Prop where
  low : enclosure.stop ≤ Layout.lastMarkerOffset
  before_closing : Marker.closing.AbsentFrom enclosure.before
  body_opening : Marker.opening.AbsentFrom enclosure.body
  body_closing : Marker.closing.AbsentFrom enclosure.body
  head_ne : enclosure.body.head? ≠ some enclosure.openLow
  last_ne : enclosure.body.getLast? ≠ some enclosure.closeHigh

variable {enclosure} {view : UInt32 → UInt8}

theorem length_payload : enclosure.payload.length = 2 + enclosure.body.length := by
  rw [payload, List.length_cons, List.length_cons]
  omega

theorem length_framed : enclosure.framed.length = enclosure.stop + 2 := by
  simp only [framed, List.length_append, length_payload, List.length_cons, List.length_nil, stop,
    start]
  omega

theorem start_lt_stop : enclosure.start < enclosure.stop := by
  rw [stop]
  omega

theorem standsAt_start (h : Spells view 0 enclosure.framed) :
    Marker.opening.StandsAt view enclosure.start := by
  rw [framed, List.append_assoc, spells_append_iff, Nat.zero_add] at h
  exact (h.2.standsAt_iff Marker.opening).mpr enclosure.opens

theorem standsAt_stop (h : Spells view 0 enclosure.framed) :
    Marker.closing.StandsAt view enclosure.stop := by
  have hStop : (enclosure.before ++ enclosure.payload).length = enclosure.stop := by
    rw [List.length_append, length_payload, stop, start]
    omega
  rw [framed, spells_append_iff, Nat.zero_add, hStop] at h
  exact (h.2.standsAt_iff Marker.closing).mpr enclosure.closes

theorem offsets_closing_iff (h : Spells view 0 enclosure.framed) :
    Marker.closing.offsets view 0 enclosure.stop = ∅ ↔
      Marker.closing.AbsentFrom enclosure.before ∧ Marker.closing.AbsentFrom enclosure.body ∧
        enclosure.body.getLast? ≠ some enclosure.closeHigh := by
  -- The pairs below the end marker are those of the framed bytes without the last byte.
  have hFramed : enclosure.framed = (enclosure.before ++ enclosure.openLow ::
      enclosure.openHigh :: (enclosure.body ++ [enclosure.closeLow])) ++ [enclosure.closeHigh] := by
    simp [framed, payload]
  have hLength : 0 + ((enclosure.before ++ enclosure.openLow :: enclosure.openHigh ::
      (enclosure.body ++ [enclosure.closeLow])).length - 1) = enclosure.stop := by
    simp [stop, start]
    omega
  rw [hFramed, spells_append_iff] at h
  have hAbsent := h.1.absentFrom_iff Marker.closing
  rw [hLength] at hAbsent
  rw [← hAbsent]
  exact Marker.closing_absentFrom_iff enclosure.opens enclosure.closes _ _

theorem offsets_opening_iff (h : Spells view 0 enclosure.framed) :
    Marker.opening.offsets view (enclosure.start + 1) enclosure.stop = ∅ ↔
      Marker.opening.AbsentFrom enclosure.body ∧
        enclosure.body.head? ≠ some enclosure.openLow := by
  -- The pairs after the start marker reach from its second byte to the first of the end marker.
  have hFramed : enclosure.framed = (enclosure.before ++ [enclosure.openLow]) ++
      (enclosure.openHigh :: (enclosure.body ++ [enclosure.closeLow]) ++
        [enclosure.closeHigh]) := by
    simp [framed, payload]
  have hStart : 0 + (enclosure.before ++ [enclosure.openLow]).length = enclosure.start + 1 := by
    simp [start]
  have hLength : enclosure.start + 1 +
      ((enclosure.openHigh :: (enclosure.body ++ [enclosure.closeLow])).length - 1) =
        enclosure.stop := by
    simp [stop]
    omega
  rw [hFramed, spells_append_iff, hStart] at h
  have hInner := (spells_append_iff.mp h.2).1
  have hAbsent := hInner.absentFrom_iff Marker.opening
  rw [hLength] at hAbsent
  rw [← hAbsent]
  exact Marker.opening_absentFrom_iff enclosure.opens enclosure.closes _

theorem framed_iff_clean (h : Spells view 0 enclosure.framed) :
    Scan.Framed view enclosure.start enclosure.stop ↔ enclosure.Clean := by
  have hFirst : IsLeast (Marker.closing.offsets view 0 (Layout.lastMarkerOffset + 1))
      enclosure.stop ↔ _ := Marker.isLeast_offsets_iff (standsAt_stop h)
  have hLast := Marker.isGreatest_offsets_iff (standsAt_start h) start_lt_stop
  rw [offsets_closing_iff h] at hFirst
  rw [offsets_opening_iff h] at hLast
  constructor
  · rintro ⟨hLeast, hGreatest⟩
    obtain ⟨hLow, hBefore, hBody, hEnd⟩ := hFirst.mp hLeast
    obtain ⟨hBody', hHead⟩ := hLast.mp hGreatest
    exact ⟨Nat.le_of_lt_succ hLow, hBefore, hBody', hBody, hHead, hEnd⟩
  · rintro ⟨hLow, hBefore, hBody', hBody, hHead, hEnd⟩
    exact ⟨hFirst.mpr ⟨Nat.lt_succ_of_le hLow, hBefore, hBody, hEnd⟩, hLast.mpr ⟨hBody', hHead⟩⟩

end Enclosure

theorem Scan.framed_iff_bounds {view : UInt32 → UInt8} {start stop : Nat}
    (hStart : Marker.opening.StandsAt view start) (hApart : start < stop) :
    Framed view start stop ↔
      (ofView view).start.toNat = start ∧ (ofView view).stop.toNat = stop := by
  constructor
  · intro h
    obtain ⟨hStart, hStop, -, -⟩ := ofView_of_framed h
    exact ⟨hStart, hStop⟩
  · rintro ⟨hFirst, hLast⟩
    cases hStop : (Sighting.ofView view).stop? with
    | none =>
        -- A scan that found no end marker leaves the end at zero, where no payload ends.
        rw [(missing_ofView hStop).2.1] at hLast
        exact absurd hLast (Nat.ne_of_lt (Nat.zero_lt_of_lt hApart))
    | some found =>
        obtain ⟨hValue, -, hEnd, -, hBelow⟩ := found_ofView hStop
        rw [← hValue, hLast] at hBelow
        obtain ⟨-, hSeen⟩ := hBelow.last ⟨start, Nat.zero_le start, hApart, hStart⟩
        have hFramed := framed_ofView hSeen hEnd
        rwa [hFirst, hLast] at hFramed

namespace Ram

theorem spells_view {ram : Ram} {before bytes behind : List UInt8}
    (h : ram.bytes.toList = before ++ bytes ++ behind)
    (hLow : before.length + bytes.length ≤ UInt32.size) :
    Spells (ReadableMemory.view ram) before.length bytes := by
  induction bytes generalizing before with
  | nil => trivial
  | cons b rest ih =>
      rw [List.length_cons] at hLow
      have hHere : ReadableMemory.view ram (.ofNat before.length) = b := by
        change ram.bytes[(UInt32.ofNat before.length).toNat]?.getD 0 = b
        rw [UInt32.toNat_ofNat_of_lt' (by omega), ← Array.getElem?_toList, h]
        simp
      have hRest : Spells (ReadableMemory.view ram) (before ++ [b]).length rest :=
        ih (by rw [h]; simp) (by simp; omega)
      rw [List.length_append] at hRest
      exact ⟨hHere, hRest⟩

theorem byteAt_of_toList {ram : Ram} {before bytes behind : List UInt8}
    (h : ram.bytes.toList = before ++ bytes ++ behind) (i : Nat) (hi : i < bytes.length) :
    ram.bytes.byteAt (before.length + i) = bytes[i] := by
  rw [Bytes.byteAt, ← Array.getElem?_toList, h, List.append_assoc,
    List.getElem?_append_right (Nat.le_add_right _ _), Nat.add_sub_cancel_left,
    List.getElem?_append_left hi, List.getElem?_eq_getElem hi, Option.getD_some]

end Ram

namespace Enclosure

variable {enclosure : Enclosure} {ram : Ram}

theorem spells_of_toList (hBytes : ram.bytes.toList = enclosure.bytes)
    (hLow : enclosure.stop ≤ Layout.lastMarkerOffset) :
    Spells (ReadableMemory.view ram) 0 enclosure.framed := by
  have hStop : enclosure.stop ≤ 0xFFFF := hLow
  have hWords : UInt32.size = 4294967296 := rfl
  have hLength := enclosure.length_framed
  have hRoom : ([] : List UInt8).length + enclosure.framed.length ≤ UInt32.size := by
    rw [List.length_nil]
    omega
  have hSplit : ram.bytes.toList = [] ++ enclosure.framed ++ enclosure.behind := hBytes
  exact Ram.spells_view hSplit hRoom

theorem bounds_iff_clean (hBytes : ram.bytes.toList = enclosure.bytes) :
    ((Scan.ofView (ReadableMemory.view ram)).start.toNat = enclosure.start ∧
        (Scan.ofView (ReadableMemory.view ram)).stop.toNat = enclosure.stop) ↔
      enclosure.Clean := by
  by_cases hLow : enclosure.stop ≤ Layout.lastMarkerOffset
  · have hSpells := spells_of_toList hBytes hLow
    rw [← framed_iff_clean hSpells, Scan.framed_iff_bounds (standsAt_start hSpells) start_lt_stop]
  · constructor
    · rintro ⟨-, hStop⟩
      have hBound := Scan.stop_le_ofView (ReadableMemory.view ram)
      rw [hStop] at hBound
      exact absurd hBound hLow
    · intro hClean
      exact absurd hClean.low hLow

namespace Clean

theorem toNat_start (h : enclosure.Clean) :
    (UInt32.ofNat enclosure.start).toNat = enclosure.start := by
  have hStop : enclosure.stop ≤ 0xFFFF := h.low
  have hApart := enclosure.start_lt_stop
  have hWords : UInt32.size = 4294967296 := rfl
  exact UInt32.toNat_ofNat_of_lt' (by omega)

theorem toNat_stop (h : enclosure.Clean) :
    (UInt32.ofNat enclosure.stop).toNat = enclosure.stop := by
  have hStop : enclosure.stop ≤ 0xFFFF := h.low
  have hWords : UInt32.size = 4294967296 := rfl
  exact UInt32.toNat_ofNat_of_lt' (by omega)

theorem lowBounds (h : enclosure.Clean) :
    LowBounds (.ofNat enclosure.start) (.ofNat enclosure.stop) := by
  constructor
  · rw [h.toNat_start, h.toNat_stop]
    exact start_lt_stop.le
  · rw [h.toNat_stop]
    exact h.low

theorem payload_scan (h : enclosure.Clean) (hBytes : ram.bytes.toList = enclosure.bytes) :
    (Scan.ofView (ReadableMemory.view ram)).payload =
      .ok ⟨.ofNat enclosure.start, .ofNat enclosure.stop⟩ := by
  have hFramed := (framed_iff_clean (spells_of_toList hBytes h.low)).mpr h
  obtain ⟨hStart, hStop, hStartSeen, hEndSeen⟩ := Scan.ofView_of_framed hFramed
  rw [Scan.payload_ofView, if_neg (not_not.mpr hEndSeen), if_neg (not_not.mpr hStartSeen),
    ← hStart, ← hStop, UInt32.ofNat_toNat, UInt32.ofNat_toNat]

theorem bytes_moved (h : enclosure.Clean) (hBytes : ram.bytes.toList = enclosure.bytes)
    (hRoom : 0x10000 + enclosure.stop ≤ ram.bytes.size) :
    (ram.moved (Plan.ofBounds (.ofNat enclosure.start) (.ofNat enclosure.stop))).bytes =
      ram.bytes.overwrite (0x10000 + enclosure.start) enclosure.payload := by
  have hStop : enclosure.stop ≤ 0xFFFF := h.low
  have hPayload : enclosure.payload.length = enclosure.stop - enclosure.start := by
    rw [length_payload, stop]
    omega
  have hSplit : ram.bytes.toList = enclosure.before ++ enclosure.payload ++
      ([enclosure.closeLow, enclosure.closeHigh] ++ enclosure.behind) := by
    rw [hBytes, bytes, framed, List.append_assoc _ _ enclosure.behind]
  have hApart := enclosure.start_lt_stop
  rw [Ram.bytes_moved, h.lowBounds.roomy.toNat_dest, h.lowBounds.roomy.toNat_length, h.toNat_stop,
    h.toNat_start, ← hPayload, Nat.add_comm enclosure.start]
  change Bytes.copyForward _ _ (UInt32.ofNat enclosure.start).toNat _ = _
  rw [h.toNat_start]
  apply Bytes.copyForward_eq_overwrite
  · rw [Bytes.Fits]
    omega
  · omega
  · exact Ram.byteAt_of_toList hSplit

end Clean

/-- A scan reports the bounds of the payload exactly when the enclosure is clean. They are then
accepted, and their copy puts the payload and nothing else at its new place. -/
theorem bounds_reported_iff_clean (hBytes : ram.bytes.toList = enclosure.bytes) :
    ((∃ scan after, Scan.perform.run ram = .ok scan after ∧
        scan.start.toNat = enclosure.start ∧ scan.stop.toNat = enclosure.stop) ↔
      enclosure.Clean) ∧
    (enclosure.Clean →
      (∃ scan after, Scan.perform.run ram = .ok scan after ∧
        scan.payload = .ok ⟨.ofNat enclosure.start, .ofNat enclosure.stop⟩) ∧
      (0x10000 + enclosure.stop ≤ ram.bytes.size →
        ∃ moved,
          (Plan.ofBounds (.ofNat enclosure.start) (.ofNat enclosure.stop)).perform.run ram =
              .ok () moved ∧
            moved.bytes = ram.bytes.overwrite (0x10000 + enclosure.start) enclosure.payload ∧
            (Ram.raw (0x10000 + enclosure.start) enclosure.payload.length).run moved =
              .ok enclosure.payload moved)) := by
  have hScan := Scan.perform_run ram
  refine ⟨?_, fun hClean => ⟨⟨_, _, hScan, hClean.payload_scan hBytes⟩, fun hRoom => ?_⟩⟩
  · rw [← bounds_iff_clean hBytes]
    constructor
    · rintro ⟨scan, after, hRun, hStart, hStop⟩
      rw [hScan] at hRun
      cases hRun
      exact ⟨hStart, hStop⟩
    · rintro ⟨hStart, hStop⟩
      exact ⟨_, _, hScan, hStart, hStop⟩
  · have hHolds := (hClean.lowBounds.roomy.holds_iff ram).mpr (by rwa [hClean.toNat_stop])
    have hMoved := hClean.bytes_moved hBytes hRoom
    have hFits : ram.bytes.Fits (0x10000 + enclosure.start) enclosure.payload.length := by
      rw [Bytes.Fits, length_payload]
      rw [stop] at hRoom
      omega
    have hSlice := Bytes.slice_overwrite_run hFits
    rw [← hMoved] at hSlice
    exact ⟨_, Ram.perform_run_of_holds hHolds, hMoved, Act.within_ok hSlice⟩

/-- Swapped markers, with a start marker before them and bytes of both markers at the seams. -/
def seamed : Enclosure where
  before := [0x21, 0x73]
  openLow := 0x73
  openHigh := 0x21
  opens := by decide
  body := [0x21, 0xEF]
  closeLow := 0xEF
  closeHigh := 0xBE
  closes := by decide
  behind := List.replicate 0x10000 0

theorem clean_seamed : seamed.Clean where
  low := by decide
  before_closing := by decide
  body_opening := by decide
  body_closing := by decide
  head_ne := by decide
  last_ne := by decide

theorem stop_seamed : seamed.stop = 6 := rfl

theorem length_bytes_seamed : seamed.bytes.length = 0x10008 := by
  have hBehind : seamed.behind.length = 0x10000 := List.length_replicate
  rw [bytes, List.length_append, length_framed, stop_seamed, hBehind]

/-- The payload is found and copied, and is lost when its body begins with the first byte of the
marker. -/
theorem bounds_reported_of_seamed :
    (∃ scan after, Scan.perform.run seamed.ram = .ok scan after ∧
      scan.start.toNat = 2 ∧ scan.stop.toNat = 6) ∧
    (∃ moved, (Plan.ofBounds 2 6).perform.run seamed.ram = .ok () moved ∧
      (Ram.raw 0x10002 4).run moved = .ok [0x73, 0x21, 0x21, 0xEF] moved) ∧
    ¬ ∃ scan after,
      Scan.perform.run { seamed with body := [0x73, 0xEF] }.ram = .ok scan after ∧
        scan.start.toNat = 2 ∧ scan.stop.toNat = 6 := by
  have hStart : seamed.start = 2 := rfl
  have hPayload : seamed.payload = [0x73, 0x21, 0x21, 0xEF] := rfl
  obtain ⟨hReported, hFound⟩ := bounds_reported_iff_clean seamed.toList_bytes_ram
  rw [hStart, stop_seamed] at hReported hFound
  rw [hPayload] at hFound
  obtain ⟨hLost, -⟩ :=
    bounds_reported_iff_clean { seamed with body := [0x73, 0xEF] }.toList_bytes_ram
  have hRoom : 0x10000 + 6 ≤ seamed.ram.bytes.size := by
    rw [size_bytes_ram, length_bytes_seamed]
    decide
  obtain ⟨moved, hMove, -, hRaw⟩ := (hFound clean_seamed).2 hRoom
  refine ⟨hReported.mpr clean_seamed, ⟨moved, hMove, hRaw⟩, ?_⟩
  intro hSeen
  exact (hLost.mp hSeen).head_ne rfl

end Enclosure

end FirstStage
