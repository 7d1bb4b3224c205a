import FirstStage.Proofs.Framing.Bounds

/-! # Images with a payload in its frame

Every pair of bounds that lie two bytes apart or more, with an end in reach of the scan, is the
report of some image.
-/

namespace FirstStage.Ram

/-- Zeros with a start marker at `start` and an end marker at `stop`. -/
def framing (start stop size : Nat) : Ram where
  bytes := Array.ofFn fun i : Fin size =>
    if i.val = start then Marker.opening.first
    else if i.val = start + 1 then Marker.opening.second
    else if i.val = stop then Marker.closing.first
    else if i.val = stop + 1 then Marker.closing.second
    else 0

variable {start stop size : Nat}

theorem size_framing : (framing start stop size).bytes.size = size := Array.size_ofFn

theorem byteAt_framing {index : Nat} (h : index < size) :
    (framing start stop size).bytes.byteAt index =
      if index = start then 0x21
      else if index = start + 1 then 0x73
      else if index = stop then 0xBE
      else if index = stop + 1 then 0xEF
      else 0 := by
  rw [Bytes.byteAt, framing, Array.getElem?_ofFn, dif_pos h]
  rfl

theorem view_framing {addr : UInt32} (h : addr.toNat < size) :
    ReadableMemory.view (framing start stop size) addr =
      if addr.toNat = start then 0x21
      else if addr.toNat = start + 1 then 0x73
      else if addr.toNat = stop then 0xBE
      else if addr.toNat = stop + 1 then 0xEF
      else 0 := byteAt_framing h

theorem byte_framing {k : Nat} (hk : k < size) (hWord : k < UInt32.size) :
    ReadableMemory.view (framing start stop size) (.ofNat k) =
      if k = start then 0x21
      else if k = start + 1 then 0x73
      else if k = stop then 0xBE
      else if k = stop + 1 then 0xEF
      else 0 := by
  have hValue : (UInt32.ofNat k).toNat = k := UInt32.toNat_ofNat_of_lt' hWord
  rw [view_framing (by rwa [hValue]), hValue]

theorem opening_framing (hInside : start + 1 < size) (hWord : start + 1 < UInt32.size) :
    Marker.opening.StandsAt (ReadableMemory.view (framing start stop size)) start := by
  rw [Marker.StandsAt, byte_framing (by omega) (by omega), byte_framing hInside hWord, if_pos rfl,
    if_neg (by omega), if_pos rfl]
  decide

theorem closing_framing (hApart : start + 2 ≤ stop) (hInside : stop + 1 < size)
    (hWord : stop + 1 < UInt32.size) :
    Marker.closing.StandsAt (ReadableMemory.view (framing start stop size)) stop := by
  rw [Marker.StandsAt, byte_framing (by omega) (by omega), byte_framing hInside hWord,
    if_neg (by omega), if_neg (by omega), if_pos rfl, if_neg (by omega), if_neg (by omega),
    if_neg (by omega), if_pos rfl]
  decide

section Below

variable {k : Nat} (hInside : k + 1 < size) (hWord : k + 1 < UInt32.size) (hBelow : k < stop)

include hInside hWord hBelow

theorem not_closing_framing :
    ¬ Marker.closing.StandsAt (ReadableMemory.view (framing start stop size)) k := by
  intro h
  rw [Marker.StandsAt, byte_framing (by omega) (by omega), if_neg (show ¬ k = stop by omega),
    if_neg (show ¬ k = stop + 1 by omega)] at h
  rcases h with ⟨h, -⟩ | ⟨h, -⟩ <;> split_ifs at h <;> exact absurd h (by decide)

theorem le_start_of_opening_framing
    (h : Marker.opening.StandsAt (ReadableMemory.view (framing start stop size)) k) :
    k ≤ start := by
  by_contra hLt
  rw [Marker.StandsAt, byte_framing (by omega) (by omega), byte_framing hInside hWord,
    if_neg (show ¬ k = start by omega), if_neg (show ¬ k = stop by omega),
    if_neg (show ¬ k = stop + 1 by omega), if_neg (show ¬ k + 1 = start by omega),
    if_neg (show ¬ k + 1 = start + 1 by omega), if_neg (show ¬ k + 1 = stop + 1 by omega)] at h
  rcases h with ⟨h, hHigh⟩ | ⟨h, hHigh⟩
  · split_ifs at h
    · exact absurd h (by decide)
    · exact absurd h (by decide)
  · split_ifs at hHigh
    · exact absurd hHigh (by decide)
    · exact absurd hHigh (by decide)

end Below

theorem framed_framing (hApart : start + 2 ≤ stop) (hLow : stop ≤ Layout.lastMarkerOffset)
    (hSize : stop + 1 < size) :
    Scan.Framed (ReadableMemory.view (framing start stop size)) start stop := by
  have hStop : stop ≤ 0xFFFF := hLow
  have hWords : UInt32.size = 4294967296 := rfl
  refine ⟨⟨⟨Nat.zero_le stop, Nat.lt_succ_of_le hLow, ?_⟩, ?_⟩,
    ⟨Nat.zero_le start, by omega, ?_⟩, ?_⟩
  · exact closing_framing hApart hSize (by omega)
  · rintro k ⟨-, -, hk⟩
    by_contra hLt
    exact not_closing_framing (by omega) (by omega) (by omega) hk
  · exact opening_framing (by omega) (by omega)
  · rintro k ⟨-, hUpper, hk⟩
    exact le_start_of_opening_framing (by omega) (by omega) hUpper hk

theorem seen_framing (hApart : start + 2 ≤ stop) (hLow : stop ≤ Layout.lastMarkerOffset)
    (hRoom : 0x10000 + stop ≤ size) {scan : Scan}
    (hScan : Scan.ofView (ReadableMemory.view (framing start stop size)) = scan) :
    scan.start.toNat = start ∧ scan.stop.toNat = stop ∧ .startSeen ∈ scan.flags ∧
      .endSeen ∈ scan.flags ∧
      0x10000 + scan.stop.toNat ≤ (framing start stop size).bytes.size := by
  subst hScan
  have hSize : stop + 1 < size := by omega
  obtain ⟨hStart, hStop, hStartSeen, hEndSeen⟩ :=
    Scan.ofView_of_framed (framed_framing hApart hLow hSize)
  refine ⟨hStart, hStop, hStartSeen, hEndSeen, ?_⟩
  rwa [hStop, size_framing]

end FirstStage.Ram
