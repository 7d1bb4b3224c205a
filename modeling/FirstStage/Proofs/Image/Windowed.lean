import FirstStage.Image.Window
import FirstStage.Proofs.Framing.Walk
import FirstStage.Proofs.Image.Alike
import FirstStage.Proofs.Relocation.Reported

/-! # The window and an image of its size

A copy that stays inside the window moves byte by byte to where the copy of an image comes at once.
One that leaves it is stopped before its first byte behind a fence, and at the edge by a wall. Reads
inside are answered as an image of the same bytes answers them, and so are a scan and the check of a
landing after a copy of low bounds.
-/

namespace FirstStage.Window

variable {σ : Type}

/-- The window when the first `i` bytes of a copy have moved. -/
def moved (dest src i : Nat) (window : Window σ) : Window σ :=
  { window with bytes := window.bytes.copyForward dest src i }

theorem moved_zero (dest src : Nat) (window : Window σ) : window.moved dest src 0 = window := rfl

theorem size_moved (dest src i : Nat) (window : Window σ) :
    (window.moved dest src i).bytes.size = window.bytes.size :=
  Bytes.size_copyForward window.bytes dest src i

section Copy

variable [Surroundings σ] {window : Window σ} {addr : Nat}

theorem load_run_of_lt (h : addr < window.bytes.size) :
    (load addr).run window = .ok (window.bytes.byteAt addr) window := by
  rw [Bytes.byteAt_eq_getElem h]
  exact dif_pos h

theorem store_run_of_lt (h : addr < window.bytes.size) (value : UInt8) :
    (store addr value).run window =
      .ok () { window with bytes := window.bytes.setIfInBounds addr value } := if_pos h

section Loop

variable {dest src i left : Nat}

theorem moveByte_run (hDest : dest + i < window.bytes.size) (hSrc : src + i < window.bytes.size) :
    (moveByte (dest + i) (src + i)).run (window.moved dest src i) =
      .ok () (window.moved dest src (i + 1)) := by
  rw [← size_moved dest src i] at hDest hSrc
  rw [moveByte, Act.bind_ok (load_run_of_lt hSrc), store_run_of_lt hDest]
  rfl

theorem moveFrom_run_of_inside (hDest : dest + (i + left) ≤ window.bytes.size)
    (hSrc : src + (i + left) ≤ window.bytes.size) :
    (moveFrom dest src i left).run (window.moved dest src i) =
      .ok () (window.moved dest src (i + left)) := by
  induction left generalizing i with
  | zero => rfl
  | succ left ih =>
      have hNext : i + (left + 1) = i + 1 + left := by omega
      rw [moveFrom, Act.bind_ok (moveByte_run (by omega) (by omega)), hNext]
      exact ih (by omega) (by omega)

end Loop

variable {dest src length : UInt32}

theorem copy_run_of_inside (hSize : window.bytes.size = span) (h : Inside dest src length) :
    (copy dest src length).run window =
      .ok () (window.moved dest.toNat src.toNat length.toNat) := by
  have hApproach : (onOutside (Surroundings.approach dest src length)).run window =
      .ok () window := Act.within_ok (Surroundings.approach_of_inside h window.outside)
  obtain ⟨hSrc, hDest⟩ := h
  rw [← hSize, ← Nat.zero_add length.toNat] at hSrc hDest
  have hMove := moveFrom_run_of_inside hDest hSrc
  rw [moved_zero, Nat.zero_add] at hMove
  rw [copy, Act.bind_ok hApproach, hMove]

end Copy

/-- The window and an image that holds its bytes. -/
structure Mirrors (window : Window σ) (ram : Ram) : Prop where
  size_eq : window.bytes.size = span
  bytes_eq : ram.bytes = window.bytes

namespace Mirrors

variable {window : Window σ} {ram : Ram} {plan : Plan} (h : window.Mirrors ram)

include h

theorem holds_iff_inside (dest src length : UInt32) :
    ram.Holds dest src length ↔ Inside dest src length := by
  rw [Ram.Holds, Bytes.Fits, Bytes.Fits, h.bytes_eq, h.size_eq, Inside]

theorem moved (plan : Plan) :
    (window.moved plan.dest.toNat plan.src.toNat plan.length.toNat).Mirrors (ram.moved plan) where
  size_eq := (size_moved _ _ _ _).trans h.size_eq
  bytes_eq := by
    rw [Ram.bytes_moved, h.bytes_eq]
    rfl

end Mirrors

variable [Surroundings σ]

theorem readAlike (window : Window σ) :
    ReadAlike (fun current ram => current = window ∧ window.Mirrors ram)
      {addr : UInt32 | addr.toNat < span} := by
  rintro addr hAddr window ram ⟨rfl, h⟩
  have hInside : addr.toNat < window.bytes.size := by
    rw [h.size_eq]
    exact hAddr
  have hWindow : (ImageMemory.read addr).run window =
      .ok (window.bytes.byteAt addr.toNat) window := load_run_of_lt hInside
  have hRam : (ImageMemory.read addr).run ram = .ok (ram.view addr) (ram.note addr) := rfl
  have hByte : ram.view addr = window.bytes.byteAt addr.toNat := by
    rw [Ram.view, h.bytes_eq]
  rw [hWindow, hRam, hByte]
  exact .ok _ ⟨rfl, h.size_eq, (Ram.bytes_note addr ram).trans h.bytes_eq⟩

namespace Mirrors

variable {window : Window σ} {ram : Ram} (h : window.Mirrors ram)

include h

theorem scan_run :
    Scan.perform.run window = .ok (Scan.ofView (ReadableMemory.view ram)) window := by
  have hAddrs : ∀ k ≤ Layout.lastMarkerOffset + 1,
      (UInt32.ofNat k) ∈ {addr : UInt32 | addr.toNat < span} := by
    intro k hk
    have hBound : Layout.lastMarkerOffset = 0xFFFF := rfl
    have hWords : UInt32.size = 4294967296 := rfl
    have hValue : (UInt32.ofNat k).toNat = k := UInt32.toNat_ofNat_of_lt' (by omega)
    change (UInt32.ofNat k).toNat < 0x30000
    omega
  have hAlike := (readAlike window).scan hAddrs ⟨rfl, h⟩
  rw [Scan.perform_run] at hAlike
  obtain ⟨_, hRun, rfl, -⟩ := hAlike.exists_of_ok
  exact hRun

theorem perform_run_of_holds {plan : Plan}
    (hHolds : ram.Holds plan.dest plan.src plan.length) :
    (plan.perform : Act (Window σ) Unit).run window =
      .ok () (window.moved plan.dest.toNat plan.src.toNat plan.length.toNat) :=
  copy_run_of_inside h.size_eq ((h.holds_iff_inside _ _ _).mp hHolds)

theorem landing_run {start stop : UInt32} (hBounds : LowBounds start stop) (stub : Stub) :
    ((Plan.ofBounds start stop).landing stub).run window =
      .ok ((Plan.ofBounds start stop).verdict (ReadableMemory.view ram) stub) window := by
  have hAddrs : (Plan.ofBounds start stop).Covers (shifted stub.link) →
      ∀ k < (Plan.ofBounds start stop).probeLength (shifted stub.link),
        shifted stub.link + .ofNat k ∈ {addr : UInt32 | addr.toNat < span} ∧
          stub.link + .ofNat k ∈ {addr : UInt32 | addr.toNat < span} := by
    intro hCovers k hk
    obtain ⟨hLower, hUpper⟩ := (hBounds.roomy.covers_shifted_iff stub.link).mp hCovers
    rw [hBounds.roomy.probeLength_shifted hLower hUpper] at hk
    have hStop : stop.toNat ≤ 0xFFFF := hBounds.low
    have hLink : stub.link.toNat < stop.toNat := UInt32.lt_iff_toNat_lt.mp hUpper
    constructor
    · change (shifted stub.link + .ofNat k).toNat < 0x30000
      rw [UInt32.toNat_add, toNat_shifted, UInt32.toNat_ofNat']
      omega
    · change (stub.link + .ofNat k).toNat < 0x30000
      rw [UInt32.toNat_add, UInt32.toNat_ofNat']
      omega
  have hAlike := (readAlike window).landing hAddrs ⟨rfl, h⟩
  rw [Plan.landing_run] at hAlike
  obtain ⟨_, hRun, rfl, -⟩ := hAlike.exists_of_ok
  exact hRun

end Mirrors

end FirstStage.Window
