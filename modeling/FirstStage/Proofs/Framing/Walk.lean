import FirstStage.Framing.Scan
import FirstStage.Proofs.Image.Reads
import Mathlib.Order.Bounds.Basic

/-! # The walk of a scan over a view

A scan knows its memory only by the bytes it reads, so its walk is a function of the view. The
walk meets the first end marker and the last start marker below it, and the pairs up to that end
marker are all that it reads.
-/

namespace FirstStage

namespace Marker

/-- The two bytes at an offset are the marker, in either order. -/
def StandsAt (marker : Marker) (view : UInt32 → UInt8) (offset : Nat) : Prop :=
  marker.Accepts (view (.ofNat offset)) (view (.ofNat (offset + 1)))

instance (marker : Marker) (view : UInt32 → UInt8) (offset : Nat) :
    Decidable (marker.StandsAt view offset) := inferInstanceAs (Decidable (marker.Accepts _ _))

/-- The offsets in `[i, bound)` at which the marker stands. -/
def offsets (marker : Marker) (view : UInt32 → UInt8) (i bound : Nat) : Set Nat :=
  {k | i ≤ k ∧ k < bound ∧ marker.StandsAt view k}

theorem not_closing_of_opening {view : UInt32 → UInt8} {k : Nat} (h : opening.StandsAt view k) :
    ¬ closing.StandsAt view k := by
  rintro (⟨hLow, -⟩ | ⟨hLow, -⟩) <;> rcases h with ⟨h, -⟩ | ⟨h, -⟩ <;> rw [h] at hLow <;>
    exact absurd hLow (by decide)

/-- The markers have no byte in common, so an end marker cannot begin inside a start marker. -/
theorem not_closing_succ_of_opening {view : UInt32 → UInt8} {k : Nat}
    (h : opening.StandsAt view k) : ¬ closing.StandsAt view (k + 1) := by
  rintro (⟨hLow, -⟩ | ⟨hLow, -⟩) <;> rcases h with ⟨-, h⟩ | ⟨-, h⟩ <;> rw [h] at hLow <;>
    exact absurd hLow (by decide)

theorem standsAt_congr {view other : UInt32 → UInt8} {k : Nat} (marker : Marker)
    (hLow : view (.ofNat k) = other (.ofNat k))
    (hHigh : view (.ofNat (k + 1)) = other (.ofNat (k + 1))) :
    marker.StandsAt view k ↔ marker.StandsAt other k := by
  unfold StandsAt
  rw [hLow, hHigh]

@[simp]
theorem offsets_self (marker : Marker) (view : UInt32 → UInt8) (i : Nat) :
    marker.offsets view i i = ∅ := by
  apply Set.eq_empty_of_forall_notMem
  rintro k ⟨hLower, hUpper, -⟩
  omega

theorem offsets_eq_succ {marker : Marker} {view : UInt32 → UInt8} {i bound : Nat}
    (h : ¬ marker.StandsAt view i) :
    marker.offsets view i bound = marker.offsets view (i + 1) bound := by
  ext k
  constructor
  · rintro ⟨hLower, hUpper, hk⟩
    have hne : k ≠ i := by
      rintro rfl
      exact h hk
    exact ⟨by omega, hUpper, hk⟩
  · rintro ⟨hLower, hUpper, hk⟩
    exact ⟨by omega, hUpper, hk⟩

theorem isGreatest_offsets_of_succ {marker : Marker} {view : UInt32 → UInt8} {i bound k : Nat}
    (h : IsGreatest (marker.offsets view (i + 1) bound) k) :
    IsGreatest (marker.offsets view i bound) k := by
  obtain ⟨⟨hLower, hUpper, hk⟩, hMax⟩ := h
  refine ⟨⟨by omega, hUpper, hk⟩, ?_⟩
  rintro j ⟨hj, hjUpper, hjk⟩
  rcases Nat.lt_or_ge i j with hij | hij
  · exact hMax ⟨hij, hjUpper, hjk⟩
  · omega

end Marker

def FirstOf (offsets : Set Nat) : Option UInt32 → Prop
  | none => offsets = ∅
  | some offset => IsLeast offsets offset.toNat

/-- The greatest of a set of offsets, or what was there before when the set is empty. -/
def LastOf (offsets : Set Nat) (earlier? found? : Option UInt32) : Prop :=
  (offsets = ∅ ∧ found? = earlier?) ∨
    ∃ offset, found? = some offset ∧ IsGreatest offsets offset.toNat

namespace Sighting

def bound (seen : Sighting) (limit : Nat) : Nat := seen.stop?.elim limit UInt32.toNat

def tested (seen : Sighting) (i count : Nat) : Nat :=
  seen.stop?.elim count fun stop => stop.toNat + 1 - i

def along (view : UInt32 → UInt8) (i : Nat) (start? : Option UInt32) : (count : Nat) → Sighting
  | 0 => ⟨start?, none⟩
  | count + 1 =>
      let latest? := if Marker.opening.StandsAt view i then some (.ofNat i) else start?
      if Marker.closing.StandsAt view i then ⟨latest?, some (.ofNat i)⟩
      else along view (i + 1) latest? count

def ofView (view : UInt32 → UInt8) : Sighting := along view 0 none (Layout.lastMarkerOffset + 1)

theorem along_of_closing {view : UInt32 → UInt8} {i : Nat} (h : Marker.closing.StandsAt view i)
    (start? : Option UInt32) (count : Nat) :
    along view i start? (count + 1) = ⟨start?, some (.ofNat i)⟩ := by
  have hOpening : ¬ Marker.opening.StandsAt view i := fun ho => Marker.not_closing_of_opening ho h
  rw [along, if_neg hOpening, if_pos h]

theorem along_of_not_closing {view : UInt32 → UInt8} {i : Nat}
    (h : ¬ Marker.closing.StandsAt view i) (start? : Option UInt32) (count : Nat) :
    along view i start? (count + 1) =
      along view (i + 1) (if Marker.opening.StandsAt view i then some (.ofNat i) else start?)
        count := by
  rw [along, if_neg h]

theorem firstOf_along (view : UInt32 → UInt8) (i : Nat) (start? : Option UInt32) (count : Nat)
    (h : i + count ≤ UInt32.size) :
    FirstOf (Marker.closing.offsets view i (i + count)) (along view i start? count).stop? := by
  induction count generalizing i start? with
  | zero => exact Marker.offsets_self Marker.closing view i
  | succ count ih =>
      by_cases hClosing : Marker.closing.StandsAt view i
      · rw [along_of_closing hClosing]
        have hi : (UInt32.ofNat i).toNat = i := UInt32.toNat_ofNat_of_lt' (by omega)
        change IsLeast _ (UInt32.ofNat i).toNat
        rw [hi]
        exact ⟨⟨le_rfl, by omega, hClosing⟩, fun k hk => hk.1⟩
      · rw [along_of_not_closing hClosing, Marker.offsets_eq_succ hClosing,
          show i + (count + 1) = i + 1 + count by omega]
        exact ih (i + 1) _ (by omega)

theorem le_bound_along (view : UInt32 → UInt8) (i : Nat) (start? : Option UInt32) (count : Nat)
    (h : i + count ≤ UInt32.size) :
    i ≤ (along view i start? count).bound (i + count) ∧
      (along view i start? count).bound (i + count) ≤ i + count := by
  have hFirst := firstOf_along view i start? count h
  unfold bound
  cases hStop : (along view i start? count).stop? with
  | none => exact ⟨Nat.le_add_right i count, le_rfl⟩
  | some stop =>
      rw [hStop] at hFirst
      obtain ⟨hLower, hUpper, -⟩ := hFirst.1
      exact ⟨hLower, hUpper.le⟩

theorem lastOf_of_succ {view : UInt32 → UInt8} {i bound : Nat} {start? found? : Option UInt32}
    (hi : (UInt32.ofNat i).toNat = i) (hBound : i < bound)
    (h : LastOf (Marker.opening.offsets view (i + 1) bound)
      (if Marker.opening.StandsAt view i then some (.ofNat i) else start?) found?) :
    LastOf (Marker.opening.offsets view i bound) start? found? := by
  rcases h with ⟨hEmpty, hFound⟩ | ⟨offset, hFound, hGreatest⟩
  · by_cases hOpening : Marker.opening.StandsAt view i
    · rw [if_pos hOpening] at hFound
      refine Or.inr ⟨.ofNat i, hFound, ?_⟩
      rw [hi]
      refine ⟨⟨le_rfl, hBound, hOpening⟩, ?_⟩
      rintro k ⟨hLower, hUpper, hk⟩
      by_contra hAbove
      have hMem : k ∈ Marker.opening.offsets view (i + 1) bound :=
        ⟨Nat.lt_of_not_le hAbove, hUpper, hk⟩
      rw [hEmpty] at hMem
      exact Set.notMem_empty k hMem
    · rw [if_neg hOpening] at hFound
      exact Or.inl ⟨(Marker.offsets_eq_succ hOpening).trans hEmpty, hFound⟩
  · exact Or.inr ⟨offset, hFound, Marker.isGreatest_offsets_of_succ hGreatest⟩

/-- A later start marker replaces an earlier one, so the last below the bound is left. -/
theorem lastOf_along (view : UInt32 → UInt8) (i : Nat) (start? : Option UInt32) (count : Nat)
    (h : i + count ≤ UInt32.size) :
    LastOf (Marker.opening.offsets view i ((along view i start? count).bound (i + count))) start?
      (along view i start? count).start? := by
  induction count generalizing i start? with
  | zero => exact Or.inl ⟨Marker.offsets_self Marker.opening view i, rfl⟩
  | succ count ih =>
      have hi : (UInt32.ofNat i).toNat = i := UInt32.toNat_ofNat_of_lt' (by omega)
      by_cases hClosing : Marker.closing.StandsAt view i
      · rw [along_of_closing hClosing]
        refine Or.inl ⟨?_, rfl⟩
        change Marker.opening.offsets view i (UInt32.ofNat i).toNat = ∅
        rw [hi, Marker.offsets_self]
      · rw [along_of_not_closing hClosing, show i + (count + 1) = i + 1 + count by omega]
        -- The walk goes on with what stands at `i` as the latest start marker.
        let latest? := if Marker.opening.StandsAt view i then some (.ofNat i) else start?
        have hBound := (le_bound_along view (i + 1) latest? count (by omega)).1
        exact lastOf_of_succ hi hBound (ih (i + 1) latest? (by omega))

theorem tested_of_closing {view : UInt32 → UInt8} {i : Nat} (h : Marker.closing.StandsAt view i)
    (start? : Option UInt32) (count : Nat) (hi : i + (count + 1) ≤ UInt32.size) :
    (along view i start? (count + 1)).tested i (count + 1) = 1 := by
  rw [along_of_closing h]
  change (UInt32.ofNat i).toNat + 1 - i = 1
  rw [UInt32.toNat_ofNat_of_lt' (by omega)]
  omega

theorem tested_of_not_closing {view : UInt32 → UInt8} {i : Nat}
    (h : ¬ Marker.closing.StandsAt view i) (start? : Option UInt32) (count : Nat)
    (hi : i + (count + 1) ≤ UInt32.size) :
    (along view i start? (count + 1)).tested i (count + 1) =
      (along view (i + 1) (if Marker.opening.StandsAt view i then some (.ofNat i) else start?)
        count).tested (i + 1) count + 1 := by
  rw [along_of_not_closing h]
  have hFirst := firstOf_along view (i + 1)
    (if Marker.opening.StandsAt view i then some (.ofNat i) else start?) count (by omega)
  unfold tested
  cases hStop : (along view (i + 1)
      (if Marker.opening.StandsAt view i then some (.ofNat i) else start?) count).stop? with
  | none => rfl
  | some stop =>
      rw [hStop] at hFirst
      have hLower : i + 1 ≤ stop.toNat := hFirst.1.1
      change stop.toNat + 1 - i = stop.toNat + 1 - (i + 1) + 1
      omega

/-- A walk depends on no byte beyond the last pair that it tests. -/
theorem along_congr {view other : UInt32 → UInt8} (i : Nat) (start? : Option UInt32) (count : Nat)
    (h : i + count ≤ UInt32.size)
    (hSame : ∀ k, i ≤ k → k ≤ i + (along view i start? count).tested i count →
      view (.ofNat k) = other (.ofNat k)) :
    along other i start? count = along view i start? count := by
  induction count generalizing i start? with
  | zero => rfl
  | succ count ih =>
      by_cases hClosing : Marker.closing.StandsAt view i
      · rw [tested_of_closing hClosing start? count h] at hSame
        have hClosing' : Marker.closing.StandsAt other i :=
          (Marker.standsAt_congr _ (hSame i le_rfl (by omega))
            (hSame (i + 1) (by omega) le_rfl)).mp hClosing
        rw [along_of_closing hClosing, along_of_closing hClosing']
      · rw [tested_of_not_closing hClosing start? count h] at hSame
        have hLow := hSame i le_rfl (by omega)
        have hHigh := hSame (i + 1) (by omega) (by omega)
        have hClosing' : ¬ Marker.closing.StandsAt other i := fun hOther =>
          hClosing ((Marker.standsAt_congr _ hLow hHigh).mpr hOther)
        rw [along_of_not_closing hClosing, along_of_not_closing hClosing',
          if_congr (Marker.standsAt_congr Marker.opening hLow hHigh).symm rfl rfl]
        apply ih (i + 1) _ (by omega)
        intro k hLower hUpper
        exact hSame k (by omega) (by omega)

end Sighting

/-- The addresses of the pairs at `count` offsets from `i` on, in the order of their reads. -/
def pairAddresses (i : Nat) : (count : Nat) → List UInt32
  | 0 => []
  | count + 1 => .ofNat i :: .ofNat (i + 1) :: pairAddresses (i + 1) count

section Reading

variable {M : Type} [ReadableMemory M]

theorem Sighting.searchFrom_run (memory : M) (i : Nat) (start? : Option UInt32) (count : Nat)
    (h : i + count ≤ UInt32.size) :
    (Sighting.searchFrom (.ofNat i) start? count).run memory =
      .ok (Sighting.along (ReadableMemory.view memory) i start? count)
        (notedAll (pairAddresses i
          ((Sighting.along (ReadableMemory.view memory) i start? count).tested i count))
          memory) := by
  induction count generalizing i start? memory with
  | zero => rfl
  | succ count ih =>
      have hNext : UInt32.ofNat i + 1 = .ofNat (i + 1) := (UInt32.ofNat_add i 1).symm
      have hLow := ReadableMemory.read_eq (.ofNat i) memory
      have hHigh := ReadableMemory.read_eq (.ofNat (i + 1))
        (ReadableMemory.noted (.ofNat i) memory)
      rw [ReadableMemory.view_noted] at hHigh
      rw [Sighting.searchFrom, Act.bind_ok hLow, hNext, Act.bind_ok hHigh]
      let latest? : Option UInt32 :=
        if Marker.opening.StandsAt (ReadableMemory.view memory) i then some (.ofNat i) else start?
      let left := ReadableMemory.noted (.ofNat (i + 1)) (ReadableMemory.noted (.ofNat i) memory)
      change (if Marker.closing.StandsAt (ReadableMemory.view memory) i
        then return ⟨latest?, some (.ofNat i)⟩
        else Sighting.searchFrom (.ofNat (i + 1)) latest? count : Act M Sighting).run left = _
      by_cases hClosing : Marker.closing.StandsAt (ReadableMemory.view memory) i
      · rw [if_pos hClosing, tested_of_closing hClosing start? count h, along, if_pos hClosing]
        rfl
      · rw [if_neg hClosing, tested_of_not_closing hClosing start? count h,
          along_of_not_closing hClosing]
        have hRest := ih left (i + 1) latest? (by omega)
        rw [ReadableMemory.view_noted, ReadableMemory.view_noted] at hRest
        exact hRest

namespace Scan

def ofView (view : UInt32 → UInt8) : Scan := ofSighting (Sighting.ofView view)

/-- The last offset that a walk over the view tests. -/
def lastTested (scan : Scan) : Nat :=
  if .endSeen ∈ scan.flags then scan.stop.toNat else Layout.lastMarkerOffset

theorem tested_ofView (view : UInt32 → UInt8) :
    (Sighting.ofView view).tested 0 (Layout.lastMarkerOffset + 1) =
      (ofView view).lastTested + 1 := by
  have hSeen : .endSeen ∈ (ofView view).flags ↔ (Sighting.ofView view).stop?.isSome = true :=
    mem_flags_ofSighting
  cases hStop : (Sighting.ofView view).stop? with
  | none =>
      rw [hStop] at hSeen
      rw [lastTested, if_neg (by simp [hSeen]), Sighting.tested, hStop]
      rfl
  | some stop =>
      rw [hStop] at hSeen
      have hEnd : (ofView view).stop = stop := by simp [ofView, ofSighting, Sighting.stop, hStop]
      rw [lastTested, if_pos (hSeen.mpr rfl), Sighting.tested, hStop, hEnd]
      rfl

def scanned (memory : M) : M :=
  notedAll (pairAddresses 0 ((ofView (ReadableMemory.view memory)).lastTested + 1)) memory

@[simp]
theorem bytes_scanned (ram : Ram) : (scanned ram).bytes = ram.bytes := Ram.bytes_notedAll _ _

theorem perform_run (memory : M) :
    Scan.perform.run memory = .ok (ofView (ReadableMemory.view memory)) (scanned memory) := by
  have hSearch := Sighting.searchFrom_run memory 0 none (Layout.lastMarkerOffset + 1) (by decide)
  rw [scanned, ← tested_ofView]
  exact Act.bind_ok hSearch

theorem ofView_congr {view other : UInt32 → UInt8}
    (h : ∀ k ≤ (ofView view).lastTested + 1, view (.ofNat k) = other (.ofNat k)) :
    ofView other = ofView view := by
  unfold ofView Sighting.ofView
  rw [Sighting.along_congr 0 none (Layout.lastMarkerOffset + 1) (by decide)]
  intro k _ hk
  apply h
  rw [← tested_ofView]
  exact hk.trans (Nat.zero_add _).le

end Scan

end Reading

end FirstStage
