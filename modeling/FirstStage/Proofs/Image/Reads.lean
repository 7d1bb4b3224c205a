import FirstStage.Image.Flawed

/-! # Memory after reads

A read leaves the bytes alone and may be noted. What a whole run of reads leaves is the memory with
all of them noted, in order, and the view of it is the view from before. An image in an array keeps
no more of its reads than how far the farthest of them went.
-/

namespace FirstStage

section Notes

variable {M : Type} [ReadableMemory M]

def notedAll (addrs : List UInt32) (memory : M) : M :=
  addrs.foldl (fun memory addr => ReadableMemory.noted addr memory) memory

@[simp]
theorem notedAll_nil (memory : M) : notedAll [] memory = memory := rfl

@[simp]
theorem notedAll_cons (addr : UInt32) (addrs : List UInt32) (memory : M) :
    notedAll (addr :: addrs) memory = notedAll addrs (ReadableMemory.noted addr memory) := rfl

@[simp]
theorem view_notedAll (addrs : List UInt32) (memory : M) :
    ReadableMemory.view (notedAll addrs memory) = ReadableMemory.view memory := by
  induction addrs generalizing memory with
  | nil => rfl
  | cons addr addrs ih => rw [notedAll_cons, ih, ReadableMemory.view_noted]

end Notes

namespace Ram

@[simp]
theorem bytes_notedAll (addrs : List UInt32) (ram : Ram) :
    (notedAll addrs ram).bytes = ram.bytes := by
  induction addrs generalizing ram with
  | nil => rfl
  | cons addr addrs ih =>
      rw [notedAll_cons, ih]
      exact bytes_note addr ram

theorem toNat_nextWord (addr : UInt32) :
    (nextWord addr).toNat = min (addr.toNat + 1) 4294967295 := by
  have hAddr := addr.toNat_lt
  unfold nextWord
  split
  · rename_i hLargest
    rw [hLargest]
    rfl
  · rename_i hSmaller
    have hNat : addr.toNat ≠ 4294967295 := fun h => hSmaller (UInt32.toNat_inj.mp h)
    rw [UInt32.toNat_add, UInt32.toNat_one]
    omega

theorem toNat_extent_note (addr : UInt32) (ram : Ram) :
    (ram.note addr).extent.toNat = max ram.extent.toNat (nextWord addr).toNat := by
  unfold note
  split
  · rename_i hFarther
    exact (Nat.max_eq_right (Nat.le_of_lt (UInt32.lt_iff_toNat_lt.mp hFarther))).symm
  · rename_i hNear
    rw [UInt32.lt_iff_toNat_lt] at hNear
    exact (Nat.max_eq_left (Nat.le_of_not_lt hNear)).symm

/-- The greatest of some addresses plus one, held at the largest word; zero if there is none. -/
def farthest (addrs : List UInt32) : Nat :=
  (addrs.map fun addr => min (addr.toNat + 1) 4294967295).foldr max 0

theorem farthest_cons (addr : UInt32) (addrs : List UInt32) :
    farthest (addr :: addrs) = max (nextWord addr).toNat (farthest addrs) := by
  rw [toNat_nextWord]
  rfl

theorem farthest_append (addrs more : List UInt32) :
    farthest (addrs ++ more) = max (farthest addrs) (farthest more) := by
  induction addrs with
  | nil => exact (Nat.zero_max _).symm
  | cons addr addrs ih => rw [List.cons_append, farthest_cons, farthest_cons, ih, Nat.max_assoc]

theorem toNat_extent_notedAll (addrs : List UInt32) (ram : Ram) :
    (notedAll addrs ram).extent.toNat = max ram.extent.toNat (farthest addrs) := by
  induction addrs generalizing ram with
  | nil => exact (Nat.max_zero _).symm
  | cons addr addrs ih =>
      have hNoted : (ReadableMemory.noted addr ram).extent.toNat = _ := toNat_extent_note addr ram
      rw [notedAll_cons, ih, hNoted, farthest_cons, Nat.max_assoc]

end Ram

theorem Flawed.notedAll_eq (addrs : List UInt32) (memory : Flawed) :
    notedAll addrs memory = { memory with ram := notedAll addrs memory.ram } := by
  induction addrs generalizing memory with
  | nil => rfl
  | cons addr addrs ih =>
      rw [notedAll_cons, ih]
      rfl

theorem Flawed.bytes_notedAll (addrs : List UInt32) (memory : Flawed) :
    (notedAll addrs memory).ram.bytes = memory.ram.bytes := by
  rw [notedAll_eq]
  exact Ram.bytes_notedAll addrs memory.ram

end FirstStage
