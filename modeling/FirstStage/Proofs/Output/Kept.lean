import FirstStage.Output.Screen
import FirstStage.Output.Transcript
import Mathlib.Algebra.Group.Nat.Defs

/-! # What the displays keep

A transcript keeps the characters up to its capacity. A screen keeps one in each cell behind the
cursor, as far as it has cells.
-/

namespace FirstStage

theorem Display.text_cons {D : Type} [Display D] (b : UInt8) (rest : List UInt8) (display : D) :
    text (b :: rest) display = text rest (put b display) := rfl

theorem Transcript.text_eq (bytes : List UInt8) (transcript : Transcript) :
    Display.text bytes transcript =
      { transcript with
        kept := transcript.kept ++ (bytes.take (transcript.capacity - transcript.written)).toArray
        written := transcript.written + bytes.length } := by
  induction bytes generalizing transcript with
  | nil => simp [Display.text]
  | cons b rest ih =>
      have hPut : Display.put b transcript = transcript.put b := rfl
      rw [Display.text_cons, ih, hPut]
      by_cases hRoom : transcript.written < transcript.capacity
      · have hLeft : transcript.capacity - transcript.written =
            transcript.capacity - (transcript.written + 1) + 1 := by omega
        simp [put, hRoom, hLeft, List.take_succ_cons, Nat.add_assoc, Nat.add_comm rest.length]
      · have hFull : transcript.capacity - transcript.written = 0 := by omega
        have hFull' : transcript.capacity - (transcript.written + 1) = 0 := by omega
        simp [put, hRoom, hFull, hFull', Nat.add_assoc, Nat.add_comm rest.length]

theorem Transcript.text_ofCapacity {bytes : List UInt8} {capacity : Nat}
    (h : bytes.length ≤ capacity) :
    Display.text bytes (ofCapacity capacity) =
      { capacity, kept := bytes.toArray, written := bytes.length } := by
  rw [text_eq]
  simp [ofCapacity, List.take_of_length_le h]

namespace Screen

variable {screen : Screen} {cell : Nat}

theorem character?_setCharacter_of_ne {other : Nat} (h : other ≠ cell) (value : UInt8)
    (screen : Screen) :
    (screen.setCharacter other value).character? cell = screen.character? cell := by
  apply Array.getElem?_setIfInBounds_ne
  rw [Layout.cellSize]
  omega

theorem character?_setCharacter (h : Layout.cellSize * cell < screen.vram.size) (value : UInt8) :
    (screen.setCharacter cell value).character? cell = some value :=
  Array.getElem?_setIfInBounds_self_of_lt h

theorem text_cons (b : UInt8) (rest : List UInt8) (screen : Screen) :
    Display.text (b :: rest) screen = Display.text rest (screen.put b) :=
  Display.text_cons b rest screen

theorem written_text (bytes : List UInt8) (screen : Screen) :
    (Display.text bytes screen).written = screen.written + bytes.length := by
  induction bytes generalizing screen with
  | nil => rfl
  | cons b rest ih =>
      rw [text_cons, ih, List.length_cons]
      change screen.written + 1 + _ = _
      omega

/-- The cells up to the cursor are left alone. -/
theorem character?_text_of_le (h : cell ≤ screen.written) (bytes : List UInt8) :
    (Display.text bytes screen).character? cell = screen.character? cell := by
  induction bytes generalizing screen with
  | nil => rfl
  | cons b rest ih =>
      rw [text_cons, ih (Nat.le_succ_of_le h)]
      exact character?_setCharacter_of_ne (by omega) b screen

theorem character?_text {bytes : List UInt8}
    (hRoom : Layout.cellSize * (screen.written + bytes.length) < screen.vram.size) {k : Nat}
    (hk : k < bytes.length) :
    (Display.text bytes screen).character? (screen.written + 1 + k) = bytes[k]? := by
  induction bytes generalizing screen k with
  | nil => exact absurd hk (Nat.not_lt_zero k)
  | cons b rest ih =>
      have hCursor : (screen.put b).written = screen.written + 1 := rfl
      have hSize : (screen.put b).vram.size = screen.vram.size := size_setCharacter _ b screen
      rw [List.length_cons] at hRoom
      rw [text_cons, ← hCursor]
      cases k with
      | zero =>
          rw [Nat.add_zero, character?_text_of_le (Nat.le_refl _), List.getElem?_cons_zero]
          refine character?_setCharacter ?_ b
          rw [Layout.cellSize] at hRoom ⊢
          omega
      | succ k =>
          have hRest : Layout.cellSize * ((screen.put b).written + rest.length) <
              (screen.put b).vram.size := by
            rwa [hCursor, hSize, Nat.add_assoc, Nat.add_comm 1]
          rw [List.getElem?_cons_succ, ← ih hRest (Nat.lt_of_succ_lt_succ hk), Nat.add_assoc _ 1,
            Nat.add_comm 1]

theorem attr?_setCharacter (other : Nat) (value : UInt8) (screen : Screen) (cell : Nat) :
    (screen.setCharacter other value).attr? cell = screen.attr? cell := by
  apply Array.getElem?_setIfInBounds_ne
  rw [Layout.cellSize]
  omega

theorem size_text (bytes : List UInt8) (screen : Screen) :
    (Display.text bytes screen).vram.size = screen.vram.size := by
  induction bytes generalizing screen with
  | nil => rfl
  | cons b rest ih =>
      rw [text_cons, ih]
      exact size_setCharacter _ b screen

theorem attr?_text (bytes : List UInt8) (screen : Screen) (cell : Nat) :
    (Display.text bytes screen).attr? cell = screen.attr? cell := by
  induction bytes generalizing screen with
  | nil => rfl
  | cons b rest ih =>
      rw [text_cons, ih]
      exact attr?_setCharacter _ b screen cell

/-- The cells that the cursor has not reached are left alone. -/
theorem character?_text_of_lt {bytes : List UInt8} (h : screen.written + bytes.length < cell) :
    (Display.text bytes screen).character? cell = screen.character? cell := by
  induction bytes generalizing screen with
  | nil => rfl
  | cons b rest ih =>
      have hCursor : (screen.put b).written = screen.written + 1 := rfl
      rw [List.length_cons] at h
      rw [text_cons, ih (by rw [hCursor]; omega)]
      exact character?_setCharacter_of_ne (by omega) b screen

theorem selfTest_put (b : UInt8) (screen : Screen) :
    (screen.put b).selfTest = screen.selfTest.put b := by
  have hCells : Layout.cellSize * (screen.written + 1) ≠ Layout.cellSize * 0 := by
    rw [Layout.cellSize]
    omega
  unfold selfTest put setCharacter
  rw [Array.setIfInBounds_comm _ _ hCells]

theorem selfTest_text (bytes : List UInt8) (screen : Screen) :
    (Display.text bytes screen).selfTest = Display.text bytes screen.selfTest := by
  induction bytes generalizing screen with
  | nil => rfl
  | cons b rest ih => rw [text_cons, text_cons, ih, selfTest_put]

theorem selfTest_selfTest (screen : Screen) : screen.selfTest.selfTest = screen.selfTest := by
  unfold selfTest setCharacter
  rw [Array.setIfInBounds_setIfInBounds]

end Screen

end FirstStage
