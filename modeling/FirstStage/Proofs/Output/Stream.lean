import FirstStage.Proofs.Decimal.Numerals
import FirstStage.Proofs.Output.Kept

/-! # One stream on every display

A display knows a sequence of messages only by the characters in it. A transcript and a screen
therefore record the same stream, the one up to its capacity and the other behind its first cell,
and a self test in between changes that first cell and nothing else.
-/

namespace FirstStage

namespace Display

/-- The characters of a message, with its number spelled out. -/
def Message.characters : Message → List UInt8
  | .byte value => [value]
  | .text bytes => bytes
  | .decimal num => utf8 (Numeral.decimal num.toNat)

def stream (messages : List Message) : List UInt8 := messages.flatMap Message.characters

theorem stream_cons (message : Message) (rest : List Message) :
    stream (message :: rest) = message.characters ++ stream rest := List.flatMap_cons

section Sending

variable {D : Type} [Display D]

def sendAll : List Message → Act D Unit
  | [] => return
  | message :: rest => do
      send message
      sendAll rest

theorem send_run (message : Message) (display : D) :
    (send message).run display = .ok () (text message.characters display) := by
  cases message with
  | byte value => rfl
  | text bytes => rfl
  | decimal num =>
      rw [Message.characters, ← Decimal.digits_eq]
      exact decimal_run num display

theorem sendAll_run (messages : List Message) (display : D) :
    (sendAll messages).run display = .ok () (text (stream messages) display) := by
  induction messages generalizing display with
  | nil => rfl
  | cons message rest ih =>
      rw [sendAll, Act.bind_ok (send_run message display), ih, stream_cons, text_append]

end Sending

end Display

namespace Screen

/-- What can happen to a screen: a message is written, or the self test runs. -/
inductive Step where
  | write (message : Display.Message)
  | selfTest

namespace Step

/-- What is written in a sequence of steps. -/
def messages (steps : List Step) : List Display.Message :=
  steps.filterMap fun
    | .write message => some message
    | .selfTest => none

theorem messages_write (message : Display.Message) (rest : List Step) :
    messages (.write message :: rest) = message :: messages rest := rfl

theorem messages_selfTest (rest : List Step) : messages (.selfTest :: rest) = messages rest := rfl

def perform : Step → Act Screen Unit
  | .write message => Display.send message
  | .selfTest => modify Screen.selfTest

def performAll : List Step → Act Screen Unit
  | [] => return
  | step :: rest => do
      step.perform
      performAll rest

end Step

/-- A screen after the characters of a text, against the screen before them. -/
structure Shows (before : Screen) (text : List UInt8) (after : Screen) : Prop where
  written_eq : after.written = text.length
  size_eq : after.vram.size = before.vram.size
  character_eq : ∀ cell, 1 ≤ cell → cell ≤ text.length → after.character? cell = text[cell - 1]?
  later_eq : ∀ cell, text.length < cell → after.character? cell = before.character? cell
  attr_eq : ∀ cell, after.attr? cell = before.attr? cell

/-- The screens differ in the character of the first cell, if at all. -/
structure SameBehindFirst (screen screen' : Screen) : Prop where
  written_eq : screen'.written = screen.written
  size_eq : screen'.vram.size = screen.vram.size
  character_eq : ∀ cell, cell ≠ 0 → screen'.character? cell = screen.character? cell
  attr_eq : ∀ cell, screen'.attr? cell = screen.attr? cell

theorem sameBehindFirst_selfTest (screen : Screen) : screen.SameBehindFirst screen.selfTest where
  written_eq := rfl
  size_eq := size_setCharacter 0 selfTestSign screen
  character_eq _ hCell := character?_setCharacter_of_ne hCell.symm selfTestSign screen
  attr_eq := attr?_setCharacter 0 selfTestSign screen

theorem shows_text {screen : Screen} {text : List UInt8} (hFresh : screen.written = 0)
    (hRoom : Layout.cellSize * text.length < screen.vram.size) :
    screen.Shows text (Display.text text screen) where
  written_eq := by rw [written_text, hFresh, Nat.zero_add]
  size_eq := size_text text screen
  character_eq cell hFirst hLast := by
    obtain ⟨k, rfl⟩ := Nat.exists_eq_add_of_le hFirst
    have hBehind : Layout.cellSize * (screen.written + text.length) < screen.vram.size := by
      rwa [hFresh, Nat.zero_add]
    have hCell := character?_text hBehind (by omega : k < text.length)
    rw [Nat.add_sub_cancel_left, ← hCell, hFresh, Nat.zero_add]
  later_eq cell hCell := character?_text_of_lt (by rwa [hFresh, Nat.zero_add])
  attr_eq := attr?_text text screen

theorem Shows.characters_eq {before after : Screen} {text : List UInt8}
    (h : before.Shows text after) :
    (List.range' 1 text.length).map after.character? = text.map some := by
  apply List.ext_getElem
  · rw [List.length_map, List.length_range', List.length_map]
  · intro k hk hk'
    rw [List.length_map] at hk'
    rw [List.getElem_map, List.getElem_map, List.getElem_range', Nat.one_mul,
      h.character_eq _ (Nat.le_add_right 1 k) (by omega), Nat.add_sub_cancel_left,
      List.getElem?_eq_getElem hk']

/-- The self test may run at any time and more than once: it leaves its sign on what the messages
alone would show. -/
theorem performAll_run (steps : List Step) (screen : Screen) :
    ∃ after, (Step.performAll steps).run screen = .ok () after ∧
      ((.selfTest ∉ steps ∧
          after = Display.text (Display.stream (Step.messages steps)) screen) ∨
        (.selfTest ∈ steps ∧
          after = (Display.text (Display.stream (Step.messages steps)) screen).selfTest)) := by
  induction steps generalizing screen with
  | nil => exact ⟨screen, rfl, Or.inl ⟨List.not_mem_nil, rfl⟩⟩
  | cons step rest ih =>
      cases step with
      | write message =>
          have hFirst : (Step.perform (.write message)).run screen = _ :=
            Display.send_run message screen
          obtain ⟨after, hRun, hAfter⟩ := ih (Display.text message.characters screen)
          refine ⟨after, (Act.bind_ok hFirst).trans hRun, ?_⟩
          rw [Step.messages_write, Display.stream_cons, Display.text_append, List.mem_cons]
          simpa only [reduceCtorEq, false_or] using hAfter
      | selfTest =>
          have hFirst : (Step.perform .selfTest).run screen = .ok () screen.selfTest := rfl
          obtain ⟨after, hRun, hAfter⟩ := ih screen.selfTest
          refine ⟨after, (Act.bind_ok hFirst).trans hRun, Or.inr ⟨List.mem_cons_self, ?_⟩⟩
          rw [← selfTest_text, selfTest_selfTest] at hAfter
          rw [Step.messages_selfTest]
          exact hAfter.elim And.right And.right

/-- What steps on a screen leave, against what their messages alone have left. -/
structure MarkedBy (steps : List Step) (shown after : Screen) : Prop where
  of_unmarked : .selfTest ∉ steps → after = shown
  of_marked : .selfTest ∈ steps →
    after.character? 0 = (utf8 "q").head? ∧ shown.SameBehindFirst after

theorem exists_marked_run (steps : List Step) {screen : Screen} (hCells : 0 < screen.vram.size) :
    ∃ after, (Step.performAll steps).run screen = .ok () after ∧
      MarkedBy steps (Display.text (Display.stream (Step.messages steps)) screen) after := by
  obtain ⟨after, hRun, hAfter⟩ := performAll_run steps screen
  refine ⟨after, hRun, ?_⟩
  rcases hAfter with ⟨hUnmarked, rfl⟩ | ⟨hMarked, rfl⟩
  · exact ⟨fun _ => rfl, fun hMarked => absurd hMarked hUnmarked⟩
  · refine ⟨fun hUnmarked => absurd hMarked hUnmarked, fun _ => ⟨?_, sameBehindFirst_selfTest _⟩⟩
    rw [selfTest_text]
    refine (character?_text_of_le (Nat.zero_le _) _).trans ?_
    exact character?_setCharacter hCells selfTestSign

end Screen

namespace Display

/-- A transcript of any capacity keeps the first characters of the stream and counts all of them; a
screen with a cell more than the stream shows it in the cells behind the first, and a self test at
any time leaves its sign in the first cell and changes nothing else. -/
theorem displays_record_stream (messages : List Message) (capacity : Nat) {screen : Screen}
    {cells : Nat} (hFresh : screen.written = 0)
    (hCells : screen.vram.size = Layout.cellSize * cells)
    (hRoom : (stream messages).length < cells) :
    ∃ transcript shown,
      (sendAll messages).run (Transcript.ofCapacity capacity) = .ok () transcript ∧
      (sendAll messages).run screen = .ok () shown ∧
      transcript.written = (stream messages).length ∧
      transcript.kept.toList = (stream messages).take (min capacity (stream messages).length) ∧
      screen.Shows (stream messages) shown ∧
      shown.character? 0 = screen.character? 0 ∧
      ((stream messages).length ≤ capacity →
        (List.range' 1 (stream messages).length).map shown.character? =
          transcript.kept.toList.map some) ∧
      ∀ steps, Screen.Step.messages steps = messages →
        ∃ after, (Screen.Step.performAll steps).run screen = .ok () after ∧
          Screen.MarkedBy steps shown after := by
  have hSize : Layout.cellSize * (stream messages).length < screen.vram.size := by
    rw [hCells]
    exact Nat.mul_lt_mul_of_pos_left hRoom (by decide)
  have hShows := Screen.shows_text hFresh hSize
  have hKept : (text (stream messages) (Transcript.ofCapacity capacity)).kept.toList =
      (stream messages).take capacity := by
    rw [Transcript.text_eq]
    exact Array.toList_append.trans (List.nil_append _)
  refine ⟨_, _, sendAll_run messages _, sendAll_run messages screen, ?_, ?_, hShows,
    Screen.character?_text_of_le (Nat.zero_le _) _, ?_, ?_⟩
  · rw [Transcript.text_eq]
    exact Nat.zero_add _
  · rw [hKept, List.take_eq_take_min]
  · intro hCapacity
    rw [hShows.characters_eq, hKept, List.take_of_length_le hCapacity]
  · rintro steps rfl
    exact Screen.exists_marked_run steps (Nat.zero_lt_of_lt hSize)

/-- A transcript that is too short for the stream, and a screen whose self test runs between two
messages. -/
theorem displays_record_stream_of_short :
    ∃ transcript shown after,
      (sendAll [.text (utf8 "12"), .decimal 7, .byte 0x21]).run (Transcript.ofCapacity 2) =
        .ok () transcript ∧
      (sendAll [.text (utf8 "12"), .decimal 7, .byte 0x21]).run (Screen.filled 6 0x20 0x07) =
        .ok () shown ∧
      (Screen.Step.performAll [.write (.text (utf8 "12")), .selfTest, .write (.decimal 7),
        .write (.byte 0x21)]).run (Screen.filled 6 0x20 0x07) = .ok () after ∧
      transcript.written = 4 ∧ transcript.kept.toList = utf8 "12" ∧
      shown.character? 3 = some 0x37 ∧ shown.character? 5 = some 0x20 ∧
      after.character? 0 = some 0x71 ∧ after.character? 3 = some 0x37 := by
  have hStream : stream [.text (utf8 "12"), .decimal 7, .byte 0x21] = utf8 "127!" := by decide
  obtain ⟨transcript, shown, hTranscript, hShown, hWritten, hKept, hShows, -, -, hMarked⟩ :=
    displays_record_stream [.text (utf8 "12"), .decimal 7, .byte 0x21] 2
      (rfl : (Screen.filled 6 0x20 0x07).written = 0) (rfl : _ = Layout.cellSize * 6)
      (by rw [hStream]; decide)
  obtain ⟨after, hAfter, -, hSign⟩ := hMarked [.write (.text (utf8 "12")), .selfTest,
    .write (.decimal 7), .write (.byte 0x21)] rfl
  obtain ⟨hFirst, hBehind⟩ := hSign (List.mem_cons_of_mem _ List.mem_cons_self)
  rw [hStream] at hWritten hKept hShows
  have hThird : shown.character? 3 = some 0x37 := hShows.character_eq 3 (by decide) (by decide)
  have hFifth : shown.character? 5 = some 0x20 := hShows.later_eq 5 (by decide)
  exact ⟨transcript, shown, after, hTranscript, hShown, hAfter, hWritten, hKept, hThird, hFifth,
    hFirst, (hBehind.character_eq 3 (by decide)).trans hThird⟩

end Display

end FirstStage
