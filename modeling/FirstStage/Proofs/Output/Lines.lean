import FirstStage.Output.Uart
import FirstStage.Proofs.Decimal.Numerals
import Mathlib.Data.List.Basic

/-! # Lines on the console

A ready console sends every byte it is given, whatever the status reads answer. Texts without
control characters, each followed by a line feed, go out as lines that end in carriage return and
line feed, and the output splits into the same texts again.
-/

namespace FirstStage

namespace Uart

/-- The bytes that have left at the data port. -/
def sent (uart : Uart) (events : List PortEvent) : List UInt8 :=
  events.filterMap fun
    | .out port value => if port = uart.port then some value else none
    | .inp _ _ => none

theorem sent_append (uart : Uart) (events events' : List PortEvent) :
    uart.sent (events ++ events') = uart.sent events ++ uart.sent events' := List.filterMap_append

theorem sent_out_cons (uart : Uart) (value : UInt8) (events : List PortEvent) :
    uart.sent (.out uart.port value :: events) = value :: uart.sent events :=
  List.filterMap_cons_some (if_pos rfl)

theorem sent_inp_cons (uart : Uart) (port : UInt16) (value : UInt8) (events : List PortEvent) :
    uart.sent (.inp port value :: events) = uart.sent events :=
  List.filterMap_cons_none rfl

theorem sent_poll (uart : Uart) (replies : List UInt8) : uart.sent (uart.poll replies).1 = [] := by
  induction replies with
  | nil => rfl
  | cons reply rest ih =>
      rw [poll]
      split
      · exact (sent_inp_cons _ _ _ _).trans ih
      · rfl

theorem sent_send {uart : Uart} (hReady : uart.ready = true) (bytes replies : List UInt8) :
    uart.sent (uart.send bytes replies) = bytes := by
  induction bytes generalizing replies with
  | nil => rfl
  | cons b rest ih =>
      rw [send, if_pos hReady]
      dsimp only
      rw [sent_append, sent_poll, List.nil_append, sent_out_cons, ih]

theorem wire_of_notMem {bytes : List UInt8} (h : 0x0A ∉ bytes) : wire bytes = bytes := by
  induction bytes with
  | nil => rfl
  | cons b rest ih =>
      rw [List.mem_cons, not_or] at h
      rw [wire, if_neg (Ne.symm h.1), ih h.2]

end Uart

/-- The pieces of an output between its line ends, carriage return and line feed. -/
def splitLines : List UInt8 → List (List UInt8)
  | [] => [[]]
  | 0x0D :: 0x0A :: rest => [] :: splitLines rest
  | b :: rest => (splitLines rest).modifyHead (b :: ·)

theorem splitLines_append {line : List UInt8} (h : 0x0D ∉ line) (rest : List UInt8) :
    splitLines (line ++ 0x0D :: 0x0A :: rest) = line :: splitLines rest := by
  induction line with
  | nil => rw [List.nil_append, splitLines]
  | cons b line ih =>
      rw [List.mem_cons, not_or] at h
      rw [List.cons_append, splitLines, ih h.2, List.modifyHead_cons]
      rintro _ rfl
      exact absurd rfl h.1

/-- A text without control characters. -/
def Printable (text : String) : Prop := ∀ b ∈ utf8 text, 0x20 ≤ b

instance (text : String) : Decidable (Printable text) :=
  List.decidableBAll (0x20 ≤ ·) (utf8 text)

namespace Printable

theorem append_iff {s t : String} : Printable (s ++ t) ↔ Printable s ∧ Printable t := by
  unfold Printable
  rw [utf8_append, List.forall_mem_append]

theorem decimal (n : Nat) : Printable (Numeral.decimal n) := by
  intro b hb
  rw [Decimal.utf8_decimal] at hb
  have hDigit := Decimal.isDigit_of_mem_lowDigits hb
  rw [Decimal.isDigit, Bool.and_eq_true, decide_eq_true_eq] at hDigit
  exact UInt8.le_trans (by decide) hDigit.1

theorem toDigits (n : Nat) : Printable (String.ofList (Nat.toDigits 16 n)) := by
  have hDigit : ∀ d < 16, Printable (String.ofList [Nat.digitChar d]) := by decide
  induction n using Nat.strongRecOn with
  | ind n ih =>
    by_cases hSmall : n < 16
    · rw [Nat.toDigits_of_lt_base hSmall]
      exact hDigit n hSmall
    · rw [Nat.toDigits_of_base_le (by decide) (Nat.not_lt.mp hSmall), String.ofList_append,
        append_iff]
      exact ⟨ih (n / 16) (by omega), hDigit _ (Nat.mod_lt n (by decide))⟩

theorem hex (n : Nat) : Printable (Numeral.hex n) := append_iff.mpr ⟨by decide, toDigits n⟩

theorem intercalate {separator : String} (hSeparator : Printable separator) {texts : List String}
    (h : ∀ text ∈ texts, Printable text) : Printable (separator.intercalate texts) := by
  induction texts with
  | nil => exact (by decide : Printable "")
  | cons text rest ih =>
      rw [List.forall_mem_cons] at h
      cases rest with
      | nil =>
          rw [String.intercalate_singleton]
          exact h.1
      | cons next rest =>
          rw [String.intercalate_cons_cons, append_iff, append_iff]
          exact ⟨⟨h.1, hSeparator⟩, ih h.2⟩

theorem notMem_of_lt {text : String} (h : Printable text) {b : UInt8} (hb : b < 0x20) :
    b ∉ utf8 text := fun hMem => absurd (h b hMem) (UInt8.not_le.mpr hb)

theorem wire_eq {text : String} (h : Printable text) :
    Uart.wire (utf8 (text ++ "\n")) = utf8 text ++ [0x0D, 0x0A] := by
  rw [utf8_append, Uart.wire_append, Uart.wire_of_notMem (h.notMem_of_lt (by decide))]
  rfl

end Printable

end FirstStage
