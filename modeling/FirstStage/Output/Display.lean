import FirstStage.Decimal.Field

/-! # Displays

A display takes one character after another. Text and numbers are sent to it character by
character.
-/

namespace FirstStage

class Display (D : Type) where
  put : UInt8 → D → D

namespace Display

variable {D : Type} [Display D]

def text (bytes : List UInt8) (display : D) : D := bytes.foldl (fun d b => put b d) display

theorem text_append (first second : List UInt8) (display : D) :
    text (first ++ second) display = text second (text first display) := List.foldl_append

/-- A number without leading zeros. -/
def decimal (num : UInt32) : Act D Unit := fun display =>
  match Decimal.Field.render num with
  | .ok field => .ok () (text field.digits display)
  | .error fault => .error fault display

/-- What can be sent to a display. -/
inductive Message where
  | byte (value : UInt8)
  | text (bytes : List UInt8)
  | decimal (num : UInt32)

def send : Message → Act D Unit
  | .byte value => modify (put value)
  | .text bytes => modify (text bytes)
  | .decimal num => decimal num

end Display

end FirstStage
