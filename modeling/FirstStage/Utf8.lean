/-! # Text as bytes -/

namespace FirstStage

def utf8 (text : String) : List UInt8 := text.toByteArray.data.toList

theorem utf8_append (s t : String) : utf8 (s ++ t) = utf8 s ++ utf8 t := by
  simp [utf8, String.toByteArray_append]

end FirstStage
