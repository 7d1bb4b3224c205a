/-! # Numerals

Numbers in messages are decimal; addresses and leftover bits are hexadecimal, with `0x` in front,
lowercase digits and no padding.
-/

namespace FirstStage.Numeral

def decimal (n : Nat) : String := String.ofList (Nat.toDigits 10 n)

def hex (n : Nat) : String := "0x" ++ String.ofList (Nat.toDigits 16 n)

end FirstStage.Numeral
