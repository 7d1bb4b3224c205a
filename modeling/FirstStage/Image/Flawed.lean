import FirstStage.Image.Ram

/-! # An image whose copies go wrong

Every copy that succeeds is followed by one stray byte at a fixed place. The stray byte faults if
that place is not inside the image, and the copy has then been made all the same.
-/

namespace FirstStage

structure Flawed where
  ram : Ram
  offset : Nat
  value : UInt8

namespace Flawed

def onRam {α : Type} (act : Act Ram α) : Act Flawed α :=
  act.within (·.ram) (fun ram memory => { memory with ram })

def copy (dest src length : UInt32) : Act Flawed Unit := do
  onRam (Ram.copy dest src length)
  let memory ← get
  onRam (Ram.place memory.offset [memory.value])

instance : ReadableMemory Flawed where
  read addr := onRam (ImageMemory.read addr)
  copy := copy
  view memory := memory.ram.view
  noted addr memory := { memory with ram := memory.ram.note addr }
  read_eq _ _ := rfl
  view_noted addr memory := ReadableMemory.view_noted addr memory.ram

end Flawed

end FirstStage
