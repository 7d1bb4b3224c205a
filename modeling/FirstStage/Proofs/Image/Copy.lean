import FirstStage.Proofs.Relocation.Payload

/-! # The meaning of a copy

A copy changes its destination alone. What it leaves there is the source as it was, unless the
destination begins inside the source: then the bytes in front of the destination repeat. An image
in an array makes every copy whose ranges it holds, and refuses all others before a byte has moved.
-/

namespace FirstStage

/-- Bytes after a forward copy against the bytes before it. -/
structure Bytes.ForwardCopied (before : Bytes) (dest src length : Nat) (after : Bytes) : Prop where
  size_eq : after.size = before.size
  outside : ∀ index, index < dest ∨ dest + length ≤ index →
    after.byteAt index = before.byteAt index
  moved : dest ≤ src ∨ src + length ≤ dest →
    ∀ i < length, after.byteAt (dest + i) = before.byteAt (src + i)
  repeated : src < dest → dest < src + length →
    ∀ i < length, after.byteAt (dest + i) = before.byteAt (src + i % (dest - src))
  agree : src ≤ dest → ∀ i < length, after.byteAt (dest + i) = after.byteAt (src + i)

theorem Bytes.forwardCopied {bytes : Bytes} {dest length : Nat} (hFits : bytes.Fits dest length)
    (src : Nat) :
    ForwardCopied bytes dest src length (bytes.copyForward dest src length) where
  size_eq := size_copyForward bytes dest src length
  outside _ h := byteAt_copyForward_of_outside h
  moved hApart _ hi := byteAt_copyForward_of_apart hFits hi hApart
  repeated hAbove _ _ hi := byteAt_copyForward_of_above hFits hi hAbove
  agree hUp _ hi := byteAt_copyForward_agree hFits hi hUp

namespace Ram

/-- What comes of a copy on an image: it is made when both ranges lie inside, and otherwise, even
if it is empty, it faults with the image as it was. -/
structure CopyExact (ram : Ram) (dest src length : UInt32)
    (result : EStateM.Result Fault Ram Unit) : Prop where
  of_inside : src.toNat + length.toNat ≤ ram.bytes.size →
    dest.toNat + length.toNat ≤ ram.bytes.size →
    ∃ after, result = .ok () after ∧ after.extent = ram.extent ∧
      ram.bytes.ForwardCopied dest.toNat src.toNat length.toNat after.bytes
  of_outside : ram.bytes.size < src.toNat + length.toNat ∨
      ram.bytes.size < dest.toNat + length.toNat →
    ∃ fault, result = .error fault ram ∧ fault.message = "copy outside RamImage"

theorem copyExact_perform (ram : Ram) (plan : Plan) :
    CopyExact ram plan.dest plan.src plan.length ((plan.perform : Act Ram Unit).run ram) where
  of_inside hSrc hDest :=
    ⟨ram.moved plan, perform_run_of_holds ⟨hSrc, hDest⟩, rfl,
      Bytes.forwardCopied hDest plan.src.toNat⟩
  of_outside hOutside := by
    refine ⟨.copyOutside, perform_run_of_not_holds ?_, rfl⟩
    rintro ⟨hSrc, hDest⟩
    exact hOutside.elim (Nat.not_lt_of_le hSrc) (Nat.not_lt_of_le hDest)

/-- A forward copy inside any bytes, and the copies of an image with the plans that ask for them. -/
theorem copies_forward {bytes : Bytes} {dest length : Nat} (hFits : bytes.Fits dest length)
    (src : Nat) (ram : Ram) :
    bytes.ForwardCopied dest src length (bytes.copyForward dest src length) ∧
      (∀ dest src length : UInt32, CopyExact ram dest src length
        ((ImageMemory.copy dest src length : Act Ram Unit).run ram)) ∧
      ∀ plan : Plan, CopyExact ram plan.dest plan.src plan.length
        ((plan.perform : Act Ram Unit).run ram) :=
  ⟨Bytes.forwardCopied hFits src,
    fun dest src length => copyExact_perform ram ⟨src, dest, length⟩,
    copyExact_perform ram⟩

/-- Five bytes moved up by two: the first two of them are repeated. The empty copy behind the end is
refused. -/
theorem copies_forward_of_overlap :
    Bytes.Fits #[1, 2, 3, 4, 5, 6, 7] 2 5 ∧
      (Bytes.copyForward #[1, 2, 3, 4, 5, 6, 7] 2 0 5).byteAt 6 = 1 ∧
      ∃ fault, (ImageMemory.copy 8 0 0 : Act Ram Unit).run ⟨#[1, 2, 3, 4, 5, 6, 7], 0⟩ =
        .error fault ⟨#[1, 2, 3, 4, 5, 6, 7], 0⟩ := by
  have hFits : Bytes.Fits #[1, 2, 3, 4, 5, 6, 7] 2 5 := by decide
  obtain ⟨hCopied, hExact, -⟩ := copies_forward hFits 0 ⟨#[1, 2, 3, 4, 5, 6, 7], 0⟩
  obtain ⟨fault, hFault, -⟩ := (hExact 8 0 0).of_outside (by decide)
  exact ⟨hFits, hCopied.repeated (by decide) (by decide) 4 (by decide), fault, hFault⟩

end Ram

end FirstStage
