import FirstStage.Proofs.Image.Reads
import FirstStage.Relocation.Landing

/-! # The verdict on a landing

Whether a stub may be called depends on the bytes alone. When the payload lies below the copy, the
stub must begin inside the payload, and as much of it as the probe holds must have been copied
unchanged.
-/

namespace FirstStage

def AgreeFrom (view : UInt32 → UInt8) (target link : UInt32) (i left : Nat) : Prop :=
  ∀ k < left, view (target + .ofNat (i + k)) = view (link + .ofNat (i + k))

instance (view : UInt32 → UInt8) (target link : UInt32) (i left : Nat) :
    Decidable (AgreeFrom view target link i left) := inferInstanceAs (Decidable (∀ k < left, _))

theorem agreeFrom_zero_iff {view : UInt32 → UInt8} {target link : UInt32} {left : Nat} :
    AgreeFrom view target link 0 left ↔
      ∀ k < left, view (target + .ofNat k) = view (link + .ofNat k) := by
  simp only [AgreeFrom, Nat.zero_add]

theorem agreeFrom_succ_iff (view : UInt32 → UInt8) (target link : UInt32) (i left : Nat) :
    AgreeFrom view target link i (left + 1) ↔
      view (target + .ofNat i) = view (link + .ofNat i) ∧
        AgreeFrom view target link (i + 1) left := by
  constructor
  · intro h
    refine ⟨h 0 (Nat.succ_pos left), fun k hk => ?_⟩
    have hNext := h (k + 1) (Nat.succ_lt_succ hk)
    rwa [show i + (k + 1) = i + 1 + k by omega] at hNext
  · rintro ⟨hHere, hRest⟩ k hk
    cases k with
    | zero => exact hHere
    | succ k =>
        rw [show i + (k + 1) = i + 1 + k by omega]
        exact hRest k (Nat.lt_of_succ_lt_succ hk)

/-- The addresses at which the comparison reads; it ends with the first difference. -/
def probeAddresses (view : UInt32 → UInt8) (target link : UInt32) (i : Nat) :
    (left : Nat) → List UInt32
  | 0 => []
  | left + 1 =>
      (target + .ofNat i) :: (link + .ofNat i) ::
        if view (target + .ofNat i) = view (link + .ofNat i)
        then probeAddresses view target link (i + 1) left else []

namespace Plan

def verdict (plan : Plan) (view : UInt32 → UInt8) (stub : Stub) : Except LandingError UInt32 :=
  let target := shifted stub.link
  if plan.Covers target then
    if AgreeFrom view target stub.link 0 (plan.probeLength target) then .ok target
    else .error (.mismatch target)
  else .error (.outside target)

def probed (plan : Plan) (view : UInt32 → UInt8) (stub : Stub) : List UInt32 :=
  let target := shifted stub.link
  if plan.Covers target then
    probeAddresses view target stub.link 0 (plan.probeLength target)
  else []

end Plan

section Reading

variable {M : Type} [ReadableMemory M]

theorem agreeFrom_run (memory : M) (target link : UInt32) (i left : Nat) :
    (agreeFrom target link (.ofNat i) left).run memory =
      .ok (decide (AgreeFrom (ReadableMemory.view memory) target link i left))
        (notedAll (probeAddresses (ReadableMemory.view memory) target link i left) memory) := by
  induction left generalizing i memory with
  | zero =>
      have hEmpty : AgreeFrom (ReadableMemory.view memory) target link i 0 :=
        fun k hk => absurd hk (Nat.not_lt_zero k)
      rw [decide_eq_true hEmpty]
      rfl
  | succ left ih =>
      have hNext : UInt32.ofNat i + 1 = .ofNat (i + 1) := (UInt32.ofNat_add i 1).symm
      have hLanded := ReadableMemory.read_eq (target + .ofNat i) memory
      have hLinked := ReadableMemory.read_eq (link + .ofNat i)
        (ReadableMemory.noted (target + .ofNat i) memory)
      rw [ReadableMemory.view_noted] at hLinked
      rw [agreeFrom, Act.bind_ok hLanded, Act.bind_ok hLinked, probeAddresses]
      by_cases hSame : ReadableMemory.view memory (target + .ofNat i) =
          ReadableMemory.view memory (link + .ofNat i)
      · rw [if_pos hSame, if_pos hSame, hNext, ih, ReadableMemory.view_noted,
          ReadableMemory.view_noted]
        simp only [agreeFrom_succ_iff, hSame, true_and, notedAll_cons]
      · rw [if_neg hSame, if_neg hSame]
        simp only [agreeFrom_succ_iff, hSame, false_and, decide_false, notedAll_cons, notedAll_nil]
        rfl

theorem Plan.landing_run (plan : Plan) (stub : Stub) (memory : M) :
    (plan.landing stub).run memory =
      .ok (plan.verdict (ReadableMemory.view memory) stub)
        (notedAll (plan.probed (ReadableMemory.view memory) stub) memory) := by
  have hAgree := agreeFrom_run memory (shifted stub.link) stub.link 0
    (plan.probeLength (shifted stub.link))
  unfold Plan.landing Plan.verdict Plan.probed
  by_cases hCovers : plan.Covers (shifted stub.link)
  · rw [if_pos hCovers, if_pos hCovers, if_pos hCovers]
    refine (Act.bind_ok hAgree).trans ?_
    by_cases hSame : AgreeFrom (ReadableMemory.view memory) (shifted stub.link) stub.link 0
        (plan.probeLength (shifted stub.link))
    · rw [decide_eq_true hSame, if_pos hSame]
      rfl
    · rw [decide_eq_false hSame, if_neg hSame]
      rfl
  · rw [if_neg hCovers, if_neg hCovers, if_neg hCovers]
    rfl

theorem Plan.exists_landing_run {plan : Plan} {stub : Stub} {memory : M}
    {landing : Except LandingError UInt32}
    (h : plan.verdict (ReadableMemory.view memory) stub = landing) :
    ∃ left, (plan.landing stub).run memory = .ok landing left := by
  subst h
  exact ⟨_, plan.landing_run stub memory⟩

end Reading

namespace Plan

theorem verdict_of_not_covers {plan : Plan} {stub : Stub} (h : ¬ plan.Covers (shifted stub.link))
    (view : UInt32 → UInt8) : plan.verdict view stub = .error (.outside (shifted stub.link)) :=
  if_neg h

theorem verdict_of_covers {plan : Plan} {stub : Stub} (h : plan.Covers (shifted stub.link))
    (view : UInt32 → UInt8) :
    plan.verdict view stub =
      if AgreeFrom view (shifted stub.link) stub.link 0 (plan.probeLength (shifted stub.link))
      then .ok (shifted stub.link) else .error (.mismatch (shifted stub.link)) := if_pos h

theorem verdict_eq_ok_iff {plan : Plan} {view : UInt32 → UInt8} {stub : Stub} {addr : UInt32} :
    plan.verdict view stub = .ok addr ↔
      addr = shifted stub.link ∧ plan.Covers (shifted stub.link) ∧
        AgreeFrom view (shifted stub.link) stub.link 0 (plan.probeLength (shifted stub.link)) := by
  unfold verdict
  dsimp only
  split
  · split <;> simp_all [eq_comm]
  · simp_all

end Plan

end FirstStage
