import FirstStage.Proofs.Image.Watched
import FirstStage.Proofs.Relocation.Ranges

/-! # The probe of a landing

A landing is judged by the exact ranges of its plan, whatever wraps in the plan or on the way to the
target. A covered target has a byte of the copy to compare, and the probe ends where the copy ends.
-/

namespace FirstStage

theorem exists_of_mem_probeAddresses {view : UInt32 → UInt8} {target link addr : UInt32}
    {i left : Nat} (h : addr ∈ probeAddresses view target link i left) :
    ∃ k < left, addr = target + .ofNat (i + k) ∨ addr = link + .ofNat (i + k) := by
  induction left generalizing i with
  | zero => cases h
  | succ left ih =>
      rw [probeAddresses, List.mem_cons, List.mem_cons] at h
      rcases h with hTarget | hLink | hRest
      · exact ⟨0, Nat.succ_pos left, Or.inl hTarget⟩
      · exact ⟨0, Nat.succ_pos left, Or.inr hLink⟩
      · split at hRest
        · obtain ⟨k, hk, hAddr⟩ := ih hRest
          refine ⟨k + 1, Nat.succ_lt_succ hk, ?_⟩
          rwa [show i + (k + 1) = i + 1 + k by omega]
        · cases hRest

namespace Plan

/-- How many bytes at a target are compared, worked out without wrapping. -/
def compared (plan : Plan) (target : UInt32) : Nat :=
  min 16 (plan.dest.toNat + plan.length.toNat - target.toNat)

theorem probeLength_of_covers {plan : Plan} {target : UInt32} (h : plan.Covers target) :
    plan.probeLength target = plan.compared target := by
  rw [probeLength, toNat_left_of_covers h]
  rfl

/-- The outcome of a check of the stub at `link`, and the addresses read for it, in terms of the
numbers that the plan and the target are. -/
structure LandingExact (plan : Plan) (target link : UInt32) (view : UInt32 → UInt8)
    (reads : List UInt32) (outcome : Except LandingError UInt32) : Prop where
  outside_iff : outcome = .error (.outside target) ↔
    target.toNat < plan.dest.toNat ∨ plan.dest.toNat + plan.length.toNat ≤ target.toNat
  unread : ¬ plan.Covers target → reads = []
  left_eq : plan.Covers target →
    (plan.dest + plan.length - target).toNat =
      plan.dest.toNat + plan.length.toNat - target.toNat
  left_pos : plan.Covers target → 1 ≤ plan.dest.toNat + plan.length.toNat - target.toNat
  left_le : plan.Covers target →
    plan.dest.toNat + plan.length.toNat - target.toNat ≤ plan.length.toNat
  mismatch_iff : plan.Covers target →
    (outcome = .error (.mismatch target) ↔
      ∃ i < plan.compared target, view (target + .ofNat i) ≠ view (link + .ofNat i))
  landed_iff : plan.Covers target →
    (outcome = .ok target ↔
      ∀ i < plan.compared target, view (target + .ofNat i) = view (link + .ofNat i))
  probed : ∀ addr ∈ reads, ∃ i < plan.compared target,
    addr = target + .ofNat i ∨ addr = link + .ofNat i

theorem landingExact_of_not_covers {plan : Plan} {stub : Stub}
    (h : ¬ plan.Covers (shifted stub.link)) (view : UInt32 → UInt8) :
    plan.LandingExact (shifted stub.link) stub.link view (plan.probed view stub)
      (plan.verdict view stub) := by
  have hReads : plan.probed view stub = [] := if_neg h
  rw [verdict_of_not_covers h, hReads]
  have hOutside : (shifted stub.link).toNat < plan.dest.toNat ∨
      plan.dest.toNat + plan.length.toNat ≤ (shifted stub.link).toNat := by
    rw [Covers] at h
    omega
  exact {
    outside_iff := iff_of_true rfl hOutside
    unread := fun _ => rfl
    left_eq := fun hCovers => absurd hCovers h
    left_pos := fun hCovers => absurd hCovers h
    left_le := fun hCovers => absurd hCovers h
    mismatch_iff := fun hCovers => absurd hCovers h
    landed_iff := fun hCovers => absurd hCovers h
    probed := fun addr hAddr => absurd hAddr List.not_mem_nil }

theorem landingExact_of_covers {plan : Plan} {stub : Stub}
    (h : plan.Covers (shifted stub.link)) (view : UInt32 → UInt8) :
    plan.LandingExact (shifted stub.link) stub.link view (plan.probed view stub)
      (plan.verdict view stub) := by
  have hReads : plan.probed view stub = _ := if_pos h
  obtain ⟨hLower, hUpper⟩ := id h
  rw [verdict_of_covers h, hReads, probeLength_of_covers h, if_congr agreeFrom_zero_iff rfl rfl]
  refine {
    outside_iff := ?_
    unread := fun hOutside => absurd h hOutside
    left_eq := toNat_left_of_covers
    left_pos := fun _ => by omega
    left_le := fun _ => by omega
    mismatch_iff := fun _ => ?_
    landed_iff := fun _ => ?_
    probed := fun addr hAddr => ?_ }
  · refine iff_of_false ?_ (by omega)
    split <;> simp
  · split
    · rename_i hSame
      refine iff_of_false (by simp) ?_
      rintro ⟨i, hi, hDiffer⟩
      exact hDiffer (hSame i hi)
    · rename_i hDiffer
      simpa using hDiffer
  · split
    · rename_i hSame
      exact iff_of_true rfl hSame
    · rename_i hDiffer
      exact iff_of_false (by simp) hDiffer
  · simpa only [Nat.zero_add] using exists_of_mem_probeAddresses hAddr

/-- A stub is checked in every memory and for every plan, and no check faults. -/
theorem exists_landing_exact {M : Type} [ReadableMemory M] (plan : Plan) (stub : Stub)
    (memory : M) :
    ∃ outcome,
      (plan.landing stub).run memory =
          .ok outcome (notedAll (Watched.readsOf memory (plan.landing stub)) memory) ∧
        (shifted stub.link).toNat = (stub.link.toNat + 0x10000) % 2 ^ 32 ∧
        plan.LandingExact (shifted stub.link) stub.link (ReadableMemory.view memory)
          (Watched.readsOf memory (plan.landing stub)) outcome := by
  rw [Watched.readsOf_landing]
  refine ⟨_, plan.landing_run stub memory, toNat_shifted stub.link, ?_⟩
  by_cases hCovers : plan.Covers (shifted stub.link)
  · exact landingExact_of_covers hCovers _
  · exact landingExact_of_not_covers hCovers _

/-- Bounds in the wrong order make a destination that ends past the largest word. -/
example : (ofBounds 500 0).probeLength 0xFFFFFFFF = 16 := by decide

end Plan

end FirstStage
