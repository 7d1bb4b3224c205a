import FirstStage.Framing.Scan
import FirstStage.Relocation.Landing
import Mathlib.Data.Set.Basic

/-! # Memories that answer alike

Two memories of different kinds may answer the reads at some addresses alike. A scan of both, and a
check of a landing in both, then answers alike as well, as long as it reads at those addresses only.
-/

namespace FirstStage

/-- The same answer or the same fault, and states that stand to each other as `related` says. -/
inductive Act.Alike {σ τ α : Type} (related : σ → τ → Prop) :
    EStateM.Result Fault σ α → EStateM.Result Fault τ α → Prop where
  | ok (answer : α) {s : σ} {t : τ} (h : related s t) : Alike related (.ok answer s) (.ok answer t)
  | error (fault : Fault) {s : σ} {t : τ} (h : related s t) :
      Alike related (.error fault s) (.error fault t)

namespace Act.Alike

variable {σ τ α β : Type} {related : σ → τ → Prop} {act : Act σ α} {act' : Act τ α} {s : σ} {t : τ}

theorem bind {next : α → Act σ β} {next' : α → Act τ β}
    (h : Alike related (act.run s) (act'.run t))
    (hNext : ∀ a s t, related s t → Alike related ((next a).run s) ((next' a).run t)) :
    Alike related ((act >>= next).run s) ((act' >>= next').run t) := by
  rw [EStateM.run_bind, EStateM.run_bind]
  generalize act.run s = result at h ⊢
  generalize act'.run t = result' at h ⊢
  cases h with
  | ok answer h => exact hNext answer _ _ h
  | error fault h => exact .error fault h

theorem map (f : α → β) (h : Alike related (act.run s) (act'.run t)) :
    Alike related ((f <$> act).run s) ((f <$> act').run t) :=
  bind h fun a _ _ hRelated => .ok (f a) hRelated

theorem exists_of_ok {result : EStateM.Result Fault σ α} {a : α}
    (h : Alike related result (.ok a t)) : ∃ s, result = .ok a s ∧ related s t := by
  cases h with
  | ok _ h => exact ⟨_, rfl, h⟩

end Act.Alike

section Reading

variable {M N : Type} [ImageMemory M] [ImageMemory N]

/-- Reads at the addresses are answered alike and leave related memories related. -/
def ReadAlike (related : M → N → Prop) (addrs : Set UInt32) : Prop :=
  ∀ addr ∈ addrs, ∀ m n, related m n →
    Act.Alike related ((ImageMemory.read addr).run m) ((ImageMemory.read addr).run n)

variable {related : M → N → Prop} {addrs : Set UInt32} {m : M} {n : N}

theorem ReadAlike.searchFrom (h : ReadAlike related addrs) {i : UInt32} {count : Nat}
    (hAddrs : ∀ k ≤ count, i + .ofNat k ∈ addrs) (start? : Option UInt32)
    (hRelated : related m n) :
    Act.Alike related ((Sighting.searchFrom i start? count).run m)
      ((Sighting.searchFrom i start? count).run n) := by
  induction count generalizing i start? m n with
  | zero => exact .ok _ hRelated
  | succ count ih =>
      have hLow : i + 0 ∈ addrs := hAddrs 0 (Nat.zero_le _)
      have hHigh : i + 1 ∈ addrs := hAddrs 1 (Nat.succ_le_succ (Nat.zero_le count))
      rw [UInt32.add_zero] at hLow
      rw [Sighting.searchFrom, Sighting.searchFrom]
      apply Act.Alike.bind (h i hLow m n hRelated)
      intro low m n hRelated
      apply Act.Alike.bind (h (i + 1) hHigh m n hRelated)
      intro high m n hRelated
      by_cases hClosing : Marker.closing.Accepts low high
      · rw [if_pos hClosing, if_pos hClosing]
        exact .ok _ hRelated
      · rw [if_neg hClosing, if_neg hClosing]
        apply ih _ _ hRelated
        intro k hk
        have hNext := hAddrs (k + 1) (Nat.succ_le_succ hk)
        rwa [UInt32.ofNat_add, UInt32.add_comm (.ofNat k), ← UInt32.add_assoc] at hNext

theorem ReadAlike.scan (h : ReadAlike related addrs)
    (hAddrs : ∀ k ≤ Layout.lastMarkerOffset + 1, .ofNat k ∈ addrs) (hRelated : related m n) :
    Act.Alike related (Scan.perform.run m) (Scan.perform.run n) := by
  apply Act.Alike.map
  apply h.searchFrom _ none hRelated
  intro k hk
  rw [UInt32.zero_add]
  exact hAddrs k hk

theorem ReadAlike.agreeFrom (h : ReadAlike related addrs) {target link i : UInt32} {left : Nat}
    (hAddrs : ∀ k < left, target + (i + .ofNat k) ∈ addrs ∧ link + (i + .ofNat k) ∈ addrs)
    (hRelated : related m n) :
    Act.Alike related ((FirstStage.agreeFrom target link i left).run m)
      ((FirstStage.agreeFrom target link i left).run n) := by
  induction left generalizing i m n with
  | zero => exact .ok _ hRelated
  | succ left ih =>
      have hHere : target + (i + 0) ∈ addrs ∧ link + (i + 0) ∈ addrs :=
        hAddrs 0 (Nat.succ_pos left)
      rw [UInt32.add_zero] at hHere
      rw [FirstStage.agreeFrom, FirstStage.agreeFrom]
      apply Act.Alike.bind (h _ hHere.1 m n hRelated)
      intro landed m n hRelated
      apply Act.Alike.bind (h _ hHere.2 m n hRelated)
      intro linked m n hRelated
      by_cases hSame : landed = linked
      · rw [if_pos hSame, if_pos hSame]
        apply ih _ hRelated
        intro k hk
        have hNext := hAddrs (k + 1) (Nat.succ_lt_succ hk)
        rwa [UInt32.ofNat_add, UInt32.add_comm (.ofNat k), ← UInt32.add_assoc i] at hNext
      · rw [if_neg hSame, if_neg hSame]
        exact .ok _ hRelated

theorem ReadAlike.landing (h : ReadAlike related addrs) {plan : Plan} {stub : Stub}
    (hAddrs : plan.Covers (shifted stub.link) →
      ∀ k < plan.probeLength (shifted stub.link),
        shifted stub.link + .ofNat k ∈ addrs ∧ stub.link + .ofNat k ∈ addrs)
    (hRelated : related m n) :
    Act.Alike related ((plan.landing stub).run m) ((plan.landing stub).run n) := by
  unfold Plan.landing
  by_cases hCovers : plan.Covers (shifted stub.link)
  · rw [if_pos hCovers, if_pos hCovers]
    apply Act.Alike.bind
    · apply h.agreeFrom _ hRelated
      intro k hk
      rw [UInt32.zero_add]
      exact hAddrs hCovers k hk
    · intro agrees m n hRelated
      cases agrees with
      | true => exact .ok _ hRelated
      | false => exact .ok _ hRelated
  · rw [if_neg hCovers, if_neg hCovers]
    exact .ok _ hRelated

end Reading

end FirstStage
