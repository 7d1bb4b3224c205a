import FirstStage.Numeral

/-! # Faults and acts

An act runs on a state and either answers or stops with a fault. Both outcomes carry the state
that was reached, so what an act changed before its fault stays changed.
-/

namespace FirstStage

/-- Why an act stopped. Ranges are half open, `[start, stop)`. -/
inductive Fault where
  | indexOutside (length index : Nat)
  | startOutside (length start : Nat)
  | stopOutside (length stop : Nat)
  | copyOutside
  | windowLeft
  | notCode
  deriving DecidableEq

def Fault.message : Fault → String
  | .indexOutside length index =>
      "index out of bounds: the len is " ++ Numeral.decimal length ++ " but the index is " ++
        Numeral.decimal index
  | .startOutside length start =>
      "range start index " ++ Numeral.decimal start ++ " out of range for slice of length " ++
        Numeral.decimal length
  | .stopOutside length stop =>
      "range end index " ++ Numeral.decimal stop ++ " out of range for slice of length " ++
        Numeral.decimal length
  | .copyOutside => "copy outside RamImage"
  | .windowLeft => "access outside the window"
  | .notCode => "no code at the address"

abbrev Act (σ α : Type) : Type := EStateM Fault σ α

namespace Act

variable {σ τ α β : Type}

theorem bind_ok {act : Act σ α} {next : α → Act σ β} {s t : σ} {a : α} (h : act.run s = .ok a t) :
    (act >>= next).run s = (next a).run t := by
  rw [EStateM.run_bind, h]

theorem bind_error {act : Act σ α} {next : α → Act σ β} {s t : σ} {fault : Fault}
    (h : act.run s = .error fault t) : (act >>= next).run s = .error fault t := by
  rw [EStateM.run_bind, h]

/-- The state an act has come to, with an answer or with a fault. -/
def reached : EStateM.Result Fault σ α → σ
  | .ok _ state => state
  | .error _ state => state

/-- Runs an act on a part of the state and puts the part back, after a fault as well. -/
def within (part : σ → τ) (replace : τ → σ → σ) (act : Act τ α) : Act σ α := fun s =>
  match act.run (part s) with
  | .ok a t => .ok a (replace t s)
  | .error fault t => .error fault (replace t s)

theorem within_ok {part : σ → τ} {replace : τ → σ → σ} {act : Act τ α} {s : σ} {a : α} {t : τ}
    (h : act.run (part s) = .ok a t) :
    (within part replace act).run s = .ok a (replace t s) := by
  simp only [within, EStateM.run] at h ⊢
  rw [h]

theorem within_error {part : σ → τ} {replace : τ → σ → σ} {act : Act τ α} {s : σ} {fault : Fault}
    {t : τ} (h : act.run (part s) = .error fault t) :
    (within part replace act).run s = .error fault (replace t s) := by
  simp only [within, EStateM.run] at h ⊢
  rw [h]

theorem reached_within (part : σ → τ) (replace : τ → σ → σ) (act : Act τ α) (s : σ) :
    reached ((within part replace act).run s) = replace (reached (act.run (part s))) s := by
  cases h : act.run (part s) with
  | ok a t =>
      rw [within_ok h]
      rfl
  | error fault t =>
      rw [within_error h]
      rfl

end Act

end FirstStage
