import FirstStage.Proofs.Output.Lines
import FirstStage.Run.Log

/-! # The lines of a log

Every entry is one line without control characters, so the console output of a log splits into the
lines of its entries. The words with which a line begins tell the kind of its entry, and the line of
a state tells the state.
-/

namespace FirstStage

theorem Flags.printable_text (flags : Flags) : Printable flags.text := by
  have hNames : ∀ name ∈ flags.names, Printable name := by
    intro name hName
    obtain ⟨flag, -, rfl⟩ := List.mem_map.mp hName
    cases flag <;> decide
  have hShown : ∀ shown ∈ (if flags = .empty then [Numeral.hex 0] else
      flags.names ++ if flags.isKnown then [] else [Numeral.hex flags.leftover.toNat]),
      Printable shown := by
    intro shown hMem
    split at hMem
    · rw [List.mem_singleton.mp hMem]
      exact .hex 0
    · rcases List.mem_append.mp hMem with hName | hLeftover
      · exact hNames shown hName
      · split at hLeftover
        · cases hLeftover
        · rw [List.mem_singleton.mp hLeftover]
          exact .hex _
  unfold Flags.text
  exact Printable.append_iff.mpr ⟨Printable.append_iff.mpr
    ⟨by decide, .intercalate (by decide) hShown⟩, by decide⟩

theorem ScanError.printable_message (error : ScanError) : Printable error.message := by
  unfold message
  cases error with
  | noEnd =>
      exact Printable.append_iff.mpr ⟨Printable.append_iff.mpr ⟨by decide, .hex _⟩, by decide⟩
  | noStart => decide
  | noBytes start stop =>
      simp only [Printable.append_iff, Printable.decimal, and_true]
      decide

theorem PlanError.printable_message (error : PlanError) : Printable error.message := by
  unfold message
  cases error with
  | inverted start stop =>
      simp only [Printable.append_iff, Printable.decimal, and_true]
      decide
  | overlap length =>
      simp only [Printable.append_iff, Printable.decimal, and_true]
      decide

theorem LandingError.printable_message (error : LandingError) : Printable error.message := by
  unfold message
  cases error with
  | outside addr =>
      simp only [Printable.append_iff, Printable.hex, and_true]
      decide
  | mismatch addr =>
      simp only [Printable.append_iff, Printable.hex, and_true]
      decide

theorem Refusal.printable_message (refusal : Refusal) : Printable refusal.message := by
  cases refusal with
  | scan error => exact Printable.append_iff.mpr ⟨by decide, error.printable_message⟩
  | plan error => exact Printable.append_iff.mpr ⟨by decide, error.printable_message⟩
  | landing error => exact Printable.append_iff.mpr ⟨by decide, error.printable_message⟩

namespace LogEntry

theorem printable_line (entry : LogEntry) : Printable entry.line := by
  unfold line
  cases entry with
  | state reached => cases reached <;> decide
  | entryArgument argument => exact Printable.append_iff.mpr ⟨by decide, .hex _⟩
  | scan found =>
      simp only [Printable.append_iff, Printable.decimal, Flags.printable_text, and_true]
      decide
  | copy plan =>
      simp only [Printable.append_iff, Printable.decimal, Printable.hex, and_true]
      decide
  | warning error => exact Printable.append_iff.mpr ⟨by decide, error.printable_message⟩
  | refusal reason => exact Printable.append_iff.mpr ⟨by decide, reason.printable_message⟩
  | returned => decide

end LogEntry

/-- The line of an entry on the console, without its end. -/
def LogEntry.bytes (entry : LogEntry) : List UInt8 := utf8 entry.line

def Log.lines (log : Log) : List (List UInt8) := log.map LogEntry.bytes

/-- The console output of a log is the lines of its entries, and nothing behind the last of them. -/
theorem Log.splitLines_wire (log : Log) : splitLines log.wire = log.lines ++ [[]] := by
  induction log with
  | nil => rfl
  | cons entry rest ih =>
      have hLine := entry.printable_line
      rw [Log.wire, List.flatMap_cons, LogEntry.wire, hLine.wire_eq, List.append_assoc]
      change splitLines (_ ++ 0x0D :: 0x0A :: Log.wire rest) = _
      rw [splitLines_append (hLine.notMem_of_lt (by decide)), ih]
      rfl

/-- The kind of an entry, as far as the beginning of its line tells it. -/
inductive LogEntry.Kind where
  | state (reached : State)
  | entryArgument
  | scan
  | copy
  | warning
  | refusal
  | returned
  deriving DecidableEq

/-- The line begins with the words of a tag. -/
def Begins (tag : String) (line : List UInt8) : Prop := utf8 tag <+: line

instance (tag : String) (line : List UInt8) : Decidable (Begins tag line) :=
  inferInstanceAs (Decidable (utf8 tag <+: line))

namespace LogEntry

def kind : LogEntry → Kind
  | .state reached => .state reached
  | .entryArgument _ => .entryArgument
  | .scan _ => .scan
  | .copy _ => .copy
  | .warning _ => .warning
  | .refusal _ => .refusal
  | .returned => .returned

namespace Kind

def all : List Kind :=
  State.all.map .state ++ [.entryArgument, .scan, .copy, .warning, .refusal, .returned]

theorem mem_all (kind : Kind) : kind ∈ all := by
  cases kind with
  | state reached => exact List.mem_append_left _ (List.mem_map_of_mem (State.mem_all reached))
  | _ => decide

/-- The words with which a line begins, before anything that differs from run to run. -/
def opening : Kind → String
  | .state reached => "[stage] " ++ reached.name
  | .entryArgument => "[stage] entry argument "
  | .scan => "[scan] start="
  | .copy => "[reloc] "
  | .warning => "[stage] warning: "
  | .refusal => "[stage] refusing to continue: "
  | .returned => "[stage] stage 2 returned"

/-- The tags by which a line of a kind is known. -/
def tags : List (Kind × String) :=
  [(.scan, "[scan]"), (.copy, "[reloc]"), (.warning, "[stage] warning"),
    (.refusal, "[stage] refusing to continue")]

/-- A line that does not belong to a tag differs from it within its opening words. -/
theorem opening_decides : ∀ tag ∈ tags, ∀ kind ∈ all,
    if kind = tag.1 then Begins tag.2 (utf8 kind.opening)
    else ¬ Begins tag.2 (utf8 kind.opening) ∧ ¬ Begins kind.opening (utf8 tag.2) := by
  decide

theorem eq_state_of_begins : ∀ reached ∈ State.all, ∀ kind ∈ all,
    Begins kind.opening (utf8 (state reached).opening) → kind = .state reached := by
  decide

end Kind

theorem begins_opening (entry : LogEntry) : Begins entry.kind.opening entry.bytes := by
  unfold Begins bytes line
  cases entry with
  | state reached => exact List.prefix_refl _
  | returned => exact List.prefix_refl _
  | _ =>
      simp only [utf8_append, List.append_assoc]
      exact List.prefix_append _ _

theorem begins_tag_iff {tag : String} {kind : Kind} (h : (kind, tag) ∈ Kind.tags)
    (entry : LogEntry) : Begins tag entry.bytes ↔ entry.kind = kind := by
  have hOpening := Kind.opening_decides _ h entry.kind (Kind.mem_all _)
  dsimp only at hOpening
  split at hOpening
  · rename_i hKind
    exact iff_of_true (hOpening.trans entry.begins_opening) hKind
  · rename_i hKind
    refine iff_of_false ?_ hKind
    intro hTag
    -- Tag and opening begin the same line, so one of them would begin the other.
    rcases List.prefix_or_prefix_of_prefix hTag entry.begins_opening with hBegins | hBegins
    · exact hOpening.1 hBegins
    · exact hOpening.2 hBegins

theorem bytes_eq_state_iff (entry : LogEntry) (reached : State) :
    entry.bytes = (LogEntry.state reached).bytes ↔ entry = .state reached := by
  constructor
  · intro hBytes
    have hKind : entry.kind = .state reached := by
      refine Kind.eq_state_of_begins reached (State.mem_all reached) _ (Kind.mem_all _) ?_
      have hOpening := entry.begins_opening
      rwa [hBytes] at hOpening
    cases entry with
    | state other =>
        cases hKind
        rfl
    | _ => cases hKind
  · rintro rfl
    rfl

end LogEntry

theorem Log.filter_lines {tag : String} {kind : LogEntry.Kind}
    (h : (kind, tag) ∈ LogEntry.Kind.tags) (log : Log) :
    log.lines.filter (Begins tag) = Log.lines (log.filter fun entry => entry.kind = kind) := by
  unfold Log.lines
  rw [List.filter_map]
  congr 2
  funext entry
  exact decide_eq_decide.mpr (LogEntry.begins_tag_iff h entry)

def State.line (reached : State) : List UInt8 := utf8 ("[stage] " ++ reached.name)

/-- The state of which a line tells, if it tells of one. -/
def State.ofLine? (line : List UInt8) : Option State :=
  State.all.find? fun reached => line = reached.line

theorem State.ofLine?_bytes_eq_some_iff {entry : LogEntry} {reached : State} :
    ofLine? entry.bytes = some reached ↔ entry = .state reached := by
  constructor
  · intro h
    have hFound := List.find?_some h
    rw [decide_eq_true_eq] at hFound
    exact (entry.bytes_eq_state_iff reached).mp hFound
  · rintro rfl
    cases reached <;> decide

end FirstStage
