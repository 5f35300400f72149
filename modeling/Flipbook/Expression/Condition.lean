import Flipbook.Expression.Interpreter
import Flipbook.Expression.Parser

/-!
# Conditions

A `Condition` is a program together with what it keeps from one evaluation to
the next: its memory, its last result and how long that has stood. Evaluation
never fails: a condition that could not be read does not hold, nor does one that
fails while it runs, and the problem is a notice.
-/
namespace Flipbook.Expression

/-- A condition in use. -/
structure Condition where
  source : String
  /-- The program, if the source could be read. -/
  program : Option Program
  memory : Memory
  /-- The evaluations since the result changed last. -/
  elapsed : Nat
  last : Bool

/-- The outcome of an evaluation: the result, unless the game crashed, and all
that has changed. -/
structure Evaluation (σ : Type) where
  result : Option Bool
  condition : Condition
  game : σ
  notices : List Notice

namespace Condition

/-- A condition that has not been evaluated. -/
def build (source : String) (program : Option Program) (random : Random) : Condition :=
  ⟨source, program, .fresh random, 0, false⟩

/-- Reads a condition, which is given its random numbers. -/
def parse (source : String) (random : Random) : Except SyntaxError Condition :=
  (Expression.parse source).map fun program => build source (some program) random

/-- Reads a condition; one that cannot be read is reported and never holds. -/
def read (source : String) (random : Random) : Noted Condition :=
  match parse source random with
  | .ok condition => pure condition
  | .error e => ⟨build source none random, [.conditionInvalid source e]⟩

/-- Whether the source could be read. -/
def isValid (c : Condition) : Bool := c.program.isSome

/-- Replaces the random numbers. -/
def seeded (c : Condition) (random : Random) : Condition :=
  { c with memory := { c.memory with random } }

/-- Forgets the watched events and the last result, but not what was reported. -/
def reset (c : Condition) : Condition :=
  { c with memory := { c.memory with lastSeen := ∅ }, elapsed := 0, last := false }

/-- Takes note of a result. -/
def settle (c : Condition) (result : Bool) : Condition :=
  if result == c.last then { c with elapsed := c.elapsed + 1 }
  else { c with elapsed := 0, last := result }

/-- The condition in words. -/
def describe (c : Condition) : String :=
  s!"Expression \x7b source: {Text.quoted c.source}, valid: {c.isValid}, " ++
    s!"ticks_in_state: {c.elapsed}, .. \x7d"

/-- Evaluates a condition. -/
def evaluate {σ : Type} (c : Condition) (scope : Scope) (game : Game σ) (s : σ) : Evaluation σ :=
  match c.program with
  | none => ⟨some false, c, s, []⟩
  | some program =>
    let (outcome, run) := (program.run ⟨scope, game, c.elapsed⟩).run.run ⟨s, c.memory, ∅, []⟩
    let kept := { c with memory := run.memory }
    match outcome with
    | .ok result => ⟨some result, kept.settle result, run.game, run.notices⟩
    | .error .crashed => ⟨none, kept, run.game, run.notices⟩
    | .error (.failed e) =>
      if .failure e ∈ run.memory.reported then ⟨some false, kept, run.game, run.notices⟩
      else
        ⟨some false, { c with memory := run.memory.report (.failure e) }, run.game,
          run.notices ++ [.conditionFailed c.source e]⟩

end Condition
end Flipbook.Expression
