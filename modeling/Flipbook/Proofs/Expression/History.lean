import Flipbook.Game.Staged
import Flipbook.Proofs.Expression.Evaluation

/-!
# Evaluations one after the other

A condition is evaluated over and over, each time in a setting of its own: with its own
variables and in its own game. What the condition keeps from one evaluation to the next
begins when it is made and when it is reset.

* `Condition.after`: the condition after evaluations in some settings.
* `Condition.outcome?`: how its program ends in a setting.
* `Condition.evaluateIn_of_ok`, `Condition.evaluateIn_of_error`: what an evaluation gives and
  keeps, by how the program ends.
-/
namespace Flipbook.Expression

variable {σ : Type}

/-- What an evaluation takes place in. -/
structure Setting (σ : Type) where
  scope : Scope
  game : Game σ
  state : σ

/-- A setting without variables, in a game in which some events are active and some questions
make it crash. -/
def Setting.staged (active : List String) (crashing : List Question) : Setting (List Question) :=
  ⟨.empty, Stage.game ⟨active, crashing, [], [], [], 0, 0⟩, []⟩

namespace Condition

/-- An evaluation in a setting. -/
def evaluateIn (c : Condition) (setting : Setting σ) : Evaluation σ :=
  c.evaluate setting.scope setting.game setting.state

/-- A condition after evaluations in some settings. -/
def after (c : Condition) (settings : List (Setting σ)) : Condition :=
  settings.foldl (fun c setting => (c.evaluateIn setting).condition) c

/-- Whether nothing of earlier evaluations is left of a condition but what was reported. -/
inductive Begins : Condition → Prop where
  | build (source : String) (program : Option Program) (random : Random) :
    Begins (build source program random)
  | seeded {c : Condition} (h : Begins c) (random : Random) : Begins (c.seeded random)
  | reset (c : Condition) : Begins c.reset

/-- The run in which the program of a condition starts. -/
def firstRun (c : Condition) (setting : Setting σ) : Run σ := ⟨setting.state, c.memory, ∅, []⟩

/-- What the program of a condition reads in a setting. -/
def env (c : Condition) (setting : Setting σ) : Env σ := ⟨setting.scope, setting.game, c.elapsed⟩

/-- How the program of a condition ends in a setting, if there is one. -/
def outcome? (c : Condition) (setting : Setting σ) : Option (Except Halt Bool) :=
  c.program.map fun program => ((program.run (c.env setting)).run.run (c.firstRun setting)).1

theorem after_cons (c : Condition) (setting : Setting σ) (settings : List (Setting σ)) :
    c.after (setting :: settings) = (c.evaluateIn setting).condition.after settings := rfl

theorem after_append (c : Condition) (settings more : List (Setting σ)) :
    c.after (settings ++ more) = (c.after settings).after more :=
  List.foldl_append

theorem program_after (c : Condition) (settings : List (Setting σ)) :
    (c.after settings).program = c.program := by
  induction settings generalizing c with
  | nil => rfl
  | cons setting settings ih =>
    rw [after_cons, ih]
    exact c.program_evaluate _ _ _

theorem evaluateIn_of_program {c : Condition} {program : Program} (h : c.program = some program)
    (setting : Setting σ) : c.evaluateIn setting =
      c.conclude ((program.run (c.env setting)).run.run (c.firstRun setting)) :=
  evaluate_of_program h _ _ _

theorem outcome?_of_program {c : Condition} {program : Program} (h : c.program = some program)
    (setting : Setting σ) : c.outcome? setting =
      some ((program.run (c.env setting)).run.run (c.firstRun setting)).1 := by
  rw [outcome?, h, Option.map_some]

theorem outcome?_eq_none_iff {c : Condition} {setting : Setting σ} :
    c.outcome? setting = none ↔ c.program = none :=
  Option.map_eq_none_iff

/-- What begins has seen no event and counts as false from then on. -/
theorem Begins.forgotten {c : Condition} (h : c.Begins) :
    c.memory.lastSeen = ∅ ∧ c.elapsed = 0 ∧ c.last = false := by
  induction h with
  | build => exact ⟨rfl, rfl, rfl⟩
  | seeded _ _ ih => exact ih
  | reset => exact ⟨rfl, rfl, rfl⟩

/-! ## What an evaluation gives and keeps -/

variable {c : Condition} {setting : Setting σ} {done : Except Halt Bool × Run σ}

theorem memory_settle (c : Condition) (result : Bool) : (c.settle result).memory = c.memory := by
  unfold settle
  split <;> rfl

theorem conclude_of_ok {result : Bool} (h : done.1 = .ok result) :
    (c.conclude done).result = some result ∧
      (c.conclude done).condition = { c with memory := done.2.memory }.settle result := by
  obtain ⟨outcome, run⟩ := done
  obtain rfl : outcome = .ok result := h
  exact ⟨rfl, rfl⟩

/-- The result that stands for a program that stops early. -/
def resultOfHalt : Halt → Option Bool
  | .crashed => none
  | .failed _ => some false

theorem conclude_of_error {halt : Halt} (h : done.1 = .error halt) :
    (c.conclude done).result = resultOfHalt halt ∧
      ∃ memory, (c.conclude done).condition = { c with memory } := by
  obtain ⟨outcome, run⟩ := done
  obtain rfl : outcome = .error halt := h
  cases halt with
  | crashed => exact ⟨rfl, _, rfl⟩
  | failed e =>
    dsimp only [conclude]
    split <;> exact ⟨rfl, _, rfl⟩

theorem evaluateIn_of_ok {result : Bool} (h : c.outcome? setting = some (.ok result)) :
    (c.evaluateIn setting).result = some result ∧
      ∃ memory, (c.evaluateIn setting).condition = { c with memory }.settle result := by
  obtain ⟨program, hprogram, hend⟩ := Option.map_eq_some_iff.1 h
  rw [evaluateIn_of_program hprogram]
  exact ⟨(conclude_of_ok hend).1, _, (conclude_of_ok hend).2⟩

theorem evaluateIn_of_error {halt : Halt} (h : c.outcome? setting = some (.error halt)) :
    (c.evaluateIn setting).result = resultOfHalt halt ∧
      ∃ memory, (c.evaluateIn setting).condition = { c with memory } := by
  obtain ⟨program, hprogram, hend⟩ := Option.map_eq_some_iff.1 h
  rw [evaluateIn_of_program hprogram]
  exact conclude_of_error hend

theorem evaluateIn_of_none (h : c.outcome? setting = none) :
    (c.evaluateIn setting).result = some false ∧ (c.evaluateIn setting).condition = c := by
  rw [evaluateIn, evaluate_of_not_program (outcome?_eq_none_iff.1 h)]
  exact ⟨rfl, rfl⟩

/-- The result of an evaluation follows from how the program ends. -/
theorem result_evaluateIn_congr {τ : Type} {d : Condition} {other : Setting τ}
    (h : c.outcome? setting = d.outcome? other) :
    (c.evaluateIn setting).result = (d.evaluateIn other).result := by
  cases hd : d.outcome? other with
  | none => rw [(evaluateIn_of_none (h.trans hd)).1, (evaluateIn_of_none hd).1]
  | some outcome =>
    cases outcome with
    | ok result => rw [(evaluateIn_of_ok (h.trans hd)).1, (evaluateIn_of_ok hd).1]
    | error halt => rw [(evaluateIn_of_error (h.trans hd)).1, (evaluateIn_of_error hd).1]

end Condition
end Flipbook.Expression
