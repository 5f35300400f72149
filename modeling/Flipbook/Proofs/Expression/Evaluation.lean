import Flipbook.Expression.Condition

/-!
# What an evaluation makes of a run

An evaluation of a condition runs its program, and takes the result and the memory over
from the run.

* `Condition.evaluate_of_program`: the two parts of an evaluation.
* `Condition.program_evaluate`: the program stays as it is.
* `Condition.condition_evaluate_of_result_eq_none`: what a crash leaves of a condition.
* `Condition.results_withSource`: the results do not depend on the name that a condition
  is reported under.
-/
namespace Flipbook.Expression

variable {σ : Type}

namespace Condition

/-- What becomes of a condition when its program has run. -/
def conclude (c : Condition) : Except Halt Bool × Run σ → Evaluation σ
  | (.ok result, run) =>
    ⟨some result, { c with memory := run.memory }.settle result, run.game, run.notices⟩
  | (.error .crashed, run) => ⟨none, { c with memory := run.memory }, run.game, run.notices⟩
  | (.error (.failed e), run) =>
    if .failure e ∈ run.memory.reported then
      ⟨some false, { c with memory := run.memory }, run.game, run.notices⟩
    else
      ⟨some false, { c with memory := run.memory.report (.failure e) }, run.game,
        run.notices ++ [.conditionFailed c.source e]⟩

theorem evaluate_of_program {c : Condition} {program : Program} (h : c.program = some program)
    (scope : Scope) (game : Game σ) (s : σ) :
    c.evaluate scope game s =
      c.conclude ((program.run ⟨scope, game, c.elapsed⟩).run.run ⟨s, c.memory, ∅, []⟩) := by
  unfold evaluate
  split
  · next hnone =>
    rw [h] at hnone
    cases hnone
  · next hsome =>
    obtain rfl := Option.some.inj (hsome.symm.trans h)
    generalize (Program.run ⟨scope, game, c.elapsed⟩ _).run.run ⟨s, c.memory, ∅, []⟩ = done
    obtain ⟨outcome, run⟩ := done
    cases outcome with
    | ok result => rfl
    | error halt => cases halt <;> rfl

theorem evaluate_of_not_program {c : Condition} (h : c.program = none) (scope : Scope)
    (game : Game σ) (s : σ) : c.evaluate scope game s = ⟨some false, c, s, []⟩ := by
  unfold evaluate
  rw [h]

theorem program_settle (c : Condition) (result : Bool) : (c.settle result).program = c.program := by
  unfold settle
  split <;> rfl

theorem program_conclude (c : Condition) (done : Except Halt Bool × Run σ) :
    (c.conclude done).condition.program = c.program := by
  obtain ⟨outcome, run⟩ := done
  cases outcome with
  | ok result => exact program_settle _ result
  | error halt =>
    cases halt with
    | crashed => rfl
    | failed e =>
      dsimp only [conclude]
      split <;> rfl

/-- Only a crash keeps a condition from a result. -/
theorem result_conclude_ne_none (c : Condition) {done : Except Halt Bool × Run σ}
    (h : done.1 ≠ .error .crashed) : (c.conclude done).result ≠ none := by
  obtain ⟨outcome, run⟩ := done
  cases outcome with
  | ok result => exact Option.some_ne_none result
  | error halt =>
    cases halt with
    | crashed => exact absurd rfl h
    | failed e =>
      dsimp only [conclude]
      split <;> exact Option.some_ne_none false

/-- After a crash a condition keeps all but its memory. -/
theorem conclude_of_crashed (c : Condition) {done : Except Halt Bool × Run σ}
    (h : done.1 = .error .crashed) :
    c.conclude done =
      ⟨none, { c with memory := done.2.memory }, done.2.game, done.2.notices⟩ := by
  obtain ⟨outcome, run⟩ := done
  obtain rfl : outcome = .error .crashed := h
  rfl

theorem result_conclude_eq_none_iff (c : Condition) {done : Except Halt Bool × Run σ} :
    (c.conclude done).result = none ↔ done.1 = .error .crashed := by
  constructor
  · intro hnone
    by_cases h : done.1 = .error .crashed
    · exact h
    · exact absurd hnone (c.result_conclude_ne_none h)
  · intro h
    rw [c.conclude_of_crashed h]

theorem condition_evaluate_of_result_eq_none {c : Condition} {scope : Scope} {game : Game σ} {s : σ}
    (h : (c.evaluate scope game s).result = none) :
    ∃ memory, (c.evaluate scope game s).condition = { c with memory } := by
  rcases c.program.eq_none_or_eq_some with hprogram | ⟨program, hprogram⟩
  · rw [evaluate_of_not_program hprogram] at h
    cases h
  · rw [evaluate_of_program hprogram] at h ⊢
    rw [c.conclude_of_crashed (c.result_conclude_eq_none_iff.1 h)]
    exact ⟨_, rfl⟩

theorem program_evaluate (c : Condition) (scope : Scope) (game : Game σ) (s : σ) :
    (c.evaluate scope game s).condition.program = c.program := by
  cases h : c.program with
  | none => rw [evaluate_of_not_program h, h]
  | some program => rw [evaluate_of_program h, program_conclude, h]

/-- The same condition, reported under another source. -/
def withSource (c : Condition) (source : String) : Condition := { c with source }

theorem settle_withSource (c : Condition) (source : String) (result : Bool) :
    (c.withSource source).settle result = (c.settle result).withSource source := by
  unfold settle withSource
  split <;> rfl

theorem conclude_withSource (c : Condition) (source : String) (done : Except Halt Bool × Run σ) :
    ((c.withSource source).conclude done).result = (c.conclude done).result ∧
      ((c.withSource source).conclude done).game = (c.conclude done).game ∧
      ((c.withSource source).conclude done).condition =
        (c.conclude done).condition.withSource source := by
  obtain ⟨outcome, run⟩ := done
  cases outcome with
  | ok result => exact ⟨rfl, rfl, settle_withSource { c with memory := run.memory } source result⟩
  | error halt =>
    cases halt with
    | crashed => exact ⟨rfl, rfl, rfl⟩
    | failed e =>
      dsimp only [conclude]
      split <;> exact ⟨rfl, rfl, rfl⟩

/-- Only what is reported names the source. -/
theorem evaluate_withSource (c : Condition) (source : String) (scope : Scope) (game : Game σ)
    (s : σ) :
    ((c.withSource source).evaluate scope game s).result = (c.evaluate scope game s).result ∧
      ((c.withSource source).evaluate scope game s).game = (c.evaluate scope game s).game ∧
      ((c.withSource source).evaluate scope game s).condition =
        (c.evaluate scope game s).condition.withSource source := by
  cases h : c.program with
  | none =>
    have hsame : (c.withSource source).program = none := h
    rw [evaluate_of_not_program h, evaluate_of_not_program hsame]
    exact ⟨rfl, rfl, rfl⟩
  | some program =>
    have hsame : (c.withSource source).program = some program := h
    rw [evaluate_of_program h, evaluate_of_program hsame]
    exact conclude_withSource c source _

/-- The results of one evaluation after the other, in some scopes. -/
def results (c : Condition) (game : Game σ) (s : σ) : List Scope → List (Option Bool)
  | [] => []
  | scope :: scopes =>
    let done := c.evaluate scope game s
    done.result :: done.condition.results game done.game scopes

theorem results_withSource (c : Condition) (source : String) (game : Game σ) (s : σ)
    (scopes : List Scope) :
    (c.withSource source).results game s scopes = c.results game s scopes := by
  induction scopes generalizing c s with
  | nil => rfl
  | cons scope scopes ih =>
    obtain ⟨hresult, hgame, hcondition⟩ := evaluate_withSource c source scope game s
    rw [results, results, hresult, hgame, hcondition, ih]

end Condition
end Flipbook.Expression
