import Mathlib.Order.Bounds.Basic
import Flipbook.Proofs.Expression.Calls
import Flipbook.Proofs.Expression.History

/-!
# How long a result has stood

A condition counts the evaluations since its result changed last. Evaluations that crash or
fail come to no result and are not counted, and a program can read the count that its own
result goes into.

* `Condition.Counts`: the count, from the results so far.
* `Program.timed`: a program with a number in place of the count that it reads.
* `Condition.elapsed_after`: the count after any evaluations.
-/
namespace Flipbook.Expression

/-! ## Programs and the time -/

mutual

/-- An expression with a number in place of each call of `time_in_state`. -/
def Expr.timed (n : Nat) : Expr → Expr
  | .number value => .number value
  | .text value => .text value
  | .bool value => .bool value
  | .variable name => .variable name
  | .unary op operand => .unary op (operand.timed n)
  | .binary op left right => .binary op (left.timed n) (right.timed n)
  | .call name args =>
    if name = "time_in_state" then .number (Float.ofNat n) else .call name (Expr.timedIn n args)

/-- Arguments with a number in place of each call of `time_in_state`. -/
def Expr.timedIn (n : Nat) : List Expr → List Expr
  | [] => []
  | e :: es => e.timed n :: Expr.timedIn n es

end

mutual

/-- A statement with a number in place of each call of `time_in_state`. -/
def Statement.timed (n : Nat) : Statement → Statement
  | .declare mutable name value => .declare mutable name (value.timed n)
  | .assign name value => .assign name (value.timed n)
  | .branch branches (some body) => .branch (timedBranches n branches) (some (timedBlock n body))
  | .branch branches none => .branch (timedBranches n branches) none
  | .choose subject arms => .choose subject (timedArms n arms)
  | .result value => .result (value.timed n)
  | .effect value => .effect (value.timed n)

/-- Statements with a number in place of each call of `time_in_state`. -/
def timedBlock (n : Nat) : List Statement → List Statement
  | [] => []
  | s :: rest => s.timed n :: timedBlock n rest

/-- Branches with a number in place of each call of `time_in_state`. -/
def timedBranches (n : Nat) : List (Expr × List Statement) → List (Expr × List Statement)
  | [] => []
  | (condition, body) :: rest => (condition.timed n, timedBlock n body) :: timedBranches n rest

/-- Arms with a number in place of each call of `time_in_state`. -/
def timedArms (n : Nat) : List (Pattern × List Statement) → List (Pattern × List Statement)
  | [] => []
  | (pattern, body) :: rest => (pattern, timedBlock n body) :: timedArms n rest

end

/-- A program with a number in place of each call of `time_in_state`. -/
def Program.timed (n : Nat) : Program → Program
  | .flat condition => .flat (condition.timed n)
  | .block body => .block (timedBlock n body)

section

variable {σ : Type} (scope : Scope) (game : Game σ) (n other : Nat)

/-- No function but one depends on the time. -/
theorem Function.call_of_ne_timeInState {f : Function} (hf : f ≠ .timeInState)
    (args : List (Argument σ)) :
    f.call ⟨scope, game, other⟩ args = f.call ⟨scope, game, n⟩ args := by
  cases f with
  | timeInState => exact absurd rfl hf
  | _ => rfl

theorem callNamed_of_ne {name : String} (hname : name ≠ "time_in_state")
    (args : List (Argument σ)) :
    callNamed ⟨scope, game, other⟩ name args = callNamed ⟨scope, game, n⟩ name args := by
  unfold callNamed
  split
  · next f hf =>
    refine Function.call_of_ne_timeInState scope game n other ?_ args
    rintro rfl
    exact hname (Function.eq_name_of_ofName? hf)
  · rfl

theorem word?_timed (e : Expr) : (e.timed n).word? = e.word? := by
  cases e with
  | call name args =>
    rw [Expr.timed]
    split <;> rfl
  | _ => rfl

mutual

theorem eval_timed :
    ∀ e : Expr, (e.timed n).eval ⟨scope, game, other⟩ = e.eval ⟨scope, game, n⟩
  | .number _ => rfl
  | .text _ => rfl
  | .bool _ => rfl
  | .variable _ => rfl
  | .unary op operand => by rw [Expr.timed, Expr.eval, Expr.eval, eval_timed operand]
  | .binary op left right => by
    cases op <;> rw [Expr.timed, Expr.eval, Expr.eval, eval_timed left, eval_timed right] <;> nofun
  | .call name args => by
    rw [Expr.timed]
    split
    · next hname =>
      subst hname
      rfl
    · next hname =>
      rw [Expr.eval, Expr.eval, arguments_timed args, callNamed_of_ne scope game n other hname]

theorem arguments_timed : ∀ es : List Expr,
    Expr.arguments ⟨scope, game, other⟩ (Expr.timedIn n es) = Expr.arguments ⟨scope, game, n⟩ es
  | [] => rfl
  | e :: es => by
    rw [Expr.timedIn, Expr.arguments, Expr.arguments, word?_timed, eval_timed e, arguments_timed es]

end

mutual

theorem exec_timed :
    ∀ s : Statement, (s.timed n).exec ⟨scope, game, other⟩ = s.exec ⟨scope, game, n⟩
  | .declare mutable name value => by
    rw [Statement.timed, Statement.exec, Statement.exec, eval_timed]
  | .assign name value => by rw [Statement.timed, Statement.exec, Statement.exec, eval_timed]
  | .branch branches (some body) => by
    rw [Statement.timed, Statement.exec, Statement.exec, execBlock_timed body,
      execBranches_timed _ branches]
  | .branch branches none => by
    rw [Statement.timed, Statement.exec, Statement.exec, execBranches_timed _ branches]
  | .choose subject arms => by
    rw [Statement.timed, Statement.exec, Statement.exec]
    exact congrArg _ (funext fun value => execArms_timed value arms)
  | .result value => by rw [Statement.timed, Statement.exec, Statement.exec, eval_timed]
  | .effect value => by rw [Statement.timed, Statement.exec, Statement.exec, eval_timed]

theorem execBlock_timed : ∀ body : List Statement,
    execBlock ⟨scope, game, other⟩ (timedBlock n body) = execBlock ⟨scope, game, n⟩ body
  | [] => rfl
  | s :: rest => by rw [timedBlock, execBlock, execBlock, exec_timed s, execBlock_timed rest]

theorem execBranches_timed (otherwise : Eval σ (Option Value)) :
    ∀ branches : List (Expr × List Statement),
      execBranches ⟨scope, game, other⟩ otherwise (timedBranches n branches) =
        execBranches ⟨scope, game, n⟩ otherwise branches
  | [] => rfl
  | (condition, body) :: rest => by
    rw [timedBranches, execBranches, execBranches, eval_timed, execBlock_timed body,
      execBranches_timed otherwise rest]

theorem execArms_timed (value : Value) : ∀ arms : List (Pattern × List Statement),
    execArms ⟨scope, game, other⟩ value (timedArms n arms) = execArms ⟨scope, game, n⟩ value arms
  | [] => rfl
  | (pattern, body) :: rest => by
    rw [timedArms, execArms, execArms, execBlock_timed body, execArms_timed value rest]

end

/-- A program reads the time as a number that it could hold itself. -/
theorem Program.run_timed (p : Program) :
    (p.timed n).run ⟨scope, game, other⟩ = p.run ⟨scope, game, n⟩ := by
  cases p with
  | flat condition => rw [timed, run, run, eval_timed]
  | block body => rw [timed, run, run, execBlock_timed]

end

/-! ## Rows of equal results -/

theorem replicate_suffix_concat {k : Nat} {b last : Bool} {results : List Bool} :
    List.replicate (k + 1) b <:+ results ++ [last] ↔
      List.replicate k b <:+ results ∧ b = last := by
  have hlength : [b].length = [last].length := rfl
  rw [List.replicate_succ', List.suffix_append_inj_of_length_eq hlength, List.singleton_inj]

theorem getLast?_of_replicate_suffix {k : Nat} {b : Bool} {results : List Bool}
    (h : List.replicate (k + 1) b <:+ results) : results.getLast? = some b := by
  rw [List.replicate_succ'] at h
  exact List.singleton_suffix_iff_getLast?_eq_some.1 ((List.suffix_append _ _).trans h)

namespace Condition

/-- Whether a condition knows the last of some results and how many of them at the end are
equal to it, itself not counted. -/
structure Counts (c : Condition) (results : List Bool) : Prop where
  row : List.replicate (c.elapsed + 1) c.last <:+ results
  longest : ∀ k b, List.replicate k b <:+ results → k ≤ c.elapsed + 1

theorem Begins.counts {c : Condition} (h : c.Begins) : c.Counts [false] := by
  obtain ⟨-, helapsed, hlast⟩ := h.forgotten
  refine ⟨?_, fun k b hrow => ?_⟩
  · rw [helapsed, hlast]
    exact List.suffix_rfl
  · rw [helapsed, ← List.length_replicate (n := k) (a := b)]
    exact hrow.length_le

/-- A result that is taken note of is counted: it goes on with the row or ends it. -/
theorem Counts.settle {c : Condition} {results : List Bool} (h : c.Counts results)
    (result : Bool) : (c.settle result).Counts (results ++ [result]) := by
  by_cases hsame : result = c.last
  · have hsettle : c.settle result = { c with elapsed := c.elapsed + 1 } :=
      if_pos (beq_iff_eq.2 hsame)
    rw [hsettle]
    refine ⟨replicate_suffix_concat.2 ⟨h.row, hsame.symm⟩, fun k b hrow => ?_⟩
    cases k with
    | zero => exact Nat.zero_le _
    | succ k => exact Nat.succ_le_succ (h.longest k b (replicate_suffix_concat.1 hrow).1)
  · have hsettle : c.settle result = { c with elapsed := 0, last := result } :=
      if_neg fun heq => hsame (beq_iff_eq.1 heq)
    rw [hsettle]
    refine ⟨List.suffix_append _ _, fun k b hrow => ?_⟩
    match k with
    | 0 => exact Nat.zero_le _
    | 1 => exact Nat.le_refl _
    | k + 2 =>
      obtain ⟨hbefore, rfl⟩ := replicate_suffix_concat.1 hrow
      -- the row of the last result and that of another one would both end the results before
      have hlast := (getLast?_of_replicate_suffix hbefore).symm.trans
        (getLast?_of_replicate_suffix h.row)
      exact absurd (Option.some.inj hlast) hsame

/-! ## Runs of evaluations -/

variable {σ : Type}

/-- The results of those evaluations in some settings in which the program runs to its end. -/
def completed (c : Condition) : List (Setting σ) → List Bool
  | [] => []
  | setting :: settings =>
    let later := (c.evaluateIn setting).condition.completed settings
    match c.outcome? setting with
    | some (.ok result) => result :: later
    | _ => later

/-- An evaluation whose program does not run to its end is not counted. -/
theorem unchanged_of_not_ok {c : Condition} {setting : Setting σ}
    (h : ∀ result, c.outcome? setting ≠ some (.ok result)) :
    (c.evaluateIn setting).condition.elapsed = c.elapsed ∧
      (c.evaluateIn setting).condition.last = c.last := by
  cases hend : c.outcome? setting with
  | none =>
    rw [(evaluateIn_of_none hend).2]
    exact ⟨rfl, rfl⟩
  | some outcome =>
    cases outcome with
    | ok result => exact absurd hend (h result)
    | error halt =>
      obtain ⟨memory, hmemory⟩ := (evaluateIn_of_error hend).2
      rw [hmemory]
      exact ⟨rfl, rfl⟩

theorem Counts.after {c : Condition} {results : List Bool} (h : c.Counts results)
    (settings : List (Setting σ)) :
    (c.after settings).Counts (results ++ c.completed settings) := by
  induction settings generalizing c results with
  | nil =>
    rw [completed, List.append_nil]
    exact h
  | cons setting settings ih =>
    rw [completed]
    split
    · next result hend =>
      obtain ⟨memory, hcondition⟩ := (evaluateIn_of_ok hend).2
      have hkept : Counts { c with memory } results := ⟨h.row, h.longest⟩
      rw [after_cons, List.append_cons]
      exact ih (hcondition ▸ hkept.settle result)
    · next hend =>
      obtain ⟨helapsed, hlast⟩ := unchanged_of_not_ok hend
      exact ih ⟨by rw [helapsed, hlast]; exact h.row, by rw [helapsed]; exact h.longest⟩

/-- After any evaluations a condition has counted the longest row of equal results at their
end, less one, where the first result is false and only evaluations that run to the end of
the program come to a result. In the next evaluation the program reads this count, as if its
calls of `time_in_state` were that number; the evaluation gives what the program comes to. One
in which the program fails gives false, and neither that nor one that the game breaks off is
counted. -/
theorem elapsed_after {c : Condition} (h : c.Begins) (settings : List (Setting σ)) :
    IsGreatest {k | ∃ b, List.replicate k b <:+ false :: c.completed settings}
        ((c.after settings).elapsed + 1) ∧
      ∀ {τ : Type} (next : Setting τ),
        (∀ program, (c.after settings).program = some program → ∀ other,
          (c.after settings).evaluateIn next = (c.after settings).conclude
            (((program.timed (c.after settings).elapsed).run ⟨next.scope, next.game, other⟩).run.run
              ((c.after settings).firstRun next))) ∧
        (∀ result, (c.after settings).outcome? next = some (.ok result) →
          ((c.after settings).evaluateIn next).result = some result) ∧
        (∀ error, (c.after settings).outcome? next = some (.error (.failed error)) →
          ((c.after settings).evaluateIn next).result = some false) ∧
        ((∀ result, (c.after settings).outcome? next ≠ some (.ok result)) →
          ((c.after settings).evaluateIn next).condition.elapsed = (c.after settings).elapsed ∧
            ((c.after settings).evaluateIn next).condition.last = (c.after settings).last) := by
  have hcounts : (c.after settings).Counts (false :: c.completed settings) :=
    h.counts.after settings
  refine ⟨⟨⟨_, hcounts.row⟩, fun k ⟨b, hrow⟩ => hcounts.longest k b hrow⟩,
    fun next => ⟨?_, ?_, ?_, ?_⟩⟩
  · intro program hprogram other
    rw [Program.run_timed]
    exact evaluateIn_of_program hprogram next
  · intro result hend
    exact (evaluateIn_of_ok hend).1
  · intro error hend
    exact (evaluateIn_of_error hend).1
  · exact unchanged_of_not_ok

/-- A program that watches the weather, the light and the time, and that fails in snow. -/
def weatherProgram : Program :=
  .block [.effect (.call "time_in_state" []), .effect (.call "light_level" []),
    .branch [(.call "event" [.variable "snow"], [.assign "cold" (.bool true)])] none,
    .result (.call "event" [.variable "rain"])]

/-- A condition with this program that was never evaluated. -/
def weatherWatch : Condition := .build "weather" (some weatherProgram) .zeros

/-- Dry weather, rain, a crash over rain and one over the light, snow and rain again. -/
def weather : List (Setting (List Question)) :=
  [.staged [] [], .staged ["rain"] [], .staged [] [.event "rain"], .staged [] [.gauge .light],
    .staged ["rain", "snow"] [], .staged ["rain"] []]

theorem elapsed_after_weather :
    weatherWatch.completed weather = [false, true, true] ∧
      (weatherWatch.after weather).elapsed = 1 ∧
      IsGreatest {k | ∃ b, List.replicate k b <:+ [false, false, true, true]} 2 ∧
      ((weatherWatch.after weather).evaluateIn (.staged ["snow"] [])).result = some false ∧
      ((weatherWatch.after weather).evaluateIn (.staged ["snow"] [])).condition.elapsed = 1 := by
  have hcompleted : weatherWatch.completed weather = [false, true, true] := by decide +kernel
  have helapsed : (weatherWatch.after weather).elapsed = 1 := by decide +kernel
  have hfailed : (weatherWatch.after weather).outcome? (.staged ["snow"] []) =
      some (.error (.failed (.undeclaredAssigned "cold"))) := by decide +kernel
  obtain ⟨hlongest, hnext⟩ := elapsed_after (c := weatherWatch) (.build "weather" _ _) weather
  obtain ⟨-, -, hresult, hkept⟩ := hnext (.staged ["snow"] [])
  refine ⟨hcompleted, helapsed, ?_, hresult _ hfailed, ?_⟩
  · rw [hcompleted, helapsed] at hlongest
    exact hlongest
  · exact (hkept (by rw [hfailed]; nofun)).1.trans helapsed

end Condition
end Flipbook.Expression
