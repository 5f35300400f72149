import Flipbook.Proofs.Expression.History
import Flipbook.Proofs.Game.Calm

/-!
# Conditions without state

Four functions read what a condition keeps from one evaluation to the next. A program that
calls none of them has nothing to do with it: what was declared, watched or reported before
makes no difference to its result.

* `Run.Alike`: runs that differ in what is remembered and reported only.
* `Game.Agree.alike_run`: a program that calls none of the four keeps runs alike.
* `Condition.result_stateless`: its result follows from the variables and the game.
-/
namespace Flipbook

namespace Expression

/-- Whether a function reads what a condition keeps. -/
def Function.isStateful : Function → Bool
  | .eventStart | .eventEnd | .random | .timeInState => true
  | _ => false

/-- The names of the functions that read what a condition keeps. -/
def statefulNames : List String := ["event_start", "event_end", "random", "time_in_state"]

theorem mem_statefulNames {name : String} {f : Function} (h : Function.ofName? name = some f)
    (hf : f.isStateful = true) : name ∈ statefulNames := by
  rw [Function.eq_name_of_ofName? h]
  revert hf
  cases f <;> simp [Function.isStateful, Function.name, statefulNames]

theorem within_of_stateless {p : Program} (h : ∀ name ∈ statefulNames, name ∉ p.called) :
    Within (fun f => f.isStateful = false) p.called := by
  intro name hname f hf
  rw [← Bool.not_eq_true]
  exact fun hstateful => h name (mem_statefulNames hf hstateful) hname

/-- Two runs whose games are in related states and that have declared the same names. -/
structure Run.Alike {σ τ : Type} (J : σ → τ → Prop) (r : Run σ) (r' : Run τ) : Prop where
  game : J r.game r'.game
  locals : r.locals = r'.locals

theorem ties_alike {σ τ : Type} (J : σ → τ → Prop) : Ties J (Run.Alike J) where
  game hr := hr.game
  locals hr := hr.locals
  withGame hr _ _ hst := ⟨hst, hr.locals⟩
  withLocals hr _ := ⟨hr.game, rfl⟩

/-- What is reported leaves runs alike. -/
theorem simulates_reportOnce_alike {σ τ : Type} {J : σ → τ → Prop} {H : Halt → Prop}
    (problem : Report) (notice : Notice) :
    Simulates (Run.Alike J) H (reportOnce problem notice) (reportOnce problem notice) := by
  refine simulates_modify fun r r' hr => ?_
  split <;> split <;> exact ⟨hr.game, hr.locals⟩

end Expression

open Expression (Condition Program Run Scope Setting Simulates statefulNames)

variable {σ τ : Type}

/-- In games that agree the runs of a program that calls none of the four stay alike and come
to the same end, whatever is remembered. -/
theorem Game.Agree.alike_run {J : σ → τ → Prop} {g : Game σ} {h : Game τ} (hJ : Game.Agree J g h)
    {p : Program} (hp : ∀ name ∈ statefulNames, name ∉ p.called) (scope : Scope)
    (elapsed elapsed' : Nat) :
    Simulates (Run.Alike J) (fun _ => True) (p.run ⟨scope, g, elapsed⟩)
      (p.run ⟨scope, h, elapsed'⟩) := by
  have hties := Expression.ties_alike J
  refine Expression.Parallel.simulates_run ?_ p (Expression.within_of_stateless hp)
  exact {
    scope := rfl
    elapsed := nofun
    event name := hties.simulates_ask (hJ.event name) fun _ _ _ _ => trivial
    watch name rising hallowed := by cases rising <;> cases hallowed
    probe kind name := hties.simulates_ask (hJ.probe kind name) fun _ _ _ _ => trivial
    gauge kind := hties.simulates_ask (hJ.gauge kind) fun _ _ _ _ => trivial
    random := nofun
    report := Expression.simulates_reportOnce_alike
    read := hties.simulates_readVariable rfl Expression.simulates_reportOnce_alike
    declare := hties.simulates_declareName
    assign := hties.simulates_assignName fun _ => trivial }

namespace Expression.Condition

/-- Conditions with one program that calls none of the four end alike in games that agree. -/
theorem outcome?_stateless {c d : Condition} (hprogram : c.program = d.program)
    (hcalled : ∀ program ∈ c.program, ∀ name ∈ statefulNames, name ∉ program.called)
    {J : σ → τ → Prop} {g : Game σ} {h : Game τ} (hJ : Game.Agree J g h) {s : σ} {t : τ}
    (hst : J s t) (scope : Scope) : c.outcome? ⟨scope, g, s⟩ = d.outcome? ⟨scope, h, t⟩ := by
  cases hc : c.program with
  | none => rw [outcome?_eq_none_iff.2 hc, outcome?_eq_none_iff.2 (hprogram.symm.trans hc)]
  | some program =>
    rw [outcome?_of_program hc, outcome?_of_program (hprogram.symm.trans hc)]
    exact congrArg some (hJ.alike_run (hcalled program hc) scope c.elapsed d.elapsed
      (c.firstRun ⟨scope, g, s⟩) (d.firstRun ⟨scope, h, t⟩) ⟨hst, rfl⟩).1

/-- Let a program call neither `event_start` nor `event_end`, `random` or `time_in_state`. Then
any two conditions with it come to the same result in games that keep to the same answers and
do not crash, whatever either of them remembers. So does a condition after any evaluations:
nothing of what they declared is left. -/
theorem result_stateless {c d : Condition} (hprogram : c.program = d.program)
    (hcalled : ∀ program ∈ c.program, ∀ name ∈ statefulNames, name ∉ program.called)
    {game : Game σ} {s : σ} (hsteady : game.Steady s) (hcalm : game.Calm s)
    {other : Game τ} {t : τ} (hother : other.Steady t)
    (hanswers : game.answers s = other.answers t) (scope : Scope) :
    ∃ result, (c.evaluate scope game s).result = some result ∧
      (d.evaluate scope other t).result = some result ∧
      ∀ {υ : Type} (settings : List (Setting υ)),
        ((c.after settings).evaluate scope game s).result = some result := by
  obtain ⟨result, hresult⟩ := Option.ne_none_iff_exists'.1 (hcalm.evaluate c scope)
  refine ⟨result, hresult, ?_, fun settings => ?_⟩
  · have hend := outcome?_stateless hprogram hcalled (hsteady.agree hother hanswers)
      ⟨.refl, .refl⟩ scope
    exact (result_evaluateIn_congr hend).symm.trans hresult
  · have hend := outcome?_stateless (c.program_after settings).symm hcalled
      (hsteady.agree hsteady rfl) ⟨.refl, .refl⟩ scope
    exact (result_evaluateIn_congr hend).symm.trans hresult

/-- A program that declares a name in a branch, reads unknown names and fails in snow. -/
def shelterProgram : Program :=
  .block [.branch [(.call "event" [.variable "rain"],
      [.declare true "wet" (.call "holding_item" [.text "umbrella"])])] none,
    .branch [(.call "event" [.variable "snow"], [.assign "cold" (.bool true)])] none,
    .result (.binary .or (.unary .not (.variable "wet")) (.call "roof" []))]

/-- A condition with this program that was never evaluated. -/
def shelter : Condition := .build "shelter" (some shelterProgram) .zeros

/-- A condition with this program that remembers much. -/
def wornShelter : Condition :=
  ⟨"shelter", some shelterProgram, ⟨.ofList [("rain", true), ("wet", true)], ⟨fun _ => 7⟩,
    [.function "roof", .variable "wet"]⟩, 3, true⟩

/-- A game in which it rains on a player without an umbrella. -/
def rainyStage : Stage := ⟨["rain"], [], ["stick"], [], [], 0, 0⟩

/-- A game in which it snows. -/
def snowyStage : Stage := ⟨["snow"], [], [], [], [], 0, 0⟩

theorem result_stateless_shelter :
    shelter.program = wornShelter.program ∧
    (∀ name ∈ statefulNames, name ∉ shelterProgram.called) ∧
    (shelter.evaluate .empty rainyStage.game []).result = some true ∧
    (wornShelter.evaluate .empty rainyStage.game [.gauge .light]).result = some true ∧
    ((shelter.after [⟨.empty, rainyStage.game, []⟩, ⟨.empty, snowyStage.game, []⟩]).evaluate .empty
      rainyStage.game []).result = some true := by
  have hcalled : ∀ name ∈ statefulNames, name ∉ shelterProgram.called := by decide +kernel
  have hresult : (shelter.evaluate .empty rainyStage.game []).result = some true := by
    decide +kernel
  obtain ⟨result, hsame, hworn, hafter⟩ := result_stateless (c := shelter) (d := wornShelter) rfl
    (fun _ hprogram => Option.some.inj hprogram ▸ hcalled) (rainyStage.steady [])
    (Stage.calm rfl []) (rainyStage.steady [.gauge .light]) rfl .empty
  obtain rfl : true = result := Option.some.inj (hresult.symm.trans hsame)
  exact ⟨rfl, hcalled, hresult, hworn, hafter _⟩

end Expression.Condition
end Flipbook
