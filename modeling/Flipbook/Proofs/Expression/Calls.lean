import Flipbook.Expression.Interpreter

/-!
# The functions that a program calls

Most of what a condition does follows from its variables and the game alone. What it
remembers comes in through a few functions only, so that much can be said of a program
from the names of the functions that it calls.
-/
namespace Flipbook.Expression

mutual

/-- The names of the functions that an expression calls. -/
def Expr.called : Expr → List String
  | .number _ => []
  | .text _ => []
  | .bool _ => []
  | .variable _ => []
  | .unary _ operand => operand.called
  | .binary _ left right => left.called ++ right.called
  | .call name args => name :: Expr.calledIn args

/-- The names of the functions that the arguments of a call call. -/
def Expr.calledIn : List Expr → List String
  | [] => []
  | e :: es => e.called ++ Expr.calledIn es

end

mutual

/-- The names of the functions that a statement calls. -/
def Statement.called : Statement → List String
  | .declare _ _ value => value.called
  | .assign _ value => value.called
  | .branch branches (some body) => calledInBranches branches ++ calledInBlock body
  | .branch branches none => calledInBranches branches
  | .choose _ arms => calledInArms arms
  | .result value => value.called
  | .effect value => value.called

/-- The names of the functions that statements call. -/
def calledInBlock : List Statement → List String
  | [] => []
  | s :: rest => s.called ++ calledInBlock rest

/-- The names of the functions that branches call, in their conditions as well. -/
def calledInBranches : List (Expr × List Statement) → List String
  | [] => []
  | (condition, body) :: rest => condition.called ++ (calledInBlock body ++ calledInBranches rest)

/-- The names of the functions that arms call. -/
def calledInArms : List (Pattern × List Statement) → List String
  | [] => []
  | (_, body) :: rest => calledInBlock body ++ calledInArms rest

end

/-- The names of the functions that a program calls. -/
def Program.called : Program → List String
  | .flat condition => condition.called
  | .block body => calledInBlock body

/-- Whether all functions among some names are allowed. Names of no function count as
allowed. -/
def Within (allowed : Function → Prop) (names : List String) : Prop :=
  ∀ name ∈ names, ∀ f ∈ Function.ofName? name, allowed f

namespace Within

variable {allowed : Function → Prop} {names more : List String}

theorem left (h : Within allowed (names ++ more)) : Within allowed names :=
  fun name hname => h name (List.mem_append_left _ hname)

theorem right (h : Within allowed (names ++ more)) : Within allowed more :=
  fun name hname => h name (List.mem_append_right _ hname)

theorem tail {name : String} (h : Within allowed (name :: names)) : Within allowed names :=
  fun other hother => h other (List.mem_cons_of_mem _ hother)

/-- Where every function is allowed, any names are. -/
theorem of_forall (h : ∀ f, allowed f) (names : List String) : Within allowed names :=
  fun _ _ f _ => h f

end Within

/-- The name of a function. -/
def Function.name : Function → String
  | .event => "event"
  | .eventStart => "event_start"
  | .eventEnd => "event_end"
  | .random => "random"
  | .abs => "abs"
  | .min => "min"
  | .max => "max"
  | .between => "between"
  | .timeInState => "time_in_state"
  | .frameIndex => "frame_index"
  | .cycleCount => "cycle_count"
  | .probe .item => "holding_item"
  | .probe .effect => "has_effect"
  | .probe .biome => "in_biome"
  | .gauge .armor => "armor_value"
  | .gauge .light => "light_level"

theorem Function.eq_name_of_ofName? {name : String} {f : Function} (h : ofName? name = some f) :
    name = f.name := by
  unfold ofName? at h
  split at h <;> cases h <;> rfl

/-- A program that does not name a function does not call it. -/
theorem within_of_notMem_name {f : Function} {names : List String} (h : f.name ∉ names) :
    Within (· ≠ f) names := by
  rintro name hname _ hf rfl
  exact h (Function.eq_name_of_ofName? hf ▸ hname)

end Flipbook.Expression
