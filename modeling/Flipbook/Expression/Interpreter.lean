import Flipbook.Expression.Memory
import Flipbook.Expression.Program
import Flipbook.Expression.Value
import Flipbook.Notice

/-!
# Running programs

A program is run in an `Env`: the variables, the game and the age of the
condition's last change. A run changes the state of the game, the memory of the
condition and the names that the program declares, and it adds notices; all four
make up a `Run`. It stops early when the game crashes or a statement fails, and
keeps what it has changed by then.

* `Expr.eval` evaluates an expression, which never fails by itself: unknown
  names count as zero or false, division by zero is zero.
* `Statement.exec` runs a statement; a result ends the program.
* `Program.run` runs a program to a truth value.
-/
namespace Flipbook.Expression

/-! ## Runs -/

/-- What a program reads. -/
structure Env (σ : Type) where
  scope : Scope
  game : Game σ
  /-- The evaluations since the result of the condition changed last. -/
  elapsed : Nat

/-- A declared name. -/
structure Binding where
  value : Value
  mutable : Bool

/-- What a program changes. -/
structure Run (σ : Type) where
  game : σ
  memory : Memory
  locals : Table String Binding
  /-- The notices so far, oldest first. -/
  notices : List Notice

/-- Why a run stops early. -/
inductive Halt where
  /-- The game gave no answer. -/
  | crashed
  /-- A statement failed. -/
  | failed (error : RunError)
deriving DecidableEq, Repr

/-- A computation in a run. -/
abbrev Eval (σ α : Type) := ExceptT Halt (StateM (Run σ)) α

variable {σ : Type}

/-- Puts a question to the game, which crashes if it has no answer. -/
def ask {α : Type} (question : σ → Option α × σ) : Eval σ α := do
  let run ← get
  let (answer, game) := question run.game
  set { run with game }
  match answer with
  | some a => return a
  | none => throw .crashed

/-- Asks whether an event is active. -/
def askEvent (env : Env σ) (name : String) : Eval σ Bool := ask (env.game.event name)

/-- Asks a probe. -/
def askProbe (env : Env σ) (kind : Probe) (name : String) : Eval σ Bool :=
  ask (env.game.probe kind name)

/-- Reads a gauge. -/
def askGauge (env : Env σ) (kind : Gauge) : Eval σ Float := ask (env.game.gauge kind)

/-- Gives a notice unless its problem was reported before. -/
def reportOnce (problem : Report) (notice : Notice) : Eval σ Unit :=
  modify fun run =>
    if problem ∈ run.memory.reported then run
    else { run with memory := run.memory.report problem, notices := run.notices ++ [notice] }

/-! ## Names and functions -/

/-- The value of a variable: what the program declared comes before the scope. -/
def readVariable (env : Env σ) (name : String) : Eval σ Value := do
  match (← get).locals.get? name with
  | some binding => return binding.value
  | none =>
    match env.scope.get? name with
    | some value => return value
    | none =>
      reportOnce (.variable name) (.unknownVariable name)
      return .number 0

/-- The functions that a condition can call. -/
inductive Function where
  /-- Whether an event is active. -/
  | event
  /-- Whether an event has become active since it was last watched. -/
  | eventStart
  /-- Whether an event has ceased since it was last watched. -/
  | eventEnd
  | random
  | abs
  | min
  | max
  /-- Whether the first argument lies between the two others. -/
  | between
  /-- The evaluations since the result changed last. -/
  | timeInState
  | frameIndex
  | cycleCount
  | probe (kind : Probe)
  | gauge (kind : Gauge)
deriving DecidableEq, Repr

/-- The function with the given name. -/
def Function.ofName? : String → Option Function
  | "event" => some .event
  | "event_start" => some .eventStart
  | "event_end" => some .eventEnd
  | "random" => some .random
  | "abs" => some .abs
  | "min" => some .min
  | "max" => some .max
  | "between" => some .between
  | "time_in_state" => some .timeInState
  | "frame_index" => some .frameIndex
  | "cycle_count" => some .cycleCount
  | "holding_item" => some (.probe .item)
  | "has_effect" => some (.probe .effect)
  | "in_biome" => some (.probe .biome)
  | "armor_value" => some (.gauge .armor)
  | "light_level" => some (.gauge .light)
  | _ => none

/-- An argument of a call: the word it consists of, if it is a bare name or a
text, and the computation of its value. -/
structure Argument (σ : Type) where
  word : Option String
  value : Eval σ Value

/-- Trims a name that stands as an argument. -/
def trimName (s : String) : String := String.ofList (Text.trim s.toList)

/-- The name in the first argument. Bare names and texts stand for themselves;
any other argument has to be a text by value. -/
def nameArgument : List (Argument σ) → Eval σ (Option String)
  | [] => return none
  | arg :: _ =>
    match arg.word with
    | some word => return some (trimName word)
    | none => do
      match ← arg.value with
      | .text s => return some (trimName s)
      | _ => return none

/-- The number in an argument. -/
def Argument.number (arg : Argument σ) : Eval σ Float := do return (← arg.value).asNumber

/-- Whether an event has changed since it was last watched, to active when
`rising` and from active otherwise. -/
def watchEvent (env : Env σ) (name : String) (rising : Bool) : Eval σ Bool := do
  let active ← askEvent env name
  let run ← get
  let before := run.memory.sawActive name
  set { run with memory := run.memory.see name active }
  return if rising then active && !before else !active && before

/-- The lesser of two numbers. It is the second of two equal ones, such as zeros of
either sign, and never not-a-number beside a number. -/
def lesser (a b : Float) : Float := if a < b || b.isNaN then a else b

/-- The greater of two numbers. It is the second of two equal ones, such as zeros of
either sign, and never not-a-number beside a number. -/
def greater (a b : Float) : Float := if a > b || b.isNaN then a else b

/-- The next random number. -/
def drawRandom : Eval σ Float := do
  let run ← get
  set { run with memory := { run.memory with random := run.memory.random.next } }
  return run.memory.random.value

/-- Calls a function. Only the arguments that it needs are evaluated. -/
def Function.call (env : Env σ) (f : Function) (args : List (Argument σ)) : Eval σ Value :=
  match f with
  | .event => do
    match ← nameArgument args with
    | some name => return .bool (← askEvent env name)
    | none => return .bool false
  | .eventStart => do
    match ← nameArgument args with
    | some name => return .bool (← watchEvent env name true)
    | none => return .bool false
  | .eventEnd => do
    match ← nameArgument args with
    | some name => return .bool (← watchEvent env name false)
    | none => return .bool false
  | .random => do return .number (← drawRandom)
  | .abs =>
    match args with
    | a :: _ => do return .number (← a.number).abs
    | [] => return .number 0
  | .min =>
    match args with
    | a :: b :: _ => do return .number (lesser (← a.number) (← b.number))
    | _ => return .number 0
  | .max =>
    match args with
    | a :: b :: _ => do return .number (greater (← a.number) (← b.number))
    | _ => return .number 0
  | .between =>
    match args with
    | a :: b :: c :: _ => do
      let value ← a.number
      let low ← b.number
      let high ← c.number
      return .bool (low ≤ value && value ≤ high)
    | _ => return .bool false
  | .timeInState => return .ofNat env.elapsed
  | .frameIndex => return .ofNat env.scope.frame
  | .cycleCount => return .ofNat env.scope.cycles
  | .probe kind => do
    match ← nameArgument args with
    | some name => return .bool (← askProbe env kind name)
    | none => return .bool false
  | .gauge kind => do return .number (← askGauge env kind)

/-- Calls the function of the given name; an unknown one is reported and counts
as false. -/
def callNamed (env : Env σ) (name : String) (args : List (Argument σ)) : Eval σ Value :=
  match Function.ofName? name with
  | some f => f.call env args
  | none => do
    reportOnce (.function name) (.unknownFunction name)
    return .bool false

/-! ## Operators -/

/-- The value of a prefix operator. -/
def UnaryOp.apply : UnaryOp → Value → Value
  | .negate, v => .number (-v.asNumber)
  | .not, v => .bool !v.truthy

/-- The value of an operator on numbers. -/
def BinaryOp.applyNumbers (op : BinaryOp) (a b : Float) : Value :=
  match op with
  | .or => .bool (a != 0 || b != 0)
  | .and => .bool (a != 0 && b != 0)
  | .equal => .bool (a == b)
  | .notEqual => .bool (a != b)
  | .less => .bool (a < b)
  | .greater => .bool (a > b)
  | .atMost => .bool (a ≤ b)
  | .atLeast => .bool (a ≥ b)
  | .add => .number (a + b)
  | .subtract => .number (a - b)
  | .multiply => .number (a * b)
  | .divide => .number (if b != 0 then a / b else 0)
  | .power => .number (a.pow b)

/-- The value of an operator whose operands are both evaluated. Only two texts
are compared as texts; all else is compared and computed as numbers. -/
def BinaryOp.apply (op : BinaryOp) (left right : Value) : Value :=
  match op, left, right with
  | .equal, .text a, .text b => .bool (a == b)
  | .notEqual, .text a, .text b => .bool (a != b)
  | op, left, right => op.applyNumbers left.asNumber right.asNumber

/-! ## Expressions -/

/-- The word that an argument consists of. -/
def Expr.word? : Expr → Option String
  | .variable name => some name
  | .text s => some s
  | _ => none

mutual

/-- Evaluates an expression. The right operand of `||` and `&&` is evaluated
only when the left one does not decide. -/
def Expr.eval (env : Env σ) : Expr → Eval σ Value
  | .number n => return .number n
  | .text s => return .text s
  | .bool b => return .bool b
  | .variable name => readVariable env name
  | .unary op operand => do return op.apply (← operand.eval env)
  | .binary .or left right => do
    if (← left.eval env).truthy then return .bool true
    else return .bool (← right.eval env).truthy
  | .binary .and left right => do
    if (← left.eval env).truthy then return .bool (← right.eval env).truthy
    else return .bool false
  | .binary op left right => do
    let a ← left.eval env
    let b ← right.eval env
    return op.apply a b
  | .call name args => callNamed env name (Expr.arguments env args)

/-- The arguments of a call, not yet evaluated. -/
def Expr.arguments (env : Env σ) : List Expr → List (Argument σ)
  | [] => []
  | e :: es => ⟨e.word?, e.eval env⟩ :: Expr.arguments env es

end

/-! ## Statements -/

/-- Whether a value matches the pattern of an arm. -/
def Pattern.accepts : Pattern → Value → Bool
  | .rest, _ => true
  | .text expected, .text actual => expected == actual
  | .text _, _ => false
  | .number _, .text _ => false
  | .number expected, v => v.asNumber == expected

/-- Declares a name, in place of any earlier declaration. -/
def declareName (name : String) (binding : Binding) : Eval σ Unit :=
  modify fun run => { run with locals := run.locals.insert name binding }

/-- Assigns to a declared name. -/
def assignName (name : String) (value : Value) : Eval σ Unit := do
  match (← get).locals.get? name with
  | some binding =>
    if binding.mutable then declareName name { binding with value }
    else throw (.failed (.constantAssigned name))
  | none => throw (.failed (.undeclaredAssigned name))

mutual

/-- Runs a statement. A value is the result of the program and ends it. -/
def Statement.exec (env : Env σ) : Statement → Eval σ (Option Value)
  | .declare mutable name value => do
    declareName name ⟨← value.eval env, mutable⟩
    return none
  | .assign name value => do
    assignName name (← value.eval env)
    return none
  | .branch branches (some body) => execBranches env (execBlock env body) branches
  | .branch branches none => execBranches env (return none) branches
  | .choose subject arms => do execArms env (← readVariable env subject) arms
  | .result value => do return some (← value.eval env)
  | .effect value => do
    let _ ← value.eval env
    return none

/-- Runs statements until one gives a result. -/
def execBlock (env : Env σ) : List Statement → Eval σ (Option Value)
  | [] => return none
  | s :: rest => do
    match ← s.exec env with
    | some value => return some value
    | none => execBlock env rest

/-- Runs the first block whose condition holds, or `otherwise`. -/
def execBranches (env : Env σ) (otherwise : Eval σ (Option Value)) :
    List (Expr × List Statement) → Eval σ (Option Value)
  | [] => otherwise
  | (condition, body) :: rest => do
    if (← condition.eval env).truthy then execBlock env body
    else execBranches env otherwise rest

/-- Runs the block of the first arm that accepts the value. -/
def execArms (env : Env σ) (value : Value) : List (Pattern × List Statement) → Eval σ (Option Value)
  | [] => return none
  | (pattern, body) :: rest =>
    if pattern.accepts value then execBlock env body else execArms env value rest

end

/-- Runs a program. A block without a result does not hold. -/
def Program.run (env : Env σ) : Program → Eval σ Bool
  | .flat condition => do return (← condition.eval env).truthy
  | .block body => do
    match ← execBlock env body with
    | some value => return value.truthy
    | none => return false

end Flipbook.Expression
