import Flipbook.Expression.Lexer
import Flipbook.Expression.Program

/-!
# Reading programs

`parse` reads a condition. A program that starts with an opening brace is a
block of statements, any other one an expression. The operators bind, from
loosest to tightest: `||`, `&&`, comparisons, `+ -`, `* /`, all of them to the
left, then `^` to the right, then the prefixes `- !`.

A `Rule` reads some construct at the start of a list of tokens and takes at
least one token; what it leaves is part of its result, and so is the proof that
it is shorter. Rules that can hold themselves are *nested*: expressions, blocks,
operands of a prefix and right operands of `^`. `Rules.within n` are the nested
rules when `n` more levels may be entered.
-/
namespace Flipbook.Expression

/-! ## Rules -/

/-- Why a rule fails: the tokens at the place of the failure and what the
grammar allows there, or nothing when the nesting is too deep. -/
structure Failure where
  expected : Option Expectation
  rest : List Lexeme

/-- What a rule has read at the start of `ts`. -/
structure Parsed (α : Type) (ts : List Lexeme) where
  value : α
  rest : List Lexeme
  shorter : rest.length < ts.length

/-- A rule of the grammar. -/
abbrev Rule (α : Type) := (ts : List Lexeme) → Except Failure (Parsed α ts)

/-- The failure of a rule that needs something else at the start of `ts`. -/
def fail {α : Type} (expected : Expectation) (ts : List Lexeme) : Except Failure α :=
  .error ⟨some expected, ts⟩

namespace Parsed

/-- The same reading with another value. -/
def map {α β : Type} {ts : List Lexeme} (f : α → β) (p : Parsed α ts) : Parsed β ts :=
  ⟨f p.value, p.rest, p.shorter⟩

/-- A reading of the end of a list as a reading of the whole list. -/
def widen {α : Type} {us ts : List Lexeme} (h : us.length < ts.length) (p : Parsed α us) :
    Parsed α ts :=
  ⟨p.value, p.rest, Nat.lt_trans p.shorter h⟩

end Parsed

/-- Reads one symbol. -/
def symbol (s : Symbol) : Rule Unit
  | [] => fail (.symbol s) []
  | t :: ts =>
    match t.token with
    | .symbol s' => if s' = s then .ok ⟨(), ts, by simp⟩ else fail (.symbol s) (t :: ts)
    | _ => fail (.symbol s) (t :: ts)

/-- Reads a name. -/
def identifier : Rule String
  | [] => fail .identifier []
  | t :: ts =>
    match t.token with
    | .name name => .ok ⟨name, ts, by simp⟩
    | _ => fail .identifier (t :: ts)

/-- Whether the next token is the given symbol. -/
def startsWith (s : Symbol) : List Lexeme → Bool
  | ⟨.symbol s', _⟩ :: _ => s' = s
  | _ => false

/-- Whether the next token is the given word. -/
def startsWithWord (word : String) : List Lexeme → Bool
  | ⟨.name name, _⟩ :: _ => name = word
  | _ => false

/-- Reads `rule` and then one symbol. -/
def closedBy {α : Type} (s : Symbol) (rule : Rule α) : Rule α := fun ts => do
  let p ← rule ts
  let close ← symbol s p.rest
  return ⟨p.value, close.rest, Nat.lt_trans close.shorter p.shorter⟩

/-! ## Expressions -/

/-- Reads the operators and operands that follow a left operand and applies them
to the left. -/
def extendChain (operand : Rule Expr) (op? : Symbol → Option BinaryOp) {ts : List Lexeme}
    (left : Parsed Expr ts) : Except Failure (Parsed Expr ts) :=
  match _h : left.rest with
  | ⟨.symbol s, _⟩ :: us =>
    match op? s with
    | none => .ok left
    | some op =>
      match operand us with
      | .error e => .error e
      | .ok right =>
        extendChain operand op? ⟨.binary op left.value right.value, right.rest, by
          have := left.shorter; have := right.shorter; simp_all; omega⟩
  | _ => .ok left
termination_by left.rest.length
decreasing_by
  have := right.shorter
  simp_all
  omega

/-- Reads operands with operators of one level between them. -/
def chain (operand : Rule Expr) (op? : Symbol → Option BinaryOp) : Rule Expr := fun ts => do
  extendChain operand op? (← operand ts)

/-- The operators of the levels that bind to the left, from tightest to
loosest. -/
def chainLevels : List (Symbol → Option BinaryOp) :=
  [ fun | .times => some .multiply | .divide => some .divide | _ => none,
    fun | .plus => some .add | .minus => some .subtract | _ => none,
    fun
      | .equal => some .equal
      | .notEqual => some .notEqual
      | .atMost => some .atMost
      | .atLeast => some .atLeast
      | .less => some .less
      | .greater => some .greater
      | _ => none,
    fun | .and => some .and | _ => none,
    fun | .or => some .or | _ => none ]

/-- Reads a whole expression, given the rule for the operands of `* /`. -/
def chains (operand : Rule Expr) : Rule Expr := chainLevels.foldl chain operand

/-- Reads arguments, at least one, up to the closing parenthesis. -/
def argumentsFrom (expression : Rule Expr) (before : List Expr) (ts : List Lexeme) :
    Except Failure (Parsed (List Expr) ts) := do
  let arg ← expression ts
  match _h : arg.rest with
  | ⟨.symbol .closeParen, _⟩ :: us =>
    return ⟨before ++ [arg.value], us, by have := arg.shorter; simp_all; omega⟩
  | _ =>
    let comma ← symbol .comma arg.rest
    let more ← argumentsFrom expression (before ++ [arg.value]) comma.rest
    return more.widen (Nat.lt_trans comma.shorter arg.shorter)
termination_by ts.length
decreasing_by exact Nat.lt_trans comma.shorter arg.shorter

/-- Reads the arguments of a call after its opening parenthesis. -/
def arguments (expression : Rule Expr) : Rule (List Expr)
  | ⟨.symbol .closeParen, _⟩ :: ts => .ok ⟨[], ts, by simp⟩
  | ts => argumentsFrom expression [] ts

/-- The expression that a name stands for when it is not called. -/
def named (name : String) : Expr :=
  if name = "true" then .bool true
  else if name = "false" then .bool false
  else .variable name

/-- Reads a number, a text, an expression in parentheses, a call or a name. -/
def primary (expression : Rule Expr) : Rule Expr
  | ⟨.number value, _⟩ :: ts => .ok ⟨.number value, ts, by simp⟩
  | ⟨.text value, _⟩ :: ts => .ok ⟨.text value, ts, by simp⟩
  | ⟨.symbol .openParen, _⟩ :: ts => do
    return (← closedBy .closeParen expression ts).widen (by simp)
  | ⟨.name name, _⟩ :: ⟨.symbol .openParen, _⟩ :: ts => do
    return ((← arguments expression ts).map (.call name)).widen
      (by simp only [List.length_cons]; omega)
  | ⟨.name name, _⟩ :: ts => .ok ⟨named name, ts, by simp⟩
  | ts => fail .value ts

/-- Reads prefixes and the operand after them; `nested` reads the operand of a
prefix. -/
def unary (nested : Rule Expr) (primary : Rule Expr) : Rule Expr
  | ⟨.symbol .minus, _⟩ :: ts => do
    return ((← nested ts).map (.unary .negate)).widen (by simp)
  | ⟨.symbol .not, _⟩ :: ts => do
    return ((← nested ts).map (.unary .not)).widen (by simp)
  | ts => primary ts

/-- Reads a base and an optional exponent; `nested` reads the exponent. -/
def power (nested : Rule Expr) (unary : Rule Expr) : Rule Expr := fun ts => do
  let base ← unary ts
  match _h : base.rest with
  | ⟨.symbol .power, _⟩ :: us =>
    let exponent ← nested us
    return (exponent.map (.binary .power base.value)).widen (by
      have := base.shorter; simp_all; omega)
  | _ => return base

/-! ## Statements -/

/-- The nested rules. -/
structure Rules where
  expression : Rule Expr
  power : Rule Expr
  unary : Rule Expr
  block : Rule (List Statement)

/-- Reads the pattern of an arm. -/
def pattern : Rule Pattern
  | ⟨.number value, _⟩ :: ts => .ok ⟨.number value, ts, by simp⟩
  | ⟨.symbol .minus, _⟩ :: ⟨.number value, _⟩ :: ts =>
    .ok ⟨.number (-value), ts, by simp only [List.length_cons]; omega⟩
  | ⟨.symbol .minus, position⟩ :: [] => fail .numberAfterMinus [⟨.symbol .minus, position⟩]
  | ⟨.symbol .minus, _⟩ :: ts => fail .numberAfterMinus ts
  | ⟨.text value, _⟩ :: ts => .ok ⟨.text value, ts, by simp⟩
  | ⟨.name name, position⟩ :: ts =>
    if name = "rest__" then .ok ⟨.rest, ts, by simp⟩
    else fail .pattern (⟨.name name, position⟩ :: ts)
  | [] => fail (.symbol .closeBrace) []
  | ts => fail .pattern ts

/-- Reads the value of a declaration or an assignment after its name: the sign
and the expression. -/
def assigned (rules : Rules) : Rule Expr := fun ts => do
  let sign ← symbol .assign ts
  return (← rules.expression sign.rest).widen sign.shorter

/-- Reads a condition and the block under it. -/
def guarded (rules : Rules) : Rule (Expr × List Statement) := fun ts => do
  let condition ← rules.expression ts
  let body ← rules.block condition.rest
  return (body.map (condition.value, ·)).widen condition.shorter

/-- Reads the `else` parts that follow the conditions read so far. -/
def elseParts (rules : Rules) {ts : List Lexeme}
    (sofar : Parsed (List (Expr × List Statement)) ts) : Except Failure (Parsed Statement ts) :=
  if startsWithWord "else" sofar.rest then
    match _h : sofar.rest with
    | [] => .ok (sofar.map (.branch · none))
    | _ :: us =>
      if startsWithWord "if" us then
        match _h' : us with
        | [] => .ok (sofar.map (.branch · none))
        | _ :: vs =>
          match guarded rules vs with
          | .error e => .error e
          | .ok next =>
            elseParts rules ⟨sofar.value ++ [next.value], next.rest, by
              have := sofar.shorter; have := next.shorter; simp_all; omega⟩
      else
        match rules.block us with
        | .error e => .error e
        | .ok last =>
          .ok ⟨.branch sofar.value (some last.value), last.rest, by
            have := sofar.shorter; have := last.shorter; simp_all; omega⟩
  else .ok (sofar.map (.branch · none))
termination_by sofar.rest.length
decreasing_by
  have := next.shorter
  simp_all
  omega

/-- A statement as the whole block of an arm: an expression is its result. -/
def Statement.asArm : Statement → List Statement
  | .effect value => [.result value]
  | s => [s]

mutual

/-- Reads one statement without its separator. -/
def statement (rules : Rules) (ts : List Lexeme) : Except Failure (Parsed Statement ts) :=
  match ts with
  | ⟨.name word, position⟩ :: us =>
    if word = "const" ∨ word = "mut" then do
      let name ← identifier us
      let value ← assigned rules name.rest
      return ((value.map (.declare (word = "mut") name.value)).widen name.shorter).widen (by simp)
    else if word = "if" then do
      let first ← guarded rules us
      return (← elseParts rules (first.map ([·]))).widen (by simp)
    else if word = "when" then do
      let subject ← identifier us
      let opening ← symbol .openBrace subject.rest
      let arms ← armsFrom rules [] opening.rest
      return ((arms.map (.choose subject.value)).widen
        (Nat.lt_trans opening.shorter subject.shorter)).widen (by simp)
    else if word = "eval" ∧ startsWith .openParen us then do
      let opening ← symbol .openParen us
      let value ← closedBy .closeParen rules.expression opening.rest
      return ((value.map .result).widen opening.shorter).widen (by simp)
    else if startsWith .assign us then do
      return ((← assigned rules us).map (.assign word)).widen (by simp)
    else do
      return (← rules.expression (⟨.name word, position⟩ :: us)).map .effect
  | ts => do return (← rules.expression ts).map .effect
termination_by ts.length
decreasing_by
  have := subject.shorter
  have := opening.shorter
  simp_all
  omega

/-- Reads the arms of a `when` statement up to its closing brace. -/
def armsFrom (rules : Rules) (before : List (Pattern × List Statement)) (ts : List Lexeme) :
    Except Failure (Parsed (List (Pattern × List Statement)) ts) :=
  match ts with
  | ⟨.symbol .comma, _⟩ :: us => do return (← armsFrom rules before us).widen (by simp)
  | ⟨.symbol .closeBrace, _⟩ :: us => .ok ⟨before, us, by simp⟩
  | ts => do
    let head ← pattern ts
    let arrow ← symbol .arrow head.rest
    let braced := startsWith .openBrace arrow.rest
    let body : Parsed (List Statement) arrow.rest ←
      if braced then rules.block arrow.rest
      else (·.map Statement.asArm) <$> statement rules arrow.rest
    let arms := before ++ [(head.value, body.value)]
    if startsWith .comma body.rest ∨ braced ∨ startsWith .closeBrace body.rest then
      return (← armsFrom rules arms body.rest).widen
        (Nat.lt_trans body.shorter (Nat.lt_trans arrow.shorter head.shorter))
    else fail .armSeparator body.rest
termination_by ts.length
decreasing_by
  · simp
  · exact Nat.lt_trans body.shorter (Nat.lt_trans arrow.shorter head.shorter)
  · exact Nat.lt_trans arrow.shorter head.shorter

end

/-- Whether a statement needs no separator after it. -/
def Statement.isSelfContained : Statement → Bool
  | .branch .. => true
  | .choose .. => true
  | _ => false

/-- A statement as a block holds it: an expression before the closing brace is
the result of the block. -/
def Statement.inBlock (s : Statement) (last : Bool) : Statement :=
  match s with
  | .effect value => if last then .result value else .effect value
  | s => s

/-- Reads the statements of a block up to its closing brace. -/
def statementsFrom (rules : Rules) (before : List Statement) (ts : List Lexeme) :
    Except Failure (Parsed (List Statement) ts) :=
  match ts with
  | ⟨.symbol .semicolon, _⟩ :: us => do return (← statementsFrom rules before us).widen (by simp)
  | ⟨.symbol .closeBrace, _⟩ :: us => .ok ⟨before, us, by simp⟩
  | [] => fail (.symbol .closeBrace) []
  | ts => do
    let next ← statement rules ts
    let last := startsWith .closeBrace next.rest
    if next.value.isSelfContained ∨ last ∨ startsWith .semicolon next.rest then
      let later ← statementsFrom rules (before ++ [next.value.inBlock last]) next.rest
      return later.widen next.shorter
    else fail .separator next.rest
termination_by ts.length
decreasing_by
  · simp
  · exact next.shorter

/-- Reads a block. -/
def block (rules : Rules) : Rule (List Statement) := fun ts => do
  let opening ← symbol .openBrace ts
  return (← statementsFrom rules [] opening.rest).widen opening.shorter

/-! ## Nesting -/

/-- The nested rules when no further level may be entered. -/
def Rules.exhausted : Rules where
  expression := fun ts => .error ⟨none, ts⟩
  power := fun ts => .error ⟨none, ts⟩
  unary := fun ts => .error ⟨none, ts⟩
  block := fun ts => .error ⟨none, ts⟩

/-- The rules one level further out. -/
def Rules.enter (inner : Rules) : Rules :=
  let unary := Expression.unary inner.unary (primary inner.expression)
  let power := Expression.power inner.power unary
  { expression := chains power, power, unary, block := Expression.block inner }

/-- The nested rules when `n` more levels may be entered. -/
def Rules.within : Nat → Rules
  | 0 => exhausted
  | n + 1 => (within n).enter

/-- The deepest nesting of parentheses, prefixes, exponents and blocks. -/
def maxDepth : Nat := 64

/-! ## Programs -/

/-- The error of a failure in the given tokens. A failure at their end that has
no place of its own is reported at the last token. -/
def Failure.error (ts : List Lexeme) (f : Failure) : SyntaxError :=
  match f.expected, f.rest with
  | some expected, t :: _ => .unexpectedToken expected t.token t.position
  | some expected, [] => .unexpectedEnd expected
  | none, t :: _ => .tooDeep t.position
  | none, [] => .tooDeep ((ts.getLast?.map Lexeme.position).getD 0)

/-- Reads a program that makes up all the tokens. -/
def program (ts : List Lexeme) : Except Failure Program := do
  let rules := Rules.within maxDepth
  let p : Parsed Program ts ←
    if startsWith .openBrace ts then (·.map Program.block) <$> rules.block ts
    else (·.map Program.flat) <$> rules.expression ts
  if p.rest.isEmpty then return p.value else fail .endOfExpression p.rest

/-- Reads a program from its tokens. -/
def parseTokens (ts : List Lexeme) : Except SyntaxError Program :=
  (program ts).mapError (·.error ts)

/-- Reads a program from its text. -/
def parse (source : String) : Except SyntaxError Program := do
  parseTokens (← tokenize source)

end Flipbook.Expression
