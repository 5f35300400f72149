import Flipbook.Expression.Program
import Flipbook.Expression.Token

/-!
# Writing programs

How a program is written as tokens. Parentheses stand only where an operand holds
together less tightly than its place requires, every statement of a block ends with a
semicolon, and the bodies of a `when` stand in braces with commas between the arms.

The grammar leaves a writer some freedom, which a `Style` settles: a block may end with
a bare expression in place of its last `eval`, and the number of a pattern may be
written with a sign.

* `Expr.tokens`, `Statement.tokens`, `Program.tokens`: the tokens.
* `Expr.nesting`, `Statement.nesting`, `Program.nesting`: how deep they are nested.
* `Program.isWritable`: whether the names in a program leave no doubt what is meant.
-/
namespace Flipbook.Expression

/-! ## Operators -/

/-- The symbol of an operator. -/
def BinaryOp.symbol : BinaryOp → Symbol
  | .or => .or
  | .and => .and
  | .equal => .equal
  | .notEqual => .notEqual
  | .less => .less
  | .greater => .greater
  | .atMost => .atMost
  | .atLeast => .atLeast
  | .add => .plus
  | .subtract => .minus
  | .multiply => .times
  | .divide => .divide
  | .power => .power

/-- The symbol of an operator before its operand. -/
def UnaryOp.symbol : UnaryOp → Symbol
  | .negate => .minus
  | .not => .not

/-- How loosely an operator holds its operands together. What has no operator comes at
zero, prefixes at one. -/
def BinaryOp.looseness : BinaryOp → Nat
  | .power => 2
  | .multiply | .divide => 3
  | .add | .subtract => 4
  | .equal | .notEqual | .less | .greater | .atMost | .atLeast => 5
  | .and => 6
  | .or => 7

/-- The loosest operand that stands left of an operator as it is. Only `^` does not
bind to the left. -/
def BinaryOp.leftLimit (op : BinaryOp) : Nat :=
  if op = .power then op.looseness - 1 else op.looseness

/-- The loosest operand that stands right of an operator as it is. -/
def BinaryOp.rightLimit (op : BinaryOp) : Nat :=
  if op = .power then op.looseness else op.looseness - 1

/-! ## Expressions -/

/-- How loosely an expression holds together. -/
def Expr.looseness : Expr → Nat
  | .unary .. => 1
  | .binary op .. => op.looseness
  | _ => 0

/-- Tokens in parentheses. -/
def parenthesized (tokens : List Token) : List Token :=
  .symbol .openParen :: (tokens ++ [.symbol .closeParen])

/-- The tokens of an expression at a place where nothing looser than `limit` may stand
as it is. -/
def Expr.placed (limit : Nat) (e : Expr) (tokens : List Token) : List Token :=
  if e.looseness ≤ limit then tokens else parenthesized tokens

mutual

/-- The tokens of an expression. -/
def Expr.tokens : Expr → List Token
  | .number value => [.number value]
  | .text value => [.text value]
  | .bool value => [.name (if value then "true" else "false")]
  | .variable name => [.name name]
  | .unary op operand => .symbol op.symbol :: operand.placed 1 operand.tokens
  | .binary op left right =>
    left.placed op.leftLimit left.tokens ++
      .symbol op.symbol :: right.placed op.rightLimit right.tokens
  | .call name [] => .name name :: parenthesized []
  | .call name (arg :: args) => .name name :: parenthesized (arg.tokens ++ furtherArguments args)

/-- The tokens of the arguments behind the first one. -/
def furtherArguments : List Expr → List Token
  | [] => []
  | arg :: args => .symbol .comma :: (arg.tokens ++ furtherArguments args)

end

/-- The levels of nesting of an expression at a place where nothing looser than `limit`
may stand as it is. -/
def Expr.placedNesting (limit : Nat) (e : Expr) (levels : Nat) : Nat :=
  if e.looseness ≤ limit then levels else levels + 1

mutual

/-- The levels of nesting in an expression, less the one that it makes up itself. -/
def Expr.nesting : Expr → Nat
  | .unary _ operand => operand.placedNesting 1 operand.nesting + 1
  | .binary op left right =>
    max (left.placedNesting op.leftLimit left.nesting)
      (right.placedNesting op.rightLimit right.nesting + if op = .power then 1 else 0)
  | .call _ args => argumentNesting args
  | _ => 0

/-- The levels of nesting in arguments. -/
def argumentNesting : List Expr → Nat
  | [] => 0
  | arg :: args => max (arg.nesting + 1) (argumentNesting args)

end

/-! ## Statements -/

/-- The choices of a writer. -/
structure Style where
  /-- Whether the last `eval` of a block is written as a bare expression. The place of a
  block is given from the outside in, by the places of a statement in its block and of a
  block in its statement. -/
  endsBare : List Nat → Bool
  /-- Whether the number of a pattern is written with a sign, where the number behind
  the sign stands for it. -/
  signs : Float → Bool

namespace Style

/-- Every `eval` at the end of a block is bare, and every number that can be is signed. -/
def terse : Style := ⟨fun _ => true, fun _ => true⟩

/-- The choices for what stands at a place. -/
def within (style : Style) (index : Nat) : Style :=
  { style with endsBare := fun place => style.endsBare (index :: place) }

end Style

/-- The tokens of a pattern. -/
def Pattern.tokens (style : Style) : Pattern → List Token
  | .number value =>
    if style.signs value ∧ -(-value) = value then [.symbol .minus, .number (-value)]
    else [.number value]
  | .text value => [.text value]
  | .rest => [.name "rest__"]

/-- Tokens in braces. -/
def braced (tokens : List Token) : List Token :=
  .symbol .openBrace :: (tokens ++ [.symbol .closeBrace])

/-- A statement, written as the given tokens, with what ends it in its block. -/
def Statement.ended (bare : Bool) (s : Statement) (tokens : List Token) : List Token :=
  match s, bare with
  | .result value, true => value.tokens
  | _, _ => tokens ++ [.symbol .semicolon]

/-- The words before the condition of a branch. -/
def branchWords : Nat → List Token
  | 0 => [.name "if"]
  | _ + 1 => [.name "else", .name "if"]

mutual

/-- The tokens of a statement. -/
def Statement.tokens (style : Style) : Statement → List Token
  | .declare mutable name value =>
    .name (if mutable then "mut" else "const") :: .name name :: .symbol .assign :: value.tokens
  | .assign name value => .name name :: .symbol .assign :: value.tokens
  | .branch branches none => branchTokens style 0 branches
  | .branch branches (some body) =>
    branchTokens style 0 branches ++
      .name "else" :: braced (statementTokens (style.within branches.length) 0 body)
  | .choose subject [] => .name "when" :: .name subject :: braced []
  | .choose subject ((pattern, body) :: arms) =>
    .name "when" :: .name subject :: braced (pattern.tokens style ++
      .symbol .arrow :: (braced (statementTokens (style.within 0) 0 body) ++
        furtherArms style 1 arms))
  | .result value => .name "eval" :: parenthesized value.tokens
  | .effect value => value.tokens

/-- The tokens of the statements of a block from the `index`-th on. -/
def statementTokens (style : Style) (index : Nat) : List Statement → List Token
  | [] => []
  | s :: body =>
    s.ended (style.endsBare [] && body.isEmpty) (s.tokens (style.within index)) ++
      statementTokens style (index + 1) body

/-- The tokens of the branches from the `index`-th on. -/
def branchTokens (style : Style) (index : Nat) : List (Expr × List Statement) → List Token
  | [] => []
  | (condition, body) :: branches =>
    branchWords index ++ (condition.tokens ++
      (braced (statementTokens (style.within index) 0 body) ++
        branchTokens style (index + 1) branches))

/-- The tokens of the arms from the `index`-th on, which is not the first. -/
def furtherArms (style : Style) (index : Nat) : List (Pattern × List Statement) → List Token
  | [] => []
  | (pattern, body) :: arms =>
    .symbol .comma :: (pattern.tokens style ++
      .symbol .arrow :: (braced (statementTokens (style.within index) 0 body) ++
        furtherArms style (index + 1) arms))

end

mutual

/-- The levels of nesting in a statement. -/
def Statement.nesting : Statement → Nat
  | .declare _ _ value => value.nesting + 1
  | .assign _ value => value.nesting + 1
  | .branch branches none => branchNesting branches
  | .branch branches (some body) => max (branchNesting branches) (statementNesting body + 1)
  | .choose _ arms => armNesting arms
  | .result value => value.nesting + 1
  | .effect value => value.nesting + 1

/-- The levels of nesting in the statements of a block. -/
def statementNesting : List Statement → Nat
  | [] => 0
  | s :: body => max s.nesting (statementNesting body)

/-- The levels of nesting in branches. -/
def branchNesting : List (Expr × List Statement) → Nat
  | [] => 0
  | (condition, body) :: branches =>
    max (max (condition.nesting + 1) (statementNesting body + 1)) (branchNesting branches)

/-- The levels of nesting in arms. -/
def armNesting : List (Pattern × List Statement) → Nat
  | [] => 0
  | (_, body) :: arms => max (statementNesting body + 1) (armNesting arms)

end

/-! ## Programs -/

namespace Program

/-- The tokens of a program. -/
def tokens (style : Style) : Program → List Token
  | .flat condition => condition.tokens
  | .block body => braced (statementTokens style 0 body)

/-- The levels of nesting in a program. -/
def nesting : Program → Nat
  | .flat condition => condition.nesting + 1
  | .block body => statementNesting body + 1

end Program

/-! ## Names -/

/-- The words for truth values. -/
def truthWords : List String := ["true", "false"]

/-- The words at which a statement is known. -/
def statementWords : List String := ["const", "mut", "if", "when", "eval"]

mutual

/-- Whether no name in an expression is taken for something else. -/
def Expr.isWritable : Expr → Bool
  | .variable name => name ∉ truthWords && name ∉ statementWords
  | .unary _ operand => operand.isWritable
  | .binary _ left right => left.isWritable && right.isWritable
  | .call name args => name ∉ statementWords && argumentsWritable args
  | _ => true

/-- Whether no name in some arguments is taken for something else. -/
def argumentsWritable : List Expr → Bool
  | [] => true
  | arg :: args => arg.isWritable && argumentsWritable args

end

mutual

/-- Whether no name in a statement is taken for something else, and there is a branch
wherever there are conditions. -/
def Statement.isWritable : Statement → Bool
  | .declare _ _ value => value.isWritable
  | .assign name value => name ∉ statementWords && value.isWritable
  | .branch branches none => !branches.isEmpty && branchesWritable branches
  | .branch branches (some body) =>
    !branches.isEmpty && branchesWritable branches && statementsWritable body
  | .choose _ arms => armsWritable arms
  | .result value => value.isWritable
  | .effect value => value.isWritable

/-- Whether all the statements of a block are writable. -/
def statementsWritable : List Statement → Bool
  | [] => true
  | s :: body => s.isWritable && statementsWritable body

/-- Whether all that stands in branches is writable. -/
def branchesWritable : List (Expr × List Statement) → Bool
  | [] => true
  | (condition, body) :: branches =>
    condition.isWritable && statementsWritable body && branchesWritable branches

/-- Whether all that stands in arms is writable. -/
def armsWritable : List (Pattern × List Statement) → Bool
  | [] => true
  | (_, body) :: arms => statementsWritable body && armsWritable arms

end

/-- Whether a program can be written so that it is known again. -/
def Program.isWritable : Program → Bool
  | .flat condition => condition.isWritable
  | .block body => statementsWritable body

end Flipbook.Expression
