/-!
# Programs

A condition is either one expression or a block of statements. Both share the
expressions.
-/
namespace Flipbook.Expression

/-- The operators between two operands, from loosest to tightest. -/
inductive BinaryOp where
  | or
  | and
  | equal
  | notEqual
  | less
  | greater
  | atMost
  | atLeast
  | add
  | subtract
  | multiply
  | divide
  | power
deriving DecidableEq, Repr

/-- The operators before an operand. -/
inductive UnaryOp where
  | negate
  | not
deriving DecidableEq, Repr

/-- An expression. -/
inductive Expr where
  | number (value : Float)
  | text (value : String)
  | bool (value : Bool)
  | variable (name : String)
  | unary (op : UnaryOp) (operand : Expr)
  | binary (op : BinaryOp) (left right : Expr)
  | call (name : String) (args : List Expr)

/-- What an arm of a `when` statement compares its subject with. -/
inductive Pattern where
  | number (value : Float)
  | text (value : String)
  /-- Matches anything. -/
  | rest

/-- A statement of a block. -/
inductive Statement where
  /-- Declares a name, as a constant unless it is mutable. -/
  | declare (mutable : Bool) (name : String) (value : Expr)
  | assign (name : String) (value : Expr)
  /-- Runs the first block whose condition holds, else the last block. -/
  | branch (branches : List (Expr × List Statement)) (otherwise : Option (List Statement))
  /-- Runs the block of the first arm that the variable matches. -/
  | choose (subject : String) (arms : List (Pattern × List Statement))
  /-- Ends the program with a value. -/
  | result (value : Expr)
  /-- Evaluates an expression for its effects. -/
  | effect (value : Expr)

/-- A program of either dialect. -/
inductive Program where
  | flat (condition : Expr)
  | block (body : List Statement)

end Flipbook.Expression
