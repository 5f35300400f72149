import Flipbook.Expression.Token

/-!
# Errors of conditions

`SyntaxError` lists the reasons why a text is no condition, `RunError` the
reasons why a condition that was read fails while it runs. Each has one
`message`.
-/
namespace Flipbook.Expression

/-- What the grammar allows at a place. -/
inductive Expectation where
  | endOfExpression
  | symbol (symbol : Symbol)
  | identifier
  | value
  | separator
  | numberAfterMinus
  | pattern
  | armSeparator
deriving DecidableEq, Repr

/-- The words for an expectation. -/
def Expectation.text : Expectation → String
  | .endOfExpression => "end of expression"
  | .symbol s => "`" ++ String.ofList s.spelling ++ "`"
  | .identifier => "identifier"
  | .value => "value"
  | .separator => "`;` or `\x7d`"
  | .numberAfterMinus => "number after `-`"
  | .pattern => "number, string or `rest__` pattern"
  | .armSeparator => "`,` or `\x7d`"

/-- Why a text is no condition. Positions count bytes. -/
inductive SyntaxError where
  /-- A character that starts no token. -/
  | unexpectedChar (char : Char) (position : Nat)
  /-- A quoted text without its closing quote. -/
  | unterminatedText (position : Nat)
  /-- Digits and points that make no number. -/
  | malformedNumber (text : String) (position : Nat)
  /-- A token where the grammar needs something else. -/
  | unexpectedToken (expected : Expectation) (found : Token) (position : Nat)
  /-- The tokens end where the grammar needs more. -/
  | unexpectedEnd (expected : Expectation)
  /-- Parentheses, operators or blocks nested too deeply. -/
  | tooDeep (position : Nat)

/-- The message of a syntax error. -/
def SyntaxError.message : SyntaxError → String
  | .unexpectedChar c position => s!"Unexpected character `{c}` at byte {position}"
  | .unterminatedText position => s!"Unterminated string starting at byte {position}"
  | .malformedNumber text position => s!"Invalid number `{text}` at byte {position}"
  | .unexpectedToken expected found position =>
    s!"Expected {expected.text}, found `{found.display}` at byte {position}"
  | .unexpectedEnd expected => s!"Unexpected end of expression, expected {expected.text}"
  | .tooDeep position => s!"Expression nested too deeply at byte {position}"

/-- Why a running condition fails. -/
inductive RunError where
  /-- Assignment to a constant. -/
  | constantAssigned (name : String)
  /-- Assignment to a name that no statement has declared. -/
  | undeclaredAssigned (name : String)
deriving DecidableEq, Repr

/-- The message of a failure. -/
def RunError.message : RunError → String
  | .constantAssigned name => s!"Cannot assign to constant `{name}`"
  | .undeclaredAssigned name => s!"Cannot assign to undeclared variable `{name}`"

end Flipbook.Expression
