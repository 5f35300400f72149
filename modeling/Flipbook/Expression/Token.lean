import Flipbook.Decimal.Shortest

/-!
# Tokens of conditions

A condition is a sequence of tokens: numbers, quoted texts, names and symbols.
`Symbol.spelling` and `Symbol.read?` fix the spelling of the symbols; two
characters that spell a symbol together are never read as two symbols.
-/
namespace Flipbook.Expression

/-- The operators and punctuation marks. -/
inductive Symbol where
  | openParen
  | closeParen
  | openBrace
  | closeBrace
  | comma
  | semicolon
  | or
  | and
  | equal
  | notEqual
  | atMost
  | atLeast
  | less
  | greater
  | plus
  | minus
  | times
  | divide
  | power
  | not
  | assign
  | arrow
deriving DecidableEq, Repr

/-- The characters of a symbol. -/
def Symbol.spelling : Symbol → List Char
  | .openParen => ['(']
  | .closeParen => [')']
  | .openBrace => ['\x7b']
  | .closeBrace => ['\x7d']
  | .comma => [',']
  | .semicolon => [';']
  | .or => ['|', '|']
  | .and => ['&', '&']
  | .equal => ['=', '=']
  | .notEqual => ['!', '=']
  | .atMost => ['<', '=']
  | .atLeast => ['>', '=']
  | .less => ['<']
  | .greater => ['>']
  | .plus => ['+']
  | .minus => ['-']
  | .times => ['*']
  | .divide => ['/']
  | .power => ['^']
  | .not => ['!']
  | .assign => ['=']
  | .arrow => ['=', '>']

/-- The symbol spelled by two characters together. -/
def Symbol.ofPair? : Char → Char → Option Symbol
  | '|', '|' => some .or
  | '&', '&' => some .and
  | '=', '=' => some .equal
  | '!', '=' => some .notEqual
  | '<', '=' => some .atMost
  | '>', '=' => some .atLeast
  | '=', '>' => some .arrow
  | _, _ => none

/-- The symbol spelled by one character. -/
def Symbol.ofChar? : Char → Option Symbol
  | '(' => some .openParen
  | ')' => some .closeParen
  | '\x7b' => some .openBrace
  | '\x7d' => some .closeBrace
  | ',' => some .comma
  | ';' => some .semicolon
  | '<' => some .less
  | '>' => some .greater
  | '+' => some .plus
  | '-' => some .minus
  | '*' => some .times
  | '/' => some .divide
  | '^' => some .power
  | '!' => some .not
  | '=' => some .assign
  | _ => none

/-- The symbol at the start of a text and the text after it. -/
def Symbol.read? : List Char → Option (Symbol × List Char)
  | [] => none
  | [c] => (ofChar? c).map (·, [])
  | c :: d :: cs =>
    match ofPair? c d with
    | some s => some (s, cs)
    | none => (ofChar? c).map (·, d :: cs)

theorem Symbol.ofPair?_eq_some {c d : Char} {s : Symbol} (h : ofPair? c d = some s) :
    s.spelling = [c, d] := by
  unfold ofPair? at h
  split at h <;> cases h <;> rfl

theorem Symbol.ofChar?_eq_some {c : Char} {s : Symbol} (h : ofChar? c = some s) :
    s.spelling = [c] := by
  unfold ofChar? at h
  split at h <;> cases h <;> rfl

/-- What is read and what is left make up the text. -/
theorem Symbol.eq_append_of_read? {cs rest : List Char} {s : Symbol}
    (h : read? cs = some (s, rest)) : cs = s.spelling ++ rest := by
  unfold read? at h
  split at h
  · cases h
  · obtain ⟨t, ht, heq⟩ := Option.map_eq_some_iff.1 h
    cases heq
    simp [ofChar?_eq_some ht]
  · split at h
    · next hp =>
      cases h
      simp [ofPair?_eq_some hp]
    · obtain ⟨t, ht, heq⟩ := Option.map_eq_some_iff.1 h
      cases heq
      simp [ofChar?_eq_some ht]

theorem Symbol.spelling_ne_nil (s : Symbol) : s.spelling ≠ [] := by
  cases s <;> simp [spelling]

/-- A token of a condition. -/
inductive Token where
  | number (value : Float)
  | text (value : String)
  | name (value : String)
  | symbol (symbol : Symbol)

/-- A token as error messages show it. -/
def Token.display : Token → String
  | .number value => Decimal.text value
  | .text value => "\x22" ++ value ++ "\x22"
  | .name value => value
  | .symbol s => String.ofList s.spelling

/-- A token together with the byte at which it starts. -/
structure Lexeme where
  token : Token
  position : Nat

end Flipbook.Expression
