import Flipbook.Expression.Error
import Flipbook.Decimal.Numeral
import Flipbook.Text.Letter
import Flipbook.Text.Split

/-!
# Reading tokens

`tokenize` splits a condition into tokens and their byte positions. White space
only separates tokens. A symbol is read before anything else, a quoted text
runs to the first unescaped quote of its own kind, and a number or a name is as
long as its characters allow.

* `readToken` reads the token at the start of a text; what it takes and what it
  leaves make up the text (`eq_append_of_readToken`).
-/
namespace Flipbook.Expression

/-! ## The kinds of token -/

/-- Reads a quoted text after its opening quote: its value, its characters up to
and with the closing quote, and what follows. A backslash stands for the
character after it. -/
def readText (quote : Char) : List Char → Option (List Char × List Char × List Char)
  | [] => none
  | ['\\'] => none
  | '\\' :: c :: cs =>
    (readText quote cs).map fun (value, taken, rest) => (c :: value, '\\' :: c :: taken, rest)
  | c :: cs =>
    if c = quote then some ([], [c], cs)
    else (readText quote cs).map fun (value, taken, rest) => (c :: value, c :: taken, rest)

/-- Whether a character may stand in a number. -/
def isNumberChar (c : Char) : Bool := c.isDigit || c == '.'

/-- The value of digits with at most one point among or after them. -/
def numberValue? (cs : List Char) : Option Float :=
  let whole := cs.takeWhile Char.isDigit
  match cs.dropWhile Char.isDigit with
  | [] => some (Decimal.scaled (Decimal.digitsValue 0 whole) 0)
  | _ :: fraction =>
    if fraction.all Char.isDigit then
      some (Decimal.scaled (Decimal.digitsValue 0 (whole ++ fraction)) (-fraction.length))
    else none

/-- Whether a character may start a name. -/
def startsName (c : Char) : Bool := Text.isAlphabetic c || c == '_'

/-- Whether a character may stand in a name. -/
def isNameChar (c : Char) : Bool := Text.isAlphanumeric c || c == '_' || c == '.' || c == ':'

/-! ## One token -/

/-- A token with the characters it takes and the text after it. -/
structure Reading where
  token : Token
  taken : List Char
  rest : List Char

/-- Reads the token that starts with `c`, which is not white space and stands at
the given byte. -/
def readToken (position : Nat) (c : Char) (cs : List Char) : Except SyntaxError Reading :=
  match Symbol.read? (c :: cs) with
  | some (s, rest) => .ok ⟨.symbol s, s.spelling, rest⟩
  | none =>
    if c = '\x22' ∨ c = '\x27' then
      match readText c cs with
      | some (value, taken, rest) => .ok ⟨.text (String.ofList value), c :: taken, rest⟩
      | none => .error (.unterminatedText position)
    else if c.isDigit then
      let taken := c :: cs.takeWhile isNumberChar
      match numberValue? taken with
      | some value => .ok ⟨.number value, taken, cs.dropWhile isNumberChar⟩
      | none => .error (.malformedNumber (String.ofList taken) position)
    else if startsName c then
      let taken := c :: cs.takeWhile isNameChar
      .ok ⟨.name (String.ofList taken), taken, cs.dropWhile isNameChar⟩
    else .error (.unexpectedChar c position)

theorem eq_append_of_readText {quote : Char} {cs value taken rest : List Char}
    (h : readText quote cs = some (value, taken, rest)) : cs = taken ++ rest := by
  fun_induction readText quote cs generalizing value taken with
  | case1 => cases h
  | case2 => cases h
  | case3 c cs ih =>
    obtain ⟨⟨v, t, r⟩, hr, heq⟩ := Option.map_eq_some_iff.1 h
    cases heq
    simp [ih hr]
  | case4 => cases h; rfl
  | case5 c cs _ _ _ ih =>
    obtain ⟨⟨v, t, r⟩, hr, heq⟩ := Option.map_eq_some_iff.1 h
    cases heq
    simp [ih hr]

/-- The characters that a token takes and those it leaves make up the text, and
it takes at least one. -/
theorem eq_append_of_readToken {position : Nat} {c : Char} {cs : List Char} {r : Reading}
    (h : readToken position c cs = .ok r) : c :: cs = r.taken ++ r.rest ∧ r.taken ≠ [] := by
  unfold readToken at h
  split at h
  · next s rest hs =>
    cases h
    exact ⟨Symbol.eq_append_of_read? hs, s.spelling_ne_nil⟩
  · split at h
    · split at h
      · next ht =>
        cases h
        exact ⟨by simp [eq_append_of_readText ht], by simp⟩
      · cases h
    · split at h
      · dsimp only at h
        split at h
        · cases h
          exact ⟨by simp [List.takeWhile_append_dropWhile], by simp⟩
        · cases h
      · split at h
        · cases h
          exact ⟨by simp [List.takeWhile_append_dropWhile], by simp⟩
        · cases h

theorem length_rest_of_readToken {position : Nat} {c : Char} {cs : List Char} {r : Reading}
    (h : readToken position c cs = .ok r) : r.rest.length < (c :: cs).length := by
  obtain ⟨heq, hne⟩ := eq_append_of_readToken h
  have hpos := List.length_pos_iff.2 hne
  rw [heq, List.length_append]
  omega

/-! ## All tokens -/

/-- The tokens of a text that starts at the given byte. -/
def lexemes (position : Nat) (cs : List Char) : Except SyntaxError (List Lexeme) :=
  match cs with
  | [] => .ok []
  | c :: cs =>
    if Text.isBlank c then lexemes (position + c.utf8Size) cs
    else
      match _h : readToken position c cs with
      | .error e => .error e
      | .ok r =>
        (lexemes (position + Text.byteSize r.taken) r.rest).map (⟨r.token, position⟩ :: ·)
termination_by cs.length
decreasing_by
  · simp
  · exact length_rest_of_readToken (by assumption)

/-- The tokens of a condition. -/
def tokenize (source : String) : Except SyntaxError (List Lexeme) := lexemes 0 source.toList

end Flipbook.Expression
