import Flipbook.Notice
import Flipbook.Table

/-!
# Substitutions

The values of a sectioned document may name texts defined elsewhere in it: a
token is a dollar sign with a name, which is the longest run of ASCII letters,
digits and underscores after it that does not start with a digit. Tokens are
replaced in one pass; what is put in their place is not read again.

* `flatMap_written_pieces`: a text is made up of its pieces.
* `Substitutions.expand` replaces every token that is defined.
-/
namespace Flipbook.Document

/-! ## Pieces -/

/-- Whether a name can start with the character. -/
def isNameStart (c : Char) : Bool := c.isAlpha || c = '_'

/-- Whether a name can go on with the character. -/
def isNamePart (c : Char) : Bool := c.isAlphanum || c = '_'

/-- A piece of a text with tokens. -/
inductive Piece where
  /-- A character that stands for itself. -/
  | char (c : Char)
  /-- A token with its name. -/
  | token (name : List Char)
deriving DecidableEq, Repr

/-- A piece as it is written. -/
def Piece.written : Piece → List Char
  | .char c => [c]
  | .token name => '$' :: name

/-- The name at the start of a text; it is empty where none starts. -/
def leadingName : List Char → List Char
  | [] => []
  | c :: cs => if isNameStart c then c :: cs.takeWhile isNamePart else []

theorem leadingName_append_drop (cs : List Char) :
    leadingName cs ++ cs.drop (leadingName cs).length = cs := by
  cases cs with
  | nil => rfl
  | cons c cs =>
    by_cases h : isNameStart c = true
    · rw [leadingName, if_pos h]
      exact List.prefix_iff_eq_append.1 (List.cons_prefix_cons.2 ⟨rfl, List.takeWhile_prefix _⟩)
    · rw [leadingName, if_neg h]
      rfl

/-- Cuts a text into pieces. -/
def pieces : List Char → List Piece
  | [] => []
  | c :: cs =>
    let name := leadingName cs
    if c = '$' && !name.isEmpty then .token name :: pieces (cs.drop name.length)
    else .char c :: pieces cs
termination_by cs => cs.length
decreasing_by all_goals simp only [List.length_cons, List.length_drop]; omega

theorem flatMap_written_pieces (cs : List Char) : (pieces cs).flatMap Piece.written = cs := by
  induction cs using pieces.induct with
  | case1 => simp [pieces]
  | case2 c cs name h ih =>
    obtain ⟨hc, hname⟩ : c = '$' ∧ name.isEmpty = false := by simpa using h
    rw [pieces, if_pos h, List.flatMap_cons, ih, Piece.written, hc]
    show '$' :: (leadingName cs ++ cs.drop (leadingName cs).length) = '$' :: cs
    rw [leadingName_append_drop]
  | case3 c cs name h ih =>
    rw [pieces, if_neg h, List.flatMap_cons, ih]
    rfl

/-! ## Substitutions -/

/-- Texts by name. -/
structure Substitutions where
  /-- Texts that are put in as they are. -/
  plain : Table String (List Char)
  /-- Texts that are put in between parentheses. -/
  conditions : Table String (List Char)

namespace Substitutions

/-- No definitions. -/
def empty : Substitutions := ⟨∅, ∅⟩

instance : Inhabited Substitutions := ⟨empty⟩

/-- Defines a variable, in place of any of its name. -/
def defineVariable (s : Substitutions) (name : String) (text : List Char) : Substitutions :=
  { s with plain := s.plain.insert name text }

/-- Defines a condition, in place of any of its name. -/
def defineCondition (s : Substitutions) (name : String) (text : List Char) : Substitutions :=
  { s with conditions := s.conditions.insert name text }

/-- Whether nothing is defined. -/
def isEmpty (s : Substitutions) : Bool := s.plain.isEmpty && s.conditions.isEmpty

/-- The text that a name stands for; variables come before conditions. -/
def lookup (s : Substitutions) (name : String) : Option (List Char) :=
  match s.plain.get? name with
  | some text => some text
  | none => (s.conditions.get? name).map fun text => '(' :: text ++ [')']

/-- The text of a piece. A token without a definition stays and is reported. -/
def expandPiece (s : Substitutions) (whole : List Char) : Piece → Noted (List Char)
  | .char c => pure [c]
  | .token name =>
    match s.lookup (String.ofList name) with
    | some text => pure text
    | none =>
      ⟨Piece.written (.token name),
        [.undefinedSubstitution (String.ofList name) (String.ofList whole)]⟩

/-- Replaces the tokens of a text. -/
def expand (s : Substitutions) (text : List Char) : Noted (List Char) := do
  return (← (pieces text).mapM (s.expandPiece text)).flatten

end Substitutions
end Flipbook.Document
