import Flipbook.Document.Balanced
import Flipbook.Document.Error
import Flipbook.Text.Case
import Flipbook.Text.Rest

/-!
# Segment declarations

In a block document a segment is declared by its kind, an optional corrector that
triggers it, and its properties in braces. `declaration` reads what stands behind
the marker of a declaration, up to the closing brace of the properties.
-/
namespace Flipbook.Document

/-- The kinds of segment in a block document. -/
inductive BlockKind where
  | fallback
  | singleFrame
  | sequence
  | oneShot
deriving DecidableEq, Repr

namespace BlockKind

/-- The kind with the given name in capitals. -/
def ofCapitals? : String → Option BlockKind
  | "FALLBACK_FRAME" => some .fallback
  | "SINGLE_FRAME" => some .singleFrame
  | "SEQUENCE" => some .sequence
  | "ONESHOT" => some .oneShot
  | _ => none

/-- The kind with the given name, in whatever letters. -/
def ofName (name : String) : Except Error BlockKind :=
  match ofCapitals? (Text.capitals name) with
  | some kind => .ok kind
  | none => .error (.unknownKind name)

end BlockKind

/-- A corrector with its argument. -/
structure Corrector where
  name : List Char
  argument : List Char
deriving DecidableEq, Repr

/-- A segment declaration in its parts. -/
structure Declaration where
  kind : BlockKind
  corrector : Option Corrector
  properties : List Char
deriving DecidableEq, Repr

open Text (Remainder)

/-- Whether a character ends the name of a kind. -/
def endsKind (c : Char) : Bool := c = '@' || c = '\x7b' || Text.isBlank c

/-- Reads the braces with the properties, at a position. -/
def propertyBraces (position : Nat) (text : List Char) :
    Except Error (List Char × Remainder position text) :=
  match text with
  | '\x7b' :: body =>
    match h : balanced '\x7b' '\x7d' body with
    | some (inner, rest) =>
      .ok (inner, .behind position ('\x7b' :: inner ++ ['\x7d']) rest (by
        rw [eq_of_balanced h]
        simp))
    | none => .error (.illFormed position .unterminatedBrace)
  | _ => .error (.illFormed position .noProperties)

/-- Reads a corrector behind its sign, at a position. -/
def corrector (position : Nat) (text : List Char) :
    Except Error (Corrector × Remainder position text) :=
  match hc : Text.cut '(' text with
  | some (name, body) =>
    match hb : balanced '(' ')' body with
    | some (argument, rest) =>
      .ok (⟨Text.trim name, argument⟩, .behind position (name ++ '(' :: argument ++ [')']) rest (by
        rw [(Text.eq_of_cut hc).1, eq_of_balanced hb]
        simp))
    | none => .error (.illFormed (position + Text.byteSize name) .unterminatedParen)
  | none => .error (.illFormed position .noArgument)

/-- Reads an optional corrector and the blanks behind it, at a position. -/
def optionalCorrector (position : Nat) (text : List Char) :
    Except Error (Option Corrector × Remainder position text) :=
  match text with
  | '@' :: body => do
    let sign : Remainder position ('@' :: body) := .behind position ['@'] body rfl
    let (found, behind) ← corrector sign.position body
    let blanks := Remainder.dropWhile Text.isBlank behind.position behind.rest.1
    .ok (some found, sign.andThen (behind.andThen blanks))
  | text => .ok (none, .whole position text)

/-- Reads a declaration behind its marker, at a position. -/
def declaration (position : Nat) (text : List Char) :
    Except Error (Declaration × Remainder position text) := do
  let kind ← BlockKind.ofName (String.ofList (text.takeWhile (!endsKind ·)))
  let word := Remainder.dropWhile (!endsKind ·) position text
  let head := word.andThen (.dropWhile Text.isBlank word.position word.rest.1)
  let (found, behind) ← optionalCorrector head.position head.rest.1
  let head := head.andThen behind
  let (properties, behind) ← propertyBraces head.position head.rest.1
  .ok (⟨kind, found, properties⟩, head.andThen behind)

end Flipbook.Document
