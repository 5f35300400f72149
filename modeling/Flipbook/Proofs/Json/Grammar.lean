import Flipbook.Json.Numeral
import Flipbook.Json.Quoted
import Flipbook.Proofs.Decimal.Writing

/-!
# The grammar of JSON

A value may be spelled in many ways: there may be blanks between its tokens, the characters of a
string may be escaped, and a number may have an exponent. What is spelled is a tree; the parts
of which it is made carry the proofs that they are well formed.

* `Piece`, `quote`, `decode?`: strings and the characters that they stand for.
* `NumberText`: numbers and their parts.
* `Part`, `Member`: what stands in arrays and objects, with the blanks around it.
* `ArrayOf`: arrays of what describes some things.
* `IsText`: the texts of values, with bounds on their numbers, strings and levels.
-/
namespace Flipbook.Json

open Decimal (naturalText)

/-! ## Blanks -/

/-- Blanks between tokens. -/
structure Gap where
  text : List Char
  blank : ∀ c ∈ text, isGap c = true

namespace Gap

/-- No blanks. -/
def none : Gap := ⟨[], List.forall_mem_nil _⟩

/-- Blanks behind blanks. -/
def append (first second : Gap) : Gap :=
  ⟨first.text ++ second.text, List.forall_mem_append.2 ⟨first.blank, second.blank⟩⟩

end Gap

/-! ## Strings -/

/-- A hexadecimal digit, in either case. -/
structure HexDigit where
  char : Char
  value : Nat
  reads : hexDigit? char = some value

/-- The digit of zero. -/
def HexDigit.zero : HexDigit := ⟨'0', 0, rfl⟩

/-- A code unit, spelled with four digits. -/
structure CodeUnit where
  first : HexDigit
  second : HexDigit
  third : HexDigit
  fourth : HexDigit

namespace CodeUnit

def text (u : CodeUnit) : List Char := [u.first.char, u.second.char, u.third.char, u.fourth.char]

def value (u : CodeUnit) : Nat :=
  ((u.first.value * 16 + u.second.value) * 16 + u.third.value) * 16 + u.fourth.value

end CodeUnit

/-- What a string is spelled with. -/
inductive Piece where
  /-- A character that stands for itself. -/
  | plain (c : Char) (quote : c ≠ '\x22') (backslash : c ≠ '\\') (control : ¬c < ' ')
  /-- A letter behind a backslash, for a character. -/
  | short (letter c : Char) (h : shortEscape? letter = some c)
  /-- A code unit behind a backslash. -/
  | unit (u : CodeUnit)

/-- A piece as it is spelled. -/
def Piece.text : Piece → List Char
  | .plain c _ _ _ => [c]
  | .short letter _ _ => ['\\', letter]
  | .unit u => '\\' :: 'u' :: u.text

/-- Pieces as they are spelled. -/
def spelled (pieces : List Piece) : List Char := pieces.flatMap Piece.text

/-- A string with its quotes. -/
def quote (pieces : List Piece) : List Char := '\x22' :: (spelled pieces ++ ['\x22'])

/-- The characters that the pieces of a string stand for. Surrogates stand for one only in
pairs. -/
def decode? : List Piece → Option (List Char)
  | [] => some []
  | .plain c _ _ _ :: pieces => (decode? pieces).map (c :: ·)
  | .short _ c _ :: pieces => (decode? pieces).map (c :: ·)
  | .unit u :: pieces =>
    if isLowSurrogate u.value then none
    else if isHighSurrogate u.value then
      match pieces with
      | .unit v :: pieces =>
        if isLowSurrogate v.value then
          (decode? pieces).map
            (Char.ofNat ((u.value - 0xD800) * 0x400 + (v.value - 0xDC00) + 0x10000) :: ·)
        else none
      | _ => none
    else (decode? pieces).map (Char.ofNat u.value :: ·)

/-- Whether a text spells a string. -/
def Spells (s : String) (text : List Char) : Prop :=
  ∃ pieces, text = quote pieces ∧ decode? pieces = some s.toList

/-! ## Numbers -/

/-- Digits, one at least. -/
structure Digits where
  text : List Char
  nonempty : text ≠ []
  digit : ∀ c ∈ text, c.isDigit = true

/-- An exponent with its letter and its sign. -/
structure Exponent where
  letter : Char
  isLetter : letter = 'e' ∨ letter = 'E'
  sign : Option Char
  isSign : ∀ c ∈ sign, c = '+' ∨ c = '-'
  digits : Digits

namespace Exponent

def text (e : Exponent) : List Char := e.letter :: (e.sign.toList ++ e.digits.text)

def value (e : Exponent) : Int :=
  let size : Int := Decimal.digitsValue 0 e.digits.text
  if e.sign = some '-' then -size else size

end Exponent

/-- A number as it is spelled: no zero stands before other digits. -/
structure NumberText where
  negative : Bool
  whole : Digits
  leading : whole.text.head? = some '0' → whole.text.length ≤ 1
  fraction : Option Digits
  exponent : Option Exponent

/-- The sign of a number, if it has one. -/
def signText (negative : Bool) : List Char := if negative then ['-'] else []

namespace NumberText

def text (n : NumberText) : List Char :=
  signText n.negative ++ (n.whole.text ++
    (n.fraction.elim [] (fun digits => '.' :: digits.text) ++ n.exponent.elim [] Exponent.text))

/-- The number that is spelled. -/
def numeral (n : NumberText) : Numeral :=
  ⟨n.negative, n.whole.text, n.fraction.map Digits.text, n.exponent.map Exponent.value⟩

end NumberText

/-! ## Arrays and objects -/

/-- A value among others, with the blanks around it. -/
structure Part where
  before : Gap
  text : List Char
  after : Gap

namespace Part

def written (p : Part) : List Char := p.before.text ++ (p.text ++ p.after.text)

/-- A value with no blanks around it. -/
def alone (text : List Char) : Part := ⟨.none, text, .none⟩

end Part

/-- A member of an object, with the blanks around its key and its value. -/
structure Member where
  before : Gap
  key : List Piece
  behindKey : Gap
  value : Part

namespace Member

/-- The name that the key stands for. -/
def name? (m : Member) : Option String := (decode? m.key).map String.ofList

/-- What stands behind the opening quote, up to the end of the value. -/
def body (m : Member) : List Char :=
  spelled m.key ++ '\x22' :: (m.behindKey.text ++ ':' :: (m.value.before.text ++ m.value.text))

def written (m : Member) : List Char :=
  m.before.text ++ '\x22' :: (m.body ++ m.value.after.text)

end Member

/-- An array, with blanks behind its bracket. -/
def arrayText (gap : Gap) (parts : List Part) : List Char :=
  '[' :: (gap.text ++ ([','].intercalate (parts.map Part.written) ++ [']']))

/-- An object, with blanks behind its brace. -/
def objectText (gap : Gap) (members : List Member) : List Char :=
  '\x7b' :: (gap.text ++ ([','].intercalate (members.map Member.written) ++ ['\x7d']))

/-- Whether a text spells an array with one element for each of some things. -/
def ArrayOf {α : Type} (describes : α → List Char → Prop) (as : List α) (text : List Char) : Prop :=
  ∃ (gap : Gap) (items : List (α × Part)), text = arrayText gap (items.map Prod.snd) ∧
    items.map Prod.fst = as ∧ ∀ item ∈ items, describes item.1 item.2.text

/-! ## Values -/

/-- Whether a text spells a value whose numbers and strings have some properties, and whose
arrays and objects are nested at most `depth` levels deep. -/
inductive IsText (number : NumberText → Prop) (string : List Piece → Prop) :
    Nat → List Char → Prop
  | null {depth : Nat} : IsText number string depth "null".toList
  | bool {depth : Nat} (b : Bool) : IsText number string depth (Decimal.booleanText b)
  | number {depth : Nat} {n : NumberText} (h : number n) : IsText number string depth n.text
  | string {depth : Nat} {pieces : List Piece} (h : string pieces) :
    IsText number string depth (quote pieces)
  | array {depth : Nat} {gap : Gap} {parts : List Part}
    (h : ∀ part ∈ parts, IsText number string depth part.text) :
    IsText number string (depth + 1) (arrayText gap parts)
  | object {depth : Nat} {gap : Gap} {members : List Member} (hkeys : ∀ m ∈ members, string m.key)
    (h : ∀ m ∈ members, IsText number string depth m.value.text) :
    IsText number string (depth + 1) (objectText gap members)

/-- Whether a text spells a value at all. -/
def IsValue (text : List Char) : Prop := ∃ depth, IsText (fun _ => True) (fun _ => True) depth text

/-- Whether a text spells a value with finite numbers, with strings all of whose surrogates come
in pairs, and with at most `depth` levels of arrays and objects. -/
def IsPlain (depth : Nat) (text : List Char) : Prop :=
  IsText (fun n => n.numeral.isFinite = true) (fun pieces => (decode? pieces).isSome = true) depth
    text

end Flipbook.Json
