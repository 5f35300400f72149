import Flipbook.Json.Reader

/-!
# JSON strings

A string stands between double quotes. Inside, quotes and backslashes have a
backslash before them, and so have some letters and code points in hexadecimal
that stand for other characters; controls do not occur. A character beyond the
basic plane may be written as a pair of surrogates.

`encode` writes a string, and `quotedRest` reads one.
-/
namespace Flipbook.Json

open Text (Rest)

/-! ## Writing -/

/-- The form of one character inside a string. -/
def encodeChar (c : Char) : List Char :=
  match c with
  | '\x22' => ['\\', '\x22']
  | '\\' => ['\\', '\\']
  | '\x08' => ['\\', 'b']
  | '\t' => ['\\', 't']
  | '\n' => ['\\', 'n']
  | '\x0c' => ['\\', 'f']
  | '\r' => ['\\', 'r']
  | c =>
    if c < ' ' then
      ['\\', 'u', '0', '0', Nat.digitChar (c.toNat / 16), Nat.digitChar (c.toNat % 16)]
    else [c]

/-- A string with its quotes. -/
def encode (s : String) : List Char := ('\x22' :: s.toList.flatMap encodeChar) ++ ['\x22']

/-! ## Reading -/

/-- The value of a hexadecimal digit. -/
def hexDigit? (c : Char) : Option Nat :=
  if c.isDigit then some (c.toNat - '0'.toNat)
  else if 'a' ≤ c && c ≤ 'f' then some (c.toNat - 'a'.toNat + 10)
  else if 'A' ≤ c && c ≤ 'F' then some (c.toNat - 'A'.toNat + 10)
  else none

/-- Reads four hexadecimal digits. A text of less than four bytes ends too early,
whatever it holds. -/
def hexDigits : Reader Nat
  | a :: b :: c :: d :: rest =>
    match hexDigit? a, hexDigit? b, hexDigit? c, hexDigit? d with
    | some a, some b, some c, some d =>
      .ok (((a * 16 + b) * 16 + c) * 16 + d, ⟨rest, by simp only [List.length_cons]; omega⟩)
    | _, _, _, _ => .error .malformed
  | rest => .error (if Text.byteSize rest < 4 then .truncated else .malformed)

/-- Whether a code unit is the first of a pair. -/
def isHighSurrogate (n : Nat) : Bool := 0xD800 ≤ n && n < 0xDC00

/-- Whether a code unit is the second of a pair. -/
def isLowSurrogate (n : Nat) : Bool := 0xDC00 ≤ n && n < 0xE000

/-- Reads a code point behind its letter. -/
def codePoint : Reader Char := do
  let high ← hexDigits
  if isLowSurrogate high then Reader.fail .malformed
  else if isHighSurrogate high then do
    Reader.word ['\\', 'u']
    let low ← hexDigits
    if isLowSurrogate low then
      return Char.ofNat ((high - 0xD800) * 0x400 + (low - 0xDC00) + 0x10000)
    else Reader.fail .malformed
  else return Char.ofNat high

/-- The character that a letter behind a backslash stands for. -/
def shortEscape? : Char → Option Char
  | '\x22' => some '\x22'
  | '\\' => some '\\'
  | '/' => some '/'
  | 'b' => some '\x08'
  | 'f' => some '\x0c'
  | 'n' => some '\n'
  | 'r' => some '\r'
  | 't' => some '\t'
  | _ => none

/-- Reads what stands behind a backslash. -/
def escape (point : Reader Char) : Reader Char := do
  match ← Reader.peek with
  | none => Reader.fail .truncated
  | some c => do
    Reader.advance
    if c = 'u' then point
    else
      match shortEscape? c with
      | some d => return d
      | none => Reader.fail .malformed

/-- Reads a string behind its opening quote, with code points as `point` reads
them. -/
def quotedWith (point : Reader Char) (text : List Char) :
    Except Fault (List Char × Rest text) :=
  match text with
  | [] => .error .truncated
  | c :: cs =>
    if c = '\x22' then .ok ([], .behind c (.whole cs))
    else if c = '\\' then
      match escape point cs with
      | .error fault => .error fault
      | .ok (d, rest) =>
        match quotedWith point rest.1 with
        | .error fault => .error fault
        | .ok (ds, later) => .ok (d :: ds, .behind c (rest.andThen later))
    else if c < ' ' then .error .malformed
    else
      match quotedWith point cs with
      | .error fault => .error fault
      | .ok (ds, later) => .ok (c :: ds, .behind c later)
termination_by text.length
decreasing_by
  · exact Nat.lt_succ_of_le rest.2
  · exact Nat.lt_succ_self _

/-- Reads a string behind its opening quote. -/
def quotedRest : Reader String := do
  return String.ofList (← quotedWith codePoint)

/-- Skips a string behind its opening quote. Surrogates need no partner. -/
def skipQuotedRest : Reader Unit := do
  let _ ← quotedWith (do return Char.ofNat (← hexDigits))

end Flipbook.Json
