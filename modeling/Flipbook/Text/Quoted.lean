import Flipbook.Text.Printable

/-!
# Quoted text

Reports quote a text so that nothing in it can be misread: it stands between
double quotes, a quote or backslash inside gets a backslash, the common
controls have a letter of their own, and any other character without a visible
form is written as its code point in hexadecimal.
-/
namespace Flipbook.Text

/-- The code point of a character between `\u` and braces, in small hexadecimal
digits. -/
def codePointEscape (c : Char) : List Char :=
  ['\\', 'u', '\x7b'] ++ Nat.toDigits 16 c.toNat ++ ['\x7d']

/-- The form of one character inside quoted text. -/
def quotedForm (c : Char) : List Char :=
  match c with
  | '\x00' => ['\\', '0']
  | '\t' => ['\\', 't']
  | '\r' => ['\\', 'r']
  | '\n' => ['\\', 'n']
  | '\x22' => ['\\', '\x22']
  | '\\' => ['\\', '\\']
  | c => if isPrintable c && !isExtending c then [c] else codePointEscape c

/-- A text between double quotes. -/
def quoted (s : String) : String :=
  String.ofList (('\x22' :: s.toList.flatMap quotedForm) ++ ['\x22'])

end Flipbook.Text
