import Flipbook.Text.Split

/-!
# Lines without comments

In documents that are read by the line a number sign starts a comment. Lines
without anything else do not count. In a sectioned document an indented line that
opens no section continues the line before it.
-/
namespace Flipbook.Document

/-- The lines of a text up to their comments, less those that are blank. White
space at their ends is dropped. -/
def codeLines (content : List Char) : List (List Char) :=
  ((Text.splitOn '\n' content).map fun line => Text.trimEnd (Text.before '#' line)).filter
    (!·.isEmpty)

/-- Whether a line continues the line before it. -/
def continues : List Char → Bool
  | [] => false
  | c :: cs => (c = ' ' || c = '\t') && (Text.trim (c :: cs)).head? != some '['

/-- Adds a line to some lines, the latest of which stands first. -/
def addLine (lines : List (List Char)) (line : List Char) : List (List Char) :=
  match lines with
  | previous :: earlier =>
    if continues line then (previous ++ ' ' :: Text.trim line) :: earlier
    else Text.trim line :: lines
  | [] => [Text.trim line]

/-- The lines of a sectioned document, each with its continuations. -/
def logicalLines (content : List Char) : List (List Char) :=
  ((codeLines content).foldl addLine []).reverse

end Flipbook.Document
