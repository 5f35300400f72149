import Flipbook.Document.Block
import Flipbook.Document.Sectioned
import Flipbook.Document.Vanilla

/-!
# Reading any document

`Document.read` reads a document in the format that its content shows, and gives
notice of the outcome.
-/
namespace Flipbook.Document

/-- Reads a document in a format. -/
def readAs (format : Format) (config : Config) (texture : Texture) (content : List Char) :
    Reading Metadata :=
  match format with
  | .vanilla => readVanilla texture content
  | .sectioned => readSectioned config texture content
  | .block => readBlock config texture content

/-- The notice of an outcome. A list that overruns its braces goes without. -/
def outcomeNotice (format : Format) (texture : Texture) : Except Error Metadata → List Notice
  | .ok m => [.documentRead m.segments.length texture format]
  | .error .listOverrun => []
  | .error e => [.documentRefused texture format e]

/-- Reads a document. -/
def read (config : Config) (texture : Texture) (content : List Char) : Reading Metadata :=
  let format := formatOf content
  let done := (readAs format config texture content).outcome
  ⟨done.value, done.notices ++ outcomeNotice format texture done.value⟩

theorem outcome_read (config : Config) (texture : Texture) (content : List Char) :
    (read config texture content).outcome.value =
      (readAs (formatOf content) config texture content).outcome.value := rfl

end Flipbook.Document
