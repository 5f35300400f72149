import Flipbook.Command.Arguments
import Flipbook.Command.AssetPath
import Flipbook.Command.Output
import Flipbook.Document.Read

/-!
# Checking descriptions

All descriptions below a directory are read, in the order of their paths. Each is
reported on a line, and a last line counts them.
-/
namespace Flipbook.Command

/-- A line of the list of segments. -/
def segmentLine (s : Segment) : String :=
  s!"      - {s.name} [{s.kind.name}] priority {s.priority}\n"

/-- Why a description does not pass. -/
inductive CheckError where
  | unreadable (path : String) (problem : FileProblem)
  | refused (error : Document.Error)

/-- The message of an error. -/
def CheckError.message : CheckError → String
  | .unreadable path problem => s!"Failed to read {path}: {problem.text}"
  | .refused error => error.message

/-- Reads a description. -/
def checkFile (options : ValidateOptions) (f : File) : Except CheckError Metadata :=
  match f.content with
  | .error problem => .error (.unreadable (pathBelow options.root f) problem)
  | .ok content =>
    let config : Document.Config := if options.strict then .strict else .standard
    let texture := textureAt (String.intercalate "/" f.path)
    (Document.read config texture content.toList).outcome.value.mapError .refused

/-- The report on a description. -/
def fileReport (options : ValidateOptions) (f : File) : Except CheckError Metadata → String
  | .ok m =>
    let h := m.header
    let head := s!"[OK]  {h.texture.name} ({h.source.label}, {m.segments.length} segments)\n"
    if options.verbose then head ++ String.join (m.segments.map segmentLine) else head
  | .error e => s!"[ERR] {pathBelow options.root f} - {e.message}\n"

/-- The descriptions among some files, in the order of their paths. -/
def descriptions (files : List File) : List File :=
  (files.filter File.isDescription).mergeSort fun a b => compare a.path b.path != .gt

/-- Checks the descriptions among the files below a directory, if it is one. -/
def validate (options : ValidateOptions) (files : Option (List File)) : Output :=
  match files with
  | none => .failed "" s!"{options.root} is not a directory"
  | some files =>
    let found := descriptions files
    if found.isEmpty then .ok s!"No animation descriptions found under {options.root}\n"
    else
      let checked := found.map fun f => (f, checkFile options f)
      let good := checked.countP fun (_, outcome) => outcome.isOk
      let bad := found.length - good
      let summary := s!"Checked {found.length} files: {good} ok, {bad} failed\n"
      let reports := checked.map fun (f, outcome) => fileReport options f outcome
      let out := String.join reports ++ summary
      if bad = 0 then .ok out else .failed out "Validation finished with errors"

end Flipbook.Command
