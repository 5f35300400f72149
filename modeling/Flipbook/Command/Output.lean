/-!
# What a command puts out

A command leaves an exit code and two texts.
-/
namespace Flipbook.Command

/-- The outcome of a command. -/
structure Output where
  code : Nat
  /-- The results. -/
  out : String
  /-- The error, if there is one. -/
  err : String
deriving DecidableEq, Repr

namespace Output

/-- The results of a command that succeeds. -/
def ok (out : String) : Output := ⟨0, out, ""⟩

/-- A command that fails after some results. -/
def failed (out message : String) : Output := ⟨1, out, "Error: " ++ message ++ "\n"⟩

/-- Text whose lines are indented below a heading. -/
def indent (text : String) : String :=
  String.ofList ("    ".toList ++ text.toList.flatMap fun c =>
    if c = '\n' then "\n    ".toList else [c])

/-- A command that fails for a reason before there is any result. -/
def failedBy (message cause : String) : Output :=
  failed "" (message ++ "\n\nCaused by:\n" ++ indent cause)

/-- A command whose arguments cannot be read. -/
def misused (usage : String) : Output := ⟨2, "", usage⟩

end Output
end Flipbook.Command
