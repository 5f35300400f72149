import Flipbook.Document.Error
import Flipbook.Document.Section
import Flipbook.Expression.Error

/-!
# Notices

Whatever the library has to report beside its results is a `Notice`. Operations
return their notices, in the order in which they arose; nothing is printed.
Every notice has a `level` and a `text`.
-/
namespace Flipbook

/-- How much a notice matters. -/
inductive Level where
  | error
  | warning
  | info
  | debug
deriving DecidableEq, Repr

/-- The name of a level. -/
def Level.label : Level → String
  | .error => "ERROR"
  | .warning => "WARN"
  | .info => "INFO"
  | .debug => "DEBUG"

/-- The kinds of segment that report their activation. -/
inductive Activation where
  | singleFrame
  | sequence
  | oneShot
deriving DecidableEq, Repr

/-- The words for an activation. -/
def Activation.text : Activation → String
  | .singleFrame => "single frame"
  | .sequence => "sequence"
  | .oneShot => "one-shot"

/-- Something to report. -/
inductive Notice where
  /-- A condition that cannot be read and so never holds. -/
  | conditionInvalid (source : String) (error : Expression.SyntaxError)
  /-- A condition that failed while it ran. -/
  | conditionFailed (source : String) (error : Expression.RunError)
  | unknownVariable (name : String)
  | unknownFunction (name : String)
  /-- A name to be substituted in a text that nothing defines. -/
  | undefinedSubstitution (name : String) (text : String)
  /-- A line before the first section. -/
  | lineIgnored (line : String) (texture : Texture)
  | sectionIgnored (name : String) (texture : Texture)
  | sectionSkipped (heading : Document.Section) (texture : Texture) (error : Document.Error)
  /-- A segment kind that plays as a looping sequence. -/
  | kindDegraded (segment : String) (kind : String)
  | segmentRead (kind : String) (segment : String) (texture : Texture)
  | segmentSkipped (position : Nat) (texture : Texture) (error : Document.Error)
  /-- A trigger marker that is neither an event nor an expression. -/
  | correctorIgnored (segment : String) (corrector : String)
  | rangeCollapsed (segment : String) (first last : Nat)
  | frametimeClamped (texture : Texture)
  | documentRead (count : Nat) (texture : Texture) (format : Format)
  | documentRefused (texture : Texture) (format : Format) (error : Document.Error)
  | registered (texture : Texture) (format : Format) (count : Nat)
  | removed (texture : Texture)
  | cleared
  | activated (kind : Activation) (segment : String) (texture : Texture)
  /-- A texture whose tick broke off because the game failed. -/
  | tickAborted (texture : Texture)
  | eventRegistered (name : String)
  | eventStarted (name : String)
  | eventEnded (name : String)

namespace Notice

/-- The level of a notice. -/
def level : Notice → Level
  | .conditionInvalid .. => .error
  | .conditionFailed .. => .error
  | .documentRefused .. => .error
  | .tickAborted .. => .error
  | .unknownVariable .. => .warning
  | .unknownFunction .. => .warning
  | .undefinedSubstitution .. => .warning
  | .sectionSkipped .. => .warning
  | .segmentSkipped .. => .warning
  | .correctorIgnored .. => .warning
  | .rangeCollapsed .. => .warning
  | .frametimeClamped .. => .warning
  | .documentRead .. => .info
  | .registered .. => .info
  | .removed .. => .info
  | .cleared => .info
  | .lineIgnored .. => .debug
  | .sectionIgnored .. => .debug
  | .kindDegraded .. => .debug
  | .segmentRead .. => .debug
  | .activated .. => .debug
  | .eventRegistered .. => .debug
  | .eventStarted .. => .debug
  | .eventEnded .. => .debug

/-- The text of a notice. -/
def text : Notice → String
  | .conditionInvalid source error =>
    s!"Failed to parse expression `{source}`: {error.message}"
  | .conditionFailed source error => s!"Expression `{source}` failed: {error.message}"
  | .unknownVariable name => s!"Unknown variable `{name}`, using 0"
  | .unknownFunction name => s!"Unknown function `{name}`, evaluating to false"
  | .undefinedSubstitution name text => s!"Undefined substitution `${name}` in `{text}`"
  | .lineIgnored line texture => s!"Ignoring `{line}` before the first section in {texture.name}"
  | .sectionIgnored name texture => s!"Ignoring unknown section [{name}] in {texture.name}"
  | .sectionSkipped heading texture error =>
    s!"Skipping section {heading.label} in {texture.name}: {error.message}"
  | .kindDegraded segment kind => s!"Segment `{segment}`: `{kind}` plays as a looping sequence"
  | .segmentRead kind segment texture => s!"Parsed {kind} segment `{segment}` for {texture.name}"
  | .segmentSkipped position texture error =>
    s!"Skipping segment at byte {position} in {texture.name}: {error.message}"
  | .correctorIgnored segment corrector =>
    s!"Segment `{segment}`: unknown corrector `@{corrector}` ignored"
  | .rangeCollapsed segment first last =>
    s!"Segment `{segment}` has inverted range {first}-{last}, playing frame {first} only"
  | .frametimeClamped texture => s!"Frametime 0 for {texture.name} clamped to 1"
  | .documentRead count texture format =>
    s!"Parsed {count} segments for {texture.name} ({format.label})"
  | .documentRefused texture format error =>
    s!"Failed to parse {format.label} animation for {texture.name}: {error.message}"
  | .registered texture format count =>
    s!"Registered animation: {texture.name} ({format.label}, {count} segments)"
  | .removed texture => s!"Removed animation: {texture.name}"
  | .cleared => "Cleared all animations"
  | .activated kind segment texture => s!"Activated {kind.text} `{segment}` for {texture.name}"
  | .tickAborted texture =>
    s!"Animation tick for {texture.name} panicked; texture skipped this tick"
  | .eventRegistered name => s!"Registered event: {name}"
  | .eventStarted name => s!"EVENT ACTIVATED: {name}"
  | .eventEnded name => s!"EVENT DEACTIVATED: {name}"

/-- The whole line of a notice. -/
def line (n : Notice) : String := n.level.label ++ " " ++ n.text

end Notice

/-! ## Results with notices -/

/-- A value and the notices that arose on the way to it, oldest first. -/
structure Noted (α : Type) where
  value : α
  notices : List Notice

namespace Noted

instance : Monad Noted where
  pure a := ⟨a, []⟩
  bind x f := ⟨(f x.value).value, x.notices ++ (f x.value).notices⟩

/-- Nothing but a notice. -/
def note (n : Notice) : Noted Unit := ⟨(), [n]⟩

instance : LawfulMonad Noted := LawfulMonad.mk' Noted
  (fun x => by simp [Functor.map])
  (fun a f => by simp [bind, pure])
  (fun x f g => by simp [bind])

@[simp] theorem value_pure {α : Type} (a : α) : (pure a : Noted α).value = a := rfl

@[simp] theorem notices_pure {α : Type} (a : α) : (pure a : Noted α).notices = [] := rfl

@[simp] theorem value_bind {α β : Type} (x : Noted α) (f : α → Noted β) :
    (x >>= f).value = (f x.value).value := rfl

@[simp] theorem notices_bind {α β : Type} (x : Noted α) (f : α → Noted β) :
    (x >>= f).notices = x.notices ++ (f x.value).notices := rfl

/-- The value of a fold comes from the values of its steps. -/
theorem value_foldlM {α β : Type} (f : β → α → Noted β) (b : β) (as : List α) :
    (as.foldlM f b).value = as.foldl (fun b a => (f b a).value) b := by
  induction as generalizing b with
  | nil => rfl
  | cons a as ih => rw [List.foldlM_cons, value_bind, ih, List.foldl_cons]

theorem value_mapM {α β : Type} (f : α → Noted β) (as : List α) :
    (as.mapM f).value = as.map fun a => (f a).value := by
  induction as with
  | nil => rfl
  | cons a as ih =>
    rw [List.mapM_cons, value_bind, value_bind, ih]
    rfl

end Noted
end Flipbook
