import Flipbook.Animation.Metadata
import Flipbook.Decimal.Numeral

/-!
# Playback

One tick of one animation. Segments are visited in the order of their
declaration; each sees the states of the others as they are at that moment.

* A fallback is active when no segment of higher priority is.
* Any other segment asks its trigger whether it is wanted and goes on by
  `SegmentKind.advance`, which depends on nothing else.
* When the game crashes, the tick ends where it is: what was done before stays.
* In the vanilla format the one sequence always plays.

Frames, ticks on a frame and cycles are counted in 32 bits and start again from zero.
`Animation.currentFrame` is the frame to show.
-/
namespace Flipbook

open Expression (Scope)

/-! ## One segment -/

namespace SegmentState

/-- The count that follows `n`: after the greatest one of 32 bits comes zero. -/
def countOn (n : Nat) : Nat := (n + 1) % Decimal.frameBound

theorem countOn_of_lt {n : Nat} (h : n + 1 < Decimal.frameBound) : countOn n = n + 1 :=
  Nat.mod_eq_of_lt h

/-- Starts to play at a frame. -/
def start (s : SegmentState) (first : Nat) : SegmentState :=
  { s with active := true, frame := first, elapsed := 0 }

/-- Starts over. -/
def restart (s : SegmentState) (first : Nat) : SegmentState :=
  { s with frame := first, cycles := countOn s.cycles }

/-- Spends a tick on the frame and goes on to the next one when its time is up.
After the last frame `past` decides. -/
def elapse (s : SegmentState) (frametime last : Nat) (past : SegmentState → SegmentState) :
    SegmentState :=
  let elapsed := countOn s.elapsed
  if elapsed < frametime then { s with elapsed }
  else
    let moved := { s with elapsed := 0, frame := countOn s.frame }
    if last < moved.frame then past moved else moved

end SegmentState

namespace SegmentKind

/-- A sequence at the beginning of a tick: it starts when it comes to be wanted,
and ends or goes to its last frame when it is no longer wanted. -/
def turnSequence (range : FrameRange) (looping pauses wanted : Bool) (s : SegmentState) :
    SegmentState :=
  if wanted && !s.active then s.start range.first
  else if !wanted && s.active then
    if pauses then { s with frame := range.last }
    else if looping then s
    else { s with active := false }
  else s

/-- A sequence after its last frame. -/
def pastSequence (range : FrameRange) (looping pauses wanted : Bool) (s : SegmentState) :
    SegmentState :=
  if looping && wanted then s.restart range.first
  else { s with frame := range.last, active := pauses }

/-- A tick of a sequence. -/
def advanceSequence (range : FrameRange) (looping pauses : Bool) (frametime : Nat)
    (wanted : Bool) (s : SegmentState) : SegmentState :=
  let turned := turnSequence range looping pauses wanted s
  if turned.active then
    turned.elapse frametime range.last (pastSequence range looping pauses wanted)
  else turned

/-- A tick of a segment that plays once. -/
def advanceOneShot (range : FrameRange) (frametime : Nat) (wanted : Bool) (s : SegmentState) :
    SegmentState :=
  let turned := if wanted && !s.active && !s.played then s.start range.first else s
  if turned.active then
    turned.elapse frametime range.last fun s =>
      { s with frame := range.last, active := false, played := true }
  else turned

/-- A tick of a segment that is wanted or not. -/
def advance (kind : SegmentKind) (frametime : Nat) (wanted : Bool) (s : SegmentState) :
    SegmentState :=
  match kind with
  | fallback _ => s
  | singleFrame frame _ =>
    { s with active := wanted, frame := if wanted && !s.active then frame else s.frame }
  | sequence range looping pauses _ => advanceSequence range looping pauses frametime wanted s
  | oneShot range _ => advanceOneShot range frametime wanted s

/-- The activation that a tick brings about. -/
def activation? (kind : SegmentKind) (wanted : Bool) (s : SegmentState) : Option Activation :=
  if wanted && !s.active then
    match kind with
    | fallback _ => none
    | singleFrame .. => some .singleFrame
    | sequence .. => some .sequence
    | oneShot .. => if s.played then none else some .oneShot
  else none

end SegmentKind

/-! ## One animation -/

/-- A segment together with what it does. -/
structure Track where
  segment : Segment
  state : SegmentState

/-- The outcome of a tick: what was played, as it is now. After a crash a part of
it is as it was. -/
structure Played (σ τ : Type) where
  now : τ
  game : σ
  notices : List Notice
  crashed : Bool

namespace Track

/-- A segment at the start. -/
def start (segment : Segment) : Track := ⟨segment, segment.initial⟩

/-- Whether a track is active and has a priority above the given one. -/
def outranks (priority : Int) (t : Track) : Bool := priority < t.segment.priority && t.state.active

variable {σ : Type}

/-- Plays a track that has a trigger. -/
def playWanted (t : Track) (trigger : Trigger) (header : Header) (scope : Scope) (game : Game σ)
    (s : σ) : Played σ Track :=
  let kind := t.segment.kind
  let scope := scope.forSegment t.state.frame t.state.cycles
  let done := trigger.decide scope kind.standing game s
  let segment := { t.segment with kind := kind.withTrigger done.trigger }
  match done.wanted with
  | none => ⟨⟨segment, t.state⟩, done.game, done.notices, true⟩
  | some wanted =>
    let activated := (kind.activation? wanted t.state).toList.map fun a =>
      Notice.activated a t.segment.name header.texture
    let state := kind.advance (t.segment.effectiveFrametime header.frametime) wanted t.state
    ⟨⟨segment, state⟩, done.game, done.notices ++ activated, false⟩

/-- Plays a track in a tick, beside the given others. -/
def play (t : Track) (header : Header) (others : List Track) (scope : Scope) (game : Game σ)
    (s : σ) : Played σ Track :=
  match t.segment.kind.trigger? with
  | some trigger => t.playWanted trigger header scope game s
  | none =>
    let active := !others.any (outranks t.segment.priority)
    ⟨{ t with state := { t.state with active } }, s, [], false⟩

theorem play_of_trigger? {t : Track} {trigger : Trigger}
    (h : t.segment.kind.trigger? = some trigger) (header : Header) (others : List Track)
    (scope : Scope) (game : Game σ) (s : σ) :
    t.play header others scope game s = t.playWanted trigger header scope game s := by
  unfold play
  rw [h]

theorem play_of_not_trigger? {t : Track} (h : t.segment.kind.trigger? = none) (header : Header)
    (others : List Track) (scope : Scope) (game : Game σ) (s : σ) :
    t.play header others scope game s =
      ⟨{ t with state := { t.state with active := !others.any (outranks t.segment.priority) } },
        s, [], false⟩ := by
  unfold play
  rw [h]

/-- Plays tracks one after the other; those in `before` have been played. -/
def playAll (header : Header) (scope : Scope) (game : Game σ) (before : List Track) :
    List Track → σ → Played σ (List Track)
  | [], s => ⟨[], s, [], false⟩
  | t :: rest, s =>
    let first := t.play header (before ++ rest) scope game s
    if first.crashed then ⟨first.now :: rest, first.game, first.notices, true⟩
    else
      let others := playAll header scope game (before ++ [first.now]) rest first.game
      ⟨first.now :: others.now, others.game, first.notices ++ others.notices, others.crashed⟩

/-- Plays the sequence of the vanilla format. -/
def playVanilla (header : Header) (t : Track) : Track :=
  match t.segment.kind with
  | .sequence range looping _ _ =>
    let state := { t.state with active := true }
    let past (s : SegmentState) : SegmentState :=
      if looping then s.restart range.first else { s with frame := range.last }
    { t with
      state := state.elapse (t.segment.effectiveFrametime header.frametime) range.last past }
  | _ => t

/-- The active track of highest priority, and the first of several. -/
def leader? : List Track → Option Track
  | [] => none
  | t :: rest =>
    match leader? rest with
    | none => if t.state.active then some t else none
    | some u => if t.state.active && u.segment.priority ≤ t.segment.priority then some t else some u

end Track

/-- An animation at a moment. -/
structure Animation where
  header : Header
  tracks : List Track

namespace Animation

/-- The animation at its start. -/
def start (m : Metadata) : Animation := ⟨m.header, m.segments.map Track.start⟩

/-- The description of the animation, with the conditions as they are now. -/
def metadata (a : Animation) : Metadata := ⟨a.header, a.tracks.map Track.segment⟩

/-- The states of the segments. -/
def states (a : Animation) : List SegmentState := a.tracks.map Track.state

/-- The variables of the conditions in a tick. -/
def scope (a : Animation) (player : Player) : Scope :=
  ((Scope.ofPlayer player).set "first_frame" (.ofNat 0)).set "last_frame"
    (.ofNat a.metadata.lastFrame)

/-- A tick of the animation. -/
def play {σ : Type} (a : Animation) (player : Player) (game : Game σ) (s : σ) :
    Played σ Animation :=
  match a.header.source with
  | .vanilla =>
    match a.tracks with
    | [] => ⟨a, s, [], false⟩
    | t :: rest => ⟨{ a with tracks := t.playVanilla a.header :: rest }, s, [], false⟩
  | _ =>
    let done := Track.playAll a.header (a.scope player) game [] a.tracks s
    ⟨{ a with tracks := done.now }, done.game, done.notices, done.crashed⟩

/-- The frame to show; zero when nothing is active. -/
def currentFrame (a : Animation) : Nat :=
  match a.header.source with
  | .vanilla => (a.tracks.head?.map fun t => t.state.frame).getD 0
  | _ => ((Track.leader? a.tracks).map fun t => t.state.frame).getD 0

variable {σ : Type} {a : Animation}

/-- Beyond the vanilla format a tick plays the tracks one after the other. -/
theorem play_of_ne_vanilla (h : a.header.source ≠ .vanilla) (player : Player) (game : Game σ)
    (s : σ) : a.play player game s =
      let done := Track.playAll a.header (a.scope player) game [] a.tracks s
      ⟨{ a with tracks := done.now }, done.game, done.notices, done.crashed⟩ := by
  unfold play
  split
  · next hvanilla => exact absurd hvanilla h
  · rfl

theorem currentFrame_of_ne_vanilla (h : a.header.source ≠ .vanilla) :
    a.currentFrame = ((Track.leader? a.tracks).map fun t => t.state.frame).getD 0 := by
  unfold currentFrame
  split
  · next hvanilla => exact absurd hvanilla h
  · rfl

end Animation
end Flipbook
