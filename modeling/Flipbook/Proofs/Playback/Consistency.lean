import Flipbook.Animation.Playback

/-!
# What the state of a segment keeps to

A segment declares the frames that it can show. `SegmentState.Consistent` says
what a state keeps to beside them: the ticks spent on a frame stay below its time,
only a segment that plays once can have played, and only a looping sequence counts
cycles.

* `SegmentKind.consistent_advance`: a tick of a segment keeps its state consistent.
* `Track.consistent_play`: so does a tick of a track among others, whether it comes to
  its end or breaks off.
* `Animation.consistent_play`: so does a tick of an animation in either format.
* `Animation.shows_currentFrame`: the frame to show is zero or one that a segment
  declares.
* `Animation.outlines_play`: a tick changes nothing that a segment declares.
* `Track.forall_playAll`, `Animation.forall_play`: what each track keeps, all of them keep.
-/
namespace Flipbook

open Expression (Scope)

/-! ## Frames -/

/-- Whether a range has a frame and its frames can be counted one beyond the last. -/
def FrameRange.Playable (r : FrameRange) : Prop :=
  r.first ≤ r.last ∧ r.last + 1 < Decimal.frameBound

instance (r : FrameRange) : Decidable r.Playable := inferInstanceAs (Decidable (_ ∧ _))

/-- The frame that follows one of a playable range does not come before the range. -/
theorem FrameRange.Playable.first_le_countOn {r : FrameRange} (h : r.Playable) {frame : Nat}
    (hframe : r.first ≤ frame ∧ frame ≤ r.last) : r.first ≤ SegmentState.countOn frame := by
  have hnext : frame + 1 < Decimal.frameBound := Nat.lt_of_le_of_lt (Nat.succ_le_succ hframe.2) h.2
  rw [SegmentState.countOn_of_lt hnext]
  exact Nat.le_succ_of_le hframe.1

namespace SegmentKind

/-- The frame that a kind ends on. -/
def lastFrame : SegmentKind → Nat
  | fallback frame => frame
  | singleFrame frame _ => frame
  | sequence range _ _ _ => range.last
  | oneShot range _ => range.last

/-- Whether a frame is one of those that a kind shows. -/
def Shows (kind : SegmentKind) (frame : Nat) : Prop :=
  kind.firstFrame ≤ frame ∧ frame ≤ kind.lastFrame

/-- Whether a kind plays once. -/
def playsOnce : SegmentKind → Bool
  | oneShot .. => true
  | _ => false

/-- Whether a kind is a sequence that starts over. -/
def loops : SegmentKind → Bool
  | sequence _ looping _ _ => looping
  | _ => false

/-- Whether the range of a kind that moves is playable. -/
def Playable (kind : SegmentKind) : Prop := ∀ range ∈ kind.range?, range.Playable

/-- A playable kind starts on a frame that it shows. -/
theorem firstFrame_le_lastFrame {kind : SegmentKind} (h : kind.Playable) :
    kind.firstFrame ≤ kind.lastFrame := by
  cases kind with
  | fallback frame => exact Nat.le_refl frame
  | singleFrame frame trigger => exact Nat.le_refl frame
  | sequence range looping pauses trigger => exact (h range rfl).1
  | oneShot range trigger => exact (h range rfl).1

/-- Each frame of a playable range can be counted one further. -/
theorem Shows.lt_frameBound {kind : SegmentKind} {frame : Nat} (hs : kind.Shows frame)
    (hp : kind.Playable) {range : FrameRange} (hr : range ∈ kind.range?) :
    frame + 1 < Decimal.frameBound := by
  have hlast : kind.lastFrame = range.last := by
    cases kind <;> cases hr <;> rfl
  have := hs.2
  have := (hp range hr).2
  omega

end SegmentKind

/-! ## Consistent states -/

/-- A state that a segment of a kind can be in when each frame stays `frametime`
ticks. -/
structure SegmentState.Consistent (s : SegmentState) (kind : SegmentKind) (frametime : Nat) :
    Prop where
  elapsed_lt : s.elapsed < frametime
  shows : kind.Shows s.frame
  /-- What has played plays once, and rests on its last frame. -/
  played : s.played = true →
    kind.playsOnce = true ∧ s.active = false ∧ s.frame = kind.lastFrame ∧ s.elapsed = 0
  /-- What plays once and is still to play waits on its first frame. -/
  waiting : kind.playsOnce = true → s.active = false → s.played = false →
    s.frame = kind.firstFrame ∧ s.elapsed = 0
  /-- What has started over is a looping sequence. -/
  cycles : s.cycles ≠ 0 → kind.loops = true

namespace SegmentState

/-- What a tick can do to the frame: it stays, the next one follows, or the last one
is over. -/
theorem elapse_cases (s : SegmentState) (frametime last : Nat)
    (past : SegmentState → SegmentState) :
    (countOn s.elapsed < frametime ∧
      s.elapse frametime last past = { s with elapsed := countOn s.elapsed }) ∨
    (frametime ≤ countOn s.elapsed ∧ countOn s.frame ≤ last ∧
      s.elapse frametime last past = { s with elapsed := 0, frame := countOn s.frame }) ∨
    (frametime ≤ countOn s.elapsed ∧ last < countOn s.frame ∧
      s.elapse frametime last past = past { s with elapsed := 0, frame := countOn s.frame }) := by
  by_cases htime : countOn s.elapsed < frametime
  · exact .inl ⟨htime, if_pos htime⟩
  · have heq : s.elapse frametime last past =
        if last < countOn s.frame then past { s with elapsed := 0, frame := countOn s.frame }
        else { s with elapsed := 0, frame := countOn s.frame } := if_neg htime
    by_cases hlast : last < countOn s.frame
    · exact .inr (.inr ⟨Nat.not_lt.1 htime, hlast, heq.trans (if_pos hlast)⟩)
    · exact .inr (.inl ⟨Nat.not_lt.1 htime, Nat.not_lt.1 hlast, heq.trans (if_neg hlast)⟩)

variable {s : SegmentState} {frametime : Nat}

/-- A state of a sequence is consistent when its counters and its frame are in range. -/
theorem consistent_sequence_iff {range : FrameRange} {looping pauses : Bool} {trigger : Trigger} :
    s.Consistent (.sequence range looping pauses trigger) frametime ↔
      s.elapsed < frametime ∧ (range.first ≤ s.frame ∧ s.frame ≤ range.last) ∧
        s.played = false ∧ (s.cycles ≠ 0 → looping = true) := by
  constructor
  · intro h
    refine ⟨h.elapsed_lt, h.shows, ?_, h.cycles⟩
    cases hp : s.played with
    | false => rfl
    | true => exact absurd (h.played hp).1 Bool.false_ne_true
  · rintro ⟨he, hf, hp, hc⟩
    exact ⟨he, hf, fun h => absurd (hp.symm.trans h) Bool.false_ne_true, nofun, hc⟩

theorem consistent_oneShot_iff {range : FrameRange} {trigger : Trigger} :
    s.Consistent (.oneShot range trigger) frametime ↔
      s.elapsed < frametime ∧ (range.first ≤ s.frame ∧ s.frame ≤ range.last) ∧
        (s.played = true → s.active = false ∧ s.frame = range.last ∧ s.elapsed = 0) ∧
        (s.active = false → s.played = false → s.frame = range.first ∧ s.elapsed = 0) ∧
        s.cycles = 0 := by
  constructor
  · intro h
    refine ⟨h.elapsed_lt, h.shows, fun hp => (h.played hp).2, h.waiting rfl, ?_⟩
    cases hc : s.cycles with
    | zero => rfl
    | succ n => exact absurd (h.cycles (by omega)) Bool.false_ne_true
  · rintro ⟨he, hf, hp, hw, hc⟩
    exact ⟨he, hf, fun h => ⟨rfl, hp h⟩, fun _ => hw, fun h => absurd hc h⟩

end SegmentState

/-! ## A tick of one segment -/

namespace SegmentKind

variable {frametime : Nat} {s : SegmentState} {range : FrameRange} {looping pauses : Bool}
  {trigger : Trigger}

theorem consistent_turnSequence (h : range.first ≤ range.last) (wanted : Bool)
    (hs : s.Consistent (.sequence range looping pauses trigger) frametime) :
    (turnSequence range looping pauses wanted s).Consistent
      (.sequence range looping pauses trigger) frametime := by
  rw [SegmentState.consistent_sequence_iff] at hs ⊢
  obtain ⟨he, hf, hp, hc⟩ := hs
  unfold turnSequence
  split
  · exact ⟨Nat.zero_lt_of_lt he, ⟨Nat.le_refl _, h⟩, hp, hc⟩
  · split
    · split
      · exact ⟨he, ⟨h, Nat.le_refl _⟩, hp, hc⟩
      · split
        · exact ⟨he, hf, hp, hc⟩
        · exact ⟨he, hf, hp, hc⟩
    · exact ⟨he, hf, hp, hc⟩

/-- Spending a tick keeps a sequence consistent if what comes after its last frame
does. -/
theorem consistent_elapse_sequence (h : range.Playable) {past : SegmentState → SegmentState}
    (hs : s.Consistent (.sequence range looping pauses trigger) frametime)
    (hpast : (past { s with elapsed := 0, frame := SegmentState.countOn s.frame }).Consistent
      (.sequence range looping pauses trigger) frametime) :
    (s.elapse frametime range.last past).Consistent
      (.sequence range looping pauses trigger) frametime := by
  obtain ⟨he, hf, hp, hc⟩ := SegmentState.consistent_sequence_iff.1 hs
  obtain ⟨hlt, heq⟩ | ⟨-, hle, heq⟩ | ⟨-, -, heq⟩ := s.elapse_cases frametime range.last past
  · rw [heq, SegmentState.consistent_sequence_iff]
    exact ⟨hlt, hf, hp, hc⟩
  · rw [heq, SegmentState.consistent_sequence_iff]
    exact ⟨Nat.zero_lt_of_lt he, ⟨h.first_le_countOn hf, hle⟩, hp, hc⟩
  · rw [heq]
    exact hpast

theorem advanceSequence_eq (range : FrameRange) (looping pauses : Bool) (frametime : Nat)
    (wanted : Bool) (s : SegmentState) :
    advanceSequence range looping pauses frametime wanted s =
      if (turnSequence range looping pauses wanted s).active then
        (turnSequence range looping pauses wanted s).elapse frametime range.last
          (pastSequence range looping pauses wanted)
      else turnSequence range looping pauses wanted s := rfl

theorem consistent_advanceSequence (h : range.Playable) (wanted : Bool)
    (hs : s.Consistent (.sequence range looping pauses trigger) frametime) :
    (advanceSequence range looping pauses frametime wanted s).Consistent
      (.sequence range looping pauses trigger) frametime := by
  have hturned := consistent_turnSequence h.1 wanted hs
  rw [advanceSequence_eq]
  split
  · refine consistent_elapse_sequence h hturned ?_
    obtain ⟨he, -, hp, hc⟩ := SegmentState.consistent_sequence_iff.1 hturned
    rw [SegmentState.consistent_sequence_iff, pastSequence]
    split
    · next hloop =>
      rw [Bool.and_eq_true] at hloop
      exact ⟨Nat.zero_lt_of_lt he, ⟨Nat.le_refl _, h.1⟩, hp, fun _ => hloop.1⟩
    · exact ⟨Nat.zero_lt_of_lt he, ⟨h.1, Nat.le_refl _⟩, hp, hc⟩
  · exact hturned

/-- A segment that plays once at the beginning of a tick: it starts when it comes to
be wanted and has not played. -/
def turnOneShot (range : FrameRange) (wanted : Bool) (s : SegmentState) : SegmentState :=
  if wanted && !s.active && !s.played then s.start range.first else s

theorem advanceOneShot_eq (range : FrameRange) (frametime : Nat) (wanted : Bool)
    (s : SegmentState) : advanceOneShot range frametime wanted s =
      if (turnOneShot range wanted s).active then
        (turnOneShot range wanted s).elapse frametime range.last fun s =>
          { s with frame := range.last, active := false, played := true }
      else turnOneShot range wanted s := rfl

theorem consistent_turnOneShot (h : range.first ≤ range.last) (wanted : Bool)
    (hs : s.Consistent (.oneShot range trigger) frametime) :
    (turnOneShot range wanted s).Consistent (.oneShot range trigger) frametime := by
  unfold turnOneShot
  split
  · next hstart =>
    simp only [Bool.and_eq_true, Bool.not_eq_true'] at hstart
    obtain ⟨he, -, -, -, hc⟩ := SegmentState.consistent_oneShot_iff.1 hs
    rw [SegmentState.consistent_oneShot_iff]
    refine ⟨Nat.zero_lt_of_lt he, ⟨Nat.le_refl _, h⟩, fun hp => ?_, nofun, hc⟩
    exact absurd (hstart.2.symm.trans hp) Bool.false_ne_true
  · exact hs

theorem consistent_advanceOneShot (h : range.Playable) (wanted : Bool)
    (hs : s.Consistent (.oneShot range trigger) frametime) :
    (advanceOneShot range frametime wanted s).Consistent (.oneShot range trigger) frametime := by
  have hturned := consistent_turnOneShot h.1 wanted hs
  rw [advanceOneShot_eq]
  generalize turnOneShot range wanted s = turned at hturned ⊢
  split
  · next hactive =>
    obtain ⟨he, hf, hp, -, hc⟩ := SegmentState.consistent_oneShot_iff.1 hturned
    -- an active segment has not played, so that only its last frame can end it
    have hnot : turned.played ≠ true := fun hplayed =>
      Bool.false_ne_true ((hp hplayed).1.symm.trans hactive)
    have hidle : turned.active ≠ false := fun h => Bool.false_ne_true (h.symm.trans hactive)
    obtain ⟨hlt, heq⟩ | ⟨-, hle, heq⟩ | ⟨-, -, heq⟩ := turned.elapse_cases frametime range.last _
    · rw [heq, SegmentState.consistent_oneShot_iff]
      exact ⟨hlt, hf, fun hplayed => absurd hplayed hnot, fun h => absurd h hidle, hc⟩
    · rw [heq, SegmentState.consistent_oneShot_iff]
      exact ⟨Nat.zero_lt_of_lt he, ⟨h.first_le_countOn hf, hle⟩,
        fun hplayed => absurd hplayed hnot, fun h => absurd h hidle, hc⟩
    · rw [heq, SegmentState.consistent_oneShot_iff]
      exact ⟨Nat.zero_lt_of_lt he, ⟨h.1, Nat.le_refl _⟩, fun _ => ⟨rfl, rfl, rfl⟩, nofun, hc⟩
  · exact hturned

/-- A tick of a playable segment, wanted or not, keeps its state consistent. -/
theorem consistent_advance {kind : SegmentKind} (hk : kind.Playable) (wanted : Bool)
    (hs : s.Consistent kind frametime) :
    (kind.advance frametime wanted s).Consistent kind frametime := by
  cases kind with
  | fallback frame => exact hs
  | singleFrame frame trigger =>
    refine ⟨hs.elapsed_lt, ?_, ?_, nofun, hs.cycles⟩
    · show SegmentKind.Shows _ (if wanted && !s.active then frame else s.frame)
      split
      · exact ⟨Nat.le_refl _, Nat.le_refl _⟩
      · exact hs.shows
    · intro hplayed
      exact absurd (hs.played hplayed).1 Bool.false_ne_true
  | sequence range looping pauses trigger =>
    exact consistent_advanceSequence (hk range rfl) wanted hs
  | oneShot range trigger => exact consistent_advanceOneShot (hk range rfl) wanted hs

/-! ## What a trigger does not touch -/

variable (kind : SegmentKind)

@[simp] theorem range?_withTrigger : (kind.withTrigger trigger).range? = kind.range? := by
  cases kind <;> rfl

@[simp] theorem firstFrame_withTrigger :
    (kind.withTrigger trigger).firstFrame = kind.firstFrame := by
  cases kind <;> rfl

@[simp] theorem lastFrame_withTrigger : (kind.withTrigger trigger).lastFrame = kind.lastFrame := by
  cases kind <;> rfl

@[simp] theorem playsOnce_withTrigger : (kind.withTrigger trigger).playsOnce = kind.playsOnce := by
  cases kind <;> rfl

@[simp] theorem loops_withTrigger : (kind.withTrigger trigger).loops = kind.loops := by
  cases kind <;> rfl

theorem trigger?_withTrigger :
    (kind.withTrigger trigger).trigger? = kind.trigger?.map fun _ => trigger := by
  cases kind <;> rfl

@[simp] theorem withTrigger_withTrigger (later : Trigger) :
    (kind.withTrigger trigger).withTrigger later = kind.withTrigger later := by
  cases kind <;> rfl

theorem playsOnce_of_trigger?_eq_none {kind : SegmentKind} (h : kind.trigger? = none) :
    kind.playsOnce = false := by
  cases kind with
  | fallback frame => rfl
  | singleFrame frame trigger => cases h
  | sequence range looping pauses trigger => cases h
  | oneShot range trigger => cases h

end SegmentKind

/-- Whether a segment that does not play once is active is free. -/
theorem SegmentState.Consistent.withActive {s : SegmentState} {kind : SegmentKind}
    {frametime : Nat} (h : s.Consistent kind frametime) (hkind : kind.playsOnce = false)
    (active : Bool) : { s with active }.Consistent kind frametime := by
  refine ⟨h.elapsed_lt, h.shows, ?_, ?_, h.cycles⟩
  · intro hplayed
    exact absurd (hkind.symm.trans (h.played hplayed).1) Bool.false_ne_true
  · intro honce
    exact absurd (hkind.symm.trans honce) Bool.false_ne_true

theorem SegmentState.Consistent.withTrigger {s : SegmentState} {kind : SegmentKind}
    {frametime : Nat} (h : s.Consistent kind frametime) (trigger : Trigger) :
    s.Consistent (kind.withTrigger trigger) frametime := by
  constructor
  · exact h.elapsed_lt
  · simpa [SegmentKind.Shows] using h.shows
  · simpa using h.played
  · simpa using h.waiting
  · simpa using h.cycles

/-- A segment without its trigger: what it declares once and for all. -/
def Segment.outline (s : Segment) : Segment := { s with kind := s.kind.withTrigger .none }

theorem Segment.priority_outline (s : Segment) : s.outline.priority = s.priority := rfl

theorem Segment.isFallback_outline (s : Segment) : s.outline.isFallback = s.isFallback := by
  obtain ⟨name, priority, frametime, kind⟩ := s
  cases kind <;> rfl

/-! ## A tick of a track -/

namespace Track

variable {σ : Type}

/-- A playable segment in a state that is consistent with it. -/
structure Consistent (t : Track) (header : Header) : Prop where
  playable : t.segment.kind.Playable
  state : t.state.Consistent t.segment.kind (t.segment.effectiveFrametime header.frametime)

/-- The track with another trigger and in another state. -/
def become (t : Track) (trigger : Trigger) (state : SegmentState) : Track :=
  ⟨{ t.segment with kind := t.segment.kind.withTrigger trigger }, state⟩

@[simp] theorem outline_become (t : Track) (trigger : Trigger) (state : SegmentState) :
    (t.become trigger state).segment.outline = t.segment.outline := by
  simp [become, Segment.outline]

theorem consistent_become {t : Track} {header : Header} (h : t.Consistent header)
    (trigger : Trigger) {state : SegmentState}
    (hs : state.Consistent t.segment.kind (t.segment.effectiveFrametime header.frametime)) :
    (t.become trigger state).Consistent header := by
  constructor
  · intro range hrange
    rw [become, SegmentKind.range?_withTrigger] at hrange
    exact h.playable range hrange
  · exact hs.withTrigger trigger

/-- What a tick can do to a track. A fallback looks at the other tracks. Any other
segment asks its trigger; then the game crashes and the state stays as it is, or the
segment advances. -/
theorem play_cases (t : Track) (header : Header) (others : List Track) (scope : Scope)
    (game : Game σ) (s : σ) :
    (t.segment.kind.trigger? = none ∧
      t.play header others scope game s =
        ⟨{ t with state := { t.state with active := !others.any (outranks t.segment.priority) } },
          s, [], false⟩) ∨
    ∃ trigger done, t.segment.kind.trigger? = some trigger ∧
      done = trigger.decide (scope.forSegment t.state.frame t.state.cycles)
        t.segment.kind.standing game s ∧
      (t.play header others scope game s).game = done.game ∧
      ((done.wanted = none ∧ (t.play header others scope game s).crashed = true ∧
          (t.play header others scope game s).now = t.become done.trigger t.state) ∨
        ∃ wanted, done.wanted = some wanted ∧
          (t.play header others scope game s).crashed = false ∧
          (t.play header others scope game s).now = t.become done.trigger
            (t.segment.kind.advance (t.segment.effectiveFrametime header.frametime) wanted
              t.state)) := by
  cases htrigger : t.segment.kind.trigger? with
  | none => exact .inl ⟨rfl, play_of_not_trigger? htrigger header others scope game s⟩
  | some trigger =>
    refine .inr ⟨trigger, _, rfl, rfl, ?_⟩
    simp only [play_of_trigger? htrigger, playWanted]
    split
    · next hwanted => exact ⟨rfl, .inl ⟨hwanted, rfl, rfl⟩⟩
    · next wanted hwanted => exact ⟨rfl, .inr ⟨wanted, hwanted, rfl, rfl⟩⟩

theorem outline_play (t : Track) (header : Header) (others : List Track) (scope : Scope)
    (game : Game σ) (s : σ) :
    (t.play header others scope game s).now.segment.outline = t.segment.outline := by
  obtain ⟨-, heq⟩ | ⟨trigger, done, -, -, -, ⟨-, -, heq⟩ | ⟨wanted, -, -, heq⟩⟩ :=
    t.play_cases header others scope game s
  · rw [heq]
  · rw [heq, outline_become]
  · rw [heq, outline_become]

/-- A tick of a track keeps it consistent, also when the game crashes. -/
theorem consistent_play {t : Track} {header : Header} (h : t.Consistent header)
    (others : List Track) (scope : Scope) (game : Game σ) (s : σ) :
    (t.play header others scope game s).now.Consistent header := by
  obtain ⟨hkind, heq⟩ | ⟨trigger, done, -, -, -, ⟨-, -, heq⟩ | ⟨wanted, -, -, heq⟩⟩ :=
    t.play_cases header others scope game s
  · rw [heq]
    refine ⟨h.playable, h.state.withActive ?_ _⟩
    exact SegmentKind.playsOnce_of_trigger?_eq_none hkind
  · rw [heq]
    exact consistent_become h done.trigger h.state
  · rw [heq]
    have hadvanced := SegmentKind.consistent_advance h.playable wanted h.state
    exact consistent_become h done.trigger hadvanced

theorem consistent_start {segment : Segment} (h : segment.kind.Playable) (header : Header) :
    (start segment).Consistent header where
  playable := h
  state := {
    elapsed_lt := Nat.lt_of_lt_of_le Nat.zero_lt_one (Nat.le_max_left _ _)
    shows := ⟨Nat.le_refl _, SegmentKind.firstFrame_le_lastFrame h⟩
    played := nofun
    waiting := fun _ _ _ => ⟨rfl, rfl⟩
    cycles := fun hc => absurd rfl hc }

theorem playAll_cons (header : Header) (scope : Scope) (game : Game σ) (before : List Track)
    (t : Track) (rest : List Track) (s : σ) :
    playAll header scope game before (t :: rest) s =
      let first := t.play header (before ++ rest) scope game s
      let others := playAll header scope game (before ++ [first.now]) rest first.game
      if first.crashed then ⟨first.now :: rest, first.game, first.notices, true⟩
      else ⟨first.now :: others.now, others.game, first.notices ++ others.notices,
        others.crashed⟩ := rfl

/-- What a tick of each track keeps, a tick of several tracks keeps: the induction is on the
tracks still to be played, whatever was played before them. -/
theorem forall_playAll {P : Track → Prop} {header : Header} {scope : Scope} {game : Game σ}
    (hplay : ∀ t others s, P t → P (t.play header others scope game s).now) {tracks : List Track}
    (h : ∀ t ∈ tracks, P t) (before : List Track) (s : σ) :
    ∀ t ∈ (playAll header scope game before tracks s).now, P t := by
  induction tracks generalizing before s with
  | nil => exact List.forall_mem_nil P
  | cons t rest ih =>
    obtain ⟨ht, hrest⟩ := List.forall_mem_cons.1 h
    have hfirst := hplay t (before ++ rest) s ht
    rw [playAll_cons]
    dsimp only
    split
    · exact List.forall_mem_cons.2 ⟨hfirst, hrest⟩
    · exact List.forall_mem_cons.2 ⟨hfirst, ih hrest _ _⟩

theorem outlines_playAll (header : Header) (scope : Scope) (game : Game σ) (tracks : List Track)
    (before : List Track) (s : σ) :
    (playAll header scope game before tracks s).now.map (fun t => t.segment.outline) =
      tracks.map fun t => t.segment.outline := by
  induction tracks generalizing before s with
  | nil => rfl
  | cons t rest ih =>
    rw [playAll_cons]
    dsimp only
    split
    · rw [List.map_cons, outline_play, List.map_cons]
    · rw [List.map_cons, outline_play, ih, List.map_cons]

theorem segment_playVanilla (header : Header) (t : Track) :
    (t.playVanilla header).segment = t.segment := by
  unfold playVanilla
  split <;> rfl

/-- The sequence of the vanilla format keeps to the same rules. -/
theorem consistent_playVanilla {t : Track} {header : Header} (h : t.Consistent header) :
    (t.playVanilla header).Consistent header := by
  obtain ⟨segment, state⟩ := t
  obtain ⟨hplayable, hstate⟩ := h
  unfold playVanilla
  split
  · next range looping pauses trigger hkind =>
    simp only at hkind hplayable hstate ⊢
    have hrange : range.Playable := hplayable range (by rw [hkind]; rfl)
    refine ⟨hplayable, ?_⟩
    dsimp only
    rw [hkind] at hstate ⊢
    have hactive := hstate.withActive rfl true
    refine SegmentKind.consistent_elapse_sequence hrange hactive ?_
    obtain ⟨he, -, hp, hc⟩ := SegmentState.consistent_sequence_iff.1 hactive
    split
    · next hloop =>
      rw [SegmentState.consistent_sequence_iff]
      exact ⟨Nat.zero_lt_of_lt he, ⟨Nat.le_refl _, hrange.1⟩, hp, fun _ => hloop⟩
    · rw [SegmentState.consistent_sequence_iff]
      exact ⟨Nat.zero_lt_of_lt he, ⟨hrange.1, Nat.le_refl _⟩, hp, hc⟩
  · exact ⟨hplayable, hstate⟩

/-- The track that leads is one of those that play. -/
theorem mem_of_leader? {tracks : List Track} {t : Track} (h : leader? tracks = some t) :
    t ∈ tracks ∧ t.state.active = true := by
  induction tracks with
  | nil => cases h
  | cons u rest ih =>
    unfold leader? at h
    split at h
    · split at h
      · next hactive =>
        obtain rfl : u = t := Option.some.inj h
        exact ⟨List.mem_cons_self, hactive⟩
      · cases h
    · next v hv =>
      split at h
      · next hactive =>
        obtain rfl : u = t := Option.some.inj h
        exact ⟨List.mem_cons_self, (Bool.and_eq_true_iff.1 hactive).1⟩
      · obtain rfl : v = t := Option.some.inj h
        exact ⟨List.mem_cons_of_mem _ (ih hv).1, (ih hv).2⟩

end Track

/-! ## A tick of an animation -/

/-- Lists of the same numbers have the same maximum. -/
theorem max?_eq_of_perm {xs ys : List Nat} (h : xs.Perm ys) : xs.max? = ys.max? := by
  cases hmax : ys.max? with
  | none =>
    rw [List.max?_eq_none_iff] at hmax ⊢
    exact (hmax ▸ h).eq_nil
  | some n =>
    rw [List.max?_eq_some_iff] at hmax ⊢
    exact ⟨h.mem_iff.2 hmax.1, fun b hb => hmax.2 b (h.mem_iff.1 hb)⟩

namespace Animation

/-- An animation all of whose tracks are consistent. -/
def Consistent (a : Animation) : Prop := ∀ t ∈ a.tracks, t.Consistent a.header

theorem consistent_start {m : Metadata} (h : ∀ segment ∈ m.segments, segment.kind.Playable) :
    (start m).Consistent := by
  intro t ht
  obtain ⟨segment, hsegment, rfl⟩ := List.mem_map.1 ht
  exact Track.consistent_start (h segment hsegment) m.header

/-- What the segments of an animation declare. -/
def outlines (a : Animation) : List Segment := a.tracks.map fun t => t.segment.outline

theorem outlines_start (m : Metadata) : (start m).outlines = m.segments.map Segment.outline := by
  simp [start, outlines, Track.start, Function.comp_def]

variable {σ : Type} (player : Player) (game : Game σ) (s : σ)

theorem header_play (a : Animation) : (a.play player game s).now.header = a.header := by
  unfold play
  split
  · split <;> rfl
  · rfl

theorem outlines_play (a : Animation) : (a.play player game s).now.outlines = a.outlines := by
  unfold play
  split
  · split
    · rfl
    · next t rest htracks => simp [outlines, htracks, Track.segment_playVanilla]
  · exact Track.outlines_playAll a.header (a.scope player) game a.tracks [] s

/-- What a tick of each track keeps, in either format, a tick of the animation keeps. -/
theorem forall_play {P : Track → Prop} {a : Animation}
    (hplay : ∀ t others scope s, P t → P (t.play a.header others scope game s).now)
    (hvanilla : ∀ t, P t → P (t.playVanilla a.header)) (h : ∀ t ∈ a.tracks, P t) :
    ∀ t ∈ (a.play player game s).now.tracks, P t := by
  unfold play
  split
  · split
    · exact h
    · next t rest htracks =>
      rw [htracks] at h
      obtain ⟨ht, hrest⟩ := List.forall_mem_cons.1 h
      exact List.forall_mem_cons.2 ⟨hvanilla t ht, hrest⟩
  · exact Track.forall_playAll (fun t others s => hplay t others _ s) h [] s

/-- A tick keeps an animation consistent, with any player and any game. -/
theorem consistent_play {a : Animation} (h : a.Consistent) :
    (a.play player game s).now.Consistent := by
  intro t ht
  rw [header_play]
  exact forall_play (P := (·.Consistent a.header)) player game s
    (fun _ others scope s hu => Track.consistent_play hu others scope game s)
    (fun _ hu => Track.consistent_playVanilla hu) h t ht

/-- The last frame is declared once and for all. -/
theorem lastFrame_eq (a : Animation) :
    a.metadata.lastFrame =
      (a.outlines.filterMap fun s => s.kind.range?.map FrameRange.last).max?.getD 0 := by
  simp only [Metadata.lastFrame, metadata, outlines, List.filterMap_map, Function.comp_def,
    Segment.outline, SegmentKind.range?_withTrigger]

/-- The variables of the conditions depend on what the segments declare, in any order. -/
theorem scope_eq_of_perm {a b : Animation} (h : a.outlines.Perm b.outlines) (player : Player) :
    a.scope player = b.scope player := by
  rw [scope, scope, lastFrame_eq, lastFrame_eq, max?_eq_of_perm (h.filterMap _)]

/-- The frame to show is zero, or one of the frames of a segment. -/
theorem shows_currentFrame {a : Animation} (h : a.Consistent) :
    a.currentFrame = 0 ∨ ∃ segment ∈ a.metadata.segments, segment.kind.Shows a.currentFrame := by
  have shown {t : Track} (ht : t ∈ a.tracks) :
      ∃ segment ∈ a.metadata.segments, segment.kind.Shows t.state.frame :=
    ⟨t.segment, List.mem_map_of_mem ht, (h t ht).state.shows⟩
  unfold currentFrame
  split
  · cases htracks : a.tracks with
    | nil => exact .inl rfl
    | cons t rest => exact .inr (shown (htracks ▸ List.mem_cons_self))
  · cases hleader : Track.leader? a.tracks with
    | none => exact .inl rfl
    | some t => exact .inr (shown (Track.mem_of_leader? hleader).1)

end Animation
end Flipbook
