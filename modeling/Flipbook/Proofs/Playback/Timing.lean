import Flipbook.Game.Staged
import Flipbook.Proofs.Playback.Runs

/-!
# The timing of segments

A segment that moves counts the ticks on a frame and the frames of its range. Counting by
hand comes to the same as dividing: `n` ticks after its start a segment whose frames stay
`frametime` ticks has gone on `n / frametime` frames.

* `FrameRange.InReach`: the frames and times for which the counters are wide enough.
* `SegmentState.looped`, `SegmentKind.advanceAll_sequence`: a looping sequence that stays
  wanted goes round and round.
* `SegmentState.spent`, `SegmentKind.advanceAll_oneShot`: a segment that plays once goes to
  its end, wanted or not, and stays there.
* `Animation.oneShot_run`: so it does in every run.
-/
namespace Flipbook

/-- The next number has the next remainder, or starts a new round. -/
theorem succ_mod_cases (n : Nat) {m : Nat} (h : 0 < m) :
    (n % m + 1 < m ∧ (n + 1) % m = n % m + 1 ∧ (n + 1) / m = n / m) ∨
      n % m + 1 = m ∧ (n + 1) % m = 0 ∧ (n + 1) / m = n / m + 1 := by
  have hn := Nat.div_add_mod n m
  by_cases hlt : n % m + 1 < m
  · obtain ⟨hdiv, hmod⟩ := (Nat.div_mod_unique (a := n + 1) (d := n / m) h).2 ⟨by omega, hlt⟩
    exact .inl ⟨hlt, hmod, hdiv⟩
  · have heq : n % m + 1 = m := Nat.le_antisymm (Nat.mod_lt n h) (Nat.not_lt.1 hlt)
    have hnext : 0 + m * (n / m + 1) = n + 1 := by
      rw [Nat.mul_add_one]
      omega
    obtain ⟨hdiv, hmod⟩ := (Nat.div_mod_unique h).2 ⟨hnext, h⟩
    exact .inr ⟨heq, hmod, hdiv⟩

namespace FrameRange

theorem length_pos (range : FrameRange) : 0 < range.length := Nat.succ_pos _

/-- A range is over when as many frames as it has are behind. -/
theorem last_lt_iff (range : FrameRange) (frames : Nat) :
    range.last < range.first + frames + 1 ↔ range.length ≤ frames + 1 := by
  simp only [length]
  omega

/-- Whether the counters of a segment reach the time of a frame and one beyond the frames of a
range. -/
structure InReach (range : FrameRange) (frametime : Nat) : Prop where
  first_lt : range.first + 1 < Decimal.frameBound
  last_lt : range.last + 1 < Decimal.frameBound
  frametime_lt : frametime < Decimal.frameBound

theorem InReach.frame_lt {range : FrameRange} {frametime : Nat} (h : range.InReach frametime)
    {frames : Nat} (hframes : frames < range.length) :
    range.first + frames + 1 < Decimal.frameBound := by
  have hfirst := h.first_lt
  have hlast := h.last_lt
  simp only [length] at hframes
  omega

end FrameRange

/-! ## Counting -/

namespace SegmentState

variable {s : SegmentState} {frametime last : Nat}

/-- A tick of a segment whose counters go on by one. -/
theorem elapse_of_lt (helapsed : s.elapsed + 1 < Decimal.frameBound)
    (hframe : s.frame + 1 < Decimal.frameBound) (past : SegmentState → SegmentState) :
    s.elapse frametime last past =
      if s.elapsed + 1 < frametime then { s with elapsed := s.elapsed + 1 }
      else if last < s.frame + 1 then past { s with elapsed := 0, frame := s.frame + 1 }
      else { s with elapsed := 0, frame := s.frame + 1 } := by
  rw [elapse, countOn_of_lt helapsed, countOn_of_lt hframe]

end SegmentState

/-! ## Sequences that start over -/

namespace SegmentState

variable {range : FrameRange} {frametime : Nat} {played : Bool} {cycles ticks : Nat}

/-- A looping sequence some ticks after it started, when it had started over `cycles` times
before. -/
def looped (range : FrameRange) (frametime : Nat) (played : Bool) (cycles ticks : Nat) :
    SegmentState where
  frame := range.first + ticks / frametime % range.length
  active := true
  elapsed := ticks % frametime
  played
  cycles := (cycles + ticks / (frametime * range.length)) % Decimal.frameBound

/-- At the start a looping sequence is on its first frame. -/
theorem looped_zero (h : cycles < Decimal.frameBound) :
    looped range frametime played cycles 0 = ⟨range.first, true, 0, played, cycles⟩ := by
  simp [looped, Nat.mod_eq_of_lt h]

/-- Every tick takes a looping sequence one tick on. -/
theorem elapse_looped (h : 0 < frametime) (hreach : range.InReach frametime)
    {past : SegmentState → SegmentState} (hpast : ∀ s, past s = s.restart range.first) :
    (looped range frametime played cycles ticks).elapse frametime range.last past =
      looped range frametime played cycles (ticks + 1) := by
  have helapsed : (looped range frametime played cycles ticks).elapsed + 1 < Decimal.frameBound :=
    Nat.lt_of_le_of_lt (Nat.mod_lt ticks h) hreach.frametime_lt
  have hcount : (looped range frametime played cycles ticks).frame + 1 < Decimal.frameBound :=
    hreach.frame_lt (Nat.mod_lt _ range.length_pos)
  rw [elapse_of_lt helapsed hcount]
  obtain ⟨htick, hmod, hdiv⟩ | ⟨htick, hmod, hdiv⟩ := succ_mod_cases ticks h
  · have hstay : (looped range frametime played cycles ticks).elapsed + 1 < frametime := htick
    rw [if_pos hstay]
    simp only [looped, hmod, hdiv, ← Nat.div_div_eq_div_mul]
  · have hmove : ¬(looped range frametime played cycles ticks).elapsed + 1 < frametime :=
      Nat.not_lt.2 (Nat.le_of_eq htick.symm)
    rw [if_neg hmove]
    obtain ⟨hframe, hmod', hdiv'⟩ | ⟨hframe, hmod', hdiv'⟩ :=
      succ_mod_cases (ticks / frametime) range.length_pos
    · have hin : ¬range.last < (looped range frametime played cycles ticks).frame + 1 :=
        mt (range.last_lt_iff _).1 (Nat.not_le.2 hframe)
      rw [if_neg hin]
      simp only [looped, ← Nat.div_div_eq_div_mul, hmod, hdiv, hmod', hdiv', Nat.add_assoc]
    · have hout : range.last < (looped range frametime played cycles ticks).frame + 1 :=
        (range.last_lt_iff _).2 (Nat.le_of_eq hframe.symm)
      rw [if_pos hout, hpast]
      simp only [looped, restart, countOn, ← Nat.div_div_eq_div_mul, hmod, hdiv, hmod', hdiv',
        Nat.add_zero, Nat.mod_add_mod, Nat.add_assoc]

end SegmentState

namespace SegmentKind

variable {range : FrameRange} {frametime : Nat} {s : SegmentState}

theorem advanceSequence_looped (h : 0 < frametime) (hreach : range.InReach frametime)
    (pauses : Bool) (played : Bool) (cycles ticks : Nat) :
    advanceSequence range true pauses frametime true (.looped range frametime played cycles ticks) =
      .looped range frametime played cycles (ticks + 1) :=
  SegmentState.elapse_looped h hreach fun _ => rfl

/-- The tick in which a sequence comes to be wanted is the first of its play. -/
theorem advanceSequence_of_inactive (h : 0 < frametime) (hreach : range.InReach frametime)
    (pauses : Bool) (hs : s.active = false) (hcycles : s.cycles < Decimal.frameBound) :
    advanceSequence range true pauses frametime true s =
      .looped range frametime s.played s.cycles 1 := by
  have hstart : turnSequence range true pauses true s =
      .looped range frametime s.played s.cycles 0 := by
    rw [SegmentState.looped_zero hcycles, turnSequence, hs]
    rfl
  rw [advanceSequence_eq, hstart]
  exact SegmentState.elapse_looped h hreach fun _ => rfl

/-- A looping sequence that comes to be wanted, and stays wanted for some ticks. -/
theorem advanceAll_sequence (h : 0 < frametime) (hreach : range.InReach frametime) {pauses : Bool}
    {trigger : Trigger} (hs : s.active = false) (hcycles : s.cycles < Decimal.frameBound)
    {ticks : Nat} (hticks : 0 < ticks) :
    (sequence range true pauses trigger).advanceAll frametime (List.replicate ticks true) s =
      .looped range frametime s.played s.cycles ticks := by
  obtain ⟨later, rfl⟩ : ∃ later, ticks = later + 1 := ⟨ticks - 1, by omega⟩
  have hlater (before : Nat) :
      (sequence range true pauses trigger).advanceAll frametime (List.replicate later true)
        (.looped range frametime s.played s.cycles before) =
      .looped range frametime s.played s.cycles (before + later) := by
    induction later generalizing before with
    | zero => rfl
    | succ later ih =>
      rw [List.replicate_succ, advanceAll_cons, advance, advanceSequence_looped h hreach,
        ih (by omega), Nat.add_assoc, Nat.add_comm 1]
  rw [List.replicate_succ, advanceAll_cons, advance,
    advanceSequence_of_inactive h hreach pauses hs hcycles, hlater, Nat.add_comm 1]

end SegmentKind

/-! ## Segments that play once -/

namespace SegmentState

/-- A segment that plays once, some ticks after it started. -/
def spent (range : FrameRange) (frametime ticks : Nat) : SegmentState :=
  if ticks / frametime < range.length then
    ⟨range.first + ticks / frametime, true, ticks % frametime, false, 0⟩
  else ⟨range.last, false, 0, true, 0⟩

variable {range : FrameRange} {frametime ticks : Nat}

theorem spent_of_lt (h : ticks / frametime < range.length) :
    spent range frametime ticks =
      ⟨range.first + ticks / frametime, true, ticks % frametime, false, 0⟩ := if_pos h

theorem spent_of_le (h : range.length ≤ ticks / frametime) :
    spent range frametime ticks = ⟨range.last, false, 0, true, 0⟩ := if_neg (Nat.not_lt.2 h)

end SegmentState

namespace SegmentKind

open SegmentState (spent spent_of_lt spent_of_le)

variable {range : FrameRange} {frametime : Nat}

/-- When it comes to be wanted, a segment that plays once is on its first frame. -/
theorem turnOneShot_waiting (frametime : Nat) :
    turnOneShot range true ⟨range.first, false, 0, false, 0⟩ = spent range frametime 0 := by
  rw [spent_of_lt (by rw [Nat.zero_div]; exact range.length_pos), Nat.zero_div, Nat.zero_mod]
  rfl

/-- What plays once does not start again. -/
theorem turnOneShot_spent (wanted : Bool) (ticks : Nat) :
    turnOneShot range wanted (spent range frametime ticks) = spent range frametime ticks := by
  unfold spent
  split <;> simp [turnOneShot]

/-- Every tick takes a segment that plays once one tick on, wanted or not. -/
theorem advance_spent (h : 0 < frametime) (hreach : range.InReach frametime) (trigger : Trigger)
    (wanted : Bool) (ticks : Nat) :
    (oneShot range trigger).advance frametime wanted (spent range frametime ticks) =
      spent range frametime (ticks + 1) := by
  have helapsed : ticks % frametime + 1 < Decimal.frameBound :=
    Nat.lt_of_le_of_lt (Nat.mod_lt ticks h) hreach.frametime_lt
  rw [advance, advanceOneShot_eq, turnOneShot_spent]
  obtain ⟨htick, hmod, hdiv⟩ | ⟨htick, hmod, hdiv⟩ := succ_mod_cases ticks h
  · by_cases hframe : ticks / frametime < range.length
    · rw [spent_of_lt hframe, if_pos rfl,
        SegmentState.elapse_of_lt helapsed (hreach.frame_lt hframe), if_pos htick,
        spent_of_lt (by rwa [hdiv]), hmod, hdiv]
    · rw [Nat.not_lt] at hframe
      rw [spent_of_le hframe, if_neg Bool.false_ne_true, spent_of_le (by rwa [hdiv])]
  · by_cases hframe : ticks / frametime < range.length
    · rw [spent_of_lt hframe, if_pos rfl,
        SegmentState.elapse_of_lt helapsed (hreach.frame_lt hframe),
        if_neg (Nat.not_lt.2 (Nat.le_of_eq htick.symm))]
      by_cases hlast : ticks / frametime + 1 < range.length
      · rw [if_neg (mt (range.last_lt_iff _).1 (Nat.not_le.2 hlast)), spent_of_lt (by rwa [hdiv]),
          hmod, hdiv, Nat.add_assoc]
      · rw [Nat.not_lt] at hlast
        rw [if_pos ((range.last_lt_iff _).2 hlast), spent_of_le (by rwa [hdiv])]
    · rw [Nat.not_lt] at hframe
      rw [spent_of_le hframe, if_neg Bool.false_ne_true,
        spent_of_le (by rw [hdiv]; exact Nat.le_succ_of_le hframe)]

theorem advanceAll_spent (h : 0 < frametime) (hreach : range.InReach frametime) (trigger : Trigger)
    (decisions : List Bool) (ticks : Nat) :
    (oneShot range trigger).advanceAll frametime decisions (spent range frametime ticks) =
      spent range frametime (ticks + decisions.length) := by
  induction decisions generalizing ticks with
  | nil => rfl
  | cons wanted decisions ih =>
    rw [advanceAll_cons, advance_spent h hreach, ih, List.length_cons, Nat.add_assoc,
      Nat.add_comm 1]

/-- A segment that plays once waits until it is wanted. -/
theorem advanceAll_waiting {trigger : Trigger} {decisions : List Bool} (h : true ∉ decisions) :
    (oneShot range trigger).advanceAll frametime decisions ⟨range.first, false, 0, false, 0⟩ =
      ⟨range.first, false, 0, false, 0⟩ :=
  advanceAll_idle _ frametime rfl h

/-- Once it is wanted, a segment that plays once goes on whether it is wanted or not. -/
theorem advanceAll_oneShot (hframetime : 0 < frametime) (hreach : range.InReach frametime)
    (trigger : Trigger) {before : List Bool} (h : true ∉ before) (later : List Bool) :
    (oneShot range trigger).advanceAll frametime (before ++ true :: later)
        ⟨range.first, false, 0, false, 0⟩ = spent range frametime (later.length + 1) := by
  have hstart : (oneShot range trigger).advance frametime true ⟨range.first, false, 0, false, 0⟩ =
      spent range frametime 1 := by
    rw [← advance_spent hframetime hreach trigger true 0, advance, advance, advanceOneShot_eq,
      advanceOneShot_eq, turnOneShot_waiting frametime, turnOneShot_spent]
  rw [advanceAll_append, advanceAll_waiting h, advanceAll_cons, hstart,
    advanceAll_spent hframetime hreach, Nat.add_comm 1]

end SegmentKind

namespace Segment

theorem effectiveFrametime_pos (s : Segment) (default : Nat) : 0 < s.effectiveFrametime default :=
  Nat.lt_of_lt_of_le Nat.zero_lt_one (Nat.le_max_left _ _)

/-- A segment with a trigger waits on its first frame at the start. -/
theorem initial_of_trigger? {s : Segment} {trigger : Trigger} (h : s.kind.trigger? = some trigger) :
    s.initial = ⟨s.kind.firstFrame, false, 0, false, 0⟩ := by
  obtain ⟨name, priority, frametime, kind⟩ := s
  cases kind <;> cases h <;> rfl

end Segment

namespace Animation

/-- In every run from its start, a segment that plays once is in its initial state until a
tick wants it. That tick is the first of its play, and from then on all goes by the number of
ticks that have decided about it, whatever they decided. The frame follows from the ticks
divided by the time of a frame; when all frames have had their time the segment has played,
and rests inactive on its last frame for good. The counters have to reach its frames and their
time. -/
theorem oneShot_run {m : Metadata} (hsource : m.header.source ≠ .vanilla) {place : Nat}
    {segment : Segment} (hplace : m.segments[place]? = some segment) {range : FrameRange}
    {trigger : Trigger} (hkind : segment.kind = .oneShot range trigger)
    (hreach : range.InReach (segment.effectiveFrametime m.header.frametime)) (ticks : List Tick) :
    let decisions := (start m).decisions place ticks
    let frametime := segment.effectiveFrametime m.header.frametime
    ∃ t, ((start m).run ticks).tracks[place]? = some t ∧
      t.segment.outline = segment.outline ∧
      (true ∉ decisions → t.state = segment.initial) ∧
      ∀ before later, decisions = before ++ true :: later → true ∉ before →
        let n := later.length + 1
        (n < range.length * frametime →
          t.state = ⟨range.first + n / frametime, true, n % frametime, false, 0⟩) ∧
        (range.length * frametime ≤ n → t.state = ⟨range.last, false, 0, true, 0⟩) := by
  intro decisions frametime
  have hframetime : 0 < frametime := segment.effectiveFrametime_pos _
  have htrigger : segment.kind.trigger? = some trigger := by
    rw [hkind]
    rfl
  have hinitial : segment.initial = ⟨range.first, false, 0, false, 0⟩ := by
    rw [Segment.initial_of_trigger? htrigger, hkind]
    rfl
  obtain ⟨t, ht, houtline, hstate⟩ := exists_getElem?_run_start hsource hplace htrigger ticks
  replace hstate : t.state = (SegmentKind.oneShot range trigger).advanceAll frametime decisions
      ⟨range.first, false, 0, false, 0⟩ := by
    rw [hstate, hkind, hinitial]
  refine ⟨t, ht, houtline, ?_, ?_⟩
  · intro hnever
    rw [hstate, hinitial, SegmentKind.advanceAll_waiting hnever]
  · intro before later hdecisions hbefore
    have hspent : t.state = .spent range frametime (later.length + 1) := by
      rw [hstate, hdecisions, SegmentKind.advanceAll_oneShot hframetime hreach trigger hbefore]
    constructor
    · intro hlt
      rw [← Nat.div_lt_iff_lt_mul hframetime] at hlt
      exact hspent.trans (SegmentState.spent_of_lt hlt)
    · intro hle
      rw [← Nat.le_div_iff_mul_le hframetime] at hle
      exact hspent.trans (SegmentState.spent_of_le hle)

/-- A hit that is shown in two frames of two ticks each. -/
def hit : Segment := ⟨"hit", 10, some 2, .oneShot ⟨3, 4⟩ (.ofEvent "hit")⟩

/-- A target with a hit beside a fallback. -/
def targetMetadata : Metadata := ⟨.plain ⟨"game", "target"⟩ .block, [.fallback 9, hit]⟩

/-- Ticks in games in which the given events are active. -/
def stagedTicks (events : List (List String)) : List Tick :=
  events.map fun active => ⟨.standard, Stage.game ⟨active, [], [], [], [], 0, 0⟩, []⟩

/-- The second hit comes while the first is still shown, the third when that is over. Neither
makes a difference. -/
theorem oneShot_run_targetMetadata :
    (start targetMetadata).decisions 1 (stagedTicks [[], ["hit"], [], ["hit"], [], ["hit"]]) =
      [false, true, false, true, false, true] ∧
    ∃ t, ((start targetMetadata).run
        (stagedTicks [[], ["hit"], [], ["hit"], [], ["hit"]])).tracks[1]? = some t ∧
      t.state = ⟨4, false, 0, true, 0⟩ := by
  have hdecisions :
      (start targetMetadata).decisions 1 (stagedTicks [[], ["hit"], [], ["hit"], [], ["hit"]]) =
        [false, true, false, true, false, true] := by
    decide +kernel
  have hsource : targetMetadata.header.source ≠ .vanilla := nofun
  have hplace : targetMetadata.segments[1]? = some hit := rfl
  have hkind : hit.kind = .oneShot ⟨3, 4⟩ (.ofEvent "hit") := rfl
  have hreach : FrameRange.InReach ⟨3, 4⟩ 2 := ⟨by decide, by decide, by decide⟩
  obtain ⟨t, ht, -, -, hplayed⟩ :=
    oneShot_run hsource hplace hkind hreach (stagedTicks [[], ["hit"], [], ["hit"], [], ["hit"]])
  exact ⟨hdecisions, t, ht,
    (hplayed [false] [false, true, false, true] hdecisions (by decide)).2 (by decide)⟩

end Animation
end Flipbook
