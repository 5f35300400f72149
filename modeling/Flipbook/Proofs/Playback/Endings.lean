import Flipbook.Proofs.Playback.Timing

/-!
# How sequences end

The end of a play is settled when it begins to end: a number of ticks is left until the last
frame is over, and every tick takes one off. What comes then depends on whether the sequence
loops and whether it pauses, and no longer on the phase in which the trigger dropped.

* `SegmentState.gone`, `SegmentState.left`: the ticks that have gone by and those that are left.
* `SegmentKind.advanceAll_closing`, `SegmentKind.advanceAll_closed`: a sequence that plays to its
  end and will not start over.
* `SegmentKind.advanceAll_held`: a sequence that pauses.
* `Animation.unwanted_run`: how a sequence ends that is no longer wanted, in every run.
-/
namespace Flipbook

/-! ## Ticks that go by -/

namespace SegmentState

/-- The state when some ticks have gone by and none of them ended the last frame. -/
def gone (s : SegmentState) (frametime ticks : Nat) : SegmentState :=
  { s with
    frame := s.frame + (s.elapsed + ticks) / frametime
    elapsed := (s.elapsed + ticks) % frametime }

/-- The ticks until the last frame is over. -/
def left (s : SegmentState) (frametime last : Nat) : Nat :=
  (last + 1 - s.frame) * frametime - s.elapsed

/-- The state of a segment that has come to rest on its last frame. -/
def rested (s : SegmentState) (last : Nat) : SegmentState :=
  { s with frame := last, active := false, elapsed := 0 }

variable {s : SegmentState} {frametime last : Nat}

theorem elapsed_gone_lt (h : 0 < frametime) (ticks : Nat) :
    (s.gone frametime ticks).elapsed < frametime := Nat.mod_lt _ h

theorem gone_zero (h : s.elapsed < frametime) : s.gone frametime 0 = s := by
  rw [gone, Nat.add_zero, Nat.div_eq_of_lt h, Nat.mod_eq_of_lt h]
  rfl

/-- Ticks go by one after the other. -/
theorem gone_gone (s : SegmentState) (frametime ticks later : Nat) :
    (s.gone frametime ticks).gone frametime later = s.gone frametime (ticks + later) := by
  have hticks := Nat.mod_add_div (s.elapsed + ticks) frametime
  have helapsed : ((s.elapsed + ticks) % frametime + later) % frametime =
      (s.elapsed + (ticks + later)) % frametime := by
    rw [Nat.mod_add_mod, Nat.add_assoc]
  have hframe : (s.elapsed + ticks) / frametime +
      ((s.elapsed + ticks) % frametime + later) / frametime =
      (s.elapsed + (ticks + later)) / frametime := by
    by_cases h : 0 < frametime
    · have hsum : s.elapsed + (ticks + later) = (s.elapsed + ticks) % frametime + later +
          frametime * ((s.elapsed + ticks) / frametime) := by omega
      rw [hsum, Nat.add_mul_div_left _ _ h, Nat.add_comm]
    · rw [Nat.eq_zero_of_not_pos h]
      simp
  simp only [gone, helapsed, Nat.add_assoc, ← hframe]

/-- Every tick takes one off those that are left. -/
theorem left_gone (s : SegmentState) (frametime last ticks : Nat) :
    (s.gone frametime ticks).left frametime last = s.left frametime last - ticks := by
  have hticks := Nat.mod_add_div (s.elapsed + ticks) frametime
  show (last + 1 - (s.frame + (s.elapsed + ticks) / frametime)) * frametime -
    (s.elapsed + ticks) % frametime = (last + 1 - s.frame) * frametime - s.elapsed - ticks
  rw [← Nat.sub_sub, Nat.sub_mul, Nat.mul_comm (_ / frametime)]
  omega

/-- On a frame of the range some tick is left. -/
theorem left_pos (h : s.elapsed < frametime) (hlast : s.frame ≤ last) :
    0 < s.left frametime last := by
  have hone : 1 * frametime ≤ (last + 1 - s.frame) * frametime :=
    Nat.mul_le_mul_right _ (by omega)
  rw [left]
  omega

/-- Some frame of the range is left as long as some tick is. -/
theorem le_last_of_left_pos (h : 0 < s.left frametime last) : s.frame ≤ last := by
  refine Nat.not_lt.1 fun hlast => ?_
  have hzero : last + 1 - s.frame = 0 := by omega
  rw [left, hzero, Nat.zero_mul, Nat.zero_sub] at h
  exact Nat.lt_irrefl 0 h

section Counters

variable (hframetime : frametime < Decimal.frameBound) (hbound : last + 1 < Decimal.frameBound)
include hframetime hbound

/-- What a tick can do on a frame of the range: its time is not up, or the next frame follows, or
it was the last one. -/
theorem elapse_cases_of_le (hs : s.elapsed < frametime) (hlast : s.frame ≤ last)
    (past : SegmentState → SegmentState) :
    (s.elapsed + 1 < frametime ∧
      s.elapse frametime last past = { s with elapsed := s.elapsed + 1 }) ∨
    (s.elapsed + 1 = frametime ∧ s.frame < last ∧
      s.elapse frametime last past = { s with elapsed := 0, frame := s.frame + 1 }) ∨
    (s.elapsed + 1 = frametime ∧ s.frame = last ∧
      s.elapse frametime last past = past { s with elapsed := 0, frame := s.frame + 1 }) := by
  have helapsed : countOn s.elapsed = s.elapsed + 1 :=
    countOn_of_lt (Nat.lt_of_le_of_lt hs hframetime)
  have hframe : countOn s.frame = s.frame + 1 :=
    countOn_of_lt (Nat.lt_of_le_of_lt (Nat.succ_le_succ hlast) hbound)
  have hcases := s.elapse_cases frametime last past
  rw [helapsed, hframe] at hcases
  obtain ⟨htime, heq⟩ | ⟨htime, hnext, heq⟩ | ⟨htime, hover, heq⟩ := hcases
  · exact .inl ⟨htime, heq⟩
  · exact .inr (.inl ⟨Nat.le_antisymm hs htime, hnext, heq⟩)
  · have hends := Nat.le_antisymm hlast (Nat.lt_succ_iff.1 hover)
    exact .inr (.inr ⟨Nat.le_antisymm hs htime, hends, heq⟩)

/-- A tick goes by while another one is left. -/
theorem elapse_of_one_lt_left (hs : s.elapsed < frametime) (h : 1 < s.left frametime last)
    (past : SegmentState → SegmentState) : s.elapse frametime last past = s.gone frametime 1 := by
  have hlast : s.frame ≤ last := le_last_of_left_pos (Nat.zero_lt_of_lt h)
  obtain ⟨htime, heq⟩ | ⟨rfl, -, heq⟩ | ⟨htime, rfl, -⟩ :=
    elapse_cases_of_le hframetime hbound hs hlast past
  · rw [heq, gone, Nat.div_eq_of_lt htime, Nat.mod_eq_of_lt htime]
    rfl
  · rw [heq, gone, Nat.div_self (Nat.succ_pos _), Nat.mod_self]
  · rw [left, Nat.add_sub_cancel_left, Nat.one_mul] at h
    omega

/-- The tick that is left alone ends the last frame. -/
theorem elapse_of_left_eq_one (hs : s.elapsed < frametime) (h : s.left frametime last = 1)
    (past : SegmentState → SegmentState) :
    s.elapse frametime last past = past { s with elapsed := 0, frame := s.frame + 1 } := by
  have hlast : s.frame ≤ last := le_last_of_left_pos (h ▸ Nat.one_pos)
  have hpos : 1 * frametime ≤ (last + 1 - s.frame) * frametime :=
    Nat.mul_le_mul_right _ (by omega)
  rw [left] at h
  obtain ⟨htime, -⟩ | ⟨-, hlt, -⟩ | ⟨-, -, heq⟩ :=
    elapse_cases_of_le hframetime hbound hs hlast past
  · omega
  · have htwo : 2 * frametime ≤ (last + 1 - s.frame) * frametime :=
      Nat.mul_le_mul_right _ (by omega)
    omega
  · exact heq

/-- On the last frame time goes round if the segment stays there and is active. -/
theorem elapse_last (hs : s.elapsed < frametime) (hactive : s.active = true)
    {past : SegmentState → SegmentState}
    (hpast : ∀ s, past s = { s with frame := last, active := true }) (hframe : s.frame = last) :
    s.elapse frametime last past = { s with elapsed := (s.elapsed + 1) % frametime } := by
  obtain ⟨htime, heq⟩ | ⟨-, hlt, -⟩ | ⟨htime, -, heq⟩ :=
    elapse_cases_of_le hframetime hbound hs (Nat.le_of_eq hframe) past
  · rw [heq, Nat.mod_eq_of_lt htime]
  · exact absurd hlt (Nat.not_lt.2 (Nat.le_of_eq hframe.symm))
  · rw [heq, hpast, htime, Nat.mod_self, ← hactive, ← hframe]

end Counters

end SegmentState

/-! ## Steps that end a play -/

namespace SegmentKind

open SegmentState (left_gone elapsed_gone_lt)

variable {range : FrameRange} {frametime : Nat} {s : SegmentState} (looping : Bool)
  (trigger : Trigger)

/-- An active sequence that does not pause plays on and will not start over in two cases: it
loops and is not wanted, or it does not loop and is wanted. -/
theorem advance_closing (hs : s.active = true) :
    (sequence range looping false trigger).advance frametime (!looping) s =
      s.elapse frametime range.last fun s => { s with frame := range.last, active := false } := by
  have hturn : turnSequence range looping false (!looping) s = s := by
    cases looping <;> simp [turnSequence, hs]
  have hpast : pastSequence range looping false (!looping) =
      fun s => { s with frame := range.last, active := false } := by
    cases looping <;> rfl
  rw [advance, advanceSequence_eq, hturn, if_pos hs, hpast]

/-- A sequence that neither loops nor pauses stops when it is no longer wanted. -/
theorem advanceAll_stopped (hs : s.active = true) {ticks : Nat} (hticks : 0 < ticks) :
    (sequence range false false trigger).advanceAll frametime (List.replicate ticks false) s =
      { s with active := false } := by
  obtain ⟨later, rfl⟩ := Nat.exists_eq_add_one.2 hticks
  have hstop : (sequence range false false trigger).advance frametime false s =
      { s with active := false } := by
    simp [advance, advanceSequence_eq, turnSequence, hs]
  rw [List.replicate_succ, advanceAll_cons, hstop, advanceAll_idle _ frametime rfl (by simp)]

/-- A sequence that pauses stays active after its last frame unless it starts over. -/
theorem pastSequence_pausing (range : FrameRange) {looping wanted : Bool}
    (h : (looping && wanted) = false) (s : SegmentState) :
    pastSequence range looping true wanted s = { s with frame := range.last, active := true } := by
  rw [pastSequence, h]
  rfl

section Counters

variable (hreach : range.InReach frametime)
include hreach

/-- Such a sequence goes on as long as a tick is left. -/
theorem advanceAll_closing (h : s.elapsed < frametime) (hs : s.active = true) {ticks : Nat}
    (hticks : ticks < s.left frametime range.last) :
    (sequence range looping false trigger).advanceAll frametime (List.replicate ticks !looping) s =
      s.gone frametime ticks := by
  induction ticks with
  | zero => exact (SegmentState.gone_zero h).symm
  | succ ticks ih =>
    have hactive : (s.gone frametime ticks).active = true := hs
    have hleft : 1 < (s.gone frametime ticks).left frametime range.last := by
      rw [left_gone]
      omega
    rw [advanceAll_replicate_succ, ih (Nat.lt_of_succ_lt hticks),
      advance_closing looping trigger hactive,
      SegmentState.elapse_of_one_lt_left hreach.frametime_lt hreach.last_lt
        (elapsed_gone_lt (Nat.zero_lt_of_lt h) ticks) hleft,
      SegmentState.gone_gone]

/-- When no tick is left, such a sequence rests. -/
theorem advanceAll_closed (h : s.elapsed < frametime) (hs : s.active = true)
    (hlast : s.frame ≤ range.last) :
    (sequence range looping false trigger).advanceAll frametime
        (List.replicate (s.left frametime range.last) !looping) s = s.rested range.last := by
  obtain ⟨ticks, hticks⟩ : ∃ ticks, s.left frametime range.last = ticks + 1 :=
    Nat.exists_eq_add_one.2 (SegmentState.left_pos h hlast)
  have hactive : (s.gone frametime ticks).active = true := hs
  have hleft : (s.gone frametime ticks).left frametime range.last = 1 := by
    rw [left_gone]
    omega
  have hlt : ticks < s.left frametime range.last := by omega
  rw [hticks, advanceAll_replicate_succ, advanceAll_closing looping trigger hreach h hs hlt,
    advance_closing looping trigger hactive,
    SegmentState.elapse_of_left_eq_one hreach.frametime_lt hreach.last_lt
      (elapsed_gone_lt (Nat.zero_lt_of_lt h) ticks) hleft]
  rfl

/-- A looping sequence that is no longer wanted plays to its end and rests there. -/
theorem advanceAll_released (h : s.elapsed < frametime) (hs : s.active = true)
    (hlast : s.frame ≤ range.last) {ticks : Nat} (hticks : s.left frametime range.last ≤ ticks) :
    (sequence range true false trigger).advanceAll frametime (List.replicate ticks false) s =
      s.rested range.last := by
  obtain ⟨later, rfl⟩ := Nat.exists_eq_add_of_le hticks
  have hclosed : (sequence range true false trigger).advanceAll frametime
      (List.replicate (s.left frametime range.last) false) s = s.rested range.last :=
    advanceAll_closed true trigger hreach h hs hlast
  rw [← List.replicate_append_replicate, advanceAll_append, hclosed,
    advanceAll_idle _ frametime rfl (by simp)]

/-- A sequence that pauses goes to its last frame when it is no longer wanted, and time goes
by. -/
theorem advance_held (h : s.elapsed < frametime) (hs : s.active = true) :
    (sequence range looping true trigger).advance frametime false s =
      { s with frame := range.last, elapsed := (s.elapsed + 1) % frametime } := by
  have hturn : turnSequence range looping true false s = { s with frame := range.last } := by
    simp [turnSequence, hs]
  rw [advance, advanceSequence_eq, hturn, if_pos hs]
  exact SegmentState.elapse_last (s := { s with frame := range.last }) hreach.frametime_lt
    hreach.last_lt h hs (pastSequence_pausing range (Bool.and_false looping)) rfl

theorem advanceAll_held (h : s.elapsed < frametime) (hs : s.active = true) {ticks : Nat}
    (hticks : 0 < ticks) :
    (sequence range looping true trigger).advanceAll frametime (List.replicate ticks false) s =
      { s with frame := range.last, elapsed := (s.elapsed + ticks) % frametime } := by
  obtain ⟨later, rfl⟩ := Nat.exists_eq_add_one.2 hticks
  induction later with
  | zero => exact advance_held looping trigger hreach h hs
  | succ later ih =>
    have helapsed : (s.elapsed + (later + 1)) % frametime < frametime :=
      Nat.mod_lt _ (Nat.zero_lt_of_lt h)
    rw [advanceAll_replicate_succ, ih (Nat.succ_pos _),
      advance_held looping trigger hreach (s := { s with
        frame := range.last, elapsed := (s.elapsed + (later + 1)) % frametime }) helapsed hs,
      Nat.mod_add_mod, Nat.add_assoc]

end Counters

end SegmentKind

/-! ## Runs -/

namespace Animation

/-- How a sequence ends that is active and not wanted any more, in every run from then on. Let
it loop and not pause: as long as one of the ticks is left that take it through its last frame
it plays on, and then it rests inactive on its last frame. Let it neither loop nor pause: it is
inactive at once and stays as it was otherwise. Let it pause: it is on its last frame at once
and stays active. It starts over in none of the cases. The counters have to reach its frames and
their time. -/
theorem unwanted_run {a : Animation} (hsource : a.header.source ≠ .vanilla) {place : Nat}
    {segment : Segment} {state : SegmentState} (hplace : a.tracks[place]? = some ⟨segment, state⟩)
    {range : FrameRange} {looping pauses : Bool} {trigger : Trigger}
    (hkind : segment.kind = .sequence range looping pauses trigger)
    (hreach : range.InReach (segment.effectiveFrametime a.header.frametime))
    (hactive : state.active = true) (hframe : state.frame ≤ range.last)
    (helapsed : state.elapsed < segment.effectiveFrametime a.header.frametime) {n : Nat}
    {ticks : List Tick} (hdecisions : a.decisions place ticks = List.replicate n false) :
    let frametime := segment.effectiveFrametime a.header.frametime
    let left := (range.last + 1 - state.frame) * frametime - state.elapsed
    ∃ t, (a.run ticks).tracks[place]? = some t ∧ t.segment.outline = segment.outline ∧
      (looping = true → pauses = false →
        (n < left → t.state = ⟨state.frame + (state.elapsed + n) / frametime, true,
          (state.elapsed + n) % frametime, state.played, state.cycles⟩) ∧
        (left ≤ n → t.state = ⟨range.last, false, 0, state.played, state.cycles⟩)) ∧
      (looping = false → pauses = false → 0 < n →
        t.state = ⟨state.frame, false, state.elapsed, state.played, state.cycles⟩) ∧
      (pauses = true → 0 < n → t.state =
        ⟨range.last, true, (state.elapsed + n) % frametime, state.played, state.cycles⟩) := by
  intro frametime left
  have htrigger : segment.kind.trigger? = some trigger := by
    rw [hkind]
    rfl
  obtain ⟨t, ht, houtline, hstate⟩ := exists_getElem?_run hsource hplace htrigger ticks
  rw [hkind, hdecisions] at hstate
  refine ⟨t, ht, houtline, ?loops, ?stops, ?pauses⟩
  case loops =>
    rintro rfl rfl
    refine ⟨fun hn => ?_, fun hn => ?_⟩
    · rw [← hactive]
      exact hstate.trans (SegmentKind.advanceAll_closing true trigger hreach helapsed hactive hn)
    · exact hstate.trans
        (SegmentKind.advanceAll_released trigger hreach helapsed hactive hframe hn)
  case stops =>
    rintro rfl rfl hn
    exact hstate.trans (SegmentKind.advanceAll_stopped trigger hactive hn)
  case pauses =>
    rintro rfl hn
    rw [← hactive]
    exact hstate.trans (SegmentKind.advanceAll_held looping trigger hreach helapsed hactive hn)

/-- The sails of a mill: three frames of two ticks each, round and round in the wind. -/
def sails : Segment := ⟨"sails", 10, some 2, .sequence ⟨4, 6⟩ true false (.ofEvent "wind")⟩

/-- The vane of a mill, which swings round once and pauses. -/
def vane : Segment := ⟨"vane", 20, some 2, .sequence ⟨0, 9⟩ false true (.ofEvent "wind")⟩

/-- A mill in the wind: the sails are on the middle frame, the vane is on the first. -/
def mill : Animation where
  header := .plain ⟨"game", "mill"⟩ .block
  tracks := [⟨sails, ⟨5, true, 1, false, 3⟩⟩, ⟨vane, ⟨0, true, 1, false, 0⟩⟩]

/-- When the wind drops, the sails have three ticks left before they rest. The vane goes to its
last frame at once. -/
theorem unwanted_run_mill :
    ((∃ t, (mill.run (stagedTicks [[], []])).tracks[0]? = some t ∧
        t.state = ⟨6, true, 1, false, 3⟩) ∧
      ∃ t, (mill.run (stagedTicks [[], [], [], []])).tracks[0]? = some t ∧
        t.state = ⟨6, false, 0, false, 3⟩) ∧
    ∃ t, (mill.run (stagedTicks [[], []])).tracks[1]? = some t ∧
      t.state = ⟨9, true, 1, false, 0⟩ := by
  have hsource : mill.header.source ≠ .vanilla := nofun
  have hsails : mill.tracks[0]? = some ⟨sails, ⟨5, true, 1, false, 3⟩⟩ := rfl
  have hvane : mill.tracks[1]? = some ⟨vane, ⟨0, true, 1, false, 0⟩⟩ := rfl
  have hcalm : mill.decisions 0 (stagedTicks [[], []]) = List.replicate 2 false := by
    decide +kernel
  have hcalmer : mill.decisions 0 (stagedTicks [[], [], [], []]) = List.replicate 4 false := by
    decide +kernel
  have hcalm' : mill.decisions 1 (stagedTicks [[], []]) = List.replicate 2 false := by
    decide +kernel
  have hsailsReach : FrameRange.InReach ⟨4, 6⟩ 2 := ⟨by decide, by decide, by decide⟩
  have hvaneReach : FrameRange.InReach ⟨0, 9⟩ 2 := ⟨by decide, by decide, by decide⟩
  obtain ⟨t, ht, -, hplays, -, -⟩ :=
    unwanted_run hsource hsails rfl hsailsReach rfl (by decide) (by decide) hcalm
  obtain ⟨u, hu, -, hrests, -, -⟩ :=
    unwanted_run hsource hsails rfl hsailsReach rfl (by decide) (by decide) hcalmer
  obtain ⟨v, hv, -, -, -, hpauses⟩ :=
    unwanted_run hsource hvane rfl hvaneReach rfl (by decide) (by decide) hcalm'
  exact ⟨⟨⟨t, ht, (hplays rfl rfl).1 (by decide)⟩, u, hu, (hrests rfl rfl).2 (by decide)⟩,
    v, hv, hpauses rfl (by decide)⟩

end Animation
end Flipbook
