import Flipbook.Proofs.Playback.Endings

/-!
# Sequences that start again

A sequence starts when it is wanted and inactive. That is not the same as when it comes to be
wanted. One that does not loop is inactive after its last frame, so that it starts again if it
is wanted all the time. One that pauses stays active for good, so that it never starts again.

* `SegmentState.replayed`, `SegmentKind.advanceAll_replayed`: a sequence that is wanted all the
  time, from a rest on.
* `Animation.replay_run`: when a sequence that does not loop stays on its last frame.
* `Animation.rising_restarts_iff`: when it starts again as it comes to be wanted.
-/
namespace Flipbook

namespace SegmentState

/-- A sequence that has been wanted for some ticks since it rested. -/
def replayed (s : SegmentState) (range : FrameRange) (frametime ticks : Nat) : SegmentState :=
  if ticks % (range.length * frametime) = 0 then s.rested range.last
  else (s.start range.first).gone frametime (ticks % (range.length * frametime))

variable {range : FrameRange} {frametime : Nat}

theorem left_start (s : SegmentState) (h : range.first ≤ range.last) (frametime : Nat) :
    (s.start range.first).left frametime range.last = range.length * frametime := by
  show (range.last + 1 - range.first) * frametime - 0 = (range.last - range.first + 1) * frametime
  rw [Nat.sub_zero, Nat.sub_add_comm h]

theorem frame_replayed (s : SegmentState) (range : FrameRange) (frametime ticks : Nat) :
    (s.replayed range frametime ticks).frame =
      if ticks % (range.length * frametime) = 0 then range.last
      else range.first + ticks % (range.length * frametime) / frametime := by
  unfold replayed
  split
  · rfl
  · show range.first + (0 + ticks % (range.length * frametime)) / frametime = _
    rw [Nat.zero_add]

/-- A sequence that is played over and over stays on its last frame only if no other frame is
ever seen between two ticks: there is no other one, or one that stays for the first tick of a
play only. -/
theorem forall_frame_replayed_iff (s : SegmentState) (h : range.first ≤ range.last)
    (hframetime : 0 < frametime) (n : Nat) :
    (∀ ticks ≤ n, (s.replayed range frametime ticks).frame = range.last) ↔
      n = 0 ∨ range.length = 1 ∨ range.length = 2 ∧ frametime = 1 := by
  have hlength : range.length + range.first = range.last + 1 := by
    rw [FrameRange.length]
    omega
  simp only [frame_replayed]
  constructor
  · intro hlast
    rcases Nat.eq_zero_or_pos n with hzero | hpos
    · exact .inl hzero
    -- the first tick of the next play tells
    have hfirst := hlast 1 hpos
    by_cases hround : range.length * frametime = 1
    · exact .inr (.inl (Nat.eq_one_of_mul_eq_one_right hround))
    · rw [Nat.one_mod_eq_one.2 hround, if_neg Nat.one_ne_zero] at hfirst
      by_cases hone : frametime = 1
      · rw [hone, Nat.div_one] at hfirst
        exact .inr (.inr ⟨by omega, hone⟩)
      · rw [Nat.div_eq_of_lt (by omega : 1 < frametime)] at hfirst
        exact .inr (.inl (by omega))
  · rintro (rfl | hone | ⟨htwo, rfl⟩) ticks hticks
    · rw [Nat.le_zero.1 hticks, Nat.zero_mod, if_pos rfl]
    · rw [hone, Nat.one_mul, Nat.div_eq_of_lt (Nat.mod_lt _ hframetime), Nat.add_zero]
      split
      · rfl
      · omega
    · rw [htwo]
      split
      · rfl
      · omega

end SegmentState

namespace SegmentKind

variable {range : FrameRange} {frametime : Nat} {s : SegmentState} (looping pauses : Bool)
  (trigger : Trigger)

/-- A sequence that is wanted while it is inactive starts in that very tick. -/
theorem advance_of_inactive (hs : s.active = false) :
    (sequence range looping pauses trigger).advance frametime true s =
      (sequence range looping pauses trigger).advance frametime true (s.start range.first) := by
  have hstart : turnSequence range looping pauses true s = s.start range.first := by
    simp [turnSequence, hs]
  have hstay : turnSequence range looping pauses true (s.start range.first) = s.start range.first :=
    rfl
  rw [advance, advance, advanceSequence_eq, advanceSequence_eq, hstart, hstay]

/-- A tick in which a sequence starts is the first of its play. -/
theorem advance_start (s : SegmentState) :
    (sequence range looping pauses trigger).advance frametime true (s.start range.first) =
      (s.start range.first).elapse frametime range.last (pastSequence range looping pauses true) :=
  rfl

/-- A sequence that is wanted for some ticks starts first if it is inactive. -/
theorem advanceAll_begun {ticks : Nat} (hticks : 0 < ticks) :
    (sequence range looping pauses trigger).advanceAll frametime (List.replicate ticks true) s =
      (sequence range looping pauses trigger).advanceAll frametime (List.replicate ticks true)
        (if s.active then s else s.start range.first) := by
  obtain ⟨later, rfl⟩ := Nat.exists_eq_add_one.2 hticks
  split
  · rfl
  · next hs =>
    rw [List.replicate_succ, advanceAll_cons, advanceAll_cons,
      advance_of_inactive looping pauses trigger (Bool.eq_false_iff.2 hs)]

section Rounds

variable (hreach : range.InReach frametime)
include hreach

/-- Played once from a rest, a sequence comes to rest again. -/
theorem advanceAll_round (hrange : range.first ≤ range.last) (hframetime : 0 < frametime) :
    (sequence range false false trigger).advanceAll frametime
      (List.replicate (range.length * frametime) true) (s.rested range.last) =
      s.rested range.last := by
  rw [advanceAll_begun false false trigger (Nat.mul_pos range.length_pos hframetime)]
  show (sequence range false false trigger).advanceAll frametime
    (List.replicate (range.length * frametime) true) (s.start range.first) = _
  rw [← s.left_start hrange]
  exact advanceAll_closed false trigger hreach hframetime rfl hrange

theorem advanceAll_rounds (hrange : range.first ≤ range.last) (hframetime : 0 < frametime)
    (rounds : Nat) :
    (sequence range false false trigger).advanceAll frametime
      (List.replicate (range.length * frametime * rounds) true) (s.rested range.last) =
      s.rested range.last := by
  induction rounds with
  | zero => rfl
  | succ rounds ih =>
    rw [Nat.mul_add_one, ← List.replicate_append_replicate, advanceAll_append, ih,
      advanceAll_round trigger hreach hrange hframetime]

/-- From a rest on, a sequence that is wanted all the time is played over and over. -/
theorem advanceAll_replayed (hrange : range.first ≤ range.last) (hframetime : 0 < frametime)
    (ticks : Nat) :
    (sequence range false false trigger).advanceAll frametime (List.replicate ticks true)
      (s.rested range.last) = s.replayed range frametime ticks := by
  have hpos : 0 < range.length * frametime := Nat.mul_pos range.length_pos hframetime
  have hrest : (sequence range false false trigger).advanceAll frametime
      (List.replicate (ticks % (range.length * frametime)) true) (s.rested range.last) =
      s.replayed range frametime ticks := by
    unfold SegmentState.replayed
    split
    · next hzero => rw [hzero, List.replicate_zero, advanceAll_nil]
    · next hsome =>
      rw [advanceAll_begun false false trigger (Nat.pos_of_ne_zero hsome)]
      refine advanceAll_closing false trigger hreach hframetime rfl ?_
      rw [← s.left_start hrange] at hpos ⊢
      exact Nat.mod_lt _ hpos
  conv => lhs; rw [← Nat.div_add_mod ticks (range.length * frametime)]
  rw [← List.replicate_append_replicate, advanceAll_append,
    advanceAll_rounds trigger hreach hrange hframetime, hrest]

/-- A sequence that is wanted all the time starts if it is inactive, goes on to the end of its
last frame, and is played over and over from then on. -/
theorem advanceAll_wanted (hrange : range.first ≤ range.last) (hframetime : 0 < frametime)
    (hs : s.active = true → s.frame ≤ range.last ∧ s.elapsed < frametime) (ticks : Nat) :
    let begun := if s.active then s else s.start range.first
    let left := begun.left frametime range.last
    (0 < ticks → ticks < left → (sequence range false false trigger).advanceAll frametime
      (List.replicate ticks true) s = begun.gone frametime ticks) ∧
    (left ≤ ticks → (sequence range false false trigger).advanceAll frametime
      (List.replicate ticks true) s = begun.replayed range frametime (ticks - left)) := by
  intro begun left
  have hactive : begun.active = true := by
    show (if s.active then s else s.start range.first).active = true
    split
    · assumption
    · rfl
  have hbegun : begun.frame ≤ range.last ∧ begun.elapsed < frametime := by
    show (if s.active then s else s.start range.first).frame ≤ _ ∧
      (if s.active then s else s.start range.first).elapsed < _
    split
    · next hs' => exact hs hs'
    · exact ⟨hrange, hframetime⟩
  have hleft : 0 < left := SegmentState.left_pos hbegun.2 hbegun.1
  constructor
  · intro hpos hlt
    rw [advanceAll_begun false false trigger hpos]
    exact advanceAll_closing false trigger hreach hbegun.2 hactive hlt
  · intro hle
    obtain ⟨later, rfl⟩ := Nat.exists_eq_add_of_le hle
    have hclosed : (sequence range false false trigger).advanceAll frametime
        (List.replicate left true) begun = begun.rested range.last :=
      advanceAll_closed false trigger hreach hbegun.2 hactive hbegun.1
    rw [← List.replicate_append_replicate, advanceAll_append,
      advanceAll_begun false false trigger hleft, hclosed,
      advanceAll_replayed trigger hreach hrange hframetime, Nat.add_sub_cancel_left]

/-- From its first rest on, a sequence that is wanted all the time stays on its last frame only
if it is not played again, or if no other frame is ever seen between two ticks. -/
theorem forall_frame_advanceAll_iff (hrange : range.first ≤ range.last) (hframetime : 0 < frametime)
    (hs : s.active = true → s.frame ≤ range.last ∧ s.elapsed < frametime) (n : Nat) :
    let left := (if s.active then s else s.start range.first).left frametime range.last
    (∀ ticks ≤ n, left ≤ ticks → ((sequence range false false trigger).advanceAll frametime
        (List.replicate ticks true) s).frame = range.last) ↔
      n ≤ left ∨ range.length = 1 ∨ range.length = 2 ∧ frametime = 1 := by
  intro left
  let begun := if s.active then s else s.start range.first
  have hreplayed {ticks : Nat} (hle : left ≤ ticks) :
      (sequence range false false trigger).advanceAll frametime (List.replicate ticks true) s =
        begun.replayed range frametime (ticks - left) :=
    (advanceAll_wanted trigger hreach hrange hframetime hs ticks).2 hle
  have hreplays := begun.forall_frame_replayed_iff hrange hframetime (n - left)
  rw [Nat.sub_eq_zero_iff_le] at hreplays
  rw [← hreplays]
  constructor
  · intro hlast more hmore
    by_cases hle : left ≤ n
    · have hframe := hlast (left + more) (by omega) (Nat.le_add_right left more)
      rwa [hreplayed (Nat.le_add_right left more), Nat.add_sub_cancel_left] at hframe
    · obtain rfl : more = 0 := by omega
      rw [SegmentState.frame_replayed, Nat.zero_mod, if_pos rfl]
  · intro hlast ticks hticks hle
    rw [hreplayed hle]
    exact hlast _ (Nat.sub_le_sub_right hticks left)

end Rounds

/-! ## Sequences that are wanted again -/

/-- A sequence that neither loops nor pauses is inactive when it is not wanted. -/
theorem active_advance_stopped (s : SegmentState) :
    ((sequence range false false trigger).advance frametime false s).active = false := by
  cases hs : s.active with
  | false => rw [advance_idle _ frametime hs, hs]
  | true =>
    have hstop : (sequence range false false trigger).advance frametime false s =
        { s with active := false } := advanceAll_stopped trigger hs Nat.one_pos
    rw [hstop]

/-- A sequence that pauses is active once it has been wanted. -/
theorem active_advance_pausing (wanted : Bool) (s : SegmentState) :
    ((sequence range looping true trigger).advance frametime wanted s).active =
      (s.active || wanted) := by
  have hturn : (turnSequence range looping true wanted s).active = (s.active || wanted) := by
    cases wanted <;> cases hs : s.active <;> simp [turnSequence, hs, SegmentState.start]
  rw [advance, advanceSequence_eq, ← hturn]
  split
  · next hactive =>
    obtain ⟨-, heq⟩ | ⟨-, -, heq⟩ | ⟨-, -, heq⟩ :=
      (turnSequence range looping true wanted s).elapse_cases frametime range.last
        (pastSequence range looping true wanted)
    · rw [heq]
    · rw [heq]
    · rw [heq, pastSequence]
      split
      · rfl
      · exact hactive.symm
  · rfl

theorem active_advanceAll_pausing (decisions : List Bool) (s : SegmentState) :
    ((sequence range looping true trigger).advanceAll frametime decisions s).active = true ↔
      s.active = true ∨ true ∈ decisions := by
  induction decisions generalizing s with
  | nil => simp
  | cons wanted decisions ih =>
    rw [advanceAll_cons, ih, active_advance_pausing, Bool.or_eq_true, List.mem_cons, or_assoc,
      eq_comm (a := true)]

/-- The ticks that a sequence has spent on its frame stay below the time of a frame, whatever
its range. -/
theorem elapsed_advance_lt (h : s.elapsed < frametime) (wanted : Bool) :
    ((sequence range looping pauses trigger).advance frametime wanted s).elapsed < frametime := by
  have hzero : 0 < frametime := Nat.zero_lt_of_lt h
  have hturn : (turnSequence range looping pauses wanted s).elapsed < frametime := by
    unfold turnSequence
    split
    · exact hzero
    · split
      · split
        · exact h
        · split <;> exact h
      · exact h
  rw [advance, advanceSequence_eq]
  split
  · obtain ⟨htime, heq⟩ | ⟨-, -, heq⟩ | ⟨-, -, heq⟩ :=
      (turnSequence range looping pauses wanted s).elapse_cases frametime range.last
        (pastSequence range looping pauses wanted)
    · rwa [heq]
    · rwa [heq]
    · rw [heq, pastSequence]
      split <;> exact hzero
  · exact hturn

theorem elapsed_advanceAll_lt (h : s.elapsed < frametime) (decisions : List Bool) :
    ((sequence range looping pauses trigger).advanceAll frametime decisions s).elapsed <
      frametime := by
  induction decisions generalizing s with
  | nil => exact h
  | cons wanted decisions ih => exact ih (elapsed_advance_lt looping pauses trigger h wanted)

/-- When it is no longer wanted, a sequence that does not loop is inactive if it does not pause or
has never been wanted. -/
theorem active_advanceAll_fallen (hs : s.active = false) {before : List Bool}
    (h : pauses = false ∨ true ∉ before) :
    ((sequence range false pauses trigger).advanceAll frametime (before ++ [false]) s).active =
      false := by
  rcases h with rfl | hnever
  · rw [advanceAll_append]
    exact active_advance_stopped trigger _
  · rw [advanceAll_idle _ frametime hs (by simpa using hnever), hs]

section Counters

variable (hreach : range.InReach frametime)
include hreach

/-- When it is no longer wanted, a sequence that pauses and has been wanted is active and on its
last frame. -/
theorem advanceAll_fallen (h : s.elapsed < frametime) {before : List Bool}
    (hbefore : true ∈ before) :
    ((sequence range looping true trigger).advanceAll frametime (before ++ [false]) s).active =
      true ∧
    ((sequence range looping true trigger).advanceAll frametime (before ++ [false]) s).frame =
      range.last := by
  have hactive : ((sequence range looping true trigger).advanceAll frametime before s).active =
      true := (active_advanceAll_pausing looping trigger before s).2 (.inr hbefore)
  have helapsed : ((sequence range looping true trigger).advanceAll frametime before s).elapsed <
      frametime := elapsed_advanceAll_lt looping true trigger h before
  rw [advanceAll_append, advanceAll_cons, advanceAll_nil,
    advance_held looping trigger hreach helapsed hactive]
  exact ⟨hactive, rfl⟩

/-- On its last frame a sequence that pauses and does not loop stays where it is while it is
wanted. -/
theorem advance_paused (h : s.elapsed < frametime) (hs : s.active = true)
    (hframe : s.frame = range.last) :
    (sequence range false true trigger).advance frametime true s =
      { s with elapsed := (s.elapsed + 1) % frametime } := by
  have hturn : turnSequence range false true true s = s := by
    simp [turnSequence, hs]
  rw [advance, advanceSequence_eq, hturn, if_pos hs]
  exact SegmentState.elapse_last hreach.frametime_lt hreach.last_lt h hs
    (pastSequence_pausing range rfl) hframe

/-- To stay there is the same as to start again only if one cannot tell: the only frame has not
been spent a tick on, or the first tick of a play leads to the last frame anyway. -/
theorem advance_paused_eq_iff (h : s.elapsed < frametime) (hs : s.active = true)
    (hframe : s.frame = range.last) :
    (sequence range false true trigger).advance frametime true s =
        (sequence range false true trigger).advance frametime true (s.start range.first) ↔
      range.first = range.last ∧ s.elapsed = 0 ∨ frametime = 1 ∧ range.last ≤ range.first + 1 := by
  rw [advance_paused trigger hreach h hs hframe, advance_start]
  obtain ⟨frame, active, elapsed, played, cycles⟩ := s
  obtain rfl : active = true := hs
  obtain rfl : frame = range.last := hframe
  dsimp only [SegmentState.start] at h ⊢
  have hsecond : SegmentState.countOn range.first = range.first + 1 :=
    SegmentState.countOn_of_lt hreach.first_lt
  have hone : SegmentState.countOn 0 = 1 := rfl
  have hcases := SegmentState.elapse_cases ⟨range.first, true, 0, played, cycles⟩ frametime
    range.last (pastSequence range false true true)
  dsimp only at hcases
  rw [hsecond, hone] at hcases
  obtain ⟨htime, heq⟩ | ⟨htime, hlt, heq⟩ | ⟨htime, hle, heq⟩ := hcases
  · -- the first frame stays
    have hround : (elapsed + 1) % frametime = 1 ↔ elapsed = 0 := by
      rcases Nat.lt_or_ge (elapsed + 1) frametime with hlt | hge
      · rw [Nat.mod_eq_of_lt hlt]
        omega
      · have hend : elapsed + 1 = frametime := Nat.le_antisymm h hge
        rw [hend, Nat.mod_self]
        omega
    rw [heq]
    simp only [SegmentState.mk.injEq, hround, true_and, and_true]
    omega
  · -- the second frame follows
    obtain rfl : frametime = 1 := by omega
    rw [heq]
    simp only [SegmentState.mk.injEq, Nat.mod_one, true_and, and_true]
    omega
  · -- the first frame was the last
    obtain rfl : frametime = 1 := by omega
    rw [heq, pastSequence_pausing range rfl, Nat.mod_one]
    exact iff_of_true rfl (.inr ⟨rfl, Nat.le_of_lt hle⟩)

end Counters

end SegmentKind

/-! ## Runs -/

namespace Animation

/-- A sequence that neither loops nor pauses, in a run in which every tick wants it, as is the
case when it has neither event nor condition. It goes on to the end of its last frame, rests
there, and is played over and over from then on: in the tick after its rest it is on its first
frame again. So it stays on its last frame exactly when the run ends with the rest, or when no
other frame is seen between two ticks of a play. The counters have to reach its frames and their
time. -/
theorem replay_run {a : Animation} (hsource : a.header.source ≠ .vanilla) {place : Nat}
    {segment : Segment} {state : SegmentState} (hplace : a.tracks[place]? = some ⟨segment, state⟩)
    {range : FrameRange} {trigger : Trigger}
    (hkind : segment.kind = .sequence range false false trigger)
    (hrange : range.first ≤ range.last)
    (hreach : range.InReach (segment.effectiveFrametime a.header.frametime))
    (hstate : state.active = true → state.frame ≤ range.last ∧
      state.elapsed < segment.effectiveFrametime a.header.frametime) {ticks : List Tick}
    (hwanted : trigger.isNone = true ∨ ∀ wanted ∈ a.decisions place ticks, wanted = true) :
    let frametime := segment.effectiveFrametime a.header.frametime
    let begun := if state.active then state else state.start range.first
    let left := (range.last + 1 - begun.frame) * frametime - begun.elapsed
    let n := (a.decisions place ticks).length
    ∃ t, (a.run ticks).tracks[place]? = some t ∧ t.segment.outline = segment.outline ∧
      (0 < n → n < left → t.state = begun.gone frametime n) ∧
      (left ≤ n → t.state = begun.replayed range frametime (n - left)) ∧
      ((∀ earlier later, ticks = earlier ++ later → left ≤ (a.decisions place earlier).length →
          ∀ t, (a.run earlier).tracks[place]? = some t → t.state.frame = range.last) ↔
        n ≤ left ∨ range.length = 1 ∨ range.length = 2 ∧ frametime = 1) := by
  intro frametime begun left n
  have hframetime : 0 < frametime := segment.effectiveFrametime_pos _
  have htrigger : segment.kind.trigger? = some trigger := by
    rw [hkind]
    rfl
  have hall : ∀ wanted ∈ a.decisions place ticks, wanted = true := by
    rcases hwanted with hnone | hall
    · intro wanted hmem
      rw [eq_standing_of_mem_decisions hsource hplace htrigger hnone ticks wanted hmem]
      show segment.kind.standing = true
      rw [hkind]
      rfl
    · exact hall
  -- what holds of the run holds of each run that it begins with
  have hafter {earlier later : List Tick} (hticks : ticks = earlier ++ later) :
      ∃ t, (a.run earlier).tracks[place]? = some t ∧ t.segment.outline = segment.outline ∧
        t.state = (SegmentKind.sequence range false false trigger).advanceAll frametime
          (List.replicate (a.decisions place earlier).length true) state := by
    have hearlier : a.decisions place earlier =
        List.replicate (a.decisions place earlier).length true := by
      refine List.eq_replicate_of_mem fun wanted hmem => hall wanted ?_
      rw [hticks, decisions_append]
      exact List.mem_append_left _ hmem
    rw [← hearlier, ← hkind]
    exact exists_getElem?_run hsource hplace htrigger earlier
  obtain ⟨hgone, hreplayed⟩ :=
    SegmentKind.advanceAll_wanted trigger hreach hrange hframetime hstate n
  have hlast := SegmentKind.forall_frame_advanceAll_iff trigger hreach hrange hframetime hstate n
  obtain ⟨t, ht, houtline, heq⟩ := hafter (List.append_nil ticks).symm
  refine ⟨t, ht, houtline, ?_, ?_, ?_⟩
  · intro hpos hlt
    exact heq.trans (hgone hpos hlt)
  · intro hle
    exact heq.trans (hreplayed hle)
  · refine (forall_earlier_iff (fun hticks => ?_) (fun s => s.frame = range.last) left).trans hlast
    obtain ⟨t, ht, -, heq⟩ := hafter hticks
    exact ⟨t, ht, heq⟩

/-- A rise through four frames of a tick each, wanted all the time. -/
def rise : Segment := ⟨"rise", 10, none, .sequence ⟨0, 3⟩ false false .none⟩

/-- The rise alone. -/
def riseMetadata : Metadata := ⟨.plain ⟨"minecraft", "item/clock"⟩ .sectioned, [rise]⟩

/-- Four ticks take the rise to its last frame, and the fifth begins it anew. -/
theorem replay_run_rise :
    (∃ t, ((start riseMetadata).run (stagedTicks (List.replicate 5 []))).tracks[0]? = some t ∧
      t.state = ⟨1, true, 0, false, 0⟩) ∧
    ¬∀ earlier later, stagedTicks (List.replicate 5 []) = earlier ++ later →
      4 ≤ ((start riseMetadata).decisions 0 earlier).length →
      ∀ t, ((start riseMetadata).run earlier).tracks[0]? = some t → t.state.frame = 3 := by
  have hsource : (start riseMetadata).header.source ≠ .vanilla := nofun
  have hplace : (start riseMetadata).tracks[0]? = some ⟨rise, ⟨0, false, 0, false, 0⟩⟩ := rfl
  have hkind : rise.kind = .sequence ⟨0, 3⟩ false false .none := rfl
  have hwanted : Trigger.none.isNone = true ∨
      ∀ wanted ∈ (start riseMetadata).decisions 0 (stagedTicks (List.replicate 5 [])),
        wanted = true := .inl rfl
  have hlength :
      ((start riseMetadata).decisions 0 (stagedTicks (List.replicate 5 []))).length = 5 := by
    decide +kernel
  have hreach : FrameRange.InReach ⟨0, 3⟩ 1 := ⟨by decide, by decide, by decide⟩
  obtain ⟨t, ht, -, -, hreplayed, hstays⟩ :=
    replay_run hsource hplace hkind (by decide) hreach nofun hwanted
  rw [hlength] at hreplayed hstays
  exact ⟨⟨t, ht, hreplayed (by decide)⟩, mt hstays.1 (by decide)⟩

/-- So a sequence that does not loop does not stay on its last frame while it is wanted. -/
theorem not_forall_stays_on_last :
    ((start riseMetadata).run (stagedTicks (List.replicate 4 []))).states =
      [⟨3, false, 0, false, 0⟩] ∧
    ¬∀ (m : Metadata) (place : Nat) (segment : Segment) (range : FrameRange) (trigger : Trigger)
      (ticks later : List Tick), m.header.source ≠ .vanilla → m.segments[place]? = some segment →
      segment.kind = .sequence range false false trigger → range.Playable →
      (∀ wanted ∈ (start m).decisions place (ticks ++ later), wanted = true) →
      range.length * segment.effectiveFrametime m.header.frametime ≤
        ((start m).decisions place ticks).length →
      ∀ t, ((start m).run (ticks ++ later)).tracks[place]? = some t →
        t.state.frame = range.last := by
  refine ⟨by decide +kernel, fun hall => ?_⟩
  have hagain : ((start riseMetadata).run (stagedTicks (List.replicate 4 []) ++
      stagedTicks [[]])).tracks[0]?.map Track.state = some ⟨1, true, 0, false, 0⟩ := by
    decide +kernel
  obtain ⟨t, ht, hstate⟩ := Option.map_eq_some_iff.1 hagain
  have hframe := hall riseMetadata 0 rise ⟨0, 3⟩ .none (stagedTicks (List.replicate 4 []))
    (stagedTicks [[]]) nofun rfl rfl (by decide) (by decide +kernel) (by decide +kernel) t ht
  rw [hstate] at hframe
  cases hframe

/-! ## Rising edges -/

/-- A sequence that does not loop, in every run from its start, at a tick that wants it when the
last decision before was not to. One that does not pause starts again. One that pauses starts
when it has not been wanted before; from then on it is active for good, and the tick finds it on
its last frame and leaves it there. That is the same as to start again only if one cannot tell. The
counters have to reach its frames and their time. -/
theorem rising_restarts_iff {m : Metadata} (hsource : m.header.source ≠ .vanilla) {place : Nat}
    {segment : Segment} (hplace : m.segments[place]? = some segment) {range : FrameRange}
    {pauses : Bool} {trigger : Trigger}
    (hkind : segment.kind = .sequence range false pauses trigger)
    (hreach : range.InReach (segment.effectiveFrametime m.header.frametime)) {ticks : List Tick}
    {before : List Bool} (hbefore : (start m).decisions place ticks = before ++ [false])
    {tick : Tick} (hrise : ((start m).run ticks).decision? place tick = some true) :
    let frametime := segment.effectiveFrametime m.header.frametime
    ∃ t t', ((start m).run ticks).tracks[place]? = some t ∧
      ((start m).run (ticks ++ [tick])).tracks[place]? = some t' ∧
      t'.segment.outline = segment.outline ∧
      (t'.state = segment.kind.advance frametime true
          ⟨range.first, true, 0, t.state.played, t.state.cycles⟩ ↔
        pauses = false ∨ true ∉ before ∨ range.first = range.last ∧ t.state.elapsed = 0 ∨
          frametime = 1 ∧ range.last ≤ range.first + 1) ∧
      (pauses = true → true ∈ before → t.state.frame = range.last ∧
        t'.state = ⟨range.last, true, (t.state.elapsed + 1) % frametime, t.state.played,
          t.state.cycles⟩) := by
  intro frametime
  replace hreach : range.InReach frametime := hreach
  have hframetime : 0 < frametime := segment.effectiveFrametime_pos _
  have htrigger : segment.kind.trigger? = some trigger := by
    rw [hkind]
    rfl
  have hinitial : segment.initial = ⟨range.first, false, 0, false, 0⟩ := by
    rw [Segment.initial_of_trigger? htrigger, hkind]
    rfl
  let waiting : SegmentState := ⟨range.first, false, 0, false, 0⟩
  let s := (SegmentKind.sequence range false pauses trigger).advanceAll frametime
    (before ++ [false]) waiting
  obtain ⟨t, ht, -, hstate⟩ := exists_getElem?_run_start hsource hplace htrigger ticks
  obtain ⟨t', ht', houtline, hstate'⟩ :=
    exists_getElem?_run_start hsource hplace htrigger (ticks ++ [tick])
  replace hstate : t.state = s := by
    rw [hstate, hkind, hinitial, hbefore]
  replace hstate' :
      t'.state = (SegmentKind.sequence range false pauses trigger).advance frametime true s := by
    rw [hstate', hkind, hinitial, decisions_append, hbefore, decisions, hrise,
      SegmentKind.advanceAll_append]
    rfl
  have hwaiting : waiting.elapsed < frametime := hframetime
  have helapsed : s.elapsed < frametime :=
    SegmentKind.elapsed_advanceAll_lt false pauses trigger hwaiting _
  refine ⟨t, t', ht, ht', houtline, ?_⟩
  rw [hstate, hstate', hkind]
  by_cases hheld : pauses = true ∧ true ∈ before
  · obtain ⟨rfl, hwanted⟩ := hheld
    obtain ⟨hactive, hframe⟩ : s.active = true ∧ s.frame = range.last :=
      SegmentKind.advanceAll_fallen false trigger hreach hwaiting hwanted
    have hsame := SegmentKind.advance_paused_eq_iff trigger hreach helapsed hactive hframe
    refine ⟨hsame.trans ?_, fun _ _ => ⟨hframe, ?_⟩⟩
    · simp only [Bool.true_eq_false, hwanted, not_true_eq_false, false_or]
    · rw [SegmentKind.advance_paused trigger hreach helapsed hactive hframe, hactive, hframe]
  · have hstopped : pauses = false ∨ true ∉ before := by
      cases pauses with
      | false => exact .inl rfl
      | true => exact .inr fun hwanted => hheld ⟨rfl, hwanted⟩
    have hactive : s.active = false :=
      SegmentKind.active_advanceAll_fallen pauses trigger rfl hstopped
    refine ⟨iff_of_true ?_ (or_assoc.1 (.inl hstopped)), fun hpauses hwanted => ?_⟩
    · exact SegmentKind.advance_of_inactive false pauses trigger hactive
    · exact absurd ⟨hpauses, hwanted⟩ hheld

/-- A door that opens through four frames of a tick each and is held open. -/
def door : Segment := ⟨"door", 10, none, .sequence ⟨0, 3⟩ false true (.ofEvent "open")⟩

/-- The door alone. -/
def doorMetadata : Metadata := ⟨.plain ⟨"minecraft", "item/clock"⟩ .sectioned, [door]⟩

/-- A tick in which the door opens. -/
def opening : Tick := ⟨.standard, Stage.game ⟨["open"], [], [], [], [], 0, 0⟩, []⟩

/-- The door opens, is held, and is to open again. It is still held. -/
theorem rising_restarts_iff_door :
    ∃ t t', ((start doorMetadata).run (stagedTicks [["open"], []])).tracks[0]? = some t ∧
      ((start doorMetadata).run (stagedTicks [["open"], []] ++ [opening])).tracks[0]? = some t' ∧
      t'.state ≠ door.kind.advance 1 true ⟨0, true, 0, t.state.played, t.state.cycles⟩ ∧
      t.state.frame = 3 ∧ t'.state = ⟨3, true, 0, t.state.played, t.state.cycles⟩ := by
  have hsource : doorMetadata.header.source ≠ .vanilla := nofun
  have hplace : doorMetadata.segments[0]? = some door := rfl
  have hkind : door.kind = .sequence ⟨0, 3⟩ false true (.ofEvent "open") := rfl
  have hbefore : (start doorMetadata).decisions 0 (stagedTicks [["open"], []]) =
      [true] ++ [false] := by
    decide +kernel
  have hrise : ((start doorMetadata).run (stagedTicks [["open"], []])).decision? 0 opening =
      some true := by
    decide +kernel
  have hreach : FrameRange.InReach ⟨0, 3⟩ 1 := ⟨by decide, by decide, by decide⟩
  obtain ⟨t, t', ht, ht', -, hiff, hheld⟩ :=
    rising_restarts_iff hsource hplace hkind hreach hbefore hrise
  obtain ⟨hframe, hstate⟩ := hheld rfl (by decide)
  refine ⟨t, t', ht, ht', mt hiff.1 ?_, hframe, ?_⟩
  · rintro (h | h | ⟨h, -⟩ | ⟨-, h⟩)
    · cases h
    · exact h (by decide)
    · cases h
    · exact absurd h (by decide)
  · have hone : door.effectiveFrametime doorMetadata.header.frametime = 1 := rfl
    rw [hstate, hone, Nat.mod_one]

/-- So a sequence that does not loop does not start again whenever it comes to be wanted. -/
theorem not_forall_rising_restarts :
    ((start doorMetadata).run (stagedTicks [["open"], [], ["open"]])).states =
      [⟨3, true, 0, false, 0⟩] ∧
    ¬∀ (m : Metadata) (place : Nat) (segment : Segment) (range : FrameRange) (pauses : Bool)
      (trigger : Trigger) (ticks : List Tick) (before : List Bool) (tick : Tick),
      m.header.source ≠ .vanilla → m.segments[place]? = some segment →
      segment.kind = .sequence range false pauses trigger → range.Playable →
      (start m).decisions place ticks = before ++ [false] →
      ((start m).run ticks).decision? place tick = some true →
      ∀ t t', ((start m).run ticks).tracks[place]? = some t →
        ((start m).run (ticks ++ [tick])).tracks[place]? = some t' →
        t'.state = segment.kind.advance (segment.effectiveFrametime m.header.frametime) true
          ⟨range.first, true, 0, t.state.played, t.state.cycles⟩ := by
  refine ⟨by decide +kernel, fun hall => ?_⟩
  have hheld : ((start doorMetadata).run (stagedTicks [["open"], []])).tracks[0]?.map Track.state =
      some ⟨3, true, 0, false, 0⟩ := by
    decide +kernel
  have hagain : ((start doorMetadata).run
      (stagedTicks [["open"], []] ++ [opening])).tracks[0]?.map Track.state =
      some ⟨3, true, 0, false, 0⟩ := by
    decide +kernel
  obtain ⟨t, ht, hstate⟩ := Option.map_eq_some_iff.1 hheld
  obtain ⟨t', ht', hstate'⟩ := Option.map_eq_some_iff.1 hagain
  have hrestart := hall doorMetadata 0 door ⟨0, 3⟩ true (.ofEvent "open")
    (stagedTicks [["open"], []]) [true] opening nofun rfl rfl (by decide) (by decide +kernel)
    (by decide +kernel) t t' ht ht'
  rw [hstate, hstate'] at hrestart
  cases hrestart

end Animation
end Flipbook
