import Flipbook.Proofs.Playback.Consistency

/-!
# Runs of an animation

A run plays an animation in one tick after the other, each with a player and a game of its
own. A tick that breaks off decides about the segments before the one that it broke off
over, and about no other. What becomes of a segment with a trigger depends on the decisions
about it alone: neither the other segments nor the conditions of any of them matter.

* `Animation.Tick`, `Animation.run`: ticks and runs.
* `Animation.decisions`: what a run decides about the segment at a place.
* `SegmentKind.advanceAll`: the steps of a segment, given the decisions about it.
* `Animation.exists_getElem?_run`: a run takes a segment through the steps decided about it.
* `Animation.eq_standing_of_mem_decisions`: what has neither event nor condition is decided by
  its default.
-/
namespace Flipbook

open Expression (Scope)

/-! ## Steps of a segment -/

namespace SegmentKind

variable (kind : SegmentKind) (frametime : Nat)

/-- What a segment does in a tick has nothing to do with what its trigger remembers. -/
@[simp] theorem advance_withTrigger (trigger : Trigger) :
    (kind.withTrigger trigger).advance frametime = kind.advance frametime := by
  cases kind <;> rfl

theorem withTrigger_of_trigger? {kind : SegmentKind} {trigger : Trigger}
    (h : kind.trigger? = some trigger) : kind.withTrigger trigger = kind := by
  cases kind <;> cases h <;> rfl

/-- The state after some steps, in each of which the segment is wanted or not. -/
def advanceAll (decisions : List Bool) (s : SegmentState) : SegmentState :=
  decisions.foldl (fun s wanted => kind.advance frametime wanted s) s

@[simp] theorem advanceAll_nil (s : SegmentState) : kind.advanceAll frametime [] s = s := rfl

@[simp] theorem advanceAll_cons (wanted : Bool) (decisions : List Bool) (s : SegmentState) :
    kind.advanceAll frametime (wanted :: decisions) s =
      kind.advanceAll frametime decisions (kind.advance frametime wanted s) := rfl

theorem advanceAll_append (decisions later : List Bool) (s : SegmentState) :
    kind.advanceAll frametime (decisions ++ later) s =
      kind.advanceAll frametime later (kind.advanceAll frametime decisions s) :=
  List.foldl_append

/-- Of several steps alike the last one can be taken by itself. -/
theorem advanceAll_replicate_succ (steps : Nat) (wanted : Bool) (s : SegmentState) :
    kind.advanceAll frametime (List.replicate (steps + 1) wanted) s =
      kind.advance frametime wanted
        (kind.advanceAll frametime (List.replicate steps wanted) s) := by
  rw [List.replicate_succ', advanceAll_append, advanceAll_cons, advanceAll_nil]

@[simp] theorem advanceAll_withTrigger (trigger : Trigger) :
    (kind.withTrigger trigger).advanceAll frametime = kind.advanceAll frametime := by
  funext decisions s
  simp only [advanceAll, advance_withTrigger]

/-- What is neither active nor wanted stays as it is. -/
theorem advance_idle {s : SegmentState} (hs : s.active = false) :
    kind.advance frametime false s = s := by
  obtain ⟨frame, active, elapsed, played, cycles⟩ := s
  obtain rfl : active = false := hs
  cases kind <;> rfl

theorem advanceAll_idle {s : SegmentState} (hs : s.active = false)
    {decisions : List Bool} (h : true ∉ decisions) : kind.advanceAll frametime decisions s = s := by
  induction decisions with
  | nil => rfl
  | cons wanted decisions ih =>
    rw [List.mem_cons, not_or] at h
    cases wanted with
    | false => rw [advanceAll_cons, advance_idle kind frametime hs, ih h.2]
    | true => exact absurd rfl h.1

end SegmentKind

/-! ## One tick of several tracks -/

/-- A trigger without event and condition decides by the default of its segment. -/
theorem Trigger.decide_of_isNone {σ : Type} {t : Trigger} (h : t.isNone = true) (scope : Scope)
    (standing : Bool) (game : Game σ) (s : σ) :
    t.decide scope standing game s = ⟨some standing, t, s, []⟩ := by
  obtain ⟨event, condition⟩ := t
  obtain ⟨hevent, hcondition⟩ := Bool.and_eq_true_iff.1 h
  rw [Option.isNone_iff_eq_none] at hevent hcondition
  subst hevent hcondition
  rfl

namespace Track

variable {σ : Type}

theorem become_of_trigger? {t : Track} {trigger : Trigger}
    (h : t.segment.kind.trigger? = some trigger) : t.become trigger t.state = t := by
  rw [become, SegmentKind.withTrigger_of_trigger? h]

@[simp] theorem become_become (t : Track) (trigger later : Trigger) (state state' : SegmentState) :
    (t.become trigger state).become later state' = t.become later state' := by
  simp [become]

theorem trigger?_become {t : Track} {trigger later : Trigger} {state : SegmentState}
    (h : t.segment.kind.trigger? = some trigger) :
    (t.become later state).segment.kind.trigger? = some later := by
  rw [become, SegmentKind.trigger?_withTrigger, h]
  rfl

/-- Whether a tick of several tracks wants the one at a place; nothing if it has no trigger
or the tick breaks off before that is decided. -/
def decision? (header : Header) (scope : Scope) (game : Game σ) (before : List Track) :
    List Track → σ → Nat → Option Bool
  | [], _, _ => none
  | t :: _, s, 0 =>
    t.segment.kind.trigger?.bind fun trigger =>
      (trigger.decide (scope.forSegment t.state.frame t.state.cycles) t.segment.kind.standing
        game s).wanted
  | t :: rest, s, place + 1 =>
    let first := t.play header (before ++ rest) scope game s
    if first.crashed then none
    else decision? header scope game (before ++ [first.now]) rest first.game place

/-- A tick of several tracks takes a track with a trigger one step on, as it is decided, or
leaves its state alone. The induction is on the tracks up to its place. -/
theorem getElem?_playAll_trigger {header : Header} {scope : Scope} {game : Game σ}
    {before tracks : List Track} {s : σ} {place : Nat} {t : Track} {trigger : Trigger}
    (ht : tracks[place]? = some t) (htrigger : t.segment.kind.trigger? = some trigger) :
    ∃ later, (playAll header scope game before tracks s).now[place]? =
      some (t.become later
        (t.segment.kind.advanceAll (t.segment.effectiveFrametime header.frametime)
          (decision? header scope game before tracks s place).toList t.state)) := by
  induction tracks generalizing before s place with
  | nil => cases ht
  | cons u rest ih =>
    rw [playAll_cons]
    cases place with
    | zero =>
      obtain rfl : u = t := Option.some.inj ht
      obtain ⟨hnone, -⟩ | ⟨trigger', done, htrigger', hdone, -, hplay⟩ :=
        u.play_cases header (before ++ rest) scope game s
      · rw [hnone] at htrigger
        cases htrigger
      refine ⟨done.trigger, ?_⟩
      rw [decision?, htrigger', Option.bind_some, ← hdone]
      obtain ⟨hwanted, hcrashed, hnow⟩ | ⟨wanted, hwanted, hcrashed, hnow⟩ := hplay
      · rw [if_pos hcrashed, hwanted]
        exact congrArg some hnow
      · rw [if_neg (by simp [hcrashed]), hwanted]
        exact congrArg some hnow
    | succ place =>
      simp only [decision?]
      split
      · -- the tick broke off before: what is behind is as it was
        refine ⟨trigger, ?_⟩
        rw [Option.toList_none, SegmentKind.advanceAll_nil, become_of_trigger? htrigger]
        exact ht
      · exact ih ht

/-- A segment without event and condition is always decided by its default, and its trigger
does not change. -/
theorem now_play_of_isNone {t : Track} {trigger : Trigger}
    (htrigger : t.segment.kind.trigger? = some trigger) (hnone : trigger.isNone = true)
    (header : Header) (others : List Track) (scope : Scope) (game : Game σ) (s : σ) :
    (t.play header others scope game s).now =
      ⟨t.segment, t.segment.kind.advance (t.segment.effectiveFrametime header.frametime)
        t.segment.kind.standing t.state⟩ ∧
    (t.play header others scope game s).crashed = false := by
  rw [play_of_trigger? htrigger, playWanted, Trigger.decide_of_isNone hnone]
  dsimp only
  rw [SegmentKind.withTrigger_of_trigger? htrigger]
  exact ⟨rfl, rfl⟩

/-- A tick decides about a track without event and condition by its default, if at all, and
leaves its segment as it is. -/
theorem decision?_of_isNone {tracks : List Track} {place : Nat} {t : Track} {trigger : Trigger}
    (ht : tracks[place]? = some t) (htrigger : t.segment.kind.trigger? = some trigger)
    (hnone : trigger.isNone = true) (header : Header) (scope : Scope) (game : Game σ)
    (before : List Track) (s : σ) :
    (∀ wanted ∈ decision? header scope game before tracks s place,
      wanted = t.segment.kind.standing) ∧
    ∃ state, (playAll header scope game before tracks s).now[place]? = some ⟨t.segment, state⟩ := by
  induction tracks generalizing before s place with
  | nil => cases ht
  | cons u rest ih =>
    rw [playAll_cons]
    cases place with
    | zero =>
      obtain rfl : u = t := Option.some.inj ht
      obtain ⟨hnow, hcrashed⟩ :=
        now_play_of_isNone htrigger hnone header (before ++ rest) scope game s
      rw [decision?, htrigger, Option.bind_some, Trigger.decide_of_isNone hnone]
      dsimp only
      rw [if_neg (Bool.eq_false_iff.1 hcrashed), hnow]
      exact ⟨fun wanted h => (Option.some.inj h).symm, _, rfl⟩
    | succ place =>
      rw [decision?]
      dsimp only
      split
      · exact ⟨fun wanted h => absurd h (Option.not_mem_none wanted), t.state, ht⟩
      · exact ih ht _ _

end Track

/-! ## Runs -/

namespace Animation

/-- A tick: the player, and the game in the state that it is in. -/
structure Tick where
  {σ : Type}
  player : Player
  game : Game σ
  state : σ

/-- The animation after a tick, also when the tick breaks off. -/
def tick (a : Animation) (tick : Tick) : Animation :=
  (a.play tick.player tick.game tick.state).now

/-- The animation after one tick after the other. -/
def run (a : Animation) (ticks : List Tick) : Animation := ticks.foldl tick a

@[simp] theorem run_nil (a : Animation) : a.run [] = a := rfl

@[simp] theorem run_cons (a : Animation) (tick : Tick) (ticks : List Tick) :
    a.run (tick :: ticks) = (a.tick tick).run ticks := rfl

theorem run_append (a : Animation) (ticks later : List Tick) :
    a.run (ticks ++ later) = (a.run ticks).run later :=
  List.foldl_append

/-- Whether a tick wants the segment at a place; nothing if it decides nothing about it. -/
def decision? (a : Animation) (place : Nat) (tick : Tick) : Option Bool :=
  if a.header.source = .vanilla then none
  else Track.decision? a.header (a.scope tick.player) tick.game [] a.tracks tick.state place

/-- What the ticks of a run decide about the segment at a place. -/
def decisions (a : Animation) (place : Nat) : List Tick → List Bool
  | [] => []
  | tick :: ticks => (a.decision? place tick).toList ++ (a.tick tick).decisions place ticks

variable {a : Animation} {place : Nat} {t : Track} {trigger : Trigger}

@[simp] theorem header_tick (a : Animation) (tick : Tick) : (a.tick tick).header = a.header :=
  header_play _ _ _ a

/-- A tick takes a segment one step on if it decides about it. -/
theorem getElem?_tick (hsource : a.header.source ≠ .vanilla) (ht : a.tracks[place]? = some t)
    (htrigger : t.segment.kind.trigger? = some trigger) (tick : Tick) :
    ∃ later, (a.tick tick).tracks[place]? =
      some (t.become later
        (t.segment.kind.advanceAll (t.segment.effectiveFrametime a.header.frametime)
          (a.decision? place tick).toList t.state)) := by
  rw [Animation.tick, play_of_ne_vanilla hsource, decision?, if_neg hsource]
  exact Track.getElem?_playAll_trigger ht htrigger

/-- A run takes a segment with a trigger through the steps that are decided about it, and
changes nothing else of it but its trigger. -/
theorem getElem?_run (hsource : a.header.source ≠ .vanilla) (ht : a.tracks[place]? = some t)
    (htrigger : t.segment.kind.trigger? = some trigger) (ticks : List Tick) :
    ∃ later, (a.run ticks).tracks[place]? =
      some (t.become later
        (t.segment.kind.advanceAll (t.segment.effectiveFrametime a.header.frametime)
          (a.decisions place ticks) t.state)) := by
  induction ticks generalizing a t trigger with
  | nil =>
    refine ⟨trigger, ?_⟩
    rw [run_nil, decisions, SegmentKind.advanceAll_nil, Track.become_of_trigger? htrigger]
    exact ht
  | cons tick ticks ih =>
    obtain ⟨next, hnext⟩ := getElem?_tick hsource ht htrigger tick
    obtain ⟨later, hlater⟩ := ih (by rwa [header_tick]) hnext (Track.trigger?_become htrigger)
    refine ⟨later, ?_⟩
    rw [run_cons, hlater, decisions, SegmentKind.advanceAll_append, header_tick,
      Track.become_become]
    simp only [Track.become, SegmentKind.advanceAll_withTrigger]
    rfl

/-- After a run a segment is what it was but for its trigger, in the state that the steps lead
to. -/
theorem exists_getElem?_run (hsource : a.header.source ≠ .vanilla) {segment : Segment}
    {state : SegmentState} (hplace : a.tracks[place]? = some ⟨segment, state⟩)
    (htrigger : segment.kind.trigger? = some trigger) (ticks : List Tick) :
    ∃ t, (a.run ticks).tracks[place]? = some t ∧ t.segment.outline = segment.outline ∧
      t.state = segment.kind.advanceAll (segment.effectiveFrametime a.header.frametime)
        (a.decisions place ticks) state := by
  obtain ⟨later, hlater⟩ := getElem?_run hsource hplace htrigger ticks
  exact ⟨_, hlater, Track.outline_become _ _ _, rfl⟩

/-- From its start on the steps lead away from the initial state. -/
theorem exists_getElem?_run_start {m : Metadata} (hsource : m.header.source ≠ .vanilla)
    {segment : Segment} (hplace : m.segments[place]? = some segment)
    (htrigger : segment.kind.trigger? = some trigger) (ticks : List Tick) :
    ∃ t, ((start m).run ticks).tracks[place]? = some t ∧ t.segment.outline = segment.outline ∧
      t.state = segment.kind.advanceAll (segment.effectiveFrametime m.header.frametime)
        ((start m).decisions place ticks) segment.initial := by
  have htrack : (start m).tracks[place]? = some (Track.start segment) := by
    rw [start, List.getElem?_map, hplace]
    rfl
  exact exists_getElem?_run hsource htrack htrigger ticks

theorem decisions_append (a : Animation) (place : Nat) (ticks later : List Tick) :
    a.decisions place (ticks ++ later) =
      a.decisions place ticks ++ (a.run ticks).decisions place later := by
  induction ticks generalizing a with
  | nil => rfl
  | cons tick ticks ih =>
    rw [List.cons_append, decisions, decisions, ih, run_cons, List.append_assoc]

/-- The decisions of a run are made one at a time: each number of them is that of a shorter run. -/
theorem exists_decisions_length {ticks : List Tick} {n : Nat}
    (h : n ≤ (a.decisions place ticks).length) :
    ∃ earlier later, ticks = earlier ++ later ∧ (a.decisions place earlier).length = n := by
  induction ticks generalizing a n with
  | nil => exact ⟨[], [], rfl, (Nat.le_zero.1 h).symm⟩
  | cons tick ticks ih =>
    cases n with
    | zero => exact ⟨[], _, rfl, rfl⟩
    | succ n =>
      have hfirst : (a.decision? place tick).toList.length ≤ 1 := by
        cases a.decision? place tick <;> simp
      rw [decisions, List.length_append] at h
      obtain ⟨earlier, later, hticks, hlength⟩ :=
        ih (a := a.tick tick) (n := n + 1 - (a.decision? place tick).toList.length) (by omega)
      refine ⟨tick :: earlier, later, by rw [hticks, List.cons_append], ?_⟩
      rw [decisions, List.length_append, hlength]
      omega

/-- What is so after every run that a run begins with is so after every number of its
decisions, if the state depends on that number alone. -/
theorem forall_earlier_iff {ticks : List Tick} {states : Nat → SegmentState}
    (hstates : ∀ {earlier later}, ticks = earlier ++ later →
      ∃ t, (a.run earlier).tracks[place]? = some t ∧
        t.state = states (a.decisions place earlier).length)
    (P : SegmentState → Prop) (least : Nat) :
    (∀ earlier later, ticks = earlier ++ later → least ≤ (a.decisions place earlier).length →
        ∀ t, (a.run earlier).tracks[place]? = some t → P t.state) ↔
      ∀ n ≤ (a.decisions place ticks).length, least ≤ n → P (states n) := by
  constructor
  · intro h n hn hleast
    obtain ⟨earlier, later, hticks, rfl⟩ := exists_decisions_length hn
    obtain ⟨t, ht, hstate⟩ := hstates hticks
    rw [← hstate]
    exact h earlier later hticks hleast t ht
  · intro h earlier later hticks hleast u hu
    obtain ⟨t, ht, hstate⟩ := hstates hticks
    obtain rfl := Option.some.inj (ht.symm.trans hu)
    rw [hstate]
    refine h _ ?_ hleast
    rw [hticks, decisions_append, List.length_append]
    exact Nat.le_add_right _ _

/-- A segment without event and condition is always decided by its default. -/
theorem eq_standing_of_mem_decisions (hsource : a.header.source ≠ .vanilla)
    (ht : a.tracks[place]? = some t) (htrigger : t.segment.kind.trigger? = some trigger)
    (hnone : trigger.isNone = true) (ticks : List Tick) :
    ∀ wanted ∈ a.decisions place ticks, wanted = t.segment.kind.standing := by
  induction ticks generalizing a t with
  | nil => exact List.forall_mem_nil _
  | cons tick ticks ih =>
    obtain ⟨hfirst, state, hnext⟩ := Track.decision?_of_isNone ht htrigger hnone a.header
      (a.scope tick.player) tick.game [] tick.state
    rw [decisions, List.forall_mem_append, decision?, if_neg hsource]
    refine ⟨fun wanted h => hfirst wanted (Option.mem_toList.1 h), ?_⟩
    have htick : (a.tick tick).tracks[place]? = some ⟨t.segment, state⟩ := by
      rw [Animation.tick, play_of_ne_vanilla hsource]
      exact hnext
    exact ih (t := ⟨t.segment, state⟩) (by rwa [header_tick]) htick htrigger

end Animation
end Flipbook
