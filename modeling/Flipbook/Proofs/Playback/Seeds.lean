import Flipbook.Proofs.Expression.Evaluation
import Flipbook.Proofs.Game.Calm

/-!
# Random numbers do not matter to what draws none

What draws no random numbers plays in the same way whatever numbers it is given: to give it
others and then to play comes to the same as to play and then to give it others.

* `Expression.Condition.evaluate_seeded`, `Trigger.decide_seeded`: conditions and triggers.
* `Track.play_seeded`, `Animation.play_seeded`: tracks and animations.
* `Animation.neverDraws_play`: what draws no random numbers goes on to draw none.
-/
namespace Flipbook

variable {σ : Type} (random : Expression.Random)

/-! ## Conditions -/

namespace Expression

/-- Memories that differ in the random numbers, if at all, cannot be told apart by programs that
draw none. -/
theorem indistinct_seeded :
    Indistinct (· ≠ .random) fun m m' => m' = { m with random } where
  reported h := h ▸ rfl
  sawActive h := h ▸ rfl
  report h _ := h ▸ rfl
  see h _ _ := h ▸ rfl
  random hdraws := absurd rfl hdraws

namespace Condition

/-- Whether a condition draws no random numbers. -/
def NeverDraws (c : Condition) : Prop := ∀ program ∈ c.program, "random" ∉ program.called

instance (c : Condition) : Decidable c.NeverDraws :=
  inferInstanceAs (Decidable (∀ program ∈ c.program, _))

theorem neverDraws_seeded_iff {c : Condition} : (c.seeded random).NeverDraws ↔ c.NeverDraws := .rfl

theorem seeded_settle (c : Condition) (result : Bool) :
    (c.seeded random).settle result = (c.settle result).seeded random := by
  unfold settle
  show (if result == c.last then _ else _) = _
  split <;> rfl

/-- What becomes of a condition when two runs differ in the random numbers only. -/
theorem conclude_seeded (c : Condition) {x y : Except Halt Bool × Run σ} (hend : x.1 = y.1)
    (hgame : x.2.game = y.2.game) (hmemory : y.2.memory = { x.2.memory with random })
    (hnotices : x.2.notices = y.2.notices) :
    (c.seeded random).conclude y =
      { c.conclude x with condition := (c.conclude x).condition.seeded random } := by
  obtain ⟨outcome, run⟩ := x
  obtain ⟨outcome', game, memory, locals, notices⟩ := y
  dsimp only at hend hgame hmemory hnotices
  subst hend hgame hmemory hnotices
  cases outcome with
  | ok result =>
    simp only [conclude, ← seeded_settle]
    rfl
  | error halt =>
    cases halt with
    | crashed => rfl
    | failed e =>
      dsimp only [conclude]
      split <;> rfl

theorem evaluate_seeded {c : Condition} (h : c.NeverDraws) (scope : Scope) (game : Game σ) (s : σ) :
    (c.seeded random).evaluate scope game s =
      { c.evaluate scope game s with
        condition := (c.evaluate scope game s).condition.seeded random } := by
  cases hprogram : c.program with
  | none =>
    have hseeded : (c.seeded random).program = none := hprogram
    rw [evaluate_of_not_program hprogram, evaluate_of_not_program hseeded]
  | some program =>
    have hseeded : (c.seeded random).program = some program := hprogram
    obtain ⟨hend, ⟨⟨hgame, -⟩, hmemory, -, hnotices⟩, -⟩ :=
      ((game.agree_self s).parallel (H := fun _ => True) scope c.elapsed (indistinct_seeded random)
        (fun _ _ _ _ _ => trivial) fun _ => trivial).simulates_run program
        (within_of_notMem_name (h program hprogram)) ⟨s, c.memory, ∅, []⟩
        ⟨s, (c.seeded random).memory, ∅, []⟩ ⟨⟨rfl, .refl⟩, rfl, rfl, rfl⟩
    rw [evaluate_of_program hprogram, evaluate_of_program hseeded]
    exact conclude_seeded random c hend hgame hmemory hnotices

end Condition
end Expression

open Expression (Scope)

/-! ## Triggers -/

namespace Trigger

/-- The trigger with other random numbers in its condition. -/
def seeded (t : Trigger) (random : Expression.Random) : Trigger :=
  { t with condition := t.condition.map (·.seeded random) }

/-- Whether a trigger draws no random numbers. -/
def NeverDraws (t : Trigger) : Prop := ∀ c ∈ t.condition, c.NeverDraws

instance (t : Trigger) : Decidable t.NeverDraws :=
  inferInstanceAs (Decidable (∀ c ∈ t.condition, _))

theorem neverDraws_seeded_iff {t : Trigger} : (t.seeded random).NeverDraws ↔ t.NeverDraws := by
  simp only [NeverDraws, seeded, Option.mem_def, Option.map_eq_some_iff, forall_exists_index,
    and_imp, forall_apply_eq_imp_iff₂, Expression.Condition.neverDraws_seeded_iff]

theorem decide_seeded {t : Trigger} (h : t.NeverDraws) (scope : Scope) (standing : Bool)
    (game : Game σ) (s : σ) :
    (t.seeded random).decide scope standing game s =
      { t.decide scope standing game s with
        trigger := (t.decide scope standing game s).trigger.seeded random } := by
  obtain ⟨event, condition⟩ := t
  cases condition with
  | some c =>
    have hc : c.NeverDraws := h c rfl
    simp only [decide, seeded, Option.map_some, c.evaluate_seeded random hc]
  | none =>
    cases event <;> rfl

theorem neverDraws_decide {t : Trigger} (h : t.NeverDraws) (scope : Scope) (standing : Bool)
    (game : Game σ) (s : σ) : (t.decide scope standing game s).trigger.NeverDraws := by
  unfold decide
  split
  · next c hc =>
    intro d hd program hprogram
    obtain rfl := Option.some.inj hd
    rw [Expression.Condition.program_evaluate] at hprogram
    exact h c hc program hprogram
  · split
    · exact h
    · exact h

end Trigger

/-! ## Segments -/

namespace SegmentKind

/-- The kind with other random numbers in its condition. -/
def seeded (kind : SegmentKind) (random : Expression.Random) : SegmentKind :=
  kind.withTrigger ((kind.trigger?.getD .none).seeded random)

theorem trigger?_seeded (kind : SegmentKind) :
    (kind.seeded random).trigger? = kind.trigger?.map (·.seeded random) := by
  cases kind <;> rfl

theorem seeded_withTrigger (kind : SegmentKind) (trigger : Trigger) :
    (kind.withTrigger trigger).seeded random = kind.withTrigger (trigger.seeded random) := by
  cases kind <;> rfl

theorem withTrigger_seeded (kind : SegmentKind) (trigger : Trigger) :
    (kind.seeded random).withTrigger trigger = kind.withTrigger trigger :=
  withTrigger_withTrigger kind trigger

theorem standing_seeded (kind : SegmentKind) : (kind.seeded random).standing = kind.standing := by
  cases kind <;> rfl

theorem advance_seeded (kind : SegmentKind) : (kind.seeded random).advance = kind.advance := by
  cases kind <;> rfl

theorem activation?_seeded (kind : SegmentKind) :
    (kind.seeded random).activation? = kind.activation? := by
  cases kind <;> rfl

end SegmentKind

namespace Segment

/-- The segment with other random numbers in its condition. -/
def seeded (s : Segment) (random : Expression.Random) : Segment :=
  { s with kind := s.kind.seeded random }

theorem outline_seeded (s : Segment) : (s.seeded random).outline = s.outline := by
  simp only [outline, seeded, SegmentKind.withTrigger_seeded]

/-- Whether a segment draws no random numbers. -/
def NeverDraws (s : Segment) : Prop := ∀ trigger ∈ s.kind.trigger?, trigger.NeverDraws

instance (s : Segment) : Decidable s.NeverDraws :=
  inferInstanceAs (Decidable (∀ trigger ∈ s.kind.trigger?, _))

theorem neverDraws_seeded_iff {s : Segment} : (s.seeded random).NeverDraws ↔ s.NeverDraws := by
  simp only [NeverDraws, seeded, SegmentKind.trigger?_seeded, Option.mem_def,
    Option.map_eq_some_iff, forall_exists_index, and_imp, forall_apply_eq_imp_iff₂,
    Trigger.neverDraws_seeded_iff]

end Segment

/-! ## Tracks -/

/-- What was played in another shape. -/
def Played.map {τ υ : Type} (f : τ → υ) (p : Played σ τ) : Played σ υ := { p with now := f p.now }

namespace Track

/-- The track with other random numbers in its condition. -/
def seeded (t : Track) (random : Expression.Random) : Track :=
  { t with segment := t.segment.seeded random }

theorem playWanted_seeded (t : Track) {trigger : Trigger} (h : trigger.NeverDraws)
    (header : Header) (scope : Scope) (game : Game σ) (s : σ) :
    (t.seeded random).playWanted (trigger.seeded random) header scope game s =
      (t.playWanted trigger header scope game s).map (·.seeded random) := by
  have hdecide := trigger.decide_seeded random h (scope.forSegment t.state.frame t.state.cycles)
    t.segment.kind.standing game s
  simp only [playWanted, seeded, Segment.seeded, SegmentKind.standing_seeded, hdecide,
    SegmentKind.withTrigger_seeded, SegmentKind.advance_seeded, SegmentKind.activation?_seeded]
  split
  · simp only [Played.map, SegmentKind.seeded_withTrigger]
  · simp only [Played.map, SegmentKind.seeded_withTrigger]
    rfl

theorem any_outranks_seeded (priority : Int) (tracks : List Track) :
    (tracks.map (·.seeded random)).any (outranks priority) = tracks.any (outranks priority) := by
  rw [List.any_map]
  rfl

theorem play_seeded {t : Track} (h : t.segment.NeverDraws) (header : Header) (others : List Track)
    (scope : Scope) (game : Game σ) (s : σ) :
    (t.seeded random).play header (others.map (·.seeded random)) scope game s =
      (t.play header others scope game s).map (·.seeded random) := by
  have hseeded : (t.seeded random).segment.kind.trigger? =
      t.segment.kind.trigger?.map (·.seeded random) := SegmentKind.trigger?_seeded random _
  cases htrigger : t.segment.kind.trigger? with
  | some trigger =>
    rw [htrigger] at hseeded
    rw [play_of_trigger? htrigger, play_of_trigger? hseeded]
    exact playWanted_seeded random t (h trigger htrigger) header scope game s
  | none =>
    rw [htrigger] at hseeded
    rw [play_of_not_trigger? htrigger, play_of_not_trigger? hseeded, any_outranks_seeded]
    rfl

theorem neverDraws_become (t : Track) {trigger : Trigger} (h : trigger.NeverDraws)
    (state : SegmentState) : (t.become trigger state).segment.NeverDraws := by
  intro later hlater
  rw [become, SegmentKind.trigger?_withTrigger] at hlater
  obtain ⟨_, -, rfl⟩ := Option.map_eq_some_iff.1 hlater
  exact h

theorem neverDraws_play {t : Track} (h : t.segment.NeverDraws) (header : Header)
    (others : List Track) (scope : Scope) (game : Game σ) (s : σ) :
    (t.play header others scope game s).now.segment.NeverDraws := by
  obtain ⟨-, heq⟩ | ⟨trigger, done, htrigger, rfl, -, ⟨-, -, heq⟩ | ⟨wanted, -, -, heq⟩⟩ :=
    t.play_cases header others scope game s
  · rw [heq]
    exact h
  · rw [heq]
    exact t.neverDraws_become (Trigger.neverDraws_decide (h trigger htrigger) _ _ game s) _
  · rw [heq]
    exact t.neverDraws_become (Trigger.neverDraws_decide (h trigger htrigger) _ _ game s) _

theorem playAll_seeded {tracks : List Track} (h : ∀ t ∈ tracks, t.segment.NeverDraws)
    (header : Header) (scope : Scope) (game : Game σ) (before : List Track) (s : σ) :
    playAll header scope game (before.map (·.seeded random)) (tracks.map (·.seeded random)) s =
      (playAll header scope game before tracks s).map (List.map (·.seeded random)) := by
  induction tracks generalizing before s with
  | nil => rfl
  | cons t rest ih =>
    have hfirst := play_seeded random (h t List.mem_cons_self) header (before ++ rest) scope game s
    rw [List.map_append] at hfirst
    have hrest := ih (fun u hu => h u (List.mem_cons_of_mem _ hu))
      (before ++ [(t.play header (before ++ rest) scope game s).now])
      (t.play header (before ++ rest) scope game s).game
    rw [List.map_append] at hrest
    rw [List.map_cons, playAll_cons, playAll_cons]
    dsimp only
    rw [hfirst]
    generalize t.play header (before ++ rest) scope game s = first at hrest ⊢
    obtain ⟨now, later, notices, crashed⟩ := first
    cases crashed with
    | true => rfl
    | false =>
      simp only [Played.map, Bool.false_eq_true, if_false, List.map_cons, List.map_nil] at hrest ⊢
      rw [hrest]

theorem playVanilla_seeded (header : Header) (t : Track) :
    (t.seeded random).playVanilla header = (t.playVanilla header).seeded random := by
  obtain ⟨⟨name, priority, frametime, kind⟩, state⟩ := t
  cases kind <;> rfl

theorem leader?_seeded (tracks : List Track) :
    leader? (tracks.map (·.seeded random)) = (leader? tracks).map (·.seeded random) := by
  induction tracks with
  | nil => rfl
  | cons t rest ih =>
    rw [List.map_cons, leader?, leader?, ih]
    cases leader? rest with
    | none =>
      show (if t.state.active then _ else _) = _
      dsimp only
      split <;> rfl
    | some u =>
      show (if t.state.active && u.segment.priority ≤ t.segment.priority then _ else _) = _
      dsimp only
      split <;> rfl

end Track

/-! ## Animations -/

/-- Whether no segment of a description draws random numbers. -/
def Metadata.NeverDraws (m : Metadata) : Prop := ∀ segment ∈ m.segments, segment.NeverDraws

instance (m : Metadata) : Decidable m.NeverDraws :=
  inferInstanceAs (Decidable (∀ segment ∈ m.segments, _))

namespace Animation

/-- The animation with other random numbers in all its conditions. -/
def seeded (a : Animation) (random : Expression.Random) : Animation :=
  { a with tracks := a.tracks.map (·.seeded random) }

/-- Whether no track of an animation draws random numbers. -/
def NeverDraws (a : Animation) : Prop := ∀ t ∈ a.tracks, t.segment.NeverDraws

theorem neverDraws_start {m : Metadata} (h : m.NeverDraws) : (start m).NeverDraws := by
  intro t ht
  obtain ⟨segment, hsegment, rfl⟩ := List.mem_map.1 ht
  exact h segment hsegment

theorem neverDraws_seeded_iff {a : Animation} : (a.seeded random).NeverDraws ↔ a.NeverDraws := by
  simp only [NeverDraws, seeded, List.forall_mem_map]
  exact forall₂_congr fun t _ => Segment.neverDraws_seeded_iff random

variable (a : Animation)

theorem states_seeded : (a.seeded random).states = a.states := by
  simp only [states, seeded, List.map_map]
  rfl

theorem outlines_seeded : (a.seeded random).outlines = a.outlines := by
  simp only [outlines, seeded, List.map_map]
  exact List.map_congr_left fun t _ => t.segment.outline_seeded random

theorem currentFrame_seeded : (a.seeded random).currentFrame = a.currentFrame := by
  by_cases hsource : a.header.source = .vanilla
  · simp only [currentFrame, seeded, hsource, List.head?_map, Option.map_map]
    rfl
  · have hseeded : (a.seeded random).header.source ≠ .vanilla := hsource
    rw [currentFrame_of_ne_vanilla hsource, currentFrame_of_ne_vanilla hseeded]
    simp only [seeded, Track.leader?_seeded, Option.map_map]
    rfl

variable {a} (player : Player) (game : Game σ) (s : σ)

theorem play_seeded (h : a.NeverDraws) :
    (a.seeded random).play player game s = (a.play player game s).map (·.seeded random) := by
  have hscope : (a.seeded random).scope player = a.scope player :=
    scope_eq_of_perm (.of_eq (a.outlines_seeded random)) player
  by_cases hsource : a.header.source = .vanilla
  · obtain ⟨header, tracks⟩ := a
    dsimp only at hsource
    cases tracks with
    | nil =>
      simp only [play, seeded, hsource]
      rfl
    | cons t rest =>
      simp only [play, seeded, hsource, List.map_cons, Track.playVanilla_seeded]
      rfl
  · have hseeded : (a.seeded random).header.source ≠ .vanilla := hsource
    have hall := Track.playAll_seeded random h a.header (a.scope player) game [] s
    rw [play_of_ne_vanilla hsource, play_of_ne_vanilla hseeded, hscope]
    simp only [seeded, List.map_nil] at hall ⊢
    rw [hall]
    rfl

theorem neverDraws_play (h : a.NeverDraws) : (a.play player game s).now.NeverDraws := by
  have hvanilla (t : Track) (ht : t.segment.NeverDraws) :
      (t.playVanilla a.header).segment.NeverDraws := by
    rw [Track.segment_playVanilla]
    exact ht
  exact forall_play player game s
    (fun _ others scope s ht => Track.neverDraws_play ht a.header others scope game s) hvanilla h

end Animation
end Flipbook
