import Flipbook.Proofs.Playback.Selection
import Flipbook.Proofs.Playback.Timing
import Flipbook.Proofs.Registry.Ticks

/-!
# Sequences that play for ever

The sequence of the vanilla format is played in a way of its own, which asks nothing and
never ends. It comes to the same as the way of all other formats for a sequence without a
trigger, and `Registry.looping_run` says what either comes to after any number of ticks.

* `Track.playVanilla_looped`: a tick in the vanilla format.
* `Animation.tracks_run_looping`: a run of an animation with nothing but such a sequence.
* `Registry.exists_run`: what is done to a registry amounts to a run of each animation.
-/
namespace Flipbook

variable {range : FrameRange} {pauses : Bool} {trigger : Trigger} {segment : Segment}

/-! ## One tick -/

namespace Track

/-- In the vanilla format a tick takes a looping sequence one tick on. -/
theorem playVanilla_looped (hkind : segment.kind = .sequence range true pauses trigger)
    {header : Header} (hreach : range.InReach (segment.effectiveFrametime header.frametime))
    {state : SegmentState} {played : Bool} {cycles ticks : Nat}
    (hstate : { state with active := true } =
      .looped range (segment.effectiveFrametime header.frametime) played cycles ticks) :
    playVanilla header ⟨segment, state⟩ =
      ⟨segment, .looped range (segment.effectiveFrametime header.frametime) played cycles
        (ticks + 1)⟩ := by
  unfold playVanilla
  rw [hkind]
  simp only [if_true]
  rw [hstate, SegmentState.elapse_looped (segment.effectiveFrametime_pos _) hreach fun _ => rfl]

end Track

/-! ## Runs of one sequence -/

namespace Animation

/-- A tick of an animation with nothing but a looping sequence that has no trigger, in either
format: at the start, or some ticks later. -/
theorem tracks_tick_looping (hkind : segment.kind = .sequence range true pauses trigger)
    (hnone : trigger.isNone = true) {a : Animation}
    (hreach : range.InReach (segment.effectiveFrametime a.header.frametime))
    {state : SegmentState} {ticks : Nat}
    (htracks : a.tracks = [⟨segment, state⟩])
    (hstate : state = segment.initial ∧ ticks = 0 ∨
      state = .looped range (segment.effectiveFrametime a.header.frametime) false 0 ticks)
    (tick : Tick) :
    (a.tick tick).tracks =
      [⟨segment, .looped range (segment.effectiveFrametime a.header.frametime) false 0
        (ticks + 1)⟩] := by
  have hframetime := segment.effectiveFrametime_pos a.header.frametime
  have htrigger : segment.kind.trigger? = some trigger := by
    rw [hkind]
    rfl
  have hinitial : segment.initial = ⟨range.first, false, 0, false, 0⟩ := by
    rw [Segment.initial_of_trigger? htrigger, hkind]
    rfl
  have hcycles : 0 < Decimal.frameBound := Nat.zero_lt_of_lt hreach.last_lt
  by_cases hsource : a.header.source = .vanilla
  · have hplaying : { state with active := true } = SegmentState.looped range
        (segment.effectiveFrametime a.header.frametime) false 0 ticks := by
      obtain ⟨rfl, rfl⟩ | rfl := hstate
      · rw [hinitial, SegmentState.looped_zero hcycles]
      · rfl
    rw [Animation.tick, play, hsource]
    dsimp only
    rw [htracks]
    dsimp only
    rw [Track.playVanilla_looped hkind hreach hplaying]
  · have hplay := fun others scope => Track.now_play_of_isNone (t := ⟨segment, state⟩) htrigger
      hnone a.header others scope tick.game tick.state
    rw [Animation.tick, play_of_ne_vanilla hsource, htracks]
    simp only [Track.playAll, hplay, Bool.false_eq_true, if_false]
    rw [hkind, SegmentKind.advance, SegmentKind.standing]
    obtain ⟨rfl, rfl⟩ | rfl := hstate
    · rw [hinitial,
        SegmentKind.advanceSequence_of_inactive hframetime hreach pauses rfl hcycles]
    · rw [SegmentKind.advanceSequence_looped hframetime hreach]

/-- A run of such an animation from its start, of one tick at least. -/
theorem tracks_run_looping (hkind : segment.kind = .sequence range true pauses trigger)
    (hnone : trigger.isNone = true) {m : Metadata} (hm : m.segments = [segment])
    (hreach : range.InReach (segment.effectiveFrametime m.header.frametime))
    {ticks : List Tick} (hticks : ticks ≠ []) :
    ((start m).run ticks).tracks =
      [⟨segment, .looped range (segment.effectiveFrametime m.header.frametime) false 0
        ticks.length⟩] := by
  have hlater {a : Animation} {before : Nat} (later : List Tick)
      (hreach : range.InReach (segment.effectiveFrametime a.header.frametime))
      (ha : a.tracks = [⟨segment,
        .looped range (segment.effectiveFrametime a.header.frametime) false 0 before⟩]) :
      (a.run later).tracks = [⟨segment,
        .looped range (segment.effectiveFrametime a.header.frametime) false 0
          (before + later.length)⟩] := by
    induction later generalizing a before with
    | nil => exact ha
    | cons tick later ih =>
      have hnext := tracks_tick_looping hkind hnone hreach ha (.inr rfl) tick
      rw [run_cons, ih (by rwa [header_tick]) (by rwa [header_tick]), header_tick,
        List.length_cons, Nat.add_assoc, Nat.add_comm 1]
  cases ticks with
  | nil => exact absurd rfl hticks
  | cons tick ticks =>
    have hstart : (start m).tracks = [⟨segment, segment.initial⟩] := by
      rw [start, hm]
      rfl
    have hfirst := tracks_tick_looping hkind hnone hreach hstart (.inl ⟨rfl, rfl⟩) tick
    rw [run_cons, hlater ticks (by rwa [header_tick]) (by rw [header_tick]; exact hfirst),
      header_tick, List.length_cons, Nat.add_comm 1]
    rfl

/-- An animation with one track, which is active, shows the frame of that. -/
theorem currentFrame_of_active {a : Animation} {t : Track} (htracks : a.tracks = [t])
    (ht : t.state.active = true) : a.currentFrame = t.state.frame := by
  by_cases hsource : a.header.source = .vanilla
  · rw [currentFrame, hsource]
    dsimp only
    rw [htracks]
    rfl
  · have hleads : Track.LeadsAt a.tracks 0 t := by
      rw [htracks]
      exact Track.leadsAt_zero ht (List.forall_mem_nil _)
    exact currentFrame_of_leadsAt hsource hleads

end Animation

/-! ## Registries -/

namespace Registry

/-- What an operation does to the animation of another texture than its own: a tick plays
it, everything else leaves it alone. -/
theorem exists_apply {op : Operation} {texture : Texture} (h : op.Spares texture) {r : Registry}
    {a : Animation} (ha : r.animations.get? texture = some a) :
    ∃ ticks : List Animation.Tick, ticks.length = (if op.isTick then 1 else 0) ∧
      (r.apply op).animations.get? texture = some (a.run ticks) := by
  cases htick : op.isTick with
  | false =>
    have hsteady : op.Steady := by
      cases op with
      | tick player game s => cases htick
      | _ => trivial
    refine ⟨[], rfl, ?_⟩
    rw [get?_apply_of_steady hsteady, Operation.effect_of_spares h htick, ha]
    rfl
  | true =>
    cases op with
    | tick player game s =>
      obtain ⟨c, -, heq⟩ := r.get?_tick player game (s := s) (I := fun _ => True)
        (fun _ _ h => h) trivial texture
      rw [ha] at heq
      exact ⟨[⟨player, game.cached, c⟩], rfl, heq⟩
    | _ => cases htick

/-- What is done to a registry is a run of each animation that is neither replaced nor taken
out meanwhile. -/
theorem exists_run {ops : List Operation} {texture : Texture}
    (h : ∀ op ∈ ops, op.Spares texture) {r : Registry} {a : Animation}
    (ha : r.animations.get? texture = some a) :
    ∃ ticks : List Animation.Tick, ticks.length = ops.countP Operation.isTick ∧
      (ops.foldl apply r).animations.get? texture = some (a.run ticks) := by
  induction ops generalizing r a with
  | nil => exact ⟨[], rfl, ha⟩
  | cons op ops ih =>
    obtain ⟨hop, hops⟩ := List.forall_mem_cons.1 h
    obtain ⟨first, hfirst, hnext⟩ := exists_apply hop ha
    obtain ⟨later, hlater, hlast⟩ := ih hops hnext
    refine ⟨first ++ later, ?_, ?_⟩
    · rw [List.length_append, hfirst, hlater, List.countP_cons, Nat.add_comm]
    · rw [List.foldl_cons, hlast, Animation.run_append]

/-- A looping sequence keeps to a closed form while its counters reach its frames, its times and
its cycles. Take one without a trigger that is the only segment of a texture, in the vanilla
format or another, `n` ticks after it was put in, whatever else was done to other textures: it is
active, on the frame that `n` divided by the time of a frame leads to around its range, and that
frame is shown. Take any looping sequence of an animation that is not vanilla, in a run in which
it comes to be wanted and is wanted in `n` steps: the same holds of it, with the cycles that it
had counted before added, whether it pauses on its last frame or not. -/
theorem looping_run (hkind : segment.kind = .sequence range true pauses trigger) {n : Nat}
    (hn : 0 < n) :
    (∀ {r : Registry} {texture : Texture} {m : Metadata} {ops : List Operation},
      r.animations.get? texture = some (.start m) → m.segments = [segment] →
      trigger.isNone = true → (∀ op ∈ ops, op.Spares texture) →
      ops.countP Operation.isTick = n →
      let frametime := segment.effectiveFrametime m.header.frametime
      let frame := range.first + n / frametime % range.length
      range.InReach frametime → n / (frametime * range.length) < Decimal.frameBound →
      ∃ a, (ops.foldl apply r).animations.get? texture = some a ∧
        a.states = [⟨frame, true, n % frametime, false, n / (frametime * range.length)⟩] ∧
        (ops.foldl apply r).currentFrame texture = frame) ∧
    ∀ {a : Animation} {place : Nat} {state : SegmentState} {ticks : List Animation.Tick},
      a.header.source ≠ .vanilla → a.tracks[place]? = some ⟨segment, state⟩ →
      state.active = false → a.decisions place ticks = List.replicate n true →
      let frametime := segment.effectiveFrametime a.header.frametime
      range.InReach frametime →
      state.cycles + n / (frametime * range.length) < Decimal.frameBound →
      ∃ t, (a.run ticks).tracks[place]? = some t ∧ t.segment.outline = segment.outline ∧
        t.state = ⟨range.first + n / frametime % range.length, true, n % frametime, state.played,
          state.cycles + n / (frametime * range.length)⟩ := by
  constructor
  · intro r texture m ops hr hm hnone hops hcount frametime frame hreach hcycles
    obtain ⟨ticks, hlength, ha⟩ := exists_run hops hr
    rw [hcount] at hlength
    have hne : ticks ≠ [] := List.length_pos_iff.1 (by omega)
    have htracks := Animation.tracks_run_looping hkind hnone hm hreach hne
    rw [hlength] at htracks
    refine ⟨_, ha, ?_, ?_⟩
    · rw [Animation.states, htracks, List.map_singleton, SegmentState.looped, Nat.zero_add,
        Nat.mod_eq_of_lt hcycles]
    · rw [currentFrame, ha]
      exact Animation.currentFrame_of_active htracks rfl
  · intro a place state ticks hsource hplace hidle hdecisions frametime hreach hcycles
    have htrigger : segment.kind.trigger? = some trigger := by
      rw [hkind]
      rfl
    obtain ⟨t, ht, houtline, hstate⟩ :=
      Animation.exists_getElem?_run hsource hplace htrigger ticks
    refine ⟨t, ht, houtline, ?_⟩
    rw [hstate, hkind, hdecisions, SegmentKind.advanceAll_sequence
      (segment.effectiveFrametime_pos _) hreach hidle
      (Nat.lt_of_le_of_lt (Nat.le_add_right _ _) hcycles) hn, SegmentState.looped,
      Nat.mod_eq_of_lt hcycles]

/-- Three frames of two ticks each, round and round. -/
def spin (trigger : Trigger) : Segment := ⟨"spin", 10, some 2, .sequence ⟨4, 6⟩ true true trigger⟩

/-- A clock in the vanilla format. -/
def clockMetadata : Metadata := ⟨.plain ⟨"minecraft", "item/clock"⟩ .vanilla, [spin .none]⟩

/-- A mill that spins in the wind, in another format. -/
def millMetadata : Metadata :=
  ⟨.plain ⟨"game", "mill"⟩ .block, [.fallback 9, spin (.ofEvent "wind")]⟩

/-- After seven ticks either is in its second round, on the first frame for the second tick. -/
theorem looping_run_spin :
    (([.staged [], .staged [], .staged [], .register millMetadata, .staged [], .staged [],
        .staged [], .staged []].foldl apply (run [.register clockMetadata])).currentFrame
      ⟨"minecraft", "item/clock"⟩ = 4) ∧
    ∃ t, ((Animation.start millMetadata).run
        (Animation.stagedTicks (List.replicate 7 ["wind"]))).tracks[1]? = some t ∧
      t.state = ⟨4, true, 1, false, 1⟩ := by
  have hspin (trigger : Trigger) : (spin trigger).kind = .sequence ⟨4, 6⟩ true true trigger := rfl
  have hclock : (run [.register clockMetadata]).animations.get? ⟨"minecraft", "item/clock"⟩ =
      some (.start clockMetadata) := rfl
  have hspares : ∀ op ∈ [Operation.staged [], .staged [], .staged [], .register millMetadata,
      .staged [], .staged [], .staged [], .staged []], op.Spares ⟨"minecraft", "item/clock"⟩ := by
    simp only [List.forall_mem_cons, Operation.staged, Operation.Spares]
    exact ⟨trivial, trivial, trivial, by decide, trivial, trivial, trivial, trivial, nofun⟩
  have hreach : FrameRange.InReach ⟨4, 6⟩ 2 := ⟨by decide, by decide, by decide⟩
  obtain ⟨a, -, -, hshown⟩ :=
    (looping_run (hspin .none) (Nat.succ_pos 6)).1 hclock rfl rfl hspares rfl hreach (by decide)
  have hsource : (Animation.start millMetadata).header.source ≠ .vanilla := nofun
  have hmill : (Animation.start millMetadata).tracks[1]? =
      some ⟨spin (.ofEvent "wind"), ⟨4, false, 0, false, 0⟩⟩ := rfl
  have hdecisions : (Animation.start millMetadata).decisions 1
      (Animation.stagedTicks (List.replicate 7 ["wind"])) = List.replicate 7 true := by
    decide +kernel
  obtain ⟨t, ht, -, hstate⟩ :=
    (looping_run (hspin (.ofEvent "wind")) (Nat.succ_pos 6)).2 hsource hmill rfl hdecisions
      hreach (by decide)
  exact ⟨hshown, t, ht, hstate⟩

end Registry
end Flipbook
