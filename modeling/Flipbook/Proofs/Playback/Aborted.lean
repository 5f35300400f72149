import Flipbook.Game.Staged
import Flipbook.Proofs.Playback.Completion

/-!
# Ticks that break off

When the game crashes, a tick ends where it is. The track whose turn it was has asked the
question over which the game crashed. The tracks before it have been played as if the game did not
crash at all, and those behind it have not been played. The track itself keeps its state, and
its condition keeps everything but its memory.

* `Track.turn?`: the state of the game when it is the turn of a track.
* `Track.exists_turn_of_crashed`: where a tick of several tracks breaks off.
* `Game.Completes.getElem?_playAll`: what was played before that.
* `Animation.crashed_play`: what is left of an animation when a tick breaks off.
-/
namespace Flipbook

open Expression (Scope)

/-! ## Several tracks -/

namespace Track

variable {σ : Type}

/-- The state of the game when it is the turn of the track at a place; nothing if there is no
such track or the tick breaks off before. -/
def turn? (header : Header) (scope : Scope) (game : Game σ) (before : List Track) :
    List Track → σ → Nat → Option σ
  | [], _, _ => none
  | _ :: _, s, 0 => some s
  | t :: rest, s, place + 1 =>
    let first := t.play header (before ++ rest) scope game s
    if first.crashed then none
    else turn? header scope game (before ++ [first.now]) rest first.game place

variable {header : Header} {scope : Scope} {game : Game σ} {before tracks : List Track} {s : σ}

/-- A tick that breaks off does so over a track whose trigger does not decide when it has its
turn. That track keeps its state, and the tracks behind it stay as they are. The induction is on
the tracks still to be played. -/
theorem exists_turn_of_crashed (h : (playAll header scope game before tracks s).crashed = true) :
    ∃ place t trigger turn, tracks[place]? = some t ∧
      t.segment.kind.trigger? = some trigger ∧
      turn? header scope game before tracks s place = some turn ∧
      let scope' := scope.forSegment t.state.frame t.state.cycles
      let done := trigger.decide scope' t.segment.kind.standing game turn
      done.wanted = none ∧
      (playAll header scope game before tracks s).game = done.game ∧
      (playAll header scope game before tracks s).now[place]? =
        some (t.become done.trigger t.state) ∧
      ∀ later, place < later →
        (playAll header scope game before tracks s).now[later]? = tracks[later]? := by
  induction tracks generalizing before s with
  | nil => cases h
  | cons t rest ih =>
    rw [playAll_cons] at h ⊢
    dsimp only at h ⊢
    split at h
    · next hcrashed =>
      obtain ⟨-, heq⟩ | ⟨trigger, done, htrigger, rfl, hgame, ⟨hwanted, -, hnow⟩ |
          ⟨wanted, -, hdone, -⟩⟩ := t.play_cases header (before ++ rest) scope game s
      · rw [heq] at hcrashed
        cases hcrashed
      · rw [if_pos hcrashed]
        refine ⟨0, t, trigger, s, rfl, htrigger, rfl, hwanted, hgame, congrArg some hnow, ?_⟩
        intro later hlater
        obtain ⟨more, rfl⟩ := Nat.exists_eq_add_one.2 hlater
        rfl
      · rw [hdone] at hcrashed
        cases hcrashed
    · next hdone =>
      obtain ⟨place, u, trigger, turn, hplace, htrigger, hturn, hwanted, hgame, hnow, hlater⟩ :=
        ih h
      rw [if_neg hdone]
      refine ⟨place + 1, u, trigger, turn, hplace, htrigger, ?_, hwanted, hgame, hnow, ?_⟩
      · rw [turn?, if_neg hdone]
        exact hturn
      · intro later hbehind
        obtain ⟨more, rfl⟩ := Nat.exists_eq_add_one.2 (Nat.zero_lt_of_lt hbehind)
        exact hlater more (Nat.lt_of_succ_lt_succ hbehind)

end Track

/-- What comes before a track that has its turn has been played as in a game that completes
the one at hand. -/
theorem Game.Completes.getElem?_playAll {σ τ : Type} {J : σ → τ → Prop} {g : Game σ} {h : Game τ}
    (hJ : Completes J g h) {header : Header} {scope : Scope} {before tracks : List Track} {s : σ}
    {t : τ} (hst : J s t) {place : Nat} {turn : σ}
    (hturn : Track.turn? header scope g before tracks s place = some turn) :
    ∀ earlier < place, (Track.playAll header scope g before tracks s).now[earlier]? =
      (Track.playAll header scope h before tracks t).now[earlier]? := by
  induction tracks generalizing before s t place with
  | nil => cases hturn
  | cons track rest ih =>
    cases place with
    | zero => exact fun _ h => absurd h (Nat.not_lt_zero _)
    | succ place =>
      rw [Track.turn?] at hturn
      split at hturn
      · cases hturn
      · next hdone =>
        obtain ⟨hnow, hgame, -, hcrashed⟩ :=
          hJ.play scope hst track header (before ++ rest) (Bool.eq_false_iff.2 hdone)
        rw [Track.playAll_cons, Track.playAll_cons]
        dsimp only
        rw [if_neg hdone, ← hcrashed, if_neg hdone, ← hnow]
        intro earlier hearlier
        cases earlier with
        | zero => rfl
        | succ earlier => exact ih hgame hturn earlier (Nat.lt_of_succ_lt_succ hearlier)

/-! ## Animations -/

namespace Animation

/-- A tick of an animation that breaks off leaves a clean prefix. There is a track over which it
breaks off: when it has its turn, its trigger does not decide, as the last of its questions makes
the game crash. Let another game give the same answers where this one gives
any, and never crash. The tracks before are as they are after a whole tick in that game, with
the memories of their conditions. The track itself has the state that it had, and so has the
condition of its trigger but for its memory. The tracks behind are as they were. -/
theorem crashed_play {σ : Type} {a : Animation} (hsource : a.header.source ≠ .vanilla)
    {player : Player} {game : Game σ} {s : σ} (hcrashed : (a.play player game s).crashed = true) :
    ∃ place t trigger turn question asked memory, a.tracks[place]? = some t ∧
      t.segment.kind.trigger? = some trigger ∧
      Track.turn? a.header (a.scope player) game [] a.tracks s place = some turn ∧
      (trigger.decide ((a.scope player).forSegment t.state.frame t.state.cycles)
        t.segment.kind.standing game turn).wanted = none ∧
      game.Leads turn asked ∧ (game.ask question asked).1.IsCrash ∧
      (game.ask question asked).2 = (a.play player game s).game ∧
      (∀ {τ : Type} {J : σ → τ → Prop} {complete : Game τ} {s' : τ},
        game.Completes J complete → J s s' → complete.Calm s' →
        (a.play player complete s').crashed = false ∧
        ∀ earlier < place, (a.play player game s).now.tracks[earlier]? =
          (a.play player complete s').now.tracks[earlier]?) ∧
      (a.play player game s).now.tracks[place]? = some (t.become
        { trigger with condition := trigger.condition.map fun c => { c with memory } } t.state) ∧
      ∀ later, place < later →
        (a.play player game s).now.tracks[later]? = a.tracks[later]? := by
  rw [play_of_ne_vanilla hsource] at hcrashed ⊢
  obtain ⟨place, t, trigger, turn, hplace, htrigger, hturn, hwanted, hgame, hnow, hlater⟩ :=
    Track.exists_turn_of_crashed hcrashed
  obtain ⟨question, asked, hasked, hcrash, hend⟩ := Trigger.exists_of_wanted_eq_none hwanted
  obtain ⟨memory, hmemory⟩ := Trigger.trigger_decide_of_wanted_eq_none hwanted
  refine ⟨place, t, trigger, turn, question, asked, memory, hplace, htrigger, hturn, hwanted,
    hasked, hcrash, hend.trans hgame.symm, ?_, ?_, hlater⟩
  · intro τ J complete s' hJ hs hcalm
    refine ⟨hcalm.playAnimation a player, ?_⟩
    rw [play_of_ne_vanilla hsource]
    exact hJ.getElem?_playAll hs hturn
  · dsimp only
    rw [hnow, hmemory]

/-- The bell rings when the light goes out or when it is hit. -/
def bellTrigger : Trigger :=
  .ofCondition (.build "event_end(lit) || event(hit)" (some (.flat (.binary .or
    (.call "event_end" [.variable "lit"]) (.call "event" [.variable "hit"])))) .zeros)

/-- A lamp, a bell, and a flash when the light goes on. -/
def belfryMetadata : Metadata :=
  ⟨.plain ⟨"game", "belfry"⟩ .block,
    [⟨"lamp", 10, none, .singleFrame 4 (.ofEvent "lit")⟩,
      ⟨"bell", 10, none, .sequence ⟨0, 3⟩ true false bellTrigger⟩,
      ⟨"flash", 10, none, .oneShot ⟨5, 8⟩ (.ofEvent "lit")⟩]⟩

/-- A game that crashes when it is asked about the hit. -/
def crashingStage : Game (List Question) := Stage.game ⟨["lit"], [.event "hit"], [], [], [], 0, 0⟩

/-- The light is on, and the game crashes when the bell asks about the hit. The lamp is lit, the
bell is as it was and the flash has not been played. -/
theorem crashed_play_belfry :
    let played := (start belfryMetadata).play .standard crashingStage []
    let completed := (start belfryMetadata).play .standard crashingStage.completed []
    played.now.states =
      [⟨4, true, 0, false, 0⟩, ⟨0, false, 0, false, 0⟩, ⟨5, false, 0, false, 0⟩] ∧
    played.game = [.event "lit", .event "lit", .event "hit"] ∧
    completed.crashed = false ∧ played.now.tracks[0]? = completed.now.tracks[0]? ∧
    played.now.tracks[2]? = (start belfryMetadata).tracks[2]? := by
  intro played completed
  have hsource : (start belfryMetadata).header.source ≠ .vanilla := nofun
  have hcrashed : played.crashed = true := by decide +kernel
  obtain ⟨place, t, trigger, turn, -, -, -, hplace, htrigger, hturn, hwanted, -, -, -, hearlier,
    -, hlater⟩ := crashed_play hsource hcrashed
  obtain ⟨hdone, hbefore⟩ := hearlier crashingStage.completes_completed rfl
    (crashingStage.calm_completed [])
  have hbell : place = 1 := by
    match place, hplace, hturn with
    | 0, hplace, hturn =>
      obtain rfl := Option.some.inj hplace
      obtain rfl := Option.some.inj htrigger
      obtain rfl := Option.some.inj hturn
      exact absurd hwanted (by decide +kernel)
    | 1, _, _ => rfl
    | 2, _, hturn =>
      have hnone : Track.turn? (start belfryMetadata).header
          ((start belfryMetadata).scope .standard) crashingStage [] (start belfryMetadata).tracks []
          2 = none := by
        decide +kernel
      rw [hnone] at hturn
      cases hturn
    | _ + 3, hplace, _ => cases hplace
  subst hbell
  exact ⟨by decide +kernel, by decide +kernel, hdone, hbefore 0 (by decide), hlater 2 (by decide)⟩

end Animation
end Flipbook
