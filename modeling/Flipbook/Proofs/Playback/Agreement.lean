import Flipbook.Animation.Playback
import Flipbook.Proofs.Expression.Evaluation
import Flipbook.Proofs.Expression.Simulation
import Flipbook.Proofs.Game.Questions

/-!
# Games that give the same answers

Two games agree along a relation between their states when they answer alike in
related states and go on to related states. Whatever is played in one of them goes
then as in the other; only the states of the games differ. What a condition remembers
may differ as well, as long as the condition cannot tell: `Expression.Indistinct`.

* `Game.Agree.parallel`: conditions run side by side in games that agree.
* `Game.Agree.evaluate`, `Game.Agree.decide`: so do conditions over a whole
  evaluation and triggers.
* `Game.Agree.play`, `Game.Agree.playAnimation`: so do tracks and animations.
-/
namespace Flipbook

namespace Expression

/-- A relation between memories that no program can tell apart which calls allowed
functions only. -/
structure Indistinct (allowed : Function → Prop) (M : Memory → Memory → Prop) : Prop where
  reported : ∀ {m m'}, M m m' → m.reported = m'.reported
  sawActive : ∀ {m m'}, M m m' → m.sawActive = m'.sawActive
  report : ∀ {m m'}, M m m' → ∀ problem, M (m.report problem) (m'.report problem)
  see : ∀ {m m'}, M m m' → ∀ event active, M (m.see event active) (m'.see event active)
  random : allowed .random → ∀ {m m'}, M m m' →
    m.random = m'.random ∧ ∀ random, M { m with random } { m' with random }

theorem indistinct_eq (allowed : Function → Prop) : Indistinct allowed Eq where
  reported h := h ▸ rfl
  sawActive h := h ▸ rfl
  report h _ := h ▸ rfl
  see h _ _ := h ▸ rfl
  random _ _ _ h := h ▸ ⟨rfl, fun _ => rfl⟩

end Expression

open Expression (Condition Env Evaluation Eval Function Halt Indistinct Memory Parallel Program
  Run Scope Simulates Within)

variable {σ τ α : Type}

/-- Two games that give the same answers in related states. -/
structure Game.Agree (J : σ → τ → Prop) (g : Game σ) (h : Game τ) : Prop where
  event : ∀ name s t, J s t →
    (g.event name s).1 = (h.event name t).1 ∧ J (g.event name s).2 (h.event name t).2
  probe : ∀ kind name s t, J s t →
    (g.probe kind name s).1 = (h.probe kind name t).1 ∧
      J (g.probe kind name s).2 (h.probe kind name t).2
  gauge : ∀ kind s t, J s t →
    (g.gauge kind s).1 = (h.gauge kind t).1 ∧ J (g.gauge kind s).2 (h.gauge kind t).2

/-- Two runs that differ in nothing but the state of the game and the memory. -/
structure Expression.Run.Match (J : σ → τ → Prop) (M : Memory → Memory → Prop) (r : Run σ)
    (r' : Run τ) : Prop where
  game : J r.game r'.game
  memory : M r.memory r'.memory
  locals : r.locals = r'.locals
  notices : r.notices = r'.notices

/-- Two evaluations that differ in nothing but the state of the game. -/
structure Expression.Evaluation.Match (J : σ → τ → Prop) (x : Evaluation σ) (y : Evaluation τ) :
    Prop where
  result : x.result = y.result
  condition : x.condition = y.condition
  game : J x.game y.game
  notices : x.notices = y.notices

/-- What becomes of a condition does not depend on the state of the game. -/
theorem Expression.match_conclude {J : σ → τ → Prop} (c : Condition)
    {x : Except Halt Bool × Run σ} {y : Except Halt Bool × Run τ} (hend : x.1 = y.1)
    (hrun : Run.Match J Eq x.2 y.2) : Evaluation.Match J (c.conclude x) (c.conclude y) := by
  obtain ⟨outcome, r⟩ := x
  obtain ⟨outcome', game, memory, locals, notices⟩ := y
  obtain ⟨hgame, hmemory, -, hnotices⟩ := hrun
  dsimp only at hend hgame hmemory hnotices
  subst hend hmemory hnotices
  cases outcome with
  | ok result => exact ⟨rfl, rfl, hgame, rfl⟩
  | error halt =>
    cases halt with
    | crashed => exact ⟨rfl, rfl, hgame, rfl⟩
    | failed e =>
      dsimp only [Condition.conclude]
      split <;> exact ⟨rfl, rfl, hgame, rfl⟩

/-- Two decisions that differ in nothing but the state of the game. -/
structure Decision.Match (J : σ → τ → Prop) (d : Decision σ) (e : Decision τ) : Prop where
  wanted : d.wanted = e.wanted
  trigger : d.trigger = e.trigger
  game : J d.game e.game
  notices : d.notices = e.notices

/-- Two plays that differ in nothing but the state of the game. -/
structure Played.Match (J : σ → τ → Prop) (p : Played σ α) (q : Played τ α) : Prop where
  now : p.now = q.now
  game : J p.game q.game
  notices : p.notices = q.notices
  crashed : p.crashed = q.crashed

namespace Game.Agree

variable {J : σ → τ → Prop} {M : Memory → Memory → Prop} {H : Halt → Prop}
  {allowed : Function → Prop} {g : Game σ} {h : Game τ} (scope : Scope) (elapsed : Nat)

/-! ## The primitive steps of a condition -/

theorem ties_match (J : σ → τ → Prop) (M : Memory → Memory → Prop) :
    Expression.Ties J (Run.Match J M) where
  game hr := hr.game
  locals hr := hr.locals
  withGame hr _ _ hst := ⟨hst, hr.memory, hr.locals, hr.notices⟩
  withLocals hr _ := ⟨hr.game, hr.memory, rfl, hr.notices⟩

/-- What is done with the answer of a watched event. -/
theorem simulates_seeEvent (hM : Indistinct allowed M) (name : String) (rising active : Bool) :
    Simulates (Run.Match J M) H
      (do
        let run ← get
        let before := run.memory.sawActive name
        set { run with memory := run.memory.see name active }
        return if rising then active && !before else !active && before : Eval σ Bool)
      (do
        let run ← get
        let before := run.memory.sawActive name
        set { run with memory := run.memory.see name active }
        return if rising then active && !before else !active && before : Eval τ Bool) := by
  refine .get_bind fun r r' hr => ?_
  dsimp only
  rw [hM.sawActive hr.memory]
  exact .set_bind ⟨hr.game, hM.see hr.memory _ _, hr.locals, hr.notices⟩
    (Expression.simulates_pure _)

theorem simulates_watchEvent (hJ : Agree J g h) (hM : Indistinct allowed M)
    (hcrash : ∀ question s t, J s t → (g.ask question s).1.IsCrash → H .crashed) (name : String)
    (rising : Bool) :
    Simulates (Run.Match J M) H (Expression.watchEvent ⟨scope, g, elapsed⟩ name rising)
      (Expression.watchEvent ⟨scope, h, elapsed⟩ name rising) :=
  ((ties_match J M).simulates_ask (hJ.event name) (hcrash (.event name))).bind
    (simulates_seeEvent hM name rising)

theorem simulates_drawRandom (hM : Indistinct allowed M) (hdraws : allowed .random) :
    Simulates (Run.Match J M) H Expression.drawRandom Expression.drawRandom := by
  refine .get_bind fun r r' hr => ?_
  obtain ⟨hrandom, hnext⟩ := hM.random hdraws hr.memory
  dsimp only
  rw [hrandom]
  exact .set_bind ⟨hr.game, hnext _, hr.locals, hr.notices⟩ (Expression.simulates_pure _)

theorem simulates_reportOnce (hM : Indistinct allowed M) (problem : Expression.Report)
    (notice : Notice) :
    Simulates (Run.Match J M) H (Expression.reportOnce problem notice)
      (Expression.reportOnce problem notice) := by
  refine Expression.simulates_modify fun r r' hr => ?_
  rw [hM.reported hr.memory]
  split
  · exact hr
  · exact ⟨hr.game, hM.report hr.memory problem, hr.locals, by rw [hr.notices]⟩

/-- Conditions run side by side in games that agree. They halt when a statement fails,
and when the games crash. -/
theorem parallel (hJ : Agree J g h) (hM : Indistinct allowed M)
    (hcrash : ∀ question s t, J s t → (g.ask question s).1.IsCrash → H .crashed)
    (hfail : ∀ error, H (.failed error)) :
    Parallel (Run.Match J M) H allowed ⟨scope, g, elapsed⟩ ⟨scope, h, elapsed⟩ where
  scope := rfl
  elapsed _ := rfl
  event name := (ties_match J M).simulates_ask (hJ.event name) (hcrash (.event name))
  watch name rising _ := simulates_watchEvent scope elapsed hJ hM hcrash name rising
  probe kind name := (ties_match J M).simulates_ask (hJ.probe kind name) (hcrash (.probe kind name))
  gauge kind := (ties_match J M).simulates_ask (hJ.gauge kind) (hcrash (.gauge kind))
  random := simulates_drawRandom hM
  report := simulates_reportOnce hM
  read := (ties_match J M).simulates_readVariable rfl (simulates_reportOnce hM)
  declare := (ties_match J M).simulates_declareName
  assign := (ties_match J M).simulates_assignName hfail

/-- The runs of a program in games that agree, and on one memory. -/
theorem run (hJ : Agree J g h)
    (hcrash : ∀ question s t, J s t → (g.ask question s).1.IsCrash → H .crashed)
    (hfail : ∀ error, H (.failed error)) (program : Program) :
    Simulates (Run.Match J Eq) H (program.run ⟨scope, g, elapsed⟩)
      (program.run ⟨scope, h, elapsed⟩) :=
  (hJ.parallel scope elapsed (Expression.indistinct_eq fun _ => True) hcrash hfail).simulates_run
    program (Within.of_forall (fun _ => trivial) _)

/-! ## Conditions and triggers -/

variable {s : σ} {t : τ}

theorem evaluate (hJ : Agree J g h) (hst : J s t) (c : Condition) :
    Evaluation.Match J (c.evaluate scope g s) (c.evaluate scope h t) := by
  cases hprogram : c.program with
  | none =>
    rw [Condition.evaluate_of_not_program hprogram, Condition.evaluate_of_not_program hprogram]
    exact ⟨rfl, rfl, hst, rfl⟩
  | some program =>
    obtain ⟨hend, hrun, -⟩ := hJ.run (H := fun _ => True) scope c.elapsed
      (fun _ _ _ _ _ => trivial) (fun _ => trivial) program ⟨s, c.memory, ∅, []⟩
      ⟨t, c.memory, ∅, []⟩ ⟨hst, rfl, rfl, rfl⟩
    rw [Condition.evaluate_of_program hprogram, Condition.evaluate_of_program hprogram]
    exact Expression.match_conclude c hend hrun

theorem decide (hJ : Agree J g h) (hst : J s t) (trigger : Trigger) (standing : Bool) :
    Decision.Match J (trigger.decide scope standing g s) (trigger.decide scope standing h t) := by
  unfold Trigger.decide
  split
  · next condition _ =>
    obtain ⟨hresult, hcondition, hgame, hnotices⟩ := hJ.evaluate scope hst condition
    dsimp only
    rw [hresult, hcondition, hnotices]
    exact ⟨rfl, rfl, hgame, rfl⟩
  · split
    · next name _ =>
      obtain ⟨hanswer, hgame⟩ := hJ.event name s t hst
      exact ⟨hanswer, rfl, hgame, rfl⟩
    · exact ⟨rfl, rfl, hst, rfl⟩

/-! ## Tracks and animations -/

theorem playWanted (hJ : Agree J g h) (hst : J s t) (track : Track) (trigger : Trigger)
    (header : Header) :
    Played.Match J (track.playWanted trigger header scope g s)
      (track.playWanted trigger header scope h t) := by
  obtain ⟨hwanted, htrigger, hgame, hnotices⟩ := hJ.decide
    (scope.forSegment track.state.frame track.state.cycles) hst trigger track.segment.kind.standing
  unfold Track.playWanted
  dsimp only
  rw [hwanted, htrigger, hnotices]
  split
  · exact ⟨rfl, hgame, rfl, rfl⟩
  · exact ⟨rfl, hgame, rfl, rfl⟩

theorem play (hJ : Agree J g h) (hst : J s t) (track : Track) (header : Header)
    (others : List Track) :
    Played.Match J (track.play header others scope g s) (track.play header others scope h t) := by
  unfold Track.play
  split
  · next trigger _ => exact hJ.playWanted scope hst track trigger header
  · exact ⟨rfl, hst, rfl, rfl⟩

theorem playAll (hJ : Agree J g h) (hst : J s t) (header : Header) (before tracks : List Track) :
    Played.Match J (Track.playAll header scope g before tracks s)
      (Track.playAll header scope h before tracks t) := by
  induction tracks generalizing before s t with
  | nil => exact ⟨rfl, hst, rfl, rfl⟩
  | cons track rest ih =>
    obtain ⟨hnow, hgame, hnotices, hcrashed⟩ := hJ.play scope hst track header (before ++ rest)
    unfold Track.playAll
    dsimp only
    rw [hnow, hnotices, hcrashed]
    split
    · exact ⟨rfl, hgame, rfl, rfl⟩
    · obtain ⟨hnow', hgame', hnotices', hcrashed'⟩ := ih hgame (before ++
        [(track.play header (before ++ rest) scope h t).now])
      rw [hnow', hnotices', hcrashed']
      exact ⟨rfl, hgame', rfl, rfl⟩

/-- An animation goes alike in games that agree. -/
theorem playAnimation (hJ : Agree J g h) (hst : J s t) (a : Animation) (player : Player) :
    Played.Match J (a.play player g s) (a.play player h t) := by
  unfold Animation.play
  split
  · split
    · exact ⟨rfl, hst, rfl, rfl⟩
    · exact ⟨rfl, hst, rfl, rfl⟩
  · obtain ⟨hnow, hgame, hnotices, hcrashed⟩ :=
      hJ.playAll (a.scope player) hst a.header [] a.tracks
    dsimp only
    rw [hnow, hnotices, hcrashed]
    exact ⟨rfl, hgame, rfl, rfl⟩

end Game.Agree
end Flipbook
