import Flipbook.Proofs.Game.Calm
import Flipbook.Proofs.Playback.Runs

/-!
# Games that answer where another one crashes

A game completes another one along a relation between their states when it gives every answer
that the other one gives, in related states, and goes on to related states. To a question that
makes the other one crash it may say anything. Until the other one crashes, whatever is played
in it goes as in the game that completes it.

* `Game.Completes`: a game that completes another one; `Game.completed` is one for each game.
* `Expression.Follows`: a computation that goes as another one unless it breaks off.
* `Game.Completes.lockstep`: what conditions do follows what they do in the other game.
* `Game.Completes.evaluate`, `Game.Completes.decide`, `Game.Completes.play`: so do whole
  evaluations, triggers and tracks.
* `Trigger.exists_of_wanted_eq_none`: what does not decide has asked a question over which the
  game crashed, and nothing after that.
-/
namespace Flipbook

/-! ## Computations that break off -/

namespace Expression

variable {σ τ α β : Type} {R : Run σ → Run τ → Prop} {B : σ → Prop}

/-- Whether a computation either breaks off because the game crashes, and leaves the game in
a state as `B` says, or comes to the same end as another one. -/
def Follows (R : Run σ → Run τ → Prop) (B : σ → Prop) (x : Eval σ α) (y : Eval τ α) : Prop :=
  ∀ r r', R r r' →
    ((x.run.run r).1 = .error .crashed → B (x.run.run r).2.game) ∧
    ((x.run.run r).1 ≠ .error .crashed →
      (x.run.run r).1 = (y.run.run r').1 ∧ R (x.run.run r).2 (y.run.run r').2)

/-- What goes together with another computation, and does not break off, follows it. -/
theorem Simulates.follows {x : Eval σ α} {y : Eval τ α} (h : Simulates R (· ≠ .crashed) x y) :
    Follows R B x y := by
  intro r r' hr
  obtain ⟨hend, hrel, hhalt⟩ := h r r' hr
  exact ⟨fun hcrashed => absurd rfl (hhalt _ hcrashed), fun _ => ⟨hend, hrel⟩⟩

theorem Follows.bind {x : Eval σ α} {y : Eval τ α} {f : α → Eval σ β} {g : α → Eval τ β}
    (hx : Follows R B x y) (hf : ∀ a, Follows R B (f a) (g a)) :
    Follows R B (x >>= f) (y >>= g) := by
  intro r r' hr
  obtain ⟨hcrash, hgoes⟩ := hx r r' hr
  rw [run_bind, run_bind]
  cases hend : (x.run.run r).1 with
  | ok a =>
    obtain ⟨hsame, hrel⟩ := hgoes (by rw [hend]; nofun)
    rw [← hsame, hend]
    exact hf a _ _ hrel
  | error halt =>
    by_cases hcrashed : halt = .crashed
    · subst hcrashed
      exact ⟨fun _ => hcrash hend, fun hnot => absurd rfl hnot⟩
    · have hne : (x.run.run r).1 ≠ .error .crashed := by
        rw [hend]
        exact fun heq => hcrashed (Except.error.inj heq)
      obtain ⟨hsame, hrel⟩ := hgoes hne
      rw [← hsame, hend]
      exact ⟨fun heq => absurd (Except.error.inj heq) hcrashed, fun _ => ⟨rfl, hrel⟩⟩

end Expression

open Expression (Condition Evaluation Follows Lockstep Run Scope Within)

variable {σ τ α : Type}

/-- Whether an answer, if there is one, carries over to another game, and what comes after it is
related. -/
def Carries (J : σ → τ → Prop) (x : Option α × σ) (y : Option α × τ) : Prop :=
  ∀ a, x.1 = some a → y.1 = some a ∧ J x.2 y.2

theorem carries_of_eq {J : σ → τ → Prop} {x : Option α × σ} {y : Option α × τ}
    (h : x.1 = y.1 ∧ J x.2 y.2) : Carries J x y :=
  fun _ ha => ⟨h.1 ▸ ha, h.2⟩

/-- Whether a game gives the answers that another one gives, in related states. Where the other
one crashes, it may answer anything. -/
structure Game.Completes (J : σ → τ → Prop) (g : Game σ) (h : Game τ) : Prop where
  event : ∀ name s t, J s t → Carries J (g.event name s) (h.event name t)
  probe : ∀ kind name s t, J s t → Carries J (g.probe kind name s) (h.probe kind name t)
  gauge : ∀ kind s t, J s t → Carries J (g.gauge kind s) (h.gauge kind t)

/-- Games that agree complete each other. -/
theorem Game.Agree.completes {J : σ → τ → Prop} {g : Game σ} {h : Game τ} (hJ : Game.Agree J g h) :
    Game.Completes J g h where
  event name s t hst := carries_of_eq (hJ.event name s t hst)
  probe kind name s t hst := carries_of_eq (hJ.probe kind name s t hst)
  gauge kind s t hst := carries_of_eq (hJ.gauge kind s t hst)

/-- The answer in place of none. -/
def insteadOfNone (default : α) (x : Option α × σ) : Option α × σ := (some (x.1.getD default), x.2)

theorem carries_insteadOfNone (default : α) (x : Option α × σ) :
    Carries Eq x (insteadOfNone default x) := by
  intro a ha
  rw [insteadOfNone, ha]
  exact ⟨rfl, rfl⟩

/-- The game that finds nothing where another one crashes. -/
def Game.completed (g : Game σ) : Game σ where
  event name s := insteadOfNone false (g.event name s)
  probe kind name s := insteadOfNone false (g.probe kind name s)
  gauge kind s := insteadOfNone 0 (g.gauge kind s)

theorem Game.completes_completed (g : Game σ) : Game.Completes Eq g g.completed where
  event name s _ hst := hst ▸ carries_insteadOfNone false (g.event name s)
  probe kind name s _ hst := hst ▸ carries_insteadOfNone false (g.probe kind name s)
  gauge kind s _ hst := hst ▸ carries_insteadOfNone 0 (g.gauge kind s)

theorem Game.calm_completed (g : Game σ) (s : σ) : g.completed.Calm s := by
  intro _ _ question
  cases question <;> exact Option.some_ne_none _

namespace Game.Completes

variable {J : σ → τ → Prop} {B : σ → Prop} {g : Game σ} {h : Game τ} (scope : Scope)
  (elapsed : Nat)

/-! ## Conditions -/

/-- Where answers carry over, a question follows another one. -/
theorem follows_ask {f : σ → Option α × σ} {g : τ → Option α × τ}
    (hcarries : ∀ s t, J s t → Carries J (f s) (g t))
    (hcrash : ∀ s t, J s t → (f s).1 = none → B (f s).2) :
    Follows (Run.Match J Eq) B (Expression.ask f) (Expression.ask g) := by
  intro r r' hr
  rw [Expression.run_ask, Expression.run_ask]
  cases hanswer : (f r.game).1 with
  | none => exact ⟨fun _ => hcrash r.game r'.game hr.game hanswer, fun hnot => absurd rfl hnot⟩
  | some a =>
    obtain ⟨hsame, hgame⟩ := hcarries r.game r'.game hr.game a hanswer
    dsimp only
    rw [hsame]
    exact ⟨nofun, fun _ => ⟨rfl, hgame, hr.memory, hr.locals, hr.notices⟩⟩

/-- What conditions do follows what they do in a game that completes theirs. -/
theorem lockstep (hJ : Completes J g h)
    (hcrash : ∀ question s t, J s t → (g.ask question s).1.IsCrash → B (g.ask question s).2) :
    Lockstep (Follows (Run.Match J Eq) B) (fun _ => True) ⟨scope, g, elapsed⟩
      ⟨scope, h, elapsed⟩ where
  value a := (Expression.simulates_pure a).follows
  andThen := .bind
  scope := rfl
  elapsed _ := rfl
  event name := follows_ask (hJ.event name) (hcrash (.event name))
  watch name rising _ := (follows_ask (hJ.event name) (hcrash (.event name))).bind fun active =>
    (Agree.simulates_seeEvent (Expression.indistinct_eq fun _ => True) name rising active).follows
  probe kind name := follows_ask (hJ.probe kind name) (hcrash (.probe kind name))
  gauge kind := follows_ask (hJ.gauge kind) (hcrash (.gauge kind))
  random hdraws :=
    (Agree.simulates_drawRandom (Expression.indistinct_eq fun _ => True) hdraws).follows
  report problem notice :=
    (Agree.simulates_reportOnce (Expression.indistinct_eq fun _ => True) problem notice).follows
  read name :=
    ((Agree.ties_match J Eq).simulates_readVariable rfl
      (Agree.simulates_reportOnce (Expression.indistinct_eq fun _ => True)) name).follows
  declare name binding := ((Agree.ties_match J Eq).simulates_declareName name binding).follows
  assign name value :=
    ((Agree.ties_match J Eq).simulates_assignName (fun _ => nofun) name value).follows

variable {s : σ} {t : τ}

/-- An evaluation goes as in a game that completes the one at hand, unless that crashes. -/
theorem evaluate (hJ : Completes J g h)
    (hcrash : ∀ question s t, J s t → (g.ask question s).1.IsCrash → B (g.ask question s).2)
    (hst : J s t) (c : Condition) :
    ((c.evaluate scope g s).result = none → B (c.evaluate scope g s).game) ∧
    ((c.evaluate scope g s).result ≠ none →
      Evaluation.Match J (c.evaluate scope g s) (c.evaluate scope h t)) := by
  rcases c.program.eq_none_or_eq_some with hprogram | ⟨program, hprogram⟩
  · rw [Condition.evaluate_of_not_program hprogram, Condition.evaluate_of_not_program hprogram]
    exact ⟨nofun, fun _ => ⟨rfl, rfl, hst, rfl⟩⟩
  · obtain ⟨hbreaks, hgoes⟩ := (hJ.lockstep scope c.elapsed hcrash).together_run program
      (Within.of_forall (fun _ => trivial) _) ⟨s, c.memory, ∅, []⟩ ⟨t, c.memory, ∅, []⟩
      ⟨hst, rfl, rfl, rfl⟩
    rw [Condition.evaluate_of_program hprogram, Condition.evaluate_of_program hprogram]
    rw [ne_eq, c.result_conclude_eq_none_iff]
    refine ⟨fun hcrashed => ?_, fun hnot => ?_⟩
    · rw [c.conclude_of_crashed hcrashed]
      exact hbreaks hcrashed
    · obtain ⟨hend, hrun⟩ := hgoes hnot
      exact Expression.match_conclude c hend hrun

/-! ## Triggers and tracks -/

/-- A decision is made as in a game that completes the one at hand, unless that crashes. -/
theorem decide (hJ : Completes J g h)
    (hcrash : ∀ question s t, J s t → (g.ask question s).1.IsCrash → B (g.ask question s).2)
    (hst : J s t) (trigger : Trigger) (standing : Bool) :
    ((trigger.decide scope standing g s).wanted = none →
      B (trigger.decide scope standing g s).game) ∧
    ((trigger.decide scope standing g s).wanted ≠ none →
      Decision.Match J (trigger.decide scope standing g s)
        (trigger.decide scope standing h t)) := by
  unfold Trigger.decide
  split
  · next condition _ =>
    obtain ⟨hbreaks, hgoes⟩ := hJ.evaluate scope hcrash hst condition
    refine ⟨hbreaks, fun hsome => ?_⟩
    obtain ⟨hresult, hcondition, hgame, hnotices⟩ := hgoes hsome
    dsimp only
    rw [hresult, hcondition, hnotices]
    exact ⟨rfl, rfl, hgame, rfl⟩
  · split
    · next name _ =>
      refine ⟨hcrash (.event name) s t hst, fun hsome => ?_⟩
      obtain ⟨active, hactive⟩ := Option.ne_none_iff_exists'.1 hsome
      obtain ⟨hsame, hgame⟩ := hJ.event name s t hst active hactive
      exact ⟨hactive.trans hsame.symm, rfl, hgame, rfl⟩
    · exact ⟨nofun, fun _ => ⟨rfl, rfl, hst, rfl⟩⟩

/-- A track is played as in a game that completes the one at hand, unless that crashes. -/
theorem play (hJ : Completes J g h) (hst : J s t) (track : Track) (header : Header)
    (others : List Track) (hdone : (track.play header others scope g s).crashed = false) :
    Played.Match J (track.play header others scope g s) (track.play header others scope h t) := by
  cases htrigger : track.segment.kind.trigger? with
  | none =>
    rw [Track.play_of_not_trigger? htrigger, Track.play_of_not_trigger? htrigger]
    exact ⟨rfl, hst, rfl, rfl⟩
  | some trigger =>
    rw [Track.play_of_trigger? htrigger] at hdone
    rw [Track.play_of_trigger? htrigger, Track.play_of_trigger? htrigger]
    obtain ⟨-, hgoes⟩ := hJ.decide (B := fun _ => True)
      (scope.forSegment track.state.frame track.state.cycles) (fun _ _ _ _ _ => trivial) hst trigger
      track.segment.kind.standing
    unfold Track.playWanted at hdone ⊢
    dsimp only at hdone ⊢
    split at hdone
    · cases hdone
    · next wanted hwanted =>
      obtain ⟨hsame, htrigger', hgame, hnotices⟩ := hgoes (by rw [hwanted]; nofun)
      rw [← hsame, ← htrigger', ← hnotices, hwanted]
      exact ⟨rfl, hgame, rfl, rfl⟩

end Game.Completes

/-! ## Triggers that do not decide -/

namespace Trigger

variable {trigger : Trigger} {scope : Scope} {standing : Bool} {game : Game σ} {s : σ}

/-- What does not decide has asked a question over which the game crashed, and nothing after
that. -/
theorem exists_of_wanted_eq_none (h : (trigger.decide scope standing game s).wanted = .none) :
    ∃ question t, game.Leads s t ∧ (game.ask question t).1.IsCrash ∧
      (game.ask question t).2 = (trigger.decide scope standing game s).game := by
  refine ((game.agree_self s).completes.decide
    (B := fun last => ∃ question t, game.Leads s t ∧ (game.ask question t).1.IsCrash ∧
      (game.ask question t).2 = last) scope ?_ ⟨rfl, .refl⟩ trigger standing).1 h
  intro question t u htu hcrashed
  exact ⟨question, t, htu.2, hcrashed, rfl⟩

/-- What does not decide keeps all but the memory of its condition. -/
theorem trigger_decide_of_wanted_eq_none
    (h : (trigger.decide scope standing game s).wanted = .none) :
    ∃ memory, (trigger.decide scope standing game s).trigger =
      { trigger with condition := trigger.condition.map fun c => { c with memory } } := by
  obtain ⟨event, condition⟩ := trigger
  cases condition with
  | some c =>
    obtain ⟨memory, hcondition⟩ := Condition.condition_evaluate_of_result_eq_none h
    refine ⟨memory, ?_⟩
    show Trigger.mk event (some (c.evaluate scope game s).condition) = _
    rw [hcondition]
    rfl
  | none =>
    cases event with
    | some name => exact ⟨.fresh .zeros, rfl⟩
    | none => cases h

end Trigger
end Flipbook
