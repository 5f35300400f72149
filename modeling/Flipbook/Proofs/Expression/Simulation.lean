import Flipbook.Proofs.Expression.Lockstep

/-!
# Runs side by side

A program can be run twice, in two games and from two states. `Simulates R H x y` says
of two computations that, started in runs that are tied by `R`, they come to the same
end in runs that are tied by `R` again, and that they halt only as `H` permits; an end is
a value or a halt.

The interpreter changes a run by a few primitive steps only. If these go together
(`Parallel`), so do the runs of whole programs: `Parallel.simulates_run`. The steps that do not
touch what a condition remembers go together along any relation that `Ties` the rest.
-/
namespace Flipbook.Expression

variable {σ τ α β : Type} {R : Run σ → Run τ → Prop} {H : Halt → Prop}
  {allowed : Function → Prop}

/-- Two computations that come to the same end, one of those permitted, and keep a
relation between runs. -/
def Simulates (R : Run σ → Run τ → Prop) (H : Halt → Prop) (x : Eval σ α) (y : Eval τ α) : Prop :=
  ∀ r r', R r r' → (x.run.run r).1 = (y.run.run r').1 ∧ R (x.run.run r).2 (y.run.run r').2 ∧
    ∀ halt, (x.run.run r).1 = .error halt → H halt

theorem simulates_pure (a : α) : Simulates R H (pure a) (pure a) := fun _ _ h => ⟨rfl, h, nofun⟩

theorem simulates_throw {halt : Halt} (h : H halt) :
    Simulates R H (throw halt : Eval σ α) (throw halt : Eval τ α) :=
  fun _ _ hr => ⟨rfl, hr, fun _ heq => Except.error.inj heq ▸ h⟩

/-- The end of a computation in two steps. -/
theorem run_bind (x : Eval σ α) (f : α → Eval σ β) (r : Run σ) :
    (x >>= f).run.run r =
      match (x.run.run r).1 with
      | .ok a => (f a).run.run (x.run.run r).2
      | .error halt => (.error halt, (x.run.run r).2) := by
  show (ExceptT.bindCont f (x.run.run r).1).run (x.run.run r).2 = _
  cases (x.run.run r).1 <;> rfl

/-- The end of a question. -/
theorem run_ask (question : σ → Option α × σ) (r : Run σ) :
    (ask question).run.run r =
      (match (question r.game).1 with
        | some a => .ok a
        | none => .error .crashed, { r with game := (question r.game).2 }) := by
  show (do
    set { r with game := (question r.game).2 }
    match (question r.game).1 with
    | some a => return a
    | none => throw .crashed : Eval σ α).run.run r = _
  cases (question r.game).1 <;> rfl

theorem Simulates.bind {x : Eval σ α} {y : Eval τ α} {f : α → Eval σ β} {g : α → Eval τ β}
    (hx : Simulates R H x y) (hf : ∀ a, Simulates R H (f a) (g a)) :
    Simulates R H (x >>= f) (y >>= g) := by
  intro r r' h
  obtain ⟨hend, hrel, hhalt⟩ := hx r r' h
  rw [run_bind, run_bind, ← hend]
  cases hx : (x.run.run r).1 with
  | ok a => exact hf a _ _ hrel
  | error halt => exact ⟨rfl, hrel, fun _ heq => Except.error.inj heq ▸ hhalt halt hx⟩

theorem Simulates.get_bind {f : Run σ → Eval σ α} {g : Run τ → Eval τ α}
    (h : ∀ r r', R r r' → Simulates R H (f r) (g r')) :
    Simulates R H (do f (← get)) (do g (← get)) :=
  fun r r' hr => h r r' hr r r' hr

theorem Simulates.set_bind {r : Run σ} {r' : Run τ} {x : Eval σ α} {y : Eval τ α} (hr : R r r')
    (h : Simulates R H x y) :
    Simulates R H (do set r; x) (do set r'; y) :=
  fun _ _ _ => h r r' hr

theorem simulates_modify {f : Run σ → Run σ} {g : Run τ → Run τ}
    (h : ∀ r r', R r r' → R (f r) (g r')) :
    Simulates R H (modify f : Eval σ Unit) (modify g : Eval τ Unit) :=
  fun r r' hr => ⟨rfl, h r r' hr, nofun⟩

/-! ## Primitive steps -/

/-- A relation between runs that relates the states of the games by `J` and the declared names by
equality, and that stays when related states or equal names take their places. -/
structure Ties (J : σ → τ → Prop) (R : Run σ → Run τ → Prop) : Prop where
  game : ∀ {r r'}, R r r' → J r.game r'.game
  locals : ∀ {r r'}, R r r' → r.locals = r'.locals
  withGame : ∀ {r r'}, R r r' → ∀ {s t}, J s t → R { r with game := s } { r' with game := t }
  withLocals : ∀ {r r'}, R r r' → ∀ locals, R { r with locals } { r' with locals }

namespace Ties

variable {J : σ → τ → Prop} {env : Env σ} {env' : Env τ}

/-- Questions that are answered alike go together, and halt when there is no answer. -/
theorem simulates_ask (hR : Ties J R) {f : σ → Option α × σ} {g : τ → Option α × τ}
    (hanswer : ∀ s t, J s t → (f s).1 = (g t).1 ∧ J (f s).2 (g t).2)
    (hcrash : ∀ s t, J s t → (f s).1 = none → H .crashed) : Simulates R H (ask f) (ask g) := by
  intro r r' hr
  obtain ⟨hsame, hgame⟩ := hanswer r.game r'.game (hR.game hr)
  rw [run_ask, run_ask, ← hsame]
  refine ⟨rfl, hR.withGame hr hgame, ?_⟩
  cases hnone : (f r.game).1 with
  | some a => exact nofun
  | none => exact fun _ heq => Except.error.inj heq ▸ hcrash r.game r'.game (hR.game hr) hnone

theorem simulates_readVariable (hR : Ties J R) (hscope : env.scope = env'.scope)
    (hreport : ∀ problem notice,
      Simulates R H (reportOnce problem notice) (reportOnce problem notice)) (name : String) :
    Simulates R H (readVariable env name) (readVariable env' name) := by
  refine .get_bind fun r r' hr => ?_
  rw [hR.locals hr, hscope]
  split
  · exact simulates_pure _
  · split
    · exact simulates_pure _
    · exact (hreport _ _).bind fun _ => simulates_pure _

theorem simulates_declareName (hR : Ties J R) (name : String) (binding : Binding) :
    Simulates R H (declareName name binding) (declareName name binding) := by
  refine simulates_modify fun r r' hr => ?_
  rw [hR.locals hr]
  exact hR.withLocals hr _

theorem simulates_assignName (hR : Ties J R) (hfail : ∀ error, H (.failed error)) (name : String)
    (value : Value) : Simulates R H (assignName name value) (assignName name value) := by
  refine .get_bind fun r r' hr => ?_
  rw [hR.locals hr]
  split
  · split
    · exact hR.simulates_declareName _ _
    · exact simulates_throw (hfail _)
  · exact simulates_throw (hfail _)

end Ties

/-! ## Whole programs -/

/-- Two environments in which the primitive steps go together, as far as programs need
them that call allowed functions only. -/
structure Parallel (R : Run σ → Run τ → Prop) (H : Halt → Prop) (allowed : Function → Prop)
    (env : Env σ) (env' : Env τ) : Prop where
  scope : env.scope = env'.scope
  elapsed : allowed .timeInState → env.elapsed = env'.elapsed
  event : ∀ name, Simulates R H (askEvent env name) (askEvent env' name)
  watch : ∀ name rising, allowed (if rising then .eventStart else .eventEnd) →
    Simulates R H (watchEvent env name rising) (watchEvent env' name rising)
  probe : ∀ kind name, Simulates R H (askProbe env kind name) (askProbe env' kind name)
  gauge : ∀ kind, Simulates R H (askGauge env kind) (askGauge env' kind)
  random : allowed .random → Simulates R H drawRandom drawRandom
  report : ∀ problem notice, Simulates R H (reportOnce problem notice) (reportOnce problem notice)
  read : ∀ name, Simulates R H (readVariable env name) (readVariable env' name)
  declare : ∀ name binding, Simulates R H (declareName name binding) (declareName name binding)
  assign : ∀ name value, Simulates R H (assignName name value) (assignName name value)

/-- Computations that go together are in lockstep. -/
theorem Parallel.lockstep {env : Env σ} {env' : Env τ} (h : Parallel R H allowed env env') :
    Lockstep (Simulates R H) allowed env env' where
  value := simulates_pure
  andThen := Simulates.bind
  scope := h.scope
  elapsed := h.elapsed
  event := h.event
  watch := h.watch
  probe := h.probe
  gauge := h.gauge
  random := h.random
  report := h.report
  read := h.read
  declare := h.declare
  assign := h.assign

/-- The runs of a program go together. -/
theorem Parallel.simulates_run {env : Env σ} {env' : Env τ} (h : Parallel R H allowed env env')
    (p : Program) (hc : Within allowed p.called) : Simulates R H (p.run env) (p.run env') :=
  h.lockstep.together_run p hc

end Flipbook.Expression
