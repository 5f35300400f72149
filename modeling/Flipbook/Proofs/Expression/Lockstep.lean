import Flipbook.Proofs.Expression.Calls

/-!
# Computations in lockstep

The interpreter puts its computations together from a few primitive steps, one after the
other. So a relation between the computations of two environments holds between all that a
program does in them if one computation after the other keeps it (`Lockstep.andThen`) and if
it holds between the primitive steps. The steps that belong to functions of their own have to
be related only if the program calls such a function.

* `EvalLockstep.together_call`, `EvalLockstep.together_eval`: calls and expressions.
* `Lockstep.together_exec`: statements.
* `Lockstep.together_run`: whole programs.
-/
namespace Flipbook.Expression

variable {σ τ : Type}

/-- A relation that one computation after the other keeps, and two environments in which it
holds between the primitive steps of expressions, as far as these call allowed functions
only. -/
structure EvalLockstep (S : ∀ {α : Type}, Eval σ α → Eval τ α → Prop)
    (allowed : Function → Prop) (env : Env σ) (env' : Env τ) : Prop where
  value : ∀ {α : Type} (a : α), S (pure a) (pure a)
  andThen : ∀ {α β : Type} {x : Eval σ α} {y : Eval τ α} {f : α → Eval σ β} {g : α → Eval τ β},
    S x y → (∀ a, S (f a) (g a)) → S (x >>= f) (y >>= g)
  scope : env.scope = env'.scope
  elapsed : allowed .timeInState → env.elapsed = env'.elapsed
  event : ∀ name, S (askEvent env name) (askEvent env' name)
  watch : ∀ name rising, allowed (if rising then .eventStart else .eventEnd) →
    S (watchEvent env name rising) (watchEvent env' name rising)
  probe : ∀ kind name, S (askProbe env kind name) (askProbe env' kind name)
  gauge : ∀ kind, S (askGauge env kind) (askGauge env' kind)
  random : allowed .random → S drawRandom drawRandom
  report : ∀ problem notice, S (reportOnce problem notice) (reportOnce problem notice)
  read : ∀ name, S (readVariable env name) (readVariable env' name)

/-- The same with the primitive steps of statements. -/
structure Lockstep (S : ∀ {α : Type}, Eval σ α → Eval τ α → Prop) (allowed : Function → Prop)
    (env : Env σ) (env' : Env τ) : Prop extends EvalLockstep S allowed env env' where
  declare : ∀ name binding, S (declareName name binding) (declareName name binding)
  assign : ∀ name value, S (assignName name value) (assignName name value)

variable {S : ∀ {α : Type}, Eval σ α → Eval τ α → Prop} {allowed : Function → Prop}
  {env : Env σ} {env' : Env τ} {α β : Type}

namespace EvalLockstep

theorem andReturn (h : EvalLockstep S allowed env env') {x : Eval σ α} {y : Eval τ α} (hxy : S x y)
    (f : α → β) : S (do return f (← x)) (do return f (← y)) :=
  h.andThen hxy fun a => h.value (f a)

/-! ## Calls -/

/-- Expressions whose evaluations are related. -/
abbrev Together (S : ∀ {α : Type}, Eval σ α → Eval τ α → Prop) (env : Env σ) (env' : Env τ)
    (es : List Expr) : Prop :=
  ∀ e ∈ es, S (e.eval env) (e.eval env')

theorem together_nameArgument (h : EvalLockstep S allowed env env') {es : List Expr}
    (hes : Together S env env' es) :
    S (nameArgument (Expr.arguments env es)) (nameArgument (Expr.arguments env' es)) := by
  cases es with
  | nil => exact h.value none
  | cons e es =>
    simp only [Expr.arguments, nameArgument]
    split
    · exact h.value _
    · refine h.andThen (hes e List.mem_cons_self) fun v => ?_
      split <;> exact h.value _

/-- The calls of a function of a name are related when its work on the name is. -/
theorem together_onName (h : EvalLockstep S allowed env env') {es : List Expr}
    (hes : Together S env env' es) {f : String → Eval σ Bool} {g : String → Eval τ Bool}
    (hfg : ∀ name, S (f name) (g name)) :
    S
      (do
        match ← nameArgument (Expr.arguments env es) with
        | some name => return Value.bool (← f name)
        | none => return .bool false)
      (do
        match ← nameArgument (Expr.arguments env' es) with
        | some name => return Value.bool (← g name)
        | none => return .bool false) := by
  refine h.andThen (h.together_nameArgument hes) fun name => ?_
  cases name with
  | none => exact h.value _
  | some name => exact h.andReturn (hfg name) Value.bool

theorem together_number (h : EvalLockstep S allowed env env') {e : Expr}
    (he : S (e.eval env) (e.eval env')) :
    S (Argument.number ⟨e.word?, e.eval env⟩) (Argument.number ⟨e.word?, e.eval env'⟩) :=
  h.andReturn he Value.asNumber

theorem together_call (h : EvalLockstep S allowed env env') {f : Function} (hf : allowed f)
    {es : List Expr} (hes : Together S env env' es) :
    S (f.call env (Expr.arguments env es)) (f.call env' (Expr.arguments env' es)) := by
  cases f with
  | event => exact h.together_onName hes h.event
  | eventStart => exact h.together_onName hes fun name => h.watch name true hf
  | eventEnd => exact h.together_onName hes fun name => h.watch name false hf
  | random => exact h.andReturn (h.random hf) Value.number
  | abs =>
    match es, hes with
    | [], _ => exact h.value _
    | e :: es, hes =>
      exact h.andReturn (h.together_number (hes e List.mem_cons_self)) fun a => Value.number a.abs
  | min =>
    match es, hes with
    | [], _ => exact h.value _
    | [e], _ => exact h.value _
    | e :: d :: es, hes =>
      refine h.andThen (h.together_number (hes e (by simp))) fun a => ?_
      exact h.andReturn (h.together_number (hes d (by simp))) fun b => Value.number (lesser a b)
  | max =>
    match es, hes with
    | [], _ => exact h.value _
    | [e], _ => exact h.value _
    | e :: d :: es, hes =>
      refine h.andThen (h.together_number (hes e (by simp))) fun a => ?_
      exact h.andReturn (h.together_number (hes d (by simp))) fun b => Value.number (greater a b)
  | between =>
    match es, hes with
    | [], _ => exact h.value _
    | [e], _ => exact h.value _
    | [e, d], _ => exact h.value _
    | e :: d :: c :: es, hes =>
      refine h.andThen (h.together_number (hes e (by simp))) fun value => ?_
      refine h.andThen (h.together_number (hes d (by simp))) fun low => ?_
      exact h.andReturn (h.together_number (hes c (by simp))) fun high =>
        Value.bool (low ≤ value && value ≤ high)
  | timeInState =>
    simp only [Function.call, h.elapsed hf]
    exact h.value _
  | frameIndex =>
    simp only [Function.call, h.scope]
    exact h.value _
  | cycleCount =>
    simp only [Function.call, h.scope]
    exact h.value _
  | probe kind => exact h.together_onName hes (h.probe kind)
  | gauge kind => exact h.andReturn (h.gauge kind) Value.number

theorem together_callNamed (h : EvalLockstep S allowed env env') {name : String}
    (hname : ∀ f ∈ Function.ofName? name, allowed f) {es : List Expr}
    (hes : Together S env env' es) :
    S (callNamed env name (Expr.arguments env es))
      (callNamed env' name (Expr.arguments env' es)) := by
  unfold callNamed
  split
  · next f hf => exact h.together_call (hname f hf) hes
  · exact h.andThen (h.report _ _) fun _ => h.value _

/-! ## Expressions -/

/-- Decisions about the truth of a value are related when both ways are. -/
theorem together_ite {x x' : Eval σ α} {y y' : Eval τ α} (v : Value) (hx : S x y)
    (hx' : S x' y') : S (if v.truthy then x else x') (if v.truthy then y else y') := by
  split
  · exact hx
  · exact hx'

theorem together_binary (h : EvalLockstep S allowed env env') {left right : Expr}
    (hl : S (left.eval env) (left.eval env')) (hr : S (right.eval env) (right.eval env'))
    (op : BinaryOp) :
    S ((Expr.binary op left right).eval env) ((Expr.binary op left right).eval env') := by
  have both : S
      (do
        let a ← left.eval env
        let b ← right.eval env
        return op.apply a b)
      (do
        let a ← left.eval env'
        let b ← right.eval env'
        return op.apply a b) :=
    h.andThen hl fun a => h.andReturn hr (op.apply a)
  cases op with
  | or =>
    rw [Expr.eval, Expr.eval]
    refine h.andThen hl fun v => together_ite v (h.value _) ?_
    exact h.andReturn hr fun b => Value.bool b.truthy
  | and =>
    rw [Expr.eval, Expr.eval]
    refine h.andThen hl fun v => together_ite v ?_ (h.value _)
    exact h.andReturn hr fun b => Value.bool b.truthy
  | _ => exact both

mutual

/-- The evaluations of an expression are related. -/
theorem together_eval (h : EvalLockstep S allowed env env') :
    ∀ e : Expr, Within allowed e.called → S (e.eval env) (e.eval env')
  | .number _, _ => h.value _
  | .text _, _ => h.value _
  | .bool _, _ => h.value _
  | .variable name, _ => h.read name
  | .unary op operand, hc => h.andReturn (together_eval h operand hc) op.apply
  | .binary op left right, hc =>
    h.together_binary (together_eval h left hc.left) (together_eval h right hc.right) op
  | .call name args, hc =>
    h.together_callNamed (hc name List.mem_cons_self) (together_evals h args hc.tail)

theorem together_evals (h : EvalLockstep S allowed env env') :
    ∀ es : List Expr, Within allowed (Expr.calledIn es) → Together S env env' es
  | [], _ => nofun
  | e :: es, hc =>
    List.forall_mem_cons.2 ⟨together_eval h e hc.left, together_evals h es hc.right⟩

end

end EvalLockstep

/-! ## Statements -/

namespace Lockstep

open EvalLockstep (together_ite)

theorem together_match (h : Lockstep S allowed env env') {x x' : Eval σ (Option Value)}
    {y y' : Eval τ (Option Value)} (hx : S x y) (hx' : S x' y') :
    S
      (do
        match ← x with
        | some value => return some value
        | none => x')
      (do
        match ← y with
        | some value => return some value
        | none => y') := by
  refine h.andThen hx fun value => ?_
  cases value with
  | some value => exact h.value _
  | none => exact hx'

mutual

/-- The executions of a statement are related. -/
theorem together_exec (h : Lockstep S allowed env env') :
    ∀ s : Statement, Within allowed s.called → S (s.exec env) (s.exec env')
  | .declare mutable name value, hc =>
    h.andThen (h.together_eval value hc) fun v =>
      h.andReturn (h.declare name ⟨v, mutable⟩) fun _ => none
  | .assign name value, hc =>
    h.andThen (h.together_eval value hc) fun v => h.andReturn (h.assign name v) fun _ => none
  | .branch branches (some body), hc =>
    together_branches h (together_block h body hc.right) branches hc.left
  | .branch branches none, hc => together_branches h (h.value none) branches hc
  | .choose subject arms, hc =>
    h.andThen (h.read subject) fun v => together_arms h v arms hc
  | .result value, hc => h.andReturn (h.together_eval value hc) some
  | .effect value, hc => h.andReturn (h.together_eval value hc) fun _ => none

theorem together_block (h : Lockstep S allowed env env') :
    ∀ body : List Statement, Within allowed (calledInBlock body) →
      S (execBlock env body) (execBlock env' body)
  | [], _ => h.value none
  | s :: rest, hc =>
    h.together_match (together_exec h s hc.left) (together_block h rest hc.right)

theorem together_branches (h : Lockstep S allowed env env') {x : Eval σ (Option Value)}
    {y : Eval τ (Option Value)} (hxy : S x y) :
    ∀ branches : List (Expr × List Statement), Within allowed (calledInBranches branches) →
      S (execBranches env x branches) (execBranches env' y branches)
  | [], _ => hxy
  | (condition, body) :: rest, hc =>
    h.andThen (h.together_eval condition hc.left) fun v =>
      together_ite v (together_block h body hc.right.left)
        (together_branches h hxy rest hc.right.right)

theorem together_arms (h : Lockstep S allowed env env') (v : Value) :
    ∀ arms : List (Pattern × List Statement), Within allowed (calledInArms arms) →
      S (execArms env v arms) (execArms env' v arms)
  | [], _ => h.value none
  | (pattern, body) :: rest, hc => by
    rw [execArms, execArms]
    split
    · exact together_block h body hc.left
    · exact together_arms h v rest hc.right

end

/-! ## Programs -/

/-- The runs of a program are related. -/
theorem together_run (h : Lockstep S allowed env env') (p : Program)
    (hc : Within allowed p.called) : S (p.run env) (p.run env') := by
  cases p with
  | flat condition => exact h.andReturn (h.together_eval condition hc) Value.truthy
  | block body =>
    refine h.andThen (h.together_block body hc) fun value => ?_
    cases value <;> exact h.value _

end Lockstep
end Flipbook.Expression
