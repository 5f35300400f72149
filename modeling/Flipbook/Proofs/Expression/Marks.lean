import Flipbook.Proofs.Expression.History
import Flipbook.Proofs.Expression.Simulation

/-!
# What a program leaves in memory

A program changes the memory of its condition by a few steps only: it watches events, draws
random numbers and meets problems that are reported once. These are its marks, in the order in
which they are made; which of them are made depends on the game, on what is remembered and on
where the program stops.

* `Expr.marks`, `Statement.marks`, `Program.marks`: the marks of a run.
* `Tells`: the memory and the notices after a run follow from its marks, and each call that
  watches an event comes to what is due by then.
* `Program.tells_run`: it holds of every program.
* `Condition.tells_after`: the same of evaluations one after the other.
-/
namespace Flipbook.Expression

variable {σ α β : Type}

/-! ## Marks -/

/-- A call of `event_start`, which is `rising`, or of `event_end`. -/
structure EdgeCall where
  rising : Bool
  /-- Whether the game said that the event is active. -/
  answer : Bool
  /-- What the program got from the call. -/
  result : Bool
deriving DecidableEq

/-- What a call is to come to if the event was last seen as `before`. -/
def EdgeCall.due (call : EdgeCall) (before : Bool) : Bool :=
  if call.rising then call.answer && !before else !call.answer && before

/-- What a program leaves in memory. -/
inductive Mark where
  /-- An event was watched. -/
  | watched (event : String) (call : EdgeCall)
  /-- A random number was drawn. -/
  | drew
  /-- A problem came up that is reported once. -/
  | met (problem : Report) (notice : Notice)

/-- A memory with a mark. -/
def Memory.note (m : Memory) : Mark → Memory
  | .watched event call => m.see event call.answer
  | .drew => { m with random := m.random.next }
  | .met problem _ => if problem ∈ m.reported then m else m.report problem

/-- The notice of a problem that was not reported before. -/
def Mark.notices (m : Memory) : Mark → List Notice
  | .met problem notice => if problem ∈ m.reported then [] else [notice]
  | _ => []

/-- Whether a call that watches an event came to what was due. -/
def Mark.Due (m : Memory) : Mark → Prop
  | .watched event call => call.result = call.due (m.sawActive event)
  | _ => True

/-- The notices of some marks, one after the other. -/
def noticesOf (m : Memory) : List Mark → List Notice
  | [] => []
  | mark :: marks => mark.notices m ++ noticesOf (m.note mark) marks

/-- Whether all calls among some marks came to what was due, one after the other. -/
def AllDue (m : Memory) : List Mark → Prop
  | [] => True
  | mark :: marks => mark.Due m ∧ AllDue (m.note mark) marks

theorem noticesOf_append (m : Memory) (marks more : List Mark) :
    noticesOf m (marks ++ more) =
      noticesOf m marks ++ noticesOf (marks.foldl Memory.note m) more := by
  induction marks generalizing m with
  | nil => rfl
  | cons mark marks ih =>
    rw [List.cons_append, noticesOf, noticesOf, ih, List.append_assoc, List.foldl_cons]

theorem allDue_append {m : Memory} {marks more : List Mark} :
    AllDue m (marks ++ more) ↔
      AllDue m marks ∧ AllDue (marks.foldl Memory.note m) more := by
  induction marks generalizing m with
  | nil => exact ⟨fun h => ⟨trivial, h⟩, And.right⟩
  | cons mark marks ih =>
    rw [List.cons_append, AllDue, AllDue, ih, List.foldl_cons, and_assoc]

/-! ## The marks of a run -/

/-- The marks of a computation, by the run in which it starts. -/
abbrev Marks (σ : Type) := Run σ → List Mark

/-- No marks. -/
def Marks.none : Marks σ := fun _ => []

/-- Marks and then others that are made in the same run. -/
def Marks.append (marks more : Marks σ) : Marks σ := fun r => marks r ++ more r

/-- The marks of a computation and then those of what its value leads to. If it stops early,
there are no more. -/
def Marks.andThen (first : Marks σ) (x : Eval σ α) (next : α → Marks σ) : Marks σ := fun r =>
  first r ++
    match (x.run.run r).1 with
    | .ok a => next a (x.run.run r).2
    | .error _ => []

theorem Marks.andThen_none (marks : Marks σ) (x : Eval σ α) :
    (marks.andThen x fun _ => .none) = marks := by
  funext r
  rw [andThen]
  cases (x.run.run r).1 <;> exact List.append_nil _

/-- The marks of reading a variable: an unknown one is reported. -/
def readMarks (env : Env σ) (name : String) : Marks σ := fun r =>
  match r.locals.get? name, env.scope.get? name with
  | none, none => [.met (.variable name) (.unknownVariable name)]
  | _, _ => []

/-- The mark of a call that watches an event, made from the evaluation of its name and that of
the call itself: what the game says of the event and what the program gets. There is none
without a name, or if the game crashes. -/
def watchMarks (env : Env σ) (rising : Bool) (name : Eval σ (Option String))
    (call : Eval σ Value) : Marks σ := fun r =>
  match name.run.run r with
  | (.ok (some event), named) =>
    match (env.game.event event named.game).1, (call.run.run r).1 with
    | some answer, .ok (.bool result) => [.watched event ⟨rising, answer, result⟩]
    | _, _ => []
  | _ => []

/-- How many arguments are evaluated for a name: one, unless it is written out. -/
def namesEvaluated : List Expr → Nat
  | e :: _ => if e.word?.isSome then 0 else 1
  | [] => 0

/-- The marks of a call, from those of its first arguments. -/
def Function.marks (env : Env σ) (args : List Expr) (firstArguments : Nat → Marks σ)
    (call : Eval σ Value) : Function → Marks σ
  | .event | .probe _ => firstArguments (namesEvaluated args)
  | .eventStart => (firstArguments (namesEvaluated args)).append
    (watchMarks env true (nameArgument (Expr.arguments env args)) call)
  | .eventEnd => (firstArguments (namesEvaluated args)).append
    (watchMarks env false (nameArgument (Expr.arguments env args)) call)
  | .random => fun _ => [.drew]
  | .abs => firstArguments 1
  | .min | .max => if 2 ≤ args.length then firstArguments 2 else .none
  | .between => if 3 ≤ args.length then firstArguments 3 else .none
  | .timeInState | .frameIndex | .cycleCount | .gauge _ => .none

mutual

/-- The marks of an expression. -/
def Expr.marks (env : Env σ) : Expr → Marks σ
  | .number _ => .none
  | .text _ => .none
  | .bool _ => .none
  | .variable name => readMarks env name
  | .unary _ operand => operand.marks env
  | .binary .or left right =>
    (left.marks env).andThen (left.eval env) fun v => if v.truthy then .none else right.marks env
  | .binary .and left right =>
    (left.marks env).andThen (left.eval env) fun v => if v.truthy then right.marks env else .none
  | .binary _ left right => (left.marks env).andThen (left.eval env) fun _ => right.marks env
  | .call name args =>
    match Function.ofName? name with
    | some f => f.marks env args (Expr.marksOfFirst env args) ((Expr.call name args).eval env)
    | none => fun _ => [.met (.function name) (.unknownFunction name)]

/-- The marks of the first arguments of a call. -/
def Expr.marksOfFirst (env : Env σ) : List Expr → Nat → Marks σ
  | e :: es, n + 1 => (e.marks env).andThen (e.eval env) fun _ => Expr.marksOfFirst env es n
  | _, _ => .none

end

mutual

/-- The marks of a statement. -/
def Statement.marks (env : Env σ) : Statement → Marks σ
  | .declare _ _ value => value.marks env
  | .assign _ value => value.marks env
  | .branch branches (some body) => branchMarks env (blockMarks env body) branches
  | .branch branches none => branchMarks env .none branches
  | .choose subject arms =>
    (readMarks env subject).andThen (readVariable env subject) (armMarks env arms)
  | .result value => value.marks env
  | .effect value => value.marks env

/-- The marks of statements, until one gives a result. -/
def blockMarks (env : Env σ) : List Statement → Marks σ
  | [] => .none
  | s :: rest => (s.marks env).andThen (s.exec env) fun
    | some _ => .none
    | none => blockMarks env rest

/-- The marks of branches: of the conditions up to one that holds, and of its block. -/
def branchMarks (env : Env σ) (otherwise : Marks σ) : List (Expr × List Statement) → Marks σ
  | [] => otherwise
  | (condition, body) :: rest => (condition.marks env).andThen (condition.eval env) fun v =>
    if v.truthy then blockMarks env body else branchMarks env otherwise rest

/-- The marks of the first arm that accepts a value. -/
def armMarks (env : Env σ) : List (Pattern × List Statement) → Value → Marks σ
  | [], _ => .none
  | (pattern, body) :: rest, value =>
    if pattern.accepts value then blockMarks env body else armMarks env rest value

end

/-- The marks of a program. -/
def Program.marks (env : Env σ) : Program → Marks σ
  | .flat condition => condition.marks env
  | .block body => blockMarks env body

/-! ## What marks tell -/

/-- Whether what a computation does to memory and reports follows from its marks, and whether
all calls among them came to what was due. -/
structure Tells (x : Eval σ α) (marks : Marks σ) : Prop where
  memory : ∀ r, (x.run.run r).2.memory = (marks r).foldl Memory.note r.memory
  notices : ∀ r, (x.run.run r).2.notices = r.notices ++ noticesOf r.memory (marks r)
  due : ∀ r, AllDue r.memory (marks r)

namespace Tells

variable {x y : Eval σ α} {f : α → Eval σ β} {marks more : Marks σ} {next : α → Marks σ}

theorem of_pure (a : α) : Tells (pure a : Eval σ α) .none where
  memory _ := rfl
  notices r := (List.append_nil r.notices).symm
  due _ := trivial

-- the second part starts in the memory that the marks of the first one have left
theorem bind (hx : Tells x marks) (hf : ∀ a, Tells (f a) (next a)) :
    Tells (x >>= f) (marks.andThen x next) where
  memory r := by
    rw [run_bind, Marks.andThen, List.foldl_append, ← hx.memory]
    cases (x.run.run r).1 with
    | ok a => exact (hf a).memory _
    | error halt => rfl
  notices r := by
    rw [run_bind, Marks.andThen, noticesOf_append, ← hx.memory, ← List.append_assoc, ← hx.notices]
    cases (x.run.run r).1 with
    | ok a => exact (hf a).notices _
    | error halt => exact (List.append_nil _).symm
  due r := by
    rw [Marks.andThen, allDue_append, ← hx.memory]
    refine ⟨hx.due r, ?_⟩
    cases (x.run.run r).1 with
    | ok a => exact (hf a).due _
    | error halt => trivial

/-- A computation that goes on without marks has the marks of its first part. -/
theorem bind_none (hx : Tells x marks) (hf : ∀ a, Tells (f a) .none) : Tells (x >>= f) marks := by
  rw [← marks.andThen_none x]
  exact hx.bind hf

theorem andReturn (hx : Tells x marks) (g : α → β) : Tells (do return g (← x)) marks :=
  hx.bind_none fun a => of_pure (g a)

/-- A decision has the marks of the way that is taken. -/
theorem of_ite {c : Prop} [Decidable c] (hx : Tells x marks) (hy : Tells y more) :
    Tells (if c then x else y) (if c then marks else more) := by
  split
  · exact hx
  · exact hy

/-- What reads the run that it is in has the marks of what it goes on with there. -/
theorem of_get {f : Run σ → Eval σ α} (h : ∀ r, Tells (f r) fun _ => marks r) :
    Tells (do f (← get)) marks where
  memory r := (h r).memory r
  notices r := (h r).notices r
  due r := (h r).due r

/-- What leaves memory and notices alone has no marks. -/
theorem of_kept (h : ∀ r, (x.run.run r).2.memory = r.memory ∧ (x.run.run r).2.notices = r.notices) :
    Tells x .none where
  memory r := (h r).1
  notices r := (h r).2.trans (List.append_nil r.notices).symm
  due _ := trivial

end Tells

/-! ## Primitive steps -/

theorem tells_ask (question : σ → Option α × σ) : Tells (ask question) .none :=
  .of_kept fun r => by
    rw [run_ask]
    exact ⟨rfl, rfl⟩

theorem tells_declareName (name : String) (binding : Binding) :
    Tells (declareName name binding : Eval σ Unit) .none :=
  .of_kept fun _ => ⟨rfl, rfl⟩

theorem tells_throw (halt : Halt) : Tells (throw halt : Eval σ α) .none :=
  .of_kept fun _ => ⟨rfl, rfl⟩

theorem tells_assignName (name : String) (value : Value) :
    Tells (assignName name value : Eval σ Unit) .none := by
  refine .of_get fun r => ?_
  split
  · split
    · exact tells_declareName _ _
    · exact tells_throw _
  · exact tells_throw _

theorem tells_reportOnce (problem : Report) (notice : Notice) :
    Tells (reportOnce problem notice : Eval σ Unit) fun _ => [.met problem notice] := by
  have hrun (r : Run σ) : ((reportOnce problem notice : Eval σ Unit).run.run r).2 =
      if problem ∈ r.memory.reported then r
      else { r with
        memory := r.memory.report problem
        notices := r.notices ++ [notice] } := rfl
  refine ⟨fun r => ?_, fun r => ?_, fun _ => ⟨trivial, trivial⟩⟩
  · rw [hrun, List.foldl_cons, List.foldl_nil, Memory.note]
    split <;> rfl
  · rw [hrun, noticesOf, noticesOf, List.append_nil, Mark.notices]
    split
    · exact (List.append_nil _).symm
    · rfl

theorem run_drawRandom (r : Run σ) : ((drawRandom : Eval σ Float).run.run r).2 =
    { r with memory := { r.memory with random := r.memory.random.next } } := by
  unfold drawRandom
  rfl

theorem tells_drawRandom : Tells (drawRandom : Eval σ Float) fun _ => [.drew] where
  memory r := by rw [run_drawRandom]; rfl
  notices r := by rw [run_drawRandom]; exact (List.append_nil r.notices).symm
  due _ := ⟨trivial, trivial⟩

theorem tells_readVariable (env : Env σ) (name : String) :
    Tells (readVariable env name) (readMarks env name) := by
  refine .of_get fun r => ?_
  unfold readMarks
  cases r.locals.get? name with
  | some binding => exact .of_pure _
  | none =>
    cases env.scope.get? name with
    | some value => exact .of_pure _
    | none => exact (tells_reportOnce _ _).andReturn _

theorem run_watchEvent (env : Env σ) (name : String) (rising : Bool) (r : Run σ) :
    (watchEvent env name rising).run.run r =
      match (env.game.event name r.game).1 with
      | some active =>
        (.ok (if rising then active && !r.memory.sawActive name
          else !active && r.memory.sawActive name),
          { r with
            game := (env.game.event name r.game).2
            memory := r.memory.see name active })
      | none => (.error .crashed, { r with game := (env.game.event name r.game).2 }) := by
  unfold watchEvent askEvent
  rw [run_bind, run_ask]
  cases (env.game.event name r.game).1 <;> rfl

/-- The mark that is due of a call about an event, if the game does not crash. -/
def dueMarks (env : Env σ) (rising : Bool) : Option String → Marks σ
  | none => .none
  | some name => fun r =>
    match (env.game.event name r.game).1 with
    | some active => [.watched name ⟨rising, active,
        if rising then active && !r.memory.sawActive name else !active && r.memory.sawActive name⟩]
    | none => []

theorem tells_watchEvent (env : Env σ) (name : String) (rising : Bool) :
    Tells (watchEvent env name rising) (dueMarks env rising (some name)) := by
  refine ⟨fun r => ?_, fun r => ?_, fun r => ?_⟩
  · rw [run_watchEvent, dueMarks]
    dsimp only
    cases (env.game.event name r.game).1 <;> rfl
  · rw [run_watchEvent, dueMarks]
    dsimp only
    cases (env.game.event name r.game).1 <;> exact (List.append_nil _).symm
  · rw [dueMarks]
    dsimp only
    cases (env.game.event name r.game).1 with
    | some active => exact ⟨rfl, trivial⟩
    | none => trivial

/-! ## Calls -/

section

variable {env : Env σ} {es : List Expr}

/-- Expressions whose marks tell what their evaluations do. -/
abbrev AllTell (env : Env σ) (es : List Expr) : Prop := ∀ e ∈ es, Tells (e.eval env) (e.marks env)

/-- After the arguments that are evaluated there are no marks. -/
theorem tells_done (env : Env σ) (es : List Expr) (a : α) :
    Tells (pure a) (Expr.marksOfFirst env es 0) := by
  cases es <;> exact .of_pure a

/-- The marks of an argument that is evaluated as a number come before those of the others. -/
theorem tells_argument {e : Expr} (he : Tells (e.eval env) (e.marks env)) {n : Nat}
    {f : Float → Eval σ α} (hf : ∀ a, Tells (f a) (Expr.marksOfFirst env es n)) :
    Tells (do f (← Argument.number ⟨e.word?, e.eval env⟩))
      (Expr.marksOfFirst env (e :: es) (n + 1)) := by
  simp only [Argument.number, bind_assoc, pure_bind]
  exact he.bind fun v => hf v.asNumber

theorem tells_nameArgument (hes : AllTell env es) :
    Tells (nameArgument (Expr.arguments env es))
      (Expr.marksOfFirst env es (namesEvaluated es)) := by
  cases es with
  | nil => exact .of_pure none
  | cons e es =>
    simp only [Expr.arguments, nameArgument, namesEvaluated]
    cases e.word? with
    | some word => exact .of_pure _
    | none =>
      refine (hes e List.mem_cons_self).bind fun v => ?_
      split <;> exact tells_done env es _

/-- A function of a name has the marks of the name and then those of its work on it. -/
theorem tells_onName (hes : AllTell env es) {f : String → Eval σ Bool}
    {next : Option String → Marks σ} (hnone : next none = .none)
    (hf : ∀ name, Tells (f name) (next (some name))) :
    Tells
      (do
        match ← nameArgument (Expr.arguments env es) with
        | some name => return Value.bool (← f name)
        | none => return .bool false)
      ((Expr.marksOfFirst env es (namesEvaluated es)).andThen
        (nameArgument (Expr.arguments env es)) next) := by
  refine (tells_nameArgument hes).bind fun name => ?_
  cases name with
  | none => exact hnone ▸ .of_pure _
  | some name => exact (hf name).andReturn Value.bool

/-- The work of a function that watches the event of a name. -/
def watchNamed (env : Env σ) (rising : Bool) (name : Eval σ (Option String)) : Eval σ Value := do
  match ← name with
  | some event => return .bool (← watchEvent env event rising)
  | none => return .bool false

/-- The mark of a call that watches an event, which says what the program gets, is the one that
is due. -/
theorem append_watchMarks (first : Marks σ) (rising : Bool) (name : Eval σ (Option String)) :
    first.append (watchMarks env rising name (watchNamed env rising name)) =
      first.andThen name (dueMarks env rising) := by
  funext r
  rw [Marks.append, Marks.andThen, watchMarks, watchNamed, run_bind]
  match name.run.run r with
  | (.error halt, named) => rfl
  | (.ok none, named) => rfl
  | (.ok (some event), named) =>
    dsimp only
    rw [run_bind, run_watchEvent, dueMarks]
    dsimp only
    cases (env.game.event event named.game).1 <;> rfl

theorem tells_watchNamed (hes : AllTell env es) (rising : Bool) :
    Tells (watchNamed env rising (nameArgument (Expr.arguments env es)))
      ((Expr.marksOfFirst env es (namesEvaluated es)).append
        (watchMarks env rising (nameArgument (Expr.arguments env es))
          (watchNamed env rising (nameArgument (Expr.arguments env es))))) := by
  rw [append_watchMarks]
  exact tells_onName hes rfl fun name => tells_watchEvent env name rising

theorem tells_call (f : Function) (hes : AllTell env es) :
    Tells (f.call env (Expr.arguments env es))
      (f.marks env es (Expr.marksOfFirst env es) (f.call env (Expr.arguments env es))) := by
  cases f with
  | event =>
    rw [Function.marks, ← Marks.andThen_none (Expr.marksOfFirst env es _)]
    exact tells_onName hes rfl fun _ => tells_ask _
  | probe kind =>
    rw [Function.marks, ← Marks.andThen_none (Expr.marksOfFirst env es _)]
    exact tells_onName hes rfl fun _ => tells_ask _
  | eventStart => exact tells_watchNamed hes true
  | eventEnd => exact tells_watchNamed hes false
  | random => exact tells_drawRandom.andReturn Value.number
  | abs =>
    match es, hes with
    | [], _ => exact .of_pure _
    | a :: es, hes => exact tells_argument (hes a (by simp)) fun _ => tells_done env es _
  | min | max =>
    match es, hes with
    | [], _ | [_], _ => exact .of_pure _
    | a :: b :: es, hes =>
      exact tells_argument (hes a (by simp)) fun _ =>
        tells_argument (hes b (by simp)) fun _ => tells_done env es _
  | between =>
    match es, hes with
    | [], _ | [_], _ | [_, _], _ => exact .of_pure _
    | a :: b :: c :: es, hes =>
      exact tells_argument (hes a (by simp)) fun _ =>
        tells_argument (hes b (by simp)) fun _ =>
          tells_argument (hes c (by simp)) fun _ => tells_done env es _
  | timeInState => exact .of_pure _
  | frameIndex => exact .of_pure _
  | cycleCount => exact .of_pure _
  | gauge kind => exact (tells_ask _).andReturn Value.number

theorem tells_callNamed (name : String) (hes : AllTell env es) :
    Tells (callNamed env name (Expr.arguments env es)) ((Expr.call name es).marks env) := by
  rw [Expr.marks, Expr.eval, callNamed]
  cases Function.ofName? name with
  | some f => exact tells_call f hes
  | none => exact (tells_reportOnce _ _).andReturn fun _ => Value.bool false

/-! ## Expressions -/

variable (env)

theorem tells_binary {left right : Expr} (hl : Tells (left.eval env) (left.marks env))
    (hr : Tells (right.eval env) (right.marks env)) (op : BinaryOp) :
    Tells ((Expr.binary op left right).eval env) ((Expr.binary op left right).marks env) := by
  cases op with
  | or =>
    rw [Expr.eval]
    exact hl.bind fun v => .of_ite (.of_pure _) (hr.andReturn fun b => Value.bool b.truthy)
  | and =>
    rw [Expr.eval]
    exact hl.bind fun v => .of_ite (hr.andReturn fun b => Value.bool b.truthy) (.of_pure _)
  | _ => exact hl.bind fun a => hr.andReturn (BinaryOp.apply _ a)

mutual

/-- The marks of an expression tell what its evaluation does. -/
theorem Expr.tells_eval : ∀ e : Expr, Tells (e.eval env) (e.marks env)
  | .number _ => .of_pure _
  | .text _ => .of_pure _
  | .bool _ => .of_pure _
  | .variable name => tells_readVariable env name
  | .unary op operand => operand.tells_eval.andReturn op.apply
  | .binary op left right => tells_binary env left.tells_eval right.tells_eval op
  | .call name args => tells_callNamed name (tells_evals args)

theorem tells_evals : ∀ es : List Expr, AllTell env es
  | [] => nofun
  | e :: es => List.forall_mem_cons.2 ⟨e.tells_eval, tells_evals es⟩

end

/-! ## Statements -/

mutual

/-- The marks of a statement tell what its execution does. -/
theorem Statement.tells_exec : ∀ s : Statement, Tells (s.exec env) (s.marks env)
  | .declare mutable name value =>
    (value.tells_eval env).bind_none fun v =>
      (tells_declareName name ⟨v, mutable⟩).andReturn fun _ => none
  | .assign name value =>
    (value.tells_eval env).bind_none fun v => (tells_assignName name v).andReturn fun _ => none
  | .branch branches (some body) => tells_branches (tells_block body) branches
  | .branch branches none => tells_branches (.of_pure none) branches
  | .choose subject arms => (tells_readVariable env subject).bind (tells_arms arms)
  | .result value => (value.tells_eval env).andReturn some
  | .effect value => (value.tells_eval env).andReturn fun _ => none

theorem tells_block : ∀ body : List Statement, Tells (execBlock env body) (blockMarks env body)
  | [] => .of_pure none
  | s :: rest => s.tells_exec.bind fun
    | some _ => .of_pure _
    | none => tells_block rest

theorem tells_branches {otherwise : Eval σ (Option Value)} {marks : Marks σ}
    (h : Tells otherwise marks) : ∀ branches : List (Expr × List Statement),
      Tells (execBranches env otherwise branches) (branchMarks env marks branches)
  | [] => h
  | (condition, body) :: rest =>
    (condition.tells_eval env).bind fun _ => .of_ite (tells_block body) (tells_branches h rest)

theorem tells_arms : ∀ (arms : List (Pattern × List Statement)) (value : Value),
    Tells (execArms env value arms) (armMarks env arms value)
  | [], _ => .of_pure none
  | (_, body) :: rest, value => by
    rw [execArms]
    exact .of_ite (tells_block body) (tells_arms rest value)

end

/-- The marks of a program tell what its run does. -/
theorem Program.tells_run (p : Program) : Tells (p.run env) (p.marks env) := by
  cases p with
  | flat condition => exact (condition.tells_eval env).andReturn Value.truthy
  | block body =>
    refine (tells_block env body).bind_none fun value => ?_
    cases value <;> exact .of_pure _

end

/-! ## Evaluations -/

namespace Condition

/-- The mark of a failure. -/
def failure (c : Condition) : Except Halt Bool → List Mark
  | .error (.failed e) => [.met (.failure e) (.conditionFailed c.source e)]
  | _ => []

/-- The marks of an evaluation: those of the program and that of a failure. -/
def marks (c : Condition) (setting : Setting σ) : List Mark :=
  match c.program with
  | some program =>
    program.marks (c.env setting) (c.firstRun setting) ++
      c.failure ((program.run (c.env setting)).run.run (c.firstRun setting)).1
  | none => []

theorem memory_conclude (c : Condition) (done : Except Halt Bool × Run σ) :
    (c.conclude done).condition.memory = (c.failure done.1).foldl Memory.note done.2.memory ∧
      (c.conclude done).notices = done.2.notices ++ noticesOf done.2.memory (c.failure done.1) ∧
      AllDue done.2.memory (c.failure done.1) := by
  obtain ⟨outcome, run⟩ := done
  cases outcome with
  | ok result => exact ⟨memory_settle _ result, (List.append_nil _).symm, trivial⟩
  | error halt =>
    cases halt with
    | crashed => exact ⟨rfl, (List.append_nil _).symm, trivial⟩
    | failed e =>
      refine ⟨?_, ?_, trivial, trivial⟩
      · dsimp only [conclude, failure, List.foldl_cons, List.foldl_nil, Memory.note]
        split <;> rfl
      · dsimp only [conclude, failure, noticesOf, Mark.notices]
        split
        · exact (List.append_nil _).symm
        · rfl

/-- The memory and the notices after an evaluation follow from its marks. -/
theorem tells_evaluateIn (c : Condition) (setting : Setting σ) :
    (c.evaluateIn setting).condition.memory = (c.marks setting).foldl Memory.note c.memory ∧
      (c.evaluateIn setting).notices = noticesOf c.memory (c.marks setting) ∧
      AllDue c.memory (c.marks setting) := by
  unfold marks
  cases hprogram : c.program with
  | none =>
    rw [evaluateIn, evaluate_of_not_program hprogram]
    exact ⟨rfl, rfl, trivial⟩
  | some program =>
    have htells := program.tells_run (c.env setting)
    have hstart : (c.firstRun setting).memory = c.memory := rfl
    obtain ⟨hmemory, hnotices, hdue⟩ := c.memory_conclude
      ((program.run (c.env setting)).run.run (c.firstRun setting))
    rw [htells.memory, hstart] at hmemory hnotices hdue
    rw [htells.notices, hstart] at hnotices
    rw [evaluateIn_of_program hprogram]
    dsimp only
    rw [List.foldl_append, noticesOf_append, allDue_append]
    exact ⟨hmemory, hnotices, htells.due (c.firstRun setting), hdue⟩

/-- The marks of evaluations, one after the other. -/
def marksIn (c : Condition) : List (Setting σ) → List Mark
  | [] => []
  | setting :: settings =>
    c.marks setting ++ (c.evaluateIn setting).condition.marksIn settings

/-- The memory after evaluations follows from their marks. -/
theorem tells_after (c : Condition) (settings : List (Setting σ)) :
    (c.after settings).memory = (c.marksIn settings).foldl Memory.note c.memory ∧
      AllDue c.memory (c.marksIn settings) := by
  induction settings generalizing c with
  | nil => exact ⟨rfl, trivial⟩
  | cons setting settings ih =>
    obtain ⟨hmemory, -, hdue⟩ := c.tells_evaluateIn setting
    obtain ⟨hlater, hdueLater⟩ := ih (c.evaluateIn setting).condition
    rw [hmemory] at hlater hdueLater
    rw [after_cons, marksIn, List.foldl_append, allDue_append]
    exact ⟨hlater, hdue, hdueLater⟩

end Condition
end Flipbook.Expression
