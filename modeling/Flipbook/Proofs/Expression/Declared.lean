import Flipbook.Proofs.Expression.History
import Flipbook.Proofs.Expression.Simulation
import Flipbook.Proofs.Game.Calm

/-!
# Programs that declare what they assign

A statement fails when it assigns to a name that is not declared, or to a constant. Names are
declared while a program runs, wherever a declaration stands, and may be declared again. So it is
not enough that the name of an assignment is declared somewhere before it: the declaration has to
be one that is always run, and no other one may make the name a constant.

* `WellDeclared`: a block in which each assigned name is a variable of the outermost block by
  then, and a constant nowhere.
* `Secures`: what holds of the declared names before and after a computation that does not fail.
* `secures_exec`: a statement leaves variables declared that it does not make constants.
* `Condition.runs_to_end`: a well-declared program never fails.
-/
namespace Flipbook.Expression

/-! ## What stands in a program -/

mutual

/-- The statements in a statement, first of all itself. -/
def Statement.parts : Statement → List Statement
  | .declare mutable name value => [.declare mutable name value]
  | .assign name value => [.assign name value]
  | .branch branches (some body) =>
    .branch branches (some body) :: (partsOfBranches branches ++ partsOfBlock body)
  | .branch branches none => .branch branches none :: partsOfBranches branches
  | .choose subject arms => .choose subject arms :: partsOfArms arms
  | .result value => [.result value]
  | .effect value => [.effect value]

/-- The statements in some statements. -/
def partsOfBlock : List Statement → List Statement
  | [] => []
  | s :: rest => s.parts ++ partsOfBlock rest

/-- The statements in the blocks of branches. -/
def partsOfBranches : List (Expr × List Statement) → List Statement
  | [] => []
  | (_, body) :: rest => partsOfBlock body ++ partsOfBranches rest

/-- The statements in the blocks of arms. -/
def partsOfArms : List (Pattern × List Statement) → List Statement
  | [] => []
  | (_, body) :: rest => partsOfBlock body ++ partsOfArms rest

end

/-- The name that a statement assigns to. -/
def Statement.assigns? : Statement → Option String
  | .assign name _ => some name
  | _ => none

/-- The name that a statement declares, as a variable or as a constant. -/
def Statement.declares? (mutable : Bool) : Statement → Option String
  | .declare mutable' name _ => if mutable' = mutable then some name else none
  | _ => none

/-- The names that are assigned to among some statements. -/
def assignedIn (statements : List Statement) : List String :=
  statements.filterMap Statement.assigns?

/-- The names that are declared among some statements, as variables or as constants. -/
def declaredIn (mutable : Bool) (statements : List Statement) : List String :=
  statements.filterMap (Statement.declares? mutable)

/-- A block in which each name that is assigned to, in whatever block of its, is a variable that
the outermost block has declared before the statement of its own that the assignment stands in,
and that no block declares as a constant. -/
def WellDeclared (body : List Statement) : Prop :=
  (∀ i, ∀ h : i < body.length, ∀ name ∈ assignedIn body[i].parts,
    name ∈ declaredIn true (body.take i)) ∧
  ∀ name ∈ assignedIn (partsOfBlock body), name ∉ declaredIn false (partsOfBlock body)

instance (body : List Statement) : Decidable (WellDeclared body) :=
  inferInstanceAs (Decidable (_ ∧ _))

/-- A program whose block, if it has one, is well declared. -/
def Program.WellDeclared : Program → Prop
  | .flat _ => True
  | .block body => Expression.WellDeclared body

theorem mem_assignedIn_iff {statements : List Statement} {name : String} :
    name ∈ assignedIn statements ↔ ∃ value, Statement.assign name value ∈ statements := by
  simp only [assignedIn, List.mem_filterMap]
  constructor
  · rintro ⟨s, hs, hname⟩
    cases s with
    | assign other value =>
      obtain rfl : other = name := Option.some.inj hname
      exact ⟨value, hs⟩
    | _ => cases hname
  · rintro ⟨value, hs⟩
    exact ⟨_, hs, rfl⟩

theorem mem_declaredIn_iff {mutable : Bool} {statements : List Statement} {name : String} :
    name ∈ declaredIn mutable statements ↔
      ∃ value, Statement.declare mutable name value ∈ statements := by
  simp only [declaredIn, List.mem_filterMap]
  constructor
  · rintro ⟨s, hs, hname⟩
    cases s with
    | declare mutable' other value =>
      obtain ⟨rfl, rfl⟩ : mutable' = mutable ∧ other = name := by
        simpa [Statement.declares?] using hname
      exact ⟨value, hs⟩
    | _ => cases hname
  · rintro ⟨value, hs⟩
    exact ⟨_, hs, if_pos rfl⟩

theorem parts_subset_partsOfBlock {body : List Statement} {s t : Statement} (hs : s ∈ body)
    (ht : t ∈ s.parts) : t ∈ partsOfBlock body := by
  induction body with
  | nil => cases hs
  | cons first rest ih =>
    rw [partsOfBlock, List.mem_append]
    rcases List.mem_cons.1 hs with rfl | hrest
    · exact .inl ht
    · exact .inr (ih hrest)

/-! ## Declared names -/

/-- Whether all names of some kind are declared as variables. -/
def Declared (good : String → Prop) (locals : Table String Binding) : Prop :=
  ∀ name, good name → ∃ value, locals.get? name = some ⟨value, true⟩

namespace Declared

variable {good : String → Prop} {locals : Table String Binding} {name : String}

theorem insert_variable (h : Declared good locals) (value : Value) :
    Declared (fun other => good other ∨ other = name) (locals.insert name ⟨value, true⟩) := by
  intro other hother
  rw [Table.get?_insert]
  by_cases hsame : compare other name = .eq
  · exact ⟨value, if_pos hsame⟩
  · rw [if_neg hsame]
    refine h other (hother.resolve_right ?_)
    rintro rfl
    exact hsame Std.ReflCmp.compare_self

theorem insert_other (h : Declared good locals) (hname : ¬good name) (binding : Binding) :
    Declared good (locals.insert name binding) := by
  intro other hother
  have hne : ¬compare other name = .eq := by
    intro heq
    obtain rfl : other = name := Std.LawfulEqCmp.eq_of_compare heq
    exact hname hother
  rw [Table.get?_insert, if_neg hne]
  exact h other hother

end Declared

/-! ## Computations that do not fail -/

variable {σ α β : Type} {P Q R : Table String Binding → Prop} {good : String → Prop}

/-- Whether a computation that starts with declared names as `P` says does not fail, and leaves
declared names as `Q` says if it comes to its end. -/
structure Secures (P Q : Table String Binding → Prop) (x : Eval σ α) : Prop where
  safe : ∀ r, P r.locals → ∀ error, (x.run.run r).1 ≠ .error (.failed error)
  leaves : ∀ r, P r.locals → ∀ a, (x.run.run r).1 = .ok a → Q (x.run.run r).2.locals

namespace Secures

theorem of_pure (a : α) : Secures P P (pure a : Eval σ α) := ⟨fun _ _ _ => nofun, fun _ h _ _ => h⟩

theorem bind {x : Eval σ α} {f : α → Eval σ β} (hx : Secures P Q x) (hf : ∀ a, Secures Q R (f a)) :
    Secures P R (x >>= f) := by
  constructor
  · intro r hr error
    have hsafe := hx.safe r hr error
    have hleaves := hx.leaves r hr
    rw [run_bind]
    cases hend : (x.run.run r).1 with
    | ok a => exact (hf a).safe _ (hleaves a hend) error
    | error halt =>
      rw [hend] at hsafe
      exact fun heq => hsafe (congrArg Except.error (Except.error.inj heq))
  · intro r hr b hb
    have hleaves := hx.leaves r hr
    rw [run_bind] at hb ⊢
    cases hend : (x.run.run r).1 with
    | ok a =>
      rw [hend] at hb
      exact (hf a).leaves _ (hleaves a hend) b hb
    | error halt =>
      rw [hend] at hb
      cases hb

theorem andReturn {x : Eval σ α} (hx : Secures P Q x) (f : α → β) :
    Secures P Q (do return f (← x)) :=
  hx.bind fun a => of_pure (f a)

/-- What reads the run that it is in secures what it goes on with there. -/
theorem of_get {f : Run σ → Eval σ α} (h : ∀ r, P r.locals → Secures P Q (f r)) :
    Secures P Q (do f (← get)) :=
  ⟨fun r hr => (h r hr).safe r hr, fun r hr => (h r hr).leaves r hr⟩

theorem set_bind {r : Run σ} {x : Eval σ α} (hr : P r.locals) (hx : Secures P Q x) :
    Secures P Q (do set r; x) :=
  ⟨fun _ _ => hx.safe r hr, fun _ _ => hx.leaves r hr⟩

/-- What leaves the declared names alone and does not fail keeps all that holds of them. -/
theorem of_kept {x : Eval σ α} (hlocals : ∀ r, (x.run.run r).2.locals = r.locals)
    (hsafe : ∀ r error, (x.run.run r).1 ≠ .error (.failed error)) : Secures P P x :=
  ⟨fun r _ => hsafe r, fun r hr _ _ => (hlocals r).symm ▸ hr⟩

/-- A decision between two ways that secure the same. -/
theorem of_ite {c : Prop} [Decidable c] {x y : Eval σ α} (hx : Secures P Q x)
    (hy : Secures P Q y) : Secures P Q (if c then x else y) := by
  split
  · exact hx
  · exact hy

end Secures

/-! ## Expressions -/

/-- Whether a computation does not fail and keeps whatever holds of the declared names. -/
def Gentle (x : Eval σ α) : Prop := ∀ P, Secures P P x

theorem gentle_ask (question : σ → Option α × σ) : Gentle (ask question) := by
  intro P
  refine .of_kept (fun r => ?_) fun r error => ?_
  · rw [run_ask]
  · rw [run_ask]
    dsimp only
    cases (question r.game).1 <;> nofun

theorem gentle_reportOnce (problem : Report) (notice : Notice) :
    Gentle (reportOnce problem notice : Eval σ Unit) := by
  intro P
  refine .of_kept (fun r => ?_) fun _ _ => nofun
  show (if problem ∈ r.memory.reported then r
    else { r with
      memory := r.memory.report problem
      notices := r.notices ++ [notice] }).locals = _
  split <;> rfl

theorem gentle_readVariable (env : Env σ) (name : String) : Gentle (readVariable env name) := by
  intro P
  refine .of_get fun r _ => ?_
  cases r.locals.get? name with
  | some binding => exact .of_pure _
  | none =>
    cases env.scope.get? name with
    | some value => exact .of_pure _
    | none => exact (gentle_reportOnce _ _ P).andReturn _

theorem gentle_drawRandom : Gentle (drawRandom : Eval σ Float) := by
  intro P
  refine .of_get fun r hr => ?_
  exact .set_bind hr (.of_pure _)

/-- The primitive steps of expressions do not fail and leave the declared names alone. -/
theorem evalLockstep_gentle (env : Env σ) :
    EvalLockstep (fun x _ => Gentle x) (fun _ => True) env env where
  value a _ := .of_pure a
  andThen hx hf P := (hx P).bind fun a => hf a P
  scope := rfl
  elapsed _ := rfl
  event _ := gentle_ask _
  watch _ _ _ P := (gentle_ask _ P).bind fun _ => .of_kept (fun _ => rfl) fun _ _ => nofun
  probe _ _ := gentle_ask _
  gauge _ := gentle_ask _
  random _ := gentle_drawRandom
  report := gentle_reportOnce
  read := gentle_readVariable env

/-- Expressions do not fail and leave the declared names alone. -/
theorem gentle_eval (env : Env σ) (e : Expr) : Gentle (e.eval env) :=
  (evalLockstep_gentle env).together_eval e (.of_forall (fun _ => trivial) _)

/-! ## Statements -/

theorem secures_declareName {name : String} {binding : Binding}
    (h : ∀ locals, P locals → Q (locals.insert name binding)) :
    Secures P Q (declareName name binding : Eval σ Unit) :=
  ⟨fun _ _ _ => nofun, fun r hr _ _ => h r.locals hr⟩

/-- An assignment to a name that is declared as a variable does not fail. -/
theorem secures_assignName {name : String} (hname : good name) (value : Value) :
    Secures (Declared good) (Declared good) (assignName name value : Eval σ Unit) := by
  refine .of_get fun r hr => ?_
  obtain ⟨old, hold⟩ := hr name hname
  rw [hold]
  refine secures_declareName fun locals hlocals => ?_
  exact fun other hother => hlocals.insert_variable value other (.inl hother)

/-- Whether a statement itself, its blocks apart, assigns to good names only and makes none of
them a constant. -/
def Statement.Spares (good : String → Prop) : Statement → Prop
  | .assign name _ => good name
  | .declare false name _ => ¬good name
  | _ => True

/-- Whether all statements in some statements spare the good names. -/
abbrev AllSpare (good : String → Prop) (parts : List Statement) : Prop :=
  ∀ t ∈ parts, t.Spares good

mutual

/-- A statement leaves variables declared that no statement in it makes a constant, and does not
fail if it assigns to these only. -/
theorem secures_exec (env : Env σ) :
    ∀ s : Statement, AllSpare good s.parts →
      Secures (Declared good) (Declared good) (s.exec env)
  | .declare mutable name value, h => by
    refine (gentle_eval env value _).bind fun v => (secures_declareName ?_).andReturn _
    intro locals hlocals
    cases mutable with
    | true => exact fun other hother => hlocals.insert_variable v other (.inl hother)
    | false => exact hlocals.insert_other (h _ List.mem_cons_self) _
  | .assign name value, h =>
    (gentle_eval env value _).bind fun v =>
      (secures_assignName (h _ List.mem_cons_self) v).andReturn _
  | .branch branches (some body), h =>
    have hparts := List.forall_mem_append.1 (List.forall_mem_cons.1 h).2
    secures_branches env (secures_block env body hparts.2) branches hparts.1
  | .branch branches none, h =>
    secures_branches env (.of_pure none) branches (List.forall_mem_cons.1 h).2
  | .choose subject arms, h =>
    (gentle_readVariable env subject _).bind fun v =>
      secures_arms env v arms (List.forall_mem_cons.1 h).2
  | .result value, _ => (gentle_eval env value _).andReturn some
  | .effect value, _ => (gentle_eval env value _).andReturn fun _ => none

theorem secures_block (env : Env σ) :
    ∀ body : List Statement, AllSpare good (partsOfBlock body) →
      Secures (Declared good) (Declared good) (execBlock env body)
  | [], _ => .of_pure none
  | s :: rest, h =>
    have hparts := List.forall_mem_append.1 h
    (secures_exec env s hparts.1).bind fun
      | some _ => .of_pure _
      | none => secures_block env rest hparts.2

theorem secures_branches (env : Env σ) {otherwise : Eval σ (Option Value)}
    (hotherwise : Secures (Declared good) (Declared good) otherwise) :
    ∀ branches : List (Expr × List Statement), AllSpare good (partsOfBranches branches) →
      Secures (Declared good) (Declared good) (execBranches env otherwise branches)
  | [], _ => hotherwise
  | (condition, body) :: rest, h =>
    have hparts := List.forall_mem_append.1 h
    (gentle_eval env condition _).bind fun _ =>
      .of_ite (secures_block env body hparts.1) (secures_branches env hotherwise rest hparts.2)

theorem secures_arms (env : Env σ) (value : Value) :
    ∀ arms : List (Pattern × List Statement), AllSpare good (partsOfArms arms) →
      Secures (Declared good) (Declared good) (execArms env value arms)
  | [], _ => .of_pure none
  | (pattern, body) :: rest, h => by
    have hparts := List.forall_mem_append.1 h
    rw [execArms]
    exact .of_ite (secures_block env body hparts.1) (secures_arms env value rest hparts.2)

end

/-! ## Well-declared blocks -/

/-- The names that statements of the outermost block have declared as variables and that no block
declares as constants. -/
def Lasting (body before : List Statement) (name : String) : Prop :=
  name ∈ declaredIn true before ∧ name ∉ declaredIn false (partsOfBlock body)

/-- The next statement of a well-declared block does not fail, and adds its own variable to those
that last. -/
theorem WellDeclared.secures_next {before rest : List Statement} {s : Statement}
    (h : WellDeclared (before ++ s :: rest)) (env : Env σ) :
    Secures (Declared (Lasting (before ++ s :: rest) before))
      (Declared (Lasting (before ++ s :: rest) (before ++ [s]))) (s.exec env) := by
  have hmem {t : Statement} (ht : t ∈ s.parts) : t ∈ partsOfBlock (before ++ s :: rest) :=
    parts_subset_partsOfBlock (by simp) ht
  have hspares : AllSpare (Lasting (before ++ s :: rest) before) s.parts := by
    intro t ht
    cases t with
    | assign name value =>
      have hassigned : name ∈ assignedIn s.parts := mem_assignedIn_iff.2 ⟨value, ht⟩
      have hvariable := h.1 before.length (by simp) name
      simp only [List.getElem_append_right (Nat.le_refl _), Nat.sub_self, List.getElem_cons_zero,
        List.take_left] at hvariable
      exact ⟨hvariable hassigned, h.2 name (mem_assignedIn_iff.2 ⟨value, hmem ht⟩)⟩
    | declare mutable name value =>
      cases mutable with
      | true => trivial
      | false => exact fun hlasting => hlasting.2 (mem_declaredIn_iff.2 ⟨value, hmem ht⟩)
    | _ => trivial
  have hsame (hnone : s.declares? true = none) :
      declaredIn true (before ++ [s]) = declaredIn true before := by
    simp [declaredIn, hnone]
  cases s with
  | declare mutable name value =>
    cases mutable with
    | true =>
      refine (gentle_eval env value _).bind fun v => (secures_declareName ?_).andReturn _
      rintro locals hlocals other ⟨hvariable, hconstant⟩
      refine hlocals.insert_variable v other ?_
      simp only [declaredIn, List.filterMap_append, List.mem_append] at hvariable
      refine hvariable.imp (fun hbefore => ⟨hbefore, hconstant⟩) fun hnew => ?_
      simpa [Statement.declares?] using hnew
    | false =>
      unfold Lasting
      rw [hsame rfl]
      exact secures_exec env _ hspares
  | _ =>
    unfold Lasting
    rw [hsame rfl]
    exact secures_exec env _ hspares

/-- What is left of a well-declared block does not fail behind what has been run. -/
theorem WellDeclared.secures_rest {body : List Statement} (h : WellDeclared body) (env : Env σ)
    {before rest : List Statement} (hbody : before ++ rest = body) :
    Secures (Declared (Lasting body before)) (fun _ => True) (execBlock env rest) := by
  -- the induction is on what is left; each statement hands on what lasts behind it
  induction rest generalizing before with
  | nil => exact ⟨fun _ _ _ => nofun, fun _ _ _ _ => trivial⟩
  | cons s rest ih =>
    subst hbody
    refine (h.secures_next env).bind fun value => ?_
    cases value with
    | some value => exact ⟨fun _ _ _ => nofun, fun _ _ _ _ => trivial⟩
    | none => exact ih (by simp)

/-- A well-declared program does not fail, whatever is declared when it starts. -/
theorem Program.WellDeclared.not_failed {p : Program} (h : p.WellDeclared) (env : Env σ)
    (r : Run σ) (error : RunError) : ((p.run env).run.run r).1 ≠ .error (.failed error) := by
  cases p with
  | flat condition =>
    exact ((gentle_eval env condition fun _ => True).andReturn Value.truthy).safe r trivial error
  | block body =>
    have hnone : Declared (Lasting body []) r.locals := fun name hname => nomatch hname.1
    have hrun : Secures (Declared (Lasting body [])) (fun _ => True)
        ((Program.block body).run env) := by
      refine (Expression.WellDeclared.secures_rest h env (List.nil_append body)).bind
        fun value => ?_
      cases value <;> exact .of_pure _
    exact hrun.safe r hnone error

/-! ## Conditions -/

namespace Condition

/-- A condition whose program is well declared never fails, in no setting and whatever it
remembers. In a game that does not crash its program runs to the end, and the evaluation gives
what the program comes to. -/
theorem runs_to_end {c : Condition} {p : Program} (hprogram : c.program = some p)
    (h : p.WellDeclared) (setting : Setting σ) :
    (∀ error, c.outcome? setting ≠ some (.error (.failed error))) ∧
    (setting.game.Calm setting.state →
      ∃ value, c.outcome? setting = some (.ok value) ∧
        (c.evaluateIn setting).result = some value) := by
  have hfailed := h.not_failed (c.env setting) (c.firstRun setting)
  have houtcome := outcome?_of_program hprogram setting
  constructor
  · intro error herror
    exact hfailed error (Option.some.inj (houtcome.symm.trans herror))
  · intro hcalm
    have hresult : (c.evaluateIn setting).result ≠ none := hcalm.evaluate c setting.scope
    cases hend : ((p.run (c.env setting)).run.run (c.firstRun setting)).1 with
    | ok value =>
      rw [hend] at houtcome
      exact ⟨value, houtcome, (evaluateIn_of_ok houtcome).1⟩
    | error halt =>
      cases halt with
      | failed error => exact absurd hend (hfailed error)
      | crashed =>
        rw [hend] at houtcome
        exact absurd (evaluateIn_of_error houtcome).1 hresult

/-- A program that assigns below conditions and in arms, also to a name that it declares again
below a condition, and that declares constants between. -/
def harvestProgram : Program :=
  .block
    [.declare true "ripe" (.bool false),
      .declare false "season" (.text "autumn"),
      .branch
        [(.call "event" [.variable "rain"],
          [.declare true "ripe" (.number 2),
            .choose "season"
              [(.text "autumn", [.assign "ripe" (.bool true)]),
                (.rest, [.result (.bool false)])]])]
        (some [.declare false "dry" (.bool true), .assign "ripe" (.variable "dry")]),
      .declare true "ripe" (.unary .not (.variable "ripe")),
      .assign "ripe" (.unary .not (.variable "ripe")),
      .result (.variable "ripe")]

theorem wellDeclared_harvestProgram : harvestProgram.WellDeclared := by
  show Expression.WellDeclared _
  decide +kernel

theorem runs_to_end_harvestProgram :
    harvestProgram.WellDeclared ∧
      (Setting.staged ["rain"] []).game.Calm (Setting.staged ["rain"] []).state ∧
      (∃ value,
        ((build "harvest" (some harvestProgram) .zeros).evaluateIn (.staged ["rain"] [])).result =
          some value) ∧
      ∀ error,
        (build "harvest" (some harvestProgram) .zeros).outcome? (.staged [] [.event "rain"]) ≠
          some (.error (.failed error)) := by
  have hcalm : (Setting.staged ["rain"] []).game.Calm (Setting.staged ["rain"] []).state :=
    Stage.calm rfl []
  obtain ⟨value, -, hvalue⟩ :=
    (runs_to_end (c := build "harvest" (some harvestProgram) .zeros) rfl wellDeclared_harvestProgram
      (.staged ["rain"] [])).2 hcalm
  exact ⟨wellDeclared_harvestProgram, hcalm, ⟨value, hvalue⟩,
    (runs_to_end (c := build "harvest" (some harvestProgram) .zeros) rfl wellDeclared_harvestProgram
      (.staged [] [.event "rain"])).1⟩

end Condition

end Flipbook.Expression
