import Flipbook.Proofs.Expression.Marks

/-!
# Problems are reported once

A condition is used over and over: it is evaluated in all kinds of settings, and it is reset. Its
program may come upon the same problem each time. Whatever comes up is reported when it comes up
first, and never again.

* `Condition.problems`: the problems that come up in some uses, as often as they do.
* `news`: those that were not reported before, each where it comes up first.
* `Condition.tells_use`, `Condition.tells_through`: what one use reports and keeps as reported, and
  what many do.
* `Condition.reports_once`: a condition that has reported nothing yet reports each problem once.
-/
namespace Flipbook.Expression

variable {σ α : Type}

/-! ## Problems and their notices -/

/-- The notice of a problem, in a condition with the given source. -/
def Report.notice (source : String) : Report → Notice
  | .variable name => .unknownVariable name
  | .function name => .unknownFunction name
  | .failure error => .conditionFailed source error

/-- Texts that open with different words are different. -/
theorem append_ne_append {front front' : String} (h : ¬front.toList <+: front'.toList)
    (h' : ¬front'.toList <+: front.toList) (back back' : String) :
    front ++ back ≠ front' ++ back' := by
  intro heq
  have hfront : front.toList <+: (front ++ back).toList :=
    String.toList_append ▸ List.prefix_append _ _
  have hfront' : front'.toList <+: (front' ++ back').toList :=
    String.toList_append ▸ List.prefix_append _ _
  rw [heq] at hfront
  exact (List.prefix_or_prefix_of_prefix hfront hfront').elim h h'

/-- What stands between the same words is the same. -/
theorem eq_of_between_eq {front back text text' : String}
    (h : front ++ text ++ back = front ++ text' ++ back) : text = text' :=
  (String.append_right_inj front).1 ((String.append_left_inj back).1 h)

theorem RunError.message_injective : Function.Injective RunError.message := by
  have hne (name name' : String) :
      (constantAssigned name).message ≠ (undeclaredAssigned name').message := by
    show "Cannot assign to constant `" ++ name ++ "`" ≠
      "Cannot assign to undeclared variable `" ++ name' ++ "`"
    rw [String.append_assoc, String.append_assoc]
    exact append_ne_append (by decide +kernel) (by decide +kernel) _ _
  intro e e' h
  cases e with
  | constantAssigned name =>
    cases e' with
    | constantAssigned name' => exact congrArg _ (eq_of_between_eq h)
    | undeclaredAssigned name' => exact absurd h (hne name name')
  | undeclaredAssigned name =>
    cases e' with
    | constantAssigned name' => exact absurd h.symm (hne name' name)
    | undeclaredAssigned name' => exact congrArg _ (eq_of_between_eq h)

/-- The words with which the notice of a problem opens. -/
def Report.opening : Report → String
  | .variable _ => "Unknown variable `"
  | .function _ => "Unknown function `"
  | .failure _ => "Expression `"

theorem Report.exists_text_eq (source : String) (problem : Report) :
    ∃ rest, (problem.notice source).text = problem.opening ++ rest :=
  match problem with
  | .variable name => ⟨name ++ "`, using 0", String.append_assoc⟩
  | .function name => ⟨name ++ "`, evaluating to false", String.append_assoc⟩
  | .failure error => by
    refine ⟨source ++ ("` failed: " ++ error.message), ?_⟩
    show "Expression `" ++ source ++ "` failed: " ++ error.message = _
    rw [String.append_assoc, String.append_assoc]
    rfl

/-- Different problems are reported in different words. -/
theorem Report.text_notice_injective (source : String) :
    Function.Injective fun problem : Report => (problem.notice source).text := by
  have apart {p p' : Report} (h : ¬p.opening.toList <+: p'.opening.toList)
      (h' : ¬p'.opening.toList <+: p.opening.toList) :
      (p.notice source).text ≠ (p'.notice source).text := by
    obtain ⟨rest, hp⟩ := p.exists_text_eq source
    obtain ⟨rest', hp'⟩ := p'.exists_text_eq source
    rw [hp, hp']
    exact append_ne_append h h' rest rest'
  have hwords : ¬"Unknown variable `".toList <+: "Unknown function `".toList ∧
      ¬"Unknown function `".toList <+: "Unknown variable `".toList := by decide +kernel
  have hwords' : ∀ front ∈ ["Unknown variable `", "Unknown function `"],
      ¬front.toList <+: "Expression `".toList ∧ ¬"Expression `".toList <+: front.toList := by
    decide +kernel
  have hvariable := hwords' _ List.mem_cons_self
  have hfunction := hwords' _ (List.mem_cons_of_mem _ List.mem_cons_self)
  intro p p' h
  match p, p' with
  | .variable _, .variable _ => exact congrArg _ (eq_of_between_eq h)
  | .function _, .function _ => exact congrArg _ (eq_of_between_eq h)
  | .failure e, .failure e' =>
    have hmessage : e.message = e'.message :=
      (String.append_right_inj ("Expression `" ++ source ++ "` failed: ")).1 h
    exact congrArg _ (RunError.message_injective hmessage)
  | .variable _, .function _ => exact absurd h (apart hwords.1 hwords.2)
  | .function _, .variable _ => exact absurd h (apart hwords.2 hwords.1)
  | .variable _, .failure _ => exact absurd h (apart hvariable.1 hvariable.2)
  | .failure _, .variable _ => exact absurd h (apart hvariable.2 hvariable.1)
  | .function _, .failure _ => exact absurd h (apart hfunction.1 hfunction.2)
  | .failure _, .function _ => exact absurd h (apart hfunction.2 hfunction.1)

/-! ## The problems among marks -/

/-- The problem that has left a mark. -/
def Mark.problem? : Mark → Option Report
  | .met problem _ => some problem
  | _ => none

/-- Whether the mark of a problem holds the notice of that problem. -/
def Mark.IsLabelled (source : String) : Mark → Prop
  | .met problem notice => notice = problem.notice source
  | _ => True

/-- Those of some problems that were not reported before, each where it comes up first. -/
def news (reported problems : List Report) : List Report :=
  (problems.filter (· ∉ reported)).eraseDups

theorem news_cons (reported : List Report) (problem : Report) (problems : List Report) :
    news reported (problem :: problems) =
      if problem ∈ reported then news reported problems
      else problem :: news (problem :: reported) problems := by
  unfold news
  by_cases h : problem ∈ reported
  · rw [if_pos h, List.filter_cons_of_neg (by simpa using h)]
  · rw [if_neg h, List.filter_cons_of_pos (by simpa using h), List.eraseDups_cons,
      List.filter_filter]
    refine congrArg _ (congrArg _ (List.filter_congr fun other _ => ?_))
    by_cases heq : other = problem <;> simp [heq]

/-- What is new depends on which problems were reported before, and not on their order. -/
theorem news_congr {reported reported' : List Report}
    (h : ∀ problem, problem ∈ reported ↔ problem ∈ reported') (problems : List Report) :
    news reported problems = news reported' problems := by
  unfold news
  simp only [h]

theorem news_append (reported problems more : List Report) :
    news reported (problems ++ more) =
      news reported problems ++ news (reported ++ problems) more := by
  induction problems generalizing reported with
  | nil => rw [List.append_nil]; rfl
  | cons problem problems ih =>
    rw [List.cons_append, news_cons, news_cons, ih, ih]
    by_cases h : problem ∈ reported
    · rw [if_pos h, if_pos h]
      refine congrArg _ (news_congr (fun other => ?_) more)
      have hsame : other ∈ reported ∨ other = problem ↔ other ∈ reported :=
        or_iff_left_of_imp fun heq => heq ▸ h
      rw [List.mem_append, List.mem_append, List.mem_cons, ← or_assoc, hsame]
    · rw [if_neg h, if_neg h, List.cons_append]
      refine congrArg _ (congrArg _ (news_congr (fun other => ?_) more))
      rw [List.mem_append, List.mem_cons, List.mem_append, List.mem_cons]
      exact or_left_comm

theorem mem_news_iff {reported problems : List Report} {problem : Report} :
    problem ∈ news reported problems ↔ problem ∈ problems ∧ problem ∉ reported := by
  simp [news]

theorem nodup_news (reported problems : List Report) : (news reported problems).Nodup := by
  induction problems generalizing reported with
  | nil => exact List.nodup_nil
  | cons problem problems ih =>
    rw [news_cons]
    split
    · exact ih reported
    · refine List.nodup_cons.2 ⟨fun hmem => ?_, ih (problem :: reported)⟩
      exact (mem_news_iff.1 hmem).2 List.mem_cons_self

theorem reported_note_drew (m : Memory) : (m.note .drew).reported = m.reported := by
  -- the parts are named so that the states of the random numbers need not be compared
  obtain ⟨lastSeen, random, reported⟩ := m
  rfl

theorem reported_note_met (m : Memory) (problem : Report) (notice : Notice) :
    (m.note (.met problem notice)).reported =
      if problem ∈ m.reported then m.reported else problem :: m.reported := by
  rw [Memory.note]
  split <;> rfl

/-- The marks of a run give notice of what is new among their problems. -/
theorem noticesOf_eq {source : String} (m : Memory) {marks : List Mark}
    (h : ∀ mark ∈ marks, mark.IsLabelled source) :
    noticesOf m marks =
      (news m.reported (marks.filterMap Mark.problem?)).map (Report.notice source) := by
  induction marks generalizing m with
  | nil => rfl
  | cons mark marks ih =>
    obtain ⟨hmark, hmarks⟩ := List.forall_mem_cons.1 h
    rw [noticesOf, ih (m.note mark) hmarks]
    cases mark with
    | watched event call => rfl
    | drew =>
      rw [reported_note_drew]
      rfl
    | met problem notice =>
      obtain rfl : notice = problem.notice source := hmark
      have hproblems : (Mark.met problem (problem.notice source) :: marks).filterMap
          Mark.problem? = problem :: marks.filterMap Mark.problem? := rfl
      rw [hproblems, news_cons, reported_note_met, Mark.notices]
      by_cases hknown : problem ∈ m.reported
      · rw [if_pos hknown, if_pos hknown, if_pos hknown]
        rfl
      · rw [if_neg hknown, if_neg hknown, if_neg hknown]
        rfl

/-- What was reported stays so, and the problems among the marks are reported by then. -/
theorem mem_reported_foldl (m : Memory) (marks : List Mark) (problem : Report) :
    problem ∈ (marks.foldl Memory.note m).reported ↔
      problem ∈ m.reported ∨ problem ∈ marks.filterMap Mark.problem? := by
  induction marks generalizing m with
  | nil => simp
  | cons mark marks ih =>
    rw [List.foldl_cons, ih]
    cases mark with
    | watched event call => rfl
    | drew =>
      rw [reported_note_drew]
      rfl
    | met other notice =>
      have hproblems : (Mark.met other notice :: marks).filterMap Mark.problem? =
          other :: marks.filterMap Mark.problem? := rfl
      rw [hproblems, reported_note_met, List.mem_cons]
      by_cases hknown : other ∈ m.reported
      · have hsame : problem ∈ m.reported ∨ problem = other ↔ problem ∈ m.reported :=
          or_iff_left_of_imp fun heq => heq ▸ hknown
        rw [if_pos hknown, ← or_assoc, hsame]
      · rw [if_neg hknown, List.mem_cons, or_assoc]
        exact or_left_comm

/-! ## The marks of a program -/

/-- Whether all marks of a computation have a property. -/
abbrev Marks.All (P : Mark → Prop) (marks : Marks σ) : Prop := ∀ r, ∀ mark ∈ marks r, P mark

section

variable {P : Mark → Prop} {marks more : Marks σ}

theorem Marks.all_none : (Marks.none : Marks σ).All P := fun _ _ h => absurd h List.not_mem_nil

theorem Marks.All.andThen (h : marks.All P) {x : Eval σ α} {next : α → Marks σ}
    (hnext : ∀ a, (next a).All P) : (marks.andThen x next).All P := by
  intro r mark hmark
  rcases List.mem_append.1 hmark with hmark | hmark
  · exact h r mark hmark
  · split at hmark
    · exact hnext _ _ mark hmark
    · cases hmark

theorem Marks.All.append (h : marks.All P) (h' : more.All P) : (marks.append more).All P :=
  fun r mark hmark => (List.mem_append.1 hmark).elim (h r mark) (h' r mark)

theorem Marks.all_ite {c : Prop} [Decidable c] (h : marks.All P) (h' : more.All P) :
    (if c then marks else more : Marks σ).All P := by
  split
  · exact h
  · exact h'

end

variable (source : String) (env : Env σ)

theorem labelled_readMarks (name : String) :
    (readMarks env name).All (Mark.IsLabelled source) := by
  intro r mark hmark
  unfold readMarks at hmark
  split at hmark
  · obtain rfl := List.mem_singleton.1 hmark
    rfl
  · cases hmark

theorem labelled_watchMarks (rising : Bool) (name : Eval σ (Option String))
    (call : Eval σ Value) : (watchMarks env rising name call).All (Mark.IsLabelled source) := by
  intro r mark hmark
  unfold watchMarks at hmark
  split at hmark
  · split at hmark
    · obtain rfl := List.mem_singleton.1 hmark
      trivial
    · cases hmark
  · cases hmark

theorem Function.labelled_marks (args : List Expr) {first : Nat → Marks σ}
    (h : ∀ n, (first n).All (Mark.IsLabelled source)) (call : Eval σ Value) (f : Function) :
    (f.marks env args first call).All (Mark.IsLabelled source) := by
  cases f with
  | event | probe kind => exact h _
  | eventStart | eventEnd => exact (h _).append (labelled_watchMarks source env _ _ call)
  | random =>
    intro r mark hmark
    obtain rfl := List.mem_singleton.1 hmark
    trivial
  | abs => exact h 1
  | min | max => exact Marks.all_ite (h 2) Marks.all_none
  | between => exact Marks.all_ite (h 3) Marks.all_none
  | timeInState | frameIndex | cycleCount | gauge kind => exact Marks.all_none

mutual

theorem Expr.labelled_marks : ∀ e : Expr, (e.marks env).All (Mark.IsLabelled source)
  | .number _ | .text _ | .bool _ => by
    rw [Expr.marks]
    exact Marks.all_none
  | .variable name => by
    rw [Expr.marks]
    exact labelled_readMarks source env name
  | .unary _ operand => by
    rw [Expr.marks]
    exact operand.labelled_marks
  | .binary op left right => by
    have hleft := left.labelled_marks
    have hright := right.labelled_marks
    cases op with
    | or => exact hleft.andThen fun v => Marks.all_ite Marks.all_none hright
    | and => exact hleft.andThen fun v => Marks.all_ite hright Marks.all_none
    | _ => exact hleft.andThen fun _ => hright
  | .call name args => by
    rw [Expr.marks]
    split
    · next f _ => exact f.labelled_marks source env args (labelled_marksOfFirst args) _
    · intro r mark hmark
      obtain rfl := List.mem_singleton.1 hmark
      rfl

theorem labelled_marksOfFirst : ∀ (es : List Expr) (n : Nat),
    (Expr.marksOfFirst env es n).All (Mark.IsLabelled source)
  | [], 0 | [], _ + 1 | _ :: _, 0 => Marks.all_none
  | e :: es, n + 1 => by
    rw [Expr.marksOfFirst]
    exact e.labelled_marks.andThen fun _ => labelled_marksOfFirst es n

end

mutual

theorem Statement.labelled_marks : ∀ s : Statement, (s.marks env).All (Mark.IsLabelled source)
  | .declare _ _ value | .assign _ value | .result value | .effect value => by
    rw [Statement.marks]
    exact value.labelled_marks source env
  | .branch branches (some body) => by
    rw [Statement.marks]
    exact labelled_branchMarks (labelled_blockMarks body) branches
  | .branch branches none => by
    rw [Statement.marks]
    exact labelled_branchMarks Marks.all_none branches
  | .choose subject arms => by
    rw [Statement.marks]
    exact (labelled_readMarks source env subject).andThen (labelled_armMarks arms)

theorem labelled_blockMarks : ∀ body : List Statement,
    (blockMarks env body).All (Mark.IsLabelled source)
  | [] => by
    rw [blockMarks]
    exact Marks.all_none
  | s :: rest => by
    rw [blockMarks]
    refine s.labelled_marks.andThen fun value => ?_
    cases value with
    | some _ => exact Marks.all_none
    | none => exact labelled_blockMarks rest

theorem labelled_branchMarks {otherwise : Marks σ}
    (h : otherwise.All (Mark.IsLabelled source)) : ∀ branches : List (Expr × List Statement),
      (branchMarks env otherwise branches).All (Mark.IsLabelled source)
  | [] => by
    rw [branchMarks]
    exact h
  | (condition, body) :: rest => by
    rw [branchMarks]
    exact (condition.labelled_marks source env).andThen fun _ =>
      Marks.all_ite (labelled_blockMarks body) (labelled_branchMarks h rest)

theorem labelled_armMarks : ∀ (arms : List (Pattern × List Statement)) (value : Value),
    (armMarks env arms value).All (Mark.IsLabelled source)
  | [], _ => by
    rw [armMarks]
    exact Marks.all_none
  | (_, body) :: rest, value => by
    rw [armMarks]
    exact Marks.all_ite (labelled_blockMarks body) (labelled_armMarks rest value)

end

theorem Program.labelled_marks (p : Program) : (p.marks env).All (Mark.IsLabelled source) := by
  cases p with
  | flat condition => exact condition.labelled_marks source env
  | block body => exact labelled_blockMarks source env body

/-! ## Uses of a condition -/

/-- What a condition goes through. -/
inductive Use (σ : Type) where
  | evaluated (setting : Setting σ)
  | reset

namespace Condition

/-- A condition after a use, and what it reports in it. -/
def use (c : Condition) : Use σ → Noted Condition
  | .evaluated setting => ⟨(c.evaluateIn setting).condition, (c.evaluateIn setting).notices⟩
  | .reset => pure c.reset

/-- A condition after some uses, and what it reports in them. -/
def through (c : Condition) (uses : List (Use σ)) : Noted Condition := uses.foldlM use c

/-- The problems that come up in a use, in the order in which they do. -/
def met (c : Condition) : Use σ → List Report
  | .evaluated setting => (c.marks setting).filterMap Mark.problem?
  | .reset => []

/-- The problems that come up in some uses, in the order in which they do. -/
def problems (c : Condition) : List (Use σ) → List Report
  | [] => []
  | u :: uses => c.met u ++ (c.use u).value.problems uses

theorem through_cons (c : Condition) (u : Use σ) (uses : List (Use σ)) :
    c.through (u :: uses) = c.use u >>= fun used => used.through uses :=
  List.foldlM_cons

theorem source_evaluateIn (c : Condition) (setting : Setting σ) :
    (c.evaluateIn setting).condition.source = c.source := by
  have hsettle (memory : Memory) (result : Bool) :
      ({ c with memory }.settle result).source = c.source := by
    unfold settle
    split <;> rfl
  match hend : c.outcome? setting with
  | none => rw [(evaluateIn_of_none hend).2]
  | some (.ok result) =>
    obtain ⟨memory, hcondition⟩ := (evaluateIn_of_ok hend).2
    rw [hcondition, hsettle]
  | some (.error halt) =>
    obtain ⟨memory, hcondition⟩ := (evaluateIn_of_error hend).2
    rw [hcondition]

/-- The marks of an evaluation hold the notices of their problems. -/
theorem labelled_marks (c : Condition) (setting : Setting σ) :
    ∀ mark ∈ c.marks setting, mark.IsLabelled c.source := by
  unfold marks
  split
  · next program _ =>
    refine List.forall_mem_append.2 ⟨program.labelled_marks c.source _ _, ?_⟩
    unfold failure
    split
    · exact List.forall_mem_singleton.2 rfl
    · exact List.forall_mem_nil _
  · exact List.forall_mem_nil _

/-- In a use a condition reports which of the problems that come up are new, and keeps them as
reported. -/
theorem tells_use (c : Condition) (u : Use σ) :
    (c.use u).value.source = c.source ∧
      (c.use u).notices = (news c.memory.reported (c.met u)).map (Report.notice c.source) ∧
      ∀ problem, problem ∈ (c.use u).value.memory.reported ↔
        problem ∈ c.memory.reported ∨ problem ∈ c.met u := by
  cases u with
  | evaluated setting =>
    obtain ⟨hmemory, hnotices, -⟩ := c.tells_evaluateIn setting
    refine ⟨c.source_evaluateIn setting, ?_, fun problem => ?_⟩
    · exact hnotices.trans (noticesOf_eq c.memory (c.labelled_marks setting))
    · have hreported := mem_reported_foldl c.memory (c.marks setting) problem
      rwa [← hmemory] at hreported
  | reset =>
    refine ⟨rfl, rfl, fun problem => ?_⟩
    exact (or_iff_left List.not_mem_nil).symm

/-- In many uses a condition reports which of the problems that come up are new, each where it
comes up first, and keeps them as reported. -/
theorem tells_through (c : Condition) (uses : List (Use σ)) :
    (c.through uses).value.source = c.source ∧
      (c.through uses).notices =
        (news c.memory.reported (c.problems uses)).map (Report.notice c.source) ∧
      ∀ problem, problem ∈ (c.through uses).value.memory.reported ↔
        problem ∈ c.memory.reported ∨ problem ∈ c.problems uses := by
  induction uses generalizing c with
  | nil => exact ⟨rfl, rfl, fun problem => (or_iff_left List.not_mem_nil).symm⟩
  | cons u uses ih =>
    obtain ⟨hsource, hnotices, hreported⟩ := c.tells_use u
    obtain ⟨hsource', hnotices', hreported'⟩ := ih (c.use u).value
    rw [hsource] at hsource' hnotices'
    rw [through_cons, problems]
    refine ⟨hsource', ?_, fun problem => ?_⟩
    · rw [Noted.notices_bind, hnotices, hnotices', news_append, List.map_append]
      refine congrArg _ (congrArg _ (news_congr (fun problem => ?_) _))
      rw [hreported, List.mem_append]
    · rw [Noted.value_bind, hreported', hreported, List.mem_append, or_assoc]

/-- Let a condition have reported nothing yet. In whatever uses, it then reports the problems
that come up, each where it comes up first and no more: it gives one notice with the words for
each. The same condition later on, or a copy of it by then, reports only what has not come up
before. -/
theorem reports_once {c : Condition} (h : c.memory.reported = []) (uses : List (Use σ)) :
    (c.through uses).notices = (c.problems uses).eraseDups.map (Report.notice c.source) ∧
    (∀ problem ∈ c.problems uses,
      ((c.through uses).notices.map Notice.text).count (problem.notice c.source).text = 1) ∧
    ∀ {τ : Type} (more : List (Use τ)),
      ((c.through uses).value.through more).notices =
        (((c.through uses).value.problems more).filter (· ∉ c.problems uses)).eraseDups.map
          (Report.notice c.source) := by
  obtain ⟨hsource, hnotices, hreported⟩ := c.tells_through uses
  have hall : news c.memory.reported (c.problems uses) = (c.problems uses).eraseDups := by
    rw [h, news, List.filter_eq_self.2 fun _ _ => decide_eq_true List.not_mem_nil]
  refine ⟨hall ▸ hnotices, fun problem hproblem => ?_, fun more => ?_⟩
  · have hnodup : ((c.through uses).notices.map Notice.text).Nodup := by
      rw [hnotices, List.map_map]
      exact List.Pairwise.map _
        (fun _ _ hne heq => hne (Report.text_notice_injective _ heq)) (nodup_news _ _)
    have hmem : problem ∈ news c.memory.reported (c.problems uses) :=
      mem_news_iff.2 ⟨hproblem, h ▸ List.not_mem_nil⟩
    rw [hnodup.count, if_pos]
    exact List.mem_map_of_mem (hnotices ▸ List.mem_map_of_mem hmem)
  · obtain ⟨-, hmore, -⟩ := (c.through uses).value.tells_through more
    rw [hsource] at hmore
    refine hmore.trans (congrArg _ (news_congr (fun problem => ?_) _))
    rw [hreported, h]
    exact or_iff_right List.not_mem_nil

/-- A program with a variable and a function of one name, neither of which there is, that fails
in snow. -/
def frostProgram : Program :=
  .block [.effect (.variable "frost"), .effect (.call "frost" []),
    .branch [(.call "event" [.variable "snow"], [.assign "frost" (.bool true)])] none,
    .result (.bool true)]

/-- A condition with this program that was never evaluated. -/
def frost : Condition := .build "frost" (some frostProgram) .zeros

/-- Dry weather, a crash, a fresh start and snow, twice. -/
def winter : List (Use (List Question)) :=
  [.evaluated (.staged [] []), .evaluated (.staged [] [.event "snow"]), .reset,
    .evaluated (.staged ["snow"] []), .evaluated (.staged ["snow"] [])]

theorem reports_once_frost :
    frost.memory.reported = [] ∧
    (frost.problems winter).length = 10 ∧
    (frost.through winter).notices = [.unknownVariable "frost", .unknownFunction "frost",
      .conditionFailed "frost" (.undeclaredAssigned "frost")] ∧
    ((frost.through winter).notices.map Notice.text).count
      "Unknown function `frost`, evaluating to false" = 1 ∧
    ((frost.through winter).value.through winter).notices = [] := by
  have hfresh : frost.memory.reported = [] := rfl
  obtain ⟨hnotices, hcount, hlater⟩ := reports_once hfresh winter
  have hproblems : (frost.problems winter).eraseDups = [.variable "frost", .function "frost",
    .failure (.undeclaredAssigned "frost")] := by decide +kernel
  have hnone : (((frost.through winter).value.problems winter).filter
    (· ∉ frost.problems winter)).eraseDups = [] := by decide +kernel
  refine ⟨hfresh, by decide +kernel, ?_, ?_, ?_⟩
  · rw [hnotices, hproblems]
    rfl
  · exact hcount (.function "frost") (by decide +kernel)
  · rw [hlater winter, hnone]
    rfl

end Condition
end Flipbook.Expression
