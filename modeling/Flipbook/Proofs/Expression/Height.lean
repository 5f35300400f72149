import Flipbook.Proofs.Expression.Assembly
import Flipbook.Proofs.Expression.Spacing
import Mathlib.Tactic.Simps.Basic

/-!
# How high the tree of a program is

What recurs over a program, to run it or to let go of it, goes as deep as its tree is
high. The limit on nesting holds the height down where the parser counts a level, as it
does for each expression, prefix, exponent and block. Two ways to make a tree higher are
not counted: an operator that binds to the left puts what stands before it a node deeper,
and a `when` statement that is the whole body of an arm is read by the rule that reads the
arm.

* `Expr.height`, `Statement.height`, `Program.height`: heights, by what nodes count for.
* `Derives.height_le`, `Rules.height_within`: the height of what is read within some
  levels of nesting.
* `height_le_of_parse`: the height of a program, up to what is not counted.
* `parse_longSum`, `parse_deepWhen`: programs of any height, either way.
-/
namespace Flipbook.Expression

/-! ## Heights -/

/-- What the nodes of a tree count for. -/
structure Weight where
  expression : Expr → Nat
  statement : Statement → Nat

/-- Whether an expression is an operator that binds to the left. -/
def Expr.isChain : Expr → Bool
  | .binary op _ _ => op ≠ .power
  | _ => false

/-- Whether a statement is a `when`. -/
def Statement.isChoice : Statement → Bool
  | .choose .. => true
  | _ => false

/-- Whether a statement is a `when` with another one right in an arm. -/
def Statement.holdsChoice : Statement → Bool
  | .choose _ arms => arms.any fun arm => arm.2.any isChoice
  | _ => false

namespace Weight

/-- Each node counts. -/
@[simps]
def all : Weight := ⟨fun _ => 1, fun _ => 1⟩

/-- Only operators that bind to the left count. -/
@[simps]
def operators : Weight := ⟨fun e => e.isChain.toNat, fun _ => 0⟩

/-- Only `when` statements with another one right in an arm count. -/
@[simps]
def choices : Weight := ⟨fun _ => 0, fun s => s.holdsChoice.toNat⟩

end Weight

mutual

/-- The most that the nodes on a path down an expression count for together. -/
def Expr.height (w : Weight) : Expr → Nat
  | .unary op operand => w.expression (.unary op operand) + operand.height w
  | .binary op left right =>
    w.expression (.binary op left right) + max (left.height w) (right.height w)
  | .call name args => w.expression (.call name args) + argumentHeight w args
  | e => w.expression e

/-- The greatest height of some arguments. -/
def argumentHeight (w : Weight) : List Expr → Nat
  | [] => 0
  | arg :: args => max (arg.height w) (argumentHeight w args)

end

mutual

/-- The most that the nodes on a path down a statement count for together. -/
def Statement.height (w : Weight) : Statement → Nat
  | .declare mutable name value => w.statement (.declare mutable name value) + value.height w
  | .assign name value => w.statement (.assign name value) + value.height w
  | .branch branches none => w.statement (.branch branches none) + branchHeight w branches
  | .branch branches (some body) =>
    w.statement (.branch branches (some body)) + max (branchHeight w branches) (bodyHeight w body)
  | .choose subject arms => w.statement (.choose subject arms) + armHeight w arms
  | .result value => w.statement (.result value) + value.height w
  | .effect value => w.statement (.effect value) + value.height w

/-- The greatest height of the statements of a block. -/
def bodyHeight (w : Weight) : List Statement → Nat
  | [] => 0
  | s :: body => max (s.height w) (bodyHeight w body)

/-- The greatest height in some branches. -/
def branchHeight (w : Weight) : List (Expr × List Statement) → Nat
  | [] => 0
  | (condition, body) :: branches =>
    max (max (condition.height w) (bodyHeight w body)) (branchHeight w branches)

/-- The greatest height in some arms. -/
def armHeight (w : Weight) : List (Pattern × List Statement) → Nat
  | [] => 0
  | (_, body) :: arms => max (bodyHeight w body) (armHeight w arms)

end

/-- The most that the nodes on a path down a program count for together. -/
def Program.height (w : Weight) : Program → Nat
  | .flat condition => condition.height w
  | .block body => bodyHeight w body

/-- Whether a height is within a bound, up to what the limit on nesting does not count:
operators that bind to the left, and `when` statements right in the arms of others. -/
def Low (bound : Nat) (height : Weight → Nat) : Prop :=
  height .all ≤ bound + height .operators + height .choices

/-! ## Expressions -/

theorem argumentHeight_append (w : Weight) (args more : List Expr) :
    argumentHeight w (args ++ more) = max (argumentHeight w args) (argumentHeight w more) := by
  induction args with
  | nil => simp [argumentHeight]
  | cons arg args ih => simp [argumentHeight, ih, Nat.max_assoc]

/-- How much higher the phrases of a category may be than twice their nesting. -/
def Category.slack : Category → Nat
  | .expression => 0
  | .chain _ | .power => 2
  | .unary | .primary | .openCall => 1

/-- A phrase is at most twice as high as it is nested, up to its operators that bind to
the left. -/
theorem Derives.height_le {c : Category} {depth : Nat} {ts rest : List Lexeme} {e : Expr}
    (h : Derives c depth ts rest e) :
    e.height .all ≤ 2 * depth + c.slack + e.height .operators := by
  induction h with
  | expression _ ih => exact ih
  | operand _ ih => exact ih
  | looser _ ih => exact ih
  | base _ ih => exact Nat.le_trans ih (by simp [Category.slack])
  | plain _ ih => exact ih
  | parenthesized _ ih => exact Nat.le_trans ih (by simp [Category.slack])
  | call _ ih => exact ih
  | @binary level left right position s op ts us rest a b hs _ _ ihleft ihright =>
    have hchain : (Expr.binary op a b).isChain = true := by
      rw [Expr.isChain, decide_eq_true_eq]
      rintro rfl
      cases s <;> cases hs
    simp only [Category.slack] at ihleft ihright ⊢
    simp only [Expr.height, Weight.all_expression, Weight.operators_expression, hchain,
      Bool.toNat_true]
    omega
  | exponent _ _ ihleft ihright =>
    simp only [Category.slack] at ihleft ihright ⊢
    simp only [Expr.height, Weight.all_expression]
    omega
  | signed _ _ ih =>
    simp only [Category.slack] at ih ⊢
    simp only [Expr.height, Weight.all_expression]
    omega
  | firstArgument _ ih =>
    simp only [Category.slack] at ih ⊢
    simp only [Expr.height, argumentHeight, Weight.all_expression]
    omega
  | nextArgument _ _ ihcall ih =>
    simp only [Category.slack] at ihcall ih ⊢
    simp only [Expr.height, Weight.all_expression, Weight.operators_expression,
      Expr.isChain, Bool.toNat_false, argumentHeight_append, argumentHeight] at ihcall ⊢
    omega
  | callWithout => simp [Expr.height, argumentHeight, Category.slack]
  | number => simp [Expr.height, Category.slack]
  | text => simp [Expr.height, Category.slack]
  | @name position name rest =>
    have hleaf : (named name).height .all = 1 := by
      unfold named
      split
      · rfl
      · split <;> rfl
    rw [hleaf]
    simp [Category.slack]

/-! ## Statements -/

section

variable {n bound : Nat} {f g : Weight → Nat}

theorem Low.of_le (h : Low n f) (hle : n ≤ bound) : Low bound f :=
  Nat.le_trans h (by omega)

theorem low_zero : Low bound fun _ => 0 := Nat.zero_le _

theorem Low.max (hf : Low bound f) (hg : Low bound g) : Low bound fun w => max (f w) (g w) := by
  simp only [Low] at hf hg ⊢
  omega

/-- A statement adds a node to what it holds; a `when` statement may add another. -/
theorem Low.statement (h : Low bound f) (s : Statement) :
    Low (bound + 1 + s.isChoice.toNat) fun w => w.statement s + f w := by
  simp only [Low, Weight.all_statement] at h ⊢
  omega

theorem low_bodyHeight {body : List Statement} (h : ∀ s ∈ body, Low bound (s.height ·)) :
    Low bound (bodyHeight · body) := by
  induction body with
  | nil => simpa only [bodyHeight] using low_zero
  | cons s body ih =>
    obtain ⟨hs, hbody⟩ := List.forall_mem_cons.1 h
    simpa only [bodyHeight] using hs.max (ih hbody)

theorem low_branchHeight {branches : List (Expr × List Statement)}
    (h : ∀ branch ∈ branches, Low bound (branch.1.height ·) ∧ Low bound (bodyHeight · branch.2)) :
    Low bound (branchHeight · branches) := by
  induction branches with
  | nil => simpa only [branchHeight] using low_zero
  | cons branch branches ih =>
    obtain ⟨⟨hcondition, hbody⟩, hbranches⟩ := List.forall_mem_cons.1 h
    simpa only [branchHeight] using (hcondition.max hbody).max (ih hbranches)

theorem low_armHeight {arms : List (Pattern × List Statement)}
    (h : ∀ arm ∈ arms, Low bound (bodyHeight · arm.2)) : Low bound (armHeight · arms) := by
  induction arms with
  | nil => simpa only [armHeight] using low_zero
  | cons arm arms ih =>
    obtain ⟨hbody, harms⟩ := List.forall_mem_cons.1 h
    simpa only [armHeight] using hbody.max (ih harms)

/-- A `when` statement counts for its arms that hold another one, and adds a node. -/
theorem low_choose (subject : String) {arms : List (Pattern × List Statement)}
    (h : ∀ arm ∈ arms, IsArmBody (fun body => Low n (bodyHeight · body))
      (fun s => Low (n + 1 + s.isChoice.toNat) (s.height ·)) arm.2) :
    Low (n + 2) ((Statement.choose subject arms).height ·) := by
  have harms : Low (n + 1 + (Statement.choose subject arms).holdsChoice.toNat)
      (armHeight · arms) := by
    refine low_armHeight fun arm harm => ?_
    rcases h arm harm with hbody | ⟨s, hs, hbody⟩
    · exact hbody.of_le (by omega)
    · rw [hbody]
      refine low_bodyHeight (List.forall_mem_singleton.2 (hs.of_le ?_))
      cases hchoice : s.isChoice with
      | false => simp
      | true =>
        -- the statement counts for the one in its arm
        have hholds : (Statement.choose subject arms).holdsChoice = true :=
          List.any_eq_true.2 ⟨arm, harm, by simp [hbody, hchoice]⟩
        simp [hholds]
  simp only [Low, Statement.height, Weight.all_statement, Weight.choices_statement] at harms ⊢
  omega

end

/-- What is put together from expressions and blocks is a node higher, and a `when`
statement may be two nodes higher. -/
theorem assembles_low (n : Nat) :
    Assembles (fun e => Low n (e.height ·)) (fun body => Low n (bodyHeight · body))
      (fun s => Low (n + 1 + s.isChoice.toNat) (s.height ·)) where
  declare mutable name e he := by
    simpa only [Statement.height] using he.statement _
  assign name e he := by
    simpa only [Statement.height] using he.statement _
  branch := by
    intro branches otherwise hbranches hotherwise
    have h := low_branchHeight hbranches
    cases otherwise with
    | none => simpa only [Statement.height] using h.statement _
    | some body => simpa only [Statement.height] using (h.max (hotherwise body rfl)).statement _
  choose subject arms harms := low_choose subject harms
  result he := by
    simpa only [Statement.height] using he.statement _
  effect he := by
    simpa only [Statement.height] using he.statement _
  last h := by
    simpa only [Low, Statement.height, Weight.all_statement, Weight.operators_statement,
      Weight.choices_statement, Statement.isChoice, Statement.holdsChoice] using h

/-! ## What is read -/

/-- Within some levels of nesting, twice as many nodes are on a path. -/
theorem Rules.height_within (n : Nat) :
    Yields (within n).expression (fun e => Low (2 * n) (e.height ·)) ∧
      Yields (within n).block (fun body => Low (2 * n) (bodyHeight · body)) := by
  have hexpression (n : Nat) : Yields (within n).expression fun e => Low (2 * n) (e.height ·) := by
    intro ts p h
    obtain ⟨depth, hdepth, hderives⟩ := (sound_within n).1 ts p.value p.rest (exists_reads h)
    have hheight := hderives.height_le
    simp only [Category.slack] at hheight
    simp only [Low]
    omega
  refine ⟨hexpression n, ?_⟩
  induction n with
  | zero => exact nofun
  | succ n ih =>
    intro ts p h
    have hbody := Assembles.block (hexpression n) ih (assembles_low (2 * n)) ts p h
    exact low_bodyHeight fun s hs => (hbody s hs).of_le (by have := s.isChoice.toNat_le; omega)

/-! ## Programs of any height -/

/-- A sum of `n + 1` operands. -/
def longSum : Nat → Expr
  | 0 => .variable "x"
  | n + 1 => .binary .add (longSum n) (.variable "x")

theorem looseness_longSum_le : ∀ n, (longSum n).looseness ≤ BinaryOp.add.leftLimit
  | 0 => by decide
  | _ + 1 => Nat.le_refl _

theorem tokens_longSum_succ (n : Nat) :
    (longSum (n + 1)).tokens = (longSum n).tokens ++ [.symbol .plus, .name "x"] := by
  rw [longSum, Expr.tokens, Expr.placed, if_pos (looseness_longSum_le n)]
  rfl

theorem isWord_of_mem_longSum (n : Nat) : ∀ t ∈ (longSum n).tokens, t.isWord = true := by
  induction n with
  | zero => decide +kernel
  | succ n ih =>
    rw [tokens_longSum_succ]
    exact List.forall_mem_append.2 ⟨ih, by decide +kernel⟩

theorem isWritable_longSum (n : Nat) : (longSum n).isWritable = true := by
  induction n with
  | zero => decide
  | succ n ih =>
    rw [longSum, Expr.isWritable, ih]
    decide

theorem nesting_longSum (n : Nat) : (longSum n).nesting = 0 := by
  induction n with
  | zero => rfl
  | succ n ih =>
    rw [longSum, Expr.nesting, Expr.placedNesting, if_pos (looseness_longSum_le n), ih]
    rfl

/-- However long a sum may be, it is not nested. -/
theorem parse_longSum (n : Nat) :
    parse (String.ofList (spaced (longSum n).tokens)) = .ok (.flat (longSum n)) := by
  refine parse_spaced (isWord_of_mem_longSum n) fun us hus => ?_
  have hderives := (derived _ (isWritable_longSum n)).whole hus []
  rw [List.append_nil, nesting_longSum] at hderives
  rw [parseTokens_ok_iff, program_flat_iff]
  exact ⟨hderives.startsWith_openBrace, hderives.reads_within (by decide)⟩

theorem height_longSum (n : Nat) :
    (longSum n).height .all = n + 1 ∧ (longSum n).height .choices = 0 := by
  induction n with
  | zero => exact ⟨rfl, rfl⟩
  | succ n ih =>
    simp only [longSum, Expr.height, Weight.all_expression, Weight.choices_expression, ih]
    omega

/-- A `when` statement in an arm of another, `n` times over. -/
def deepWhen : Nat → Statement
  | 0 => .effect (.variable "x")
  | n + 1 => .choose "x" [(.rest, (deepWhen n).asArm)]

/-- The tokens of such statements, without braces around the bodies of their arms. -/
def deepWhenTokens : Nat → List Token
  | 0 => [.name "x"]
  | n + 1 => .name "when" :: .name "x" :: .symbol .openBrace :: .name "rest__" ::
      .symbol .arrow :: (deepWhenTokens n ++ [.symbol .closeBrace])

theorem isWord_of_mem_deepWhen (n : Nat) : ∀ t ∈ deepWhenTokens n, t.isWord = true := by
  induction n with
  | zero => decide +kernel
  | succ n ih =>
    simp only [deepWhenTokens, List.forall_mem_cons, List.forall_mem_append]
    exact ⟨by decide +kernel, by decide +kernel, rfl, by decide +kernel, rfl, ih, rfl, nofun⟩

theorem exists_name_of_deepWhen {n : Nat} {us : List Lexeme} (h : Spells us (deepWhenTokens n)) :
    ∃ name position vs, us = ⟨.name name, position⟩ :: vs := by
  cases n with
  | zero =>
    obtain ⟨position, vs, rfl, -⟩ := spells_cons_iff.1 h
    exact ⟨_, position, vs, rfl⟩
  | succ n =>
    obtain ⟨position, vs, rfl, -⟩ := spells_cons_iff.1 h
    exact ⟨_, position, vs, rfl⟩

/-- The statement is read with the rules for one level of nesting. -/
theorem reads_deepWhen (n : Nat) {m : Nat} {us : List Lexeme} (h : Spells us (deepWhenTokens n))
    (position : Nat) (rest : List Lexeme) :
    Reads (statement (Rules.within (m + 1))) (us ++ ⟨.symbol .closeBrace, position⟩ :: rest)
      (deepWhen n) (⟨.symbol .closeBrace, position⟩ :: rest) := by
  induction n generalizing us position rest with
  | zero =>
    have hwritable : (Expr.variable "x").isWritable = true := by decide
    have hread : Reads (Rules.within (m + 1)).expression _ _ _ :=
      reads_tokens hwritable (Nat.succ_le_succ (Nat.zero_le m)) h
        (ends_of_symbol (s := .closeBrace) (by decide) position rest)
    exact hread.effect (opensExpression_tokens hwritable h rfl)
  | succ n ih =>
    rw [deepWhenTokens] at h
    obtain ⟨word, _, rfl, hsubject⟩ := spells_cons_iff.1 h
    obtain ⟨subject, _, rfl, hopening⟩ := spells_cons_iff.1 hsubject
    obtain ⟨opening, _, rfl, hpattern⟩ := spells_cons_iff.1 hopening
    obtain ⟨pattern, _, rfl, harrow⟩ := spells_cons_iff.1 hpattern
    obtain ⟨arrow, _, rfl, hbody⟩ := spells_cons_iff.1 harrow
    obtain ⟨vs, last, rfl, hvs, hlast⟩ := spells_append_iff.1 hbody
    obtain ⟨closing, _, rfl, hnone⟩ := spells_cons_iff.1 hlast
    obtain rfl := spells_nil_iff.1 hnone
    have hinner := ih hvs closing (⟨.symbol .closeBrace, position⟩ :: rest)
    have hbare : startsWith .openBrace
        (vs ++ ⟨.symbol .closeBrace, closing⟩ :: ⟨.symbol .closeBrace, position⟩ :: rest) =
          false := by
      obtain ⟨name, first, ws, rfl⟩ := exists_name_of_deepWhen hvs
      rfl
    simp only [List.cons_append, List.append_assoc, List.nil_append]
    refine Reads.choose ?_
    exact Reads.armsFrom_bare opensStatement_name ⟨by simp, rfl⟩ hbare hinner (.inr rfl)
      reads_lastArm

/-- However often a `when` statement stands in the arm of another, it is read. -/
theorem parse_deepWhen (n : Nat) :
    parse (String.ofList (spaced (braced (deepWhenTokens n)))) =
      .ok (.block (deepWhen n).asArm) := by
  refine parse_spaced ?_ fun us hus => ?_
  · simp only [braced, List.forall_mem_cons, List.forall_mem_append]
    exact ⟨rfl, isWord_of_mem_deepWhen n, rfl, nofun⟩
  · obtain ⟨opening, vs, closing, rfl, hvs⟩ := spells_between_iff.1 hus
    obtain ⟨name, first, ws, hname⟩ := exists_name_of_deepWhen hvs
    have hopens : OpensStatement (vs ++ [⟨.symbol .closeBrace, closing⟩]) := by
      rw [hname]
      exact opensStatement_name
    have hlast : [(deepWhen n).inBlock true] = (deepWhen n).asArm := by
      cases deepWhen n <;> rfl
    have hbody : Reads (statementsFrom (Rules.within 63) [])
        (vs ++ [⟨.symbol .closeBrace, closing⟩]) [(deepWhen n).inBlock true] [] :=
      (reads_deepWhen n hvs closing []).statementsFrom hopens (.inr rfl) reads_closeBrace
    rw [hlast] at hbody
    rw [parseTokens_ok_iff]
    exact Reads.program rfl hbody.block

theorem height_deepWhen (n : Nat) :
    bodyHeight .all (deepWhen n).asArm = n + 2 ∧ bodyHeight .operators (deepWhen n).asArm = 0 := by
  induction n with
  | zero => exact ⟨rfl, rfl⟩
  | succ n ih =>
    simp only [deepWhen, Statement.asArm, bodyHeight, Statement.height, armHeight,
      Weight.all_statement, Weight.operators_statement] at ih ⊢
    omega

/-! ## Programs -/

/-- The tree of a program is at most twice as high as programs may be nested, but for
the operators that bind to the left and the `when` statements right in the arms of others
on a path. -/
theorem height_le_of_parse {source : String} {p : Program} (h : parse source = .ok p) :
    p.height .all ≤ 2 * maxDepth + p.height .operators + p.height .choices := by
  obtain ⟨ts, -, hparse⟩ := parse_ok_iff.1 h
  obtain ⟨hexpression, hblock⟩ := Rules.height_within maxDepth
  rcases program_cases (parseTokens_ok_iff.1 hparse) with
    ⟨e, rfl, hlt, hread⟩ | ⟨body, rfl, hlt, hread⟩
  · exact hexpression ts _ hread
  · exact hblock ts _ hread

theorem height_le_of_parse_deepWhen :
    parse "\x7b when x \x7b rest__ => when x \x7b rest__ => x \x7d \x7d \x7d " =
        .ok (.block (deepWhen 2).asArm) ∧
      bodyHeight .all (deepWhen 2).asArm ≤
        2 * maxDepth + bodyHeight .operators (deepWhen 2).asArm +
          bodyHeight .choices (deepWhen 2).asArm :=
  have h := parse_deepWhen 2
  ⟨h, height_le_of_parse h⟩

/-- Operators that bind to the left make trees of any height without a `when` statement, and
`when` statements without such an operator. -/
theorem exists_parse_higher (n : Nat) :
    (∃ source p, parse source = .ok p ∧ n < p.height .all ∧ p.height .choices = 0) ∧
      ∃ source p, parse source = .ok p ∧ n < p.height .all ∧ p.height .operators = 0 := by
  obtain ⟨hsum, hsumChoices⟩ := height_longSum n
  obtain ⟨hwhen, hwhenOperators⟩ := height_deepWhen n
  refine ⟨⟨_, _, parse_longSum n, ?_, hsumChoices⟩, ⟨_, _, parse_deepWhen n, ?_, hwhenOperators⟩⟩
  · rw [Program.height, hsum]
    exact Nat.lt_succ_self n
  · rw [Program.height, hwhen]
    omega

/-- The trees of programs have no common bound on their height. -/
theorem not_exists_height_le :
    ¬∃ bound, ∀ source p, parse source = .ok p → p.height .all ≤ bound := by
  rintro ⟨bound, h⟩
  obtain ⟨-, source, p, hparse, hheight, -⟩ := exists_parse_higher bound
  exact absurd (h source p hparse) (Nat.not_le.2 hheight)

end Flipbook.Expression
