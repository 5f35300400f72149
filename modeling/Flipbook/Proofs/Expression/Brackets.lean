import Flipbook.Proofs.Expression.Acceptance

/-!
# Parentheses in programs

The parentheses in the tokens of a program are balanced, in either dialect: whatever a
rule of the parser reads closes the parentheses that it opens, and no other.

* `openAfter` counts the parentheses that are open behind some tokens.
* `Balanced`: a rule that leaves as many open as it finds.
* `Rules.Balanced.statement`, `Rules.balanced_within`: the rules of the parser are such rules.
* `openAfter_of_parseTokens`: nothing is open behind a program.
-/
namespace Flipbook.Expression

variable {α β : Type} {ts us rest : List Lexeme}

/-! ## Open parentheses -/

/-- Whether a token is a parenthesis. -/
def Token.isParenthesis : Token → Bool
  | .symbol .openParen => true
  | .symbol .closeParen => true
  | _ => false

/-- Whether a symbol is a parenthesis. -/
def Symbol.isParenthesis (s : Symbol) : Bool := (Token.symbol s).isParenthesis

/-- The number of parentheses that are open behind some tokens, where `depth` were open
before them; nothing if one more is closed than is open. -/
def openAfter : Nat → List Lexeme → Option Nat
  | depth, [] => some depth
  | depth, ⟨.symbol .openParen, _⟩ :: ts => openAfter (depth + 1) ts
  | 0, ⟨.symbol .closeParen, _⟩ :: _ => none
  | depth + 1, ⟨.symbol .closeParen, _⟩ :: ts => openAfter depth ts
  | depth, _ :: ts => openAfter depth ts

/-- Whether the tokens of `ts` before `rest` leave as many parentheses open as they
find, and close none that they do not open. -/
def Level (ts rest : List Lexeme) : Prop := ∀ depth, openAfter depth ts = openAfter depth rest

namespace Level

theorem refl (ts : List Lexeme) : Level ts ts := fun _ => rfl

theorem trans (h : Level ts us) (h' : Level us rest) : Level ts rest :=
  fun depth => (h depth).trans (h' depth)

/-- A token that is no parenthesis. -/
theorem token {t : Token} (h : t.isParenthesis = false) (position : Nat) (ts : List Lexeme) :
    Level (⟨t, position⟩ :: ts) ts := by
  intro depth
  rw [openAfter]
  · rintro _ ⟨⟩
    cases h
  · rintro _ _ ⟨⟩
    cases h
  · rintro _ _ _ ⟨⟩
    cases h

/-- Tokens between parentheses, with the parentheses. -/
theorem parenthesized {opening closing : Nat}
    (h : Level ts (⟨.symbol .closeParen, closing⟩ :: rest)) :
    Level (⟨.symbol .openParen, opening⟩ :: ts) rest := fun depth => h (depth + 1)

end Level

theorem level_symbol {s : Symbol} (hs : s.isParenthesis = false) {p : Parsed Unit ts}
    (h : symbol s ts = .ok p) : Level ts p.rest := by
  obtain ⟨position, hts⟩ := symbol_ok h
  have hlevel : Level (⟨.symbol s, position⟩ :: p.rest) p.rest := .token hs position p.rest
  rwa [← hts] at hlevel

/-! ## Rules -/

/-- Whether a rule reads only tokens with balanced parentheses. -/
def Balanced (rule : Rule α) : Prop := ∀ ts p, rule ts = .ok p → Level ts p.rest

namespace Balanced

variable {expression operand nested : Rule Expr}

/-! ### Expressions -/

theorem extendChain (hoperand : Balanced operand) {op? : Symbol → Option BinaryOp}
    (hop : ∀ s, (op? s).isSome = true → s.isParenthesis = false)
    {left p : Parsed Expr ts} (h : Expression.extendChain operand op? left = .ok p) :
    Level left.rest p.rest := by
  induction hlength : left.rest.length using Nat.strongRecOn generalizing left with
  | _ length ih =>
    unfold Expression.extendChain at h
    split at h
    · next s position us hrest =>
      split at h
      · cases h
        exact .refl _
      · next op hs =>
        split at h
        · cases h
        · next right hright =>
          have hsymbol := hop s (by simp [hs])
          have hnext := ih right.rest.length (by
            have := right.shorter
            rw [← hlength, hrest, List.length_cons]
            omega) h rfl
          rw [hrest]
          exact (Level.token hsymbol position us).trans ((hoperand us right hright).trans hnext)
    · cases h
      exact .refl _

theorem chain (hoperand : Balanced operand) {op? : Symbol → Option BinaryOp}
    (hop : ∀ s, (op? s).isSome = true → s.isParenthesis = false) :
    Balanced (chain operand op?) := by
  intro ts p h
  obtain ⟨left, hleft, h⟩ := bind_ok h
  exact (hoperand ts left hleft).trans (hoperand.extendChain hop h)

theorem chains (hoperand : Balanced operand) : Balanced (chains operand) := by
  have hlevels : ∀ op? ∈ chainLevels, ∀ s, (op? s).isSome = true → s.isParenthesis = false := by
    rw [chainLevels_eq]
    simp only [List.forall_mem_cons]
    refine ⟨?_, ?_, ?_, ?_, ?_, nofun⟩
    all_goals
      intro s hs
      cases s <;> first | rfl | cases hs
  unfold Expression.chains
  generalize chainLevels = levels at hlevels
  induction levels generalizing operand with
  | nil => exact hoperand
  | cons op? levels ih =>
    obtain ⟨hop, hlevels⟩ := List.forall_mem_cons.1 hlevels
    exact ih (hoperand.chain hop) hlevels

theorem closedBy {rule : Rule α} (hrule : Balanced rule) {p : Parsed α ts} {opening : Nat}
    (h : closedBy .closeParen rule ts = .ok p) :
    Level (⟨.symbol .openParen, opening⟩ :: ts) p.rest := by
  obtain ⟨position, _, hread⟩ := closedBy_ok h
  exact (hrule ts _ hread).parenthesized

/-- Arguments are read up to the parenthesis that closes them. -/
theorem argumentsFrom (hexpression : Balanced expression) {before : List Expr}
    {p : Parsed (List Expr) ts} (h : argumentsFrom expression before ts = .ok p) {opening : Nat} :
    Level (⟨.symbol .openParen, opening⟩ :: ts) p.rest := by
  induction hlength : ts.length using Nat.strongRecOn generalizing ts before opening with
  | _ length ih =>
    unfold Expression.argumentsFrom at h
    obtain ⟨arg, harg, h⟩ := bind_ok h
    have hargument := hexpression ts arg harg
    split at h
    · next position us hrest =>
      cases h
      rw [hrest] at hargument
      exact hargument.parenthesized
    · obtain ⟨comma, hcomma, h⟩ := bind_ok h
      obtain ⟨more, hmore, h⟩ := bind_ok h
      cases h
      have hseparator := level_symbol rfl hcomma
      have hshorter : comma.rest.length < length := by
        have := comma.shorter
        have := arg.shorter
        omega
      have hlater : Level (⟨.symbol .openParen, opening⟩ :: comma.rest) more.rest :=
        ih _ hshorter hmore rfl
      intro depth
      exact (hargument.trans hseparator (depth + 1)).trans (hlater depth)

theorem arguments (hexpression : Balanced expression) {p : Parsed (List Expr) ts}
    (h : arguments expression ts = .ok p) {opening : Nat} :
    Level (⟨.symbol .openParen, opening⟩ :: ts) p.rest := by
  unfold Expression.arguments at h
  split at h
  · cases h
    exact (Level.refl _).parenthesized
  · exact hexpression.argumentsFrom h

theorem primary (hexpression : Balanced expression) : Balanced (primary expression) := by
  intro ts p h
  unfold Expression.primary at h
  split at h
  · cases h
    exact .token rfl _ _
  · cases h
    exact .token rfl _ _
  · obtain ⟨read, hread, h⟩ := bind_ok h
    cases h
    exact hexpression.closedBy hread
  · obtain ⟨read, hread, h⟩ := bind_ok h
    cases h
    exact (Level.token rfl _ _).trans (hexpression.arguments hread)
  · cases h
    exact .token rfl _ _
  · cases h

theorem unary (hnested : Balanced nested) (hoperand : Balanced operand) :
    Balanced (unary nested operand) := by
  intro ts p h
  unfold Expression.unary at h
  split at h
  · obtain ⟨read, hread, h⟩ := bind_ok h
    cases h
    exact (Level.token rfl _ _).trans (hnested _ read hread)
  · obtain ⟨read, hread, h⟩ := bind_ok h
    cases h
    exact (Level.token rfl _ _).trans (hnested _ read hread)
  · exact hoperand _ _ h

theorem power (hnested : Balanced nested) (hoperand : Balanced operand) :
    Balanced (power nested operand) := by
  intro ts p h
  obtain ⟨base, hbase, h⟩ := bind_ok h
  have hleft := hoperand ts base hbase
  split at h
  · next position us hrest =>
    obtain ⟨exponent, hexponent, h⟩ := bind_ok h
    cases h
    rw [hrest] at hleft
    exact hleft.trans ((Level.token rfl _ _).trans (hnested _ exponent hexponent))
  · cases h
    exact hleft

theorem pattern : Balanced pattern := by
  intro ts p h
  unfold Expression.pattern at h
  split at h
  · cases h
    exact .token rfl _ _
  · cases h
    exact (Level.token rfl _ _).trans (.token rfl _ _)
  · cases h
  · cases h
  · cases h
    exact .token rfl _ _
  · split at h
    · cases h
      exact .token rfl _ _
    · cases h
  · cases h
  · cases h

theorem identifier : Balanced identifier := by
  intro ts p h
  unfold Expression.identifier at h
  split at h
  · cases h
  · next t us =>
    obtain ⟨token, position⟩ := t
    split at h
    · next name hname =>
      cases h
      cases hname
      exact .token rfl _ _
    · cases h

end Balanced

/-! ### Statements -/

/-- Nested rules that read only tokens with balanced parentheses. -/
structure Rules.Balanced (rules : Rules) : Prop where
  expression : Expression.Balanced rules.expression
  power : Expression.Balanced rules.power
  unary : Expression.Balanced rules.unary
  block : Expression.Balanced rules.block

theorem level_word {word : String} {t : Lexeme} (h : startsWithWord word (t :: us) = true) :
    Level (t :: us) us := by
  obtain ⟨token, position⟩ := t
  cases token with
  | name name => exact .token rfl position us
  | number value => cases h
  | text value => cases h
  | symbol s => cases h

namespace Rules.Balanced

variable {rules : Rules} (hrules : rules.Balanced)
include hrules

theorem assigned : Expression.Balanced (assigned rules) := by
  intro ts p h
  obtain ⟨sign, hsign, h⟩ := bind_ok h
  obtain ⟨value, hvalue, h⟩ := bind_ok h
  cases h
  exact (level_symbol rfl hsign).trans (hrules.expression _ value hvalue)

theorem guarded : Expression.Balanced (guarded rules) := by
  intro ts p h
  obtain ⟨condition, hcondition, h⟩ := bind_ok h
  obtain ⟨body, hbody, h⟩ := bind_ok h
  cases h
  exact (hrules.expression _ condition hcondition).trans (hrules.block _ body hbody)

theorem elseParts {sofar : Parsed (List (Expr × List Statement)) ts} {p : Parsed Statement ts}
    (h : elseParts rules sofar = .ok p) : Level sofar.rest p.rest := by
  induction hlength : sofar.rest.length using Nat.strongRecOn generalizing sofar with
  | _ length ih =>
    unfold Expression.elseParts at h
    split at h
    · next hword =>
      split at h
      · cases h
        exact .refl _
      · next us hrest =>
        rw [hrest] at hword
        have helse := level_word hword
        split at h
        · next hif =>
          split at h
          · cases h
            exact .refl _
          · next vs hus =>
            have hbranch := level_word hif
            split at h
            · cases h
            · next later hlater =>
              have hmore := ih later.rest.length (by
                have := later.shorter
                rw [← hlength, hrest, List.length_cons, List.length_cons]
                omega) h rfl
              rw [hrest]
              exact helse.trans (hbranch.trans ((hrules.guarded _ later hlater).trans hmore))
        · split at h
          · cases h
          · next last hlast =>
            cases h
            have hlevel := helse.trans (hrules.block _ last hlast)
            rwa [← hrest] at hlevel
    · cases h
      exact .refl _

/-- A statement, where the arms in it are read with balanced parentheses. -/
theorem statement_of_armsFrom
    (harmsFrom : ∀ us before p, us.length < ts.length →
      Expression.armsFrom rules before us = .ok p → Level us p.rest)
    {p : Parsed Statement ts} (h : Expression.statement rules ts = .ok p) : Level ts p.rest := by
  unfold Expression.statement at h
  split at h
  · next word position us =>
    split at h
    · obtain ⟨name, hname, h⟩ := bind_ok h
      obtain ⟨value, hvalue, h⟩ := bind_ok h
      cases h
      exact (Level.token rfl _ _).trans ((Expression.Balanced.identifier _ name hname).trans
        (hrules.assigned _ value hvalue))
    · split at h
      · obtain ⟨first, hfirst, h⟩ := bind_ok h
        obtain ⟨branches, hbranches, h⟩ := bind_ok h
        cases h
        exact (Level.token rfl _ _).trans ((hrules.guarded _ first hfirst).trans
          (hrules.elseParts hbranches))
      · split at h
        · obtain ⟨subject, hsubject, h⟩ := bind_ok h
          obtain ⟨opening, hopening, h⟩ := bind_ok h
          obtain ⟨arms, harms, h⟩ := bind_ok h
          cases h
          have hwithin := harmsFrom opening.rest [] arms
            (Nat.lt_succ_of_lt (Nat.lt_trans opening.shorter subject.shorter)) harms
          exact (Level.token rfl _ _).trans
            ((Expression.Balanced.identifier _ subject hsubject).trans
              ((level_symbol rfl hopening).trans hwithin))
        · split at h
          · obtain ⟨opening, hopening, h⟩ := bind_ok h
            obtain ⟨value, hvalue, h⟩ := bind_ok h
            cases h
            obtain ⟨position', hus⟩ := symbol_ok hopening
            have hlevel : Level (⟨.symbol .openParen, position'⟩ :: opening.rest) value.rest :=
              hrules.expression.closedBy hvalue
            rw [← hus] at hlevel
            exact (Level.token rfl _ _).trans hlevel
          · split at h
            · obtain ⟨value, hvalue, h⟩ := bind_ok h
              cases h
              exact (Level.token rfl _ _).trans (hrules.assigned _ value hvalue)
            · obtain ⟨value, hvalue, h⟩ := bind_ok h
              cases h
              exact hrules.expression _ value hvalue
  · obtain ⟨value, hvalue, h⟩ := bind_ok h
    cases h
    exact hrules.expression _ value hvalue

theorem armsFrom {before : List (Pattern × List Statement)}
    {p : Parsed (List (Pattern × List Statement)) ts}
    (h : Expression.armsFrom rules before ts = .ok p) : Level ts p.rest := by
  induction hlength : ts.length using Nat.strongRecOn generalizing ts before with
  | _ length ih =>
    unfold Expression.armsFrom at h
    split at h
    · obtain ⟨arms, harms, h⟩ := bind_ok h
      cases h
      exact (Level.token rfl _ _).trans (ih _ (by rw [← hlength]; simp) harms rfl)
    · cases h
      exact .token rfl _ _
    · obtain ⟨head, hhead, h⟩ := bind_ok h
      obtain ⟨arrow, harrow, h⟩ := bind_ok h
      have hbefore := (Expression.Balanced.pattern _ head hhead).trans (level_symbol rfl harrow)
      have hshorter := Nat.lt_trans arrow.shorter head.shorter
      have further {body : Parsed (List Statement) arrow.rest}
          {arms : List (Pattern × List Statement)} {more : Prop} [Decidable more]
          {hlt : body.rest.length < ts.length} (hbody : Level arrow.rest body.rest)
          (h : (if more then do
              return (← Expression.armsFrom rules arms body.rest).widen hlt
            else fail .armSeparator body.rest) = .ok p) : Level ts p.rest := by
        split at h
        · obtain ⟨later, hlater, h⟩ := bind_ok h
          cases h
          exact hbefore.trans (hbody.trans (ih _ (hlength ▸ hlt) hlater rfl))
        · cases h
      dsimp only at h
      split at h
      · obtain ⟨body, hbody, h⟩ := bind_ok h
        exact further (hrules.block _ body hbody) h
      · obtain ⟨body, hbody, h⟩ := bind_ok h
        obtain ⟨s, hs, rfl⟩ := map_ok hbody
        refine further (hrules.statement_of_armsFrom (fun us before p hlt harms => ?_) hs) h
        exact ih us.length (by omega) harms rfl

theorem statement {p : Parsed Statement ts} (h : Expression.statement rules ts = .ok p) :
    Level ts p.rest :=
  hrules.statement_of_armsFrom (fun _ _ _ _ harms => hrules.armsFrom harms) h

theorem statementsFrom {before : List Statement} {p : Parsed (List Statement) ts}
    (h : Expression.statementsFrom rules before ts = .ok p) : Level ts p.rest := by
  induction hlength : ts.length using Nat.strongRecOn generalizing ts before with
  | _ length ih =>
    unfold Expression.statementsFrom at h
    split at h
    · obtain ⟨body, hbody, h⟩ := bind_ok h
      cases h
      exact (Level.token rfl _ _).trans (ih _ (by rw [← hlength]; simp) hbody rfl)
    · cases h
      exact .token rfl _ _
    · cases h
    · obtain ⟨next, hnext, h⟩ := bind_ok h
      dsimp only at h
      split at h
      · obtain ⟨body, hbody, h⟩ := bind_ok h
        cases h
        exact (hrules.statement hnext).trans (ih _ (hlength ▸ next.shorter) hbody rfl)
      · cases h

theorem enclosed : Expression.Balanced (Expression.block rules) := by
  intro ts p h
  obtain ⟨opening, hopening, h⟩ := bind_ok h
  obtain ⟨body, hbody, h⟩ := bind_ok h
  cases h
  exact (level_symbol rfl hopening).trans (hrules.statementsFrom hbody)

theorem enter : rules.enter.Balanced := by
  have hunary := Expression.Balanced.unary hrules.unary hrules.expression.primary
  have hpower := Expression.Balanced.power hrules.power hunary
  exact ⟨hpower.chains, hpower, hunary, hrules.enclosed⟩

end Rules.Balanced

/-- However deep the nesting may be, the rules read tokens with balanced parentheses. -/
theorem Rules.balanced_within (n : Nat) : (within n).Balanced := by
  induction n with
  | zero => exact ⟨nofun, nofun, nofun, nofun⟩
  | succ n ih => exact ih.enter

/-! ## Programs -/

/-- The parentheses in the tokens of a program are balanced. -/
theorem openAfter_of_parseTokens {program : Program} (h : parseTokens ts = .ok program) :
    openAfter 0 ts = some 0 := by
  have hrules := Rules.balanced_within maxDepth
  rcases program_cases (parseTokens_ok_iff.1 h) with ⟨e, -, _, he⟩ | ⟨body, -, _, hbody⟩
  · exact hrules.expression ts _ he 0
  · exact hrules.block ts _ hbody 0

end Flipbook.Expression
