import Flipbook.Proofs.Expression.Acceptance
import Flipbook.Proofs.Expression.StatementRules

/-!
# Programs are read as they are written

The tokens of a program are read as that program, in whatever style it is written and
wherever its tokens stand, as long as it is not nested too deep.

* `derived`: what is written for an expression is a phrase of the grammar.
* `reads_statement`: what is written for a statement is read as that statement.
* `parseTokens_tokens`: the same for programs of either dialect.
-/
namespace Flipbook.Expression

variable {us rest : List Lexeme} {tokens : List Token}

/-! ## Tokens and their places -/

/-- Whether lexemes are the given tokens, wherever they stand. -/
def Spells (us : List Lexeme) (tokens : List Token) : Prop := us.map Lexeme.token = tokens

theorem spells_nil_iff : Spells us [] ↔ us = [] := List.map_eq_nil_iff

theorem spells_cons_iff {token : Token} :
    Spells us (token :: tokens) ↔
      ∃ position vs, us = ⟨token, position⟩ :: vs ∧ Spells vs tokens := by
  constructor
  · intro h
    obtain ⟨t, vs, rfl, rfl, hvs⟩ := List.map_eq_cons_iff.1 h
    exact ⟨t.position, vs, rfl, hvs⟩
  · rintro ⟨position, vs, rfl, hvs⟩
    exact congrArg (token :: ·) hvs

theorem spells_append_iff {more : List Token} :
    Spells us (tokens ++ more) ↔
      ∃ vs ws, us = vs ++ ws ∧ Spells vs tokens ∧ Spells ws more :=
  List.map_eq_append_iff

/-- Tokens between two symbols, with the symbols. -/
theorem spells_between_iff {s s' : Symbol} :
    Spells us (.symbol s :: (tokens ++ [.symbol s'])) ↔
      ∃ opening vs closing, us = ⟨.symbol s, opening⟩ :: (vs ++ [⟨.symbol s', closing⟩]) ∧
        Spells vs tokens := by
  constructor
  · intro h
    obtain ⟨opening, inner, rfl, hinner⟩ := spells_cons_iff.1 h
    obtain ⟨vs, last, rfl, hvs, hlast⟩ := spells_append_iff.1 hinner
    obtain ⟨closing, none, rfl, hnone⟩ := spells_cons_iff.1 hlast
    obtain rfl := spells_nil_iff.1 hnone
    exact ⟨opening, vs, closing, rfl, hvs⟩
  · rintro ⟨opening, vs, closing, rfl, rfl⟩
    simp [Spells]

/-! ## Operators -/

theorem BinaryOp.operator?_symbol {op : BinaryOp} (h : op ≠ .power) :
    ∃ level, op.symbol.operator? = some (level, op) ∧ op.leftLimit = level + 3 ∧
      op.rightLimit = level + 2 := by
  cases op <;> first | exact absurd rfl h | exact ⟨_, rfl, rfl, rfl⟩

theorem UnaryOp.prefix?_symbol (op : UnaryOp) : op.symbol.prefix? = some op := by
  cases op <;> rfl

theorem BinaryOp.symbol_ne_assign (op : BinaryOp) : op.symbol ≠ .assign := by
  cases op <;> decide

/-- The category of the expressions that hold together tightly enough. -/
def Category.ofLooseness : Nat → Category
  | 0 => .primary
  | 1 => .unary
  | level + 2 => .chain level

theorem BinaryOp.looseness_le (op : BinaryOp) : op.looseness ≤ operatorLevels + 2 := by
  cases op <;> decide

theorem Expr.looseness_le (e : Expr) : e.looseness ≤ operatorLevels + 2 := by
  cases e with
  | binary op left right => exact op.looseness_le
  | _ => exact Nat.le_add_left _ _

/-- What holds together tightly may stand where looser phrases may. -/
theorem Derives.loosen {k k' depth : Nat} {ts : List Lexeme} {e : Expr}
    (h : Derives (.ofLooseness k) depth ts rest e) (hle : k ≤ k') :
    Derives (.ofLooseness k') depth ts rest e := by
  induction hle with
  | refl => exact h
  | @step m _ ih =>
    match m, ih with
    | 0, ih => exact ih.plain
    | 1, ih => exact ih.base.operand
    | level + 2, ih => exact ih.looser

theorem Derives.power_of_chain {depth : Nat} {ts : List Lexeme} {e : Expr}
    (h : Derives (.chain 0) depth ts rest e) : Derives .power depth ts rest e := by
  cases h
  assumption

/-! ## Expressions are phrases -/

/-- Whether the tokens of an expression are a phrase for it, nested as deep as they
are said to be. -/
def Expr.Derived (e : Expr) : Prop :=
  ∀ us rest, Spells us e.tokens →
    Derives (.ofLooseness e.looseness) e.nesting (us ++ rest) rest e

/-- A whole expression adds a level. -/
theorem Expr.Derived.whole {e : Expr} (h : e.Derived) (hus : Spells us e.tokens)
    (rest : List Lexeme) : Derives .expression (e.nesting + 1) (us ++ rest) rest e :=
  ((h us rest hus).loosen e.looseness_le).expression

/-- An operand stands as it is, or in parentheses that add a level. -/
theorem Expr.Derived.placed {e : Expr} (h : e.Derived) {limit : Nat}
    (hus : Spells us (e.placed limit e.tokens)) (rest : List Lexeme) :
    Derives (.ofLooseness limit) (e.placedNesting limit e.nesting) (us ++ rest) rest e := by
  unfold Expr.placed at hus
  unfold placedNesting
  by_cases hlimit : e.looseness ≤ limit
  · rw [if_pos hlimit] at hus ⊢
    exact (h us rest hus).loosen hlimit
  · rw [if_neg hlimit] at hus ⊢
    obtain ⟨opening, vs, closing, rfl, hvs⟩ := spells_between_iff.1 hus
    have hwhole := h.whole hvs (⟨.symbol .closeParen, closing⟩ :: rest)
    have hprimary : Derives (.ofLooseness 0) (e.nesting + 1)
        (⟨.symbol .openParen, opening⟩ :: (vs ++ ⟨.symbol .closeParen, closing⟩ :: rest)) rest e :=
      hwhole.parenthesized
    simpa using hprimary.loosen (Nat.zero_le limit)

theorem derived_unary {op : UnaryOp} {operand : Expr} (h : operand.Derived) :
    (Expr.unary op operand).Derived := by
  intro us rest hus
  rw [Expr.tokens] at hus
  obtain ⟨position, vs, rfl, hvs⟩ := spells_cons_iff.1 hus
  exact Derives.signed op.prefix?_symbol (h.placed hvs rest)

theorem derived_binary {op : BinaryOp} {left right : Expr} (hleft : left.Derived)
    (hright : right.Derived) : (Expr.binary op left right).Derived := by
  intro us rest hus
  rw [Expr.tokens] at hus
  obtain ⟨vs, behind, rfl, hvs, hbehind⟩ := spells_append_iff.1 hus
  obtain ⟨position, ws, rfl, hws⟩ := spells_cons_iff.1 hbehind
  rw [List.append_assoc, List.cons_append]
  have hl := hleft.placed hvs (⟨.symbol op.symbol, position⟩ :: (ws ++ rest))
  have hr := hright.placed hws rest
  rw [Expr.nesting]
  by_cases hop : op = .power
  · subst hop
    exact (Derives.exponent hl hr.power_of_chain).operand
  · obtain ⟨level, hsymbol, hlimit, hlimit'⟩ := BinaryOp.operator?_symbol hop
    rw [hlimit] at hl
    rw [hlimit'] at hr
    have hbinary := Derives.binary hsymbol hl hr
    rw [if_neg hop, Nat.add_zero, hlimit, hlimit']
    have hlooseness : (Expr.binary op left right).looseness = level + 3 := by
      rw [← hlimit, BinaryOp.leftLimit, if_neg hop]
      rfl
    rw [hlooseness]
    exact hbinary

/-- A call goes on with the arguments behind those written so far. -/
theorem derives_furtherArguments {args : List Expr} (hargs : ∀ e ∈ args, e.Derived)
    {depth : Nat} {ts : List Lexeme} {name : String} {sofar : List Expr}
    (hus : Spells us (furtherArguments args)) (rest : List Lexeme)
    (h : Derives .openCall depth ts (us ++ rest) (.call name sofar)) :
    Derives .openCall (max depth (argumentNesting args)) ts rest (.call name (sofar ++ args)) := by
  induction args generalizing us depth sofar with
  | nil =>
    obtain rfl := spells_nil_iff.1 hus
    simpa [argumentNesting] using h
  | cons arg args ih =>
    rw [furtherArguments] at hus
    obtain ⟨comma, behind, rfl, hbehind⟩ := spells_cons_iff.1 hus
    obtain ⟨vs, ws, rfl, hvs, hws⟩ := spells_append_iff.1 hbehind
    have harg := (hargs arg List.mem_cons_self).whole hvs (ws ++ rest)
    rw [List.cons_append, List.append_assoc] at h
    have hmore := ih (fun e he => hargs e (List.mem_cons_of_mem _ he)) hws (h.nextArgument harg)
    rw [List.append_assoc] at hmore
    rw [argumentNesting, ← Nat.max_assoc]
    exact hmore

theorem derived_call {name : String} {args : List Expr} (hargs : ∀ e ∈ args, e.Derived) :
    (Expr.call name args).Derived := by
  intro us rest hus
  cases args with
  | nil =>
    rw [Expr.tokens] at hus
    obtain ⟨position, behind, rfl, hbehind⟩ := spells_cons_iff.1 hus
    obtain ⟨opening, vs, closing, rfl, hvs⟩ := spells_between_iff.1 hbehind
    obtain rfl := spells_nil_iff.1 hvs
    exact Derives.callWithout
  | cons arg args =>
    rw [Expr.tokens] at hus
    obtain ⟨position, behind, rfl, hbehind⟩ := spells_cons_iff.1 hus
    obtain ⟨opening, inner, closing, rfl, hinner⟩ := spells_between_iff.1 hbehind
    obtain ⟨vs, ws, rfl, hvs, hws⟩ := spells_append_iff.1 hinner
    have harg := (hargs arg List.mem_cons_self).whole hvs
      (ws ++ ⟨.symbol .closeParen, closing⟩ :: rest)
    have hfirst : Derives .openCall (arg.nesting + 1)
        (⟨.name name, position⟩ :: ⟨.symbol .openParen, opening⟩ ::
          (vs ++ (ws ++ ⟨.symbol .closeParen, closing⟩ :: rest)))
        (ws ++ ⟨.symbol .closeParen, closing⟩ :: rest) (.call name [arg]) :=
      harg.firstArgument
    have hcall := derives_furtherArguments (fun e he => hargs e (List.mem_cons_of_mem _ he)) hws _
      hfirst
    simp only [List.cons_append, List.append_assoc, List.nil_append]
    exact hcall.call

mutual

/-- What is written for an expression is a phrase of the grammar. -/
theorem derived : ∀ e : Expr, e.isWritable = true → e.Derived
  | .number value, _ => by
    intro us rest hus
    obtain ⟨position, vs, rfl, hvs⟩ := spells_cons_iff.1 hus
    obtain rfl := spells_nil_iff.1 hvs
    exact .number
  | .text value, _ => by
    intro us rest hus
    obtain ⟨position, vs, rfl, hvs⟩ := spells_cons_iff.1 hus
    obtain rfl := spells_nil_iff.1 hvs
    exact .text
  | .bool value, _ => by
    intro us rest hus
    obtain ⟨position, vs, rfl, hvs⟩ := spells_cons_iff.1 hus
    obtain rfl := spells_nil_iff.1 hvs
    cases value
    · exact .name
    · exact .name
  | .variable name, h => by
    intro us rest hus
    obtain ⟨position, vs, rfl, hvs⟩ := spells_cons_iff.1 hus
    obtain rfl := spells_nil_iff.1 hvs
    have hnamed : named name = .variable name := by
      simp only [Expr.isWritable, truthWords, Bool.and_eq_true, decide_eq_true_eq, List.mem_cons,
        List.not_mem_nil, or_false, not_or] at h
      rw [named, if_neg h.1.1, if_neg h.1.2]
    have hname : Derives .primary 0 (⟨.name name, position⟩ :: rest) rest (named name) := .name
    rw [hnamed] at hname
    exact hname
  | .unary op operand, h => derived_unary (derived operand h)
  | .binary op left right, h => by
    rw [Expr.isWritable, Bool.and_eq_true] at h
    exact derived_binary (derived left h.1) (derived right h.2)
  | .call name args, h => by
    rw [Expr.isWritable, Bool.and_eq_true] at h
    exact derived_call (derived_arguments args h.2)

theorem derived_arguments : ∀ args : List Expr, argumentsWritable args = true →
    ∀ e ∈ args, e.Derived
  | [], _ => nofun
  | arg :: args, h => by
    rw [argumentsWritable, Bool.and_eq_true] at h
    exact List.forall_mem_cons.2 ⟨derived arg h.1, derived_arguments args h.2⟩

end

/-! ## Expressions are read -/

theorem reads_tokens {e : Expr} {n : Nat} (he : e.isWritable = true) (hn : e.nesting + 1 ≤ n)
    (hus : Spells us e.tokens) (hrest : Category.expression.Ends rest) :
    Reads (Rules.within n).expression (us ++ rest) e rest :=
  (((derived e he).whole hus rest).reaches n hrest).1 hn

theorem ends_of_symbol {s : Symbol} (h : operatorLevels + 1 < s.reach) (position : Nat)
    (us : List Lexeme) : Category.expression.Ends (⟨.symbol s, position⟩ :: us) :=
  Category.ends_cons_symbol.2 h

theorem opensExpression_symbol {s : Symbol} {position : Nat}
    (hs : s = .openParen ∨ s.prefix?.isSome = true) :
    OpensExpression (⟨.symbol s, position⟩ :: us) := by
  refine ⟨⟨nofun, ?_⟩, nofun⟩
  intro s' position' us' h
  cases h
  exact hs

theorem opensExpression_name {name : String} {position : Nat} (hname : name ∉ statementWords)
    (hus : startsWith .assign us = false) : OpensExpression (⟨.name name, position⟩ :: us) := by
  refine ⟨opensStatement_name, ?_⟩
  intro name' position' us' h
  cases h
  exact ⟨hname, hus⟩

/-- What is written for an expression can be taken for no other statement. -/
theorem opensExpression_tokens : ∀ {e : Expr} {us rest : List Lexeme}, e.isWritable = true →
    Spells us e.tokens → startsWith .assign rest = false → OpensExpression (us ++ rest)
  | .number value, us, rest, _, hus, _ => by
    obtain ⟨position, vs, rfl, -⟩ := spells_cons_iff.1 hus
    exact ⟨⟨nofun, nofun⟩, nofun⟩
  | .text value, us, rest, _, hus, _ => by
    obtain ⟨position, vs, rfl, -⟩ := spells_cons_iff.1 hus
    exact ⟨⟨nofun, nofun⟩, nofun⟩
  | .bool value, us, rest, _, hus, hrest => by
    obtain ⟨position, vs, rfl, hvs⟩ := spells_cons_iff.1 hus
    obtain rfl := spells_nil_iff.1 hvs
    cases value
    · exact opensExpression_name (by decide) hrest
    · exact opensExpression_name (by decide) hrest
  | .variable name, us, rest, h, hus, hrest => by
    obtain ⟨position, vs, rfl, hvs⟩ := spells_cons_iff.1 hus
    obtain rfl := spells_nil_iff.1 hvs
    rw [Expr.isWritable, Bool.and_eq_true] at h
    exact opensExpression_name (of_decide_eq_true h.2) hrest
  | .unary op operand, us, rest, _, hus, _ => by
    rw [Expr.tokens] at hus
    obtain ⟨position, vs, rfl, -⟩ := spells_cons_iff.1 hus
    exact opensExpression_symbol (.inr (by rw [op.prefix?_symbol]; rfl))
  | .binary op left right, us, rest, h, hus, _ => by
    rw [Expr.isWritable, Bool.and_eq_true] at h
    rw [Expr.tokens] at hus
    obtain ⟨vs, behind, rfl, hvs, hbehind⟩ := spells_append_iff.1 hus
    obtain ⟨position, ws, rfl, -⟩ := spells_cons_iff.1 hbehind
    rw [List.append_assoc]
    unfold Expr.placed at hvs
    split at hvs
    · exact opensExpression_tokens h.1 hvs (decide_eq_false op.symbol_ne_assign)
    · obtain ⟨opening, inner, closing, rfl, -⟩ := spells_between_iff.1 hvs
      exact opensExpression_symbol (.inl rfl)
  | .call name args, us, rest, h, hus, _ => by
    rw [Expr.isWritable, Bool.and_eq_true] at h
    have hname : name ∉ statementWords := of_decide_eq_true h.1
    cases args with
    | nil =>
      rw [Expr.tokens] at hus
      obtain ⟨position, behind, rfl, hbehind⟩ := spells_cons_iff.1 hus
      obtain ⟨opening, vs, rfl, -⟩ := spells_cons_iff.1 hbehind
      exact opensExpression_name hname rfl
    | cons arg args =>
      rw [Expr.tokens] at hus
      obtain ⟨position, behind, rfl, hbehind⟩ := spells_cons_iff.1 hus
      obtain ⟨opening, vs, rfl, -⟩ := spells_cons_iff.1 hbehind
      exact opensExpression_name hname rfl

/-! ## Statements are read -/

/-- Whether a statement is read as it is written, before a semicolon. -/
def Statement.ReadBack (s : Statement) : Prop :=
  ∀ style n us position rest, s.nesting ≤ n → Spells us (s.tokens style) →
    Reads (statement (Rules.within n)) (us ++ ⟨.symbol .semicolon, position⟩ :: rest) s
      (⟨.symbol .semicolon, position⟩ :: rest)

/-- Whether the statements of a block are read as they are written, behind some that
have been read. -/
def BodyReadBack (body : List Statement) : Prop :=
  ∀ style index n sofar us position rest, statementNesting body ≤ n →
    Spells us (statementTokens style index body) →
    Reads (statementsFrom (Rules.within n) sofar) (us ++ ⟨.symbol .closeBrace, position⟩ :: rest)
      (sofar ++ body) rest

/-- Whether branches are read as they are written, behind some that have been read. -/
def BranchesReadBack (branches : List (Expr × List Statement)) : Prop :=
  ∀ style index n sofar us s ts rest, branchNesting branches ≤ n →
    Spells us (branchTokens style (index + 1) branches) →
    ReadsElse (Rules.within n) (sofar ++ branches) ts s rest →
    ReadsElse (Rules.within n) sofar (us ++ ts) s rest

/-- Whether arms are read as they are written, behind some that have been read. -/
def ArmsReadBack (arms : List (Pattern × List Statement)) : Prop :=
  ∀ style index n sofar us position rest, armNesting arms ≤ n →
    Spells us (furtherArms style index arms) →
    Reads (armsFrom (Rules.within n) sofar) (us ++ ⟨.symbol .closeBrace, position⟩ :: rest)
      (sofar ++ arms) rest

theorem BodyReadBack.block {body : List Statement} (h : BodyReadBack body) {style : Style} {n : Nat}
    (hn : statementNesting body + 1 ≤ n)
    (hus : Spells us (braced (statementTokens style 0 body))) (rest : List Lexeme) :
    Reads (Rules.within n).block (us ++ rest) body rest := by
  obtain ⟨opening, vs, closing, rfl, hvs⟩ := spells_between_iff.1 hus
  obtain ⟨m, rfl⟩ : ∃ m, n = m + 1 := ⟨n - 1, by omega⟩
  have hbody := h style 0 m [] vs closing rest (by omega) hvs
  have hblock : Reads (Rules.within (m + 1)).block
      (⟨.symbol .openBrace, opening⟩ :: (vs ++ ⟨.symbol .closeBrace, closing⟩ :: rest)) body rest :=
    hbody.block
  simpa using hblock

theorem startsWith_openBrace_of_spells (hus : Spells us (braced tokens)) (rest : List Lexeme) :
    startsWith .openBrace (us ++ rest) = true := by
  obtain ⟨opening, vs, closing, rfl, -⟩ := spells_between_iff.1 hus
  rfl

/-- A block follows a condition or an arrow. -/
theorem ends_of_spells_braced (hus : Spells us (braced tokens)) (rest : List Lexeme) :
    Category.expression.Ends (us ++ rest) := by
  obtain ⟨opening, vs, closing, rfl, -⟩ := spells_between_iff.1 hus
  exact ends_of_symbol (by decide) _ _

section

variable {name : String} {e : Expr} {pattern : Pattern} {body : List Statement} {s : Statement}
  {branches : List (Expr × List Statement)} {arms : List (Pattern × List Statement)}

theorem readBack_declare (he : e.isWritable = true) (mutable : Bool) :
    (Statement.declare mutable name e).ReadBack := by
  intro style n us position rest hn hus
  rw [Statement.tokens] at hus
  obtain ⟨first, behind, rfl, hbehind⟩ := spells_cons_iff.1 hus
  obtain ⟨second, behind, rfl, hsign⟩ := spells_cons_iff.1 hbehind
  obtain ⟨third, vs, rfl, hvs⟩ := spells_cons_iff.1 hsign
  have hvalue := reads_tokens he hn hvs (ends_of_symbol (s := .semicolon) (by decide) position rest)
  cases mutable with
  | true => exact hvalue.assigned.declare (.inr rfl)
  | false => exact hvalue.assigned.declare (.inl rfl)

theorem readBack_assign (hname : name ∉ statementWords) (he : e.isWritable = true) :
    (Statement.assign name e).ReadBack := by
  intro style n us position rest hn hus
  rw [Statement.tokens] at hus
  obtain ⟨first, behind, rfl, hbehind⟩ := spells_cons_iff.1 hus
  obtain ⟨second, vs, rfl, hvs⟩ := spells_cons_iff.1 hbehind
  have hvalue := reads_tokens he hn hvs (ends_of_symbol (s := .semicolon) (by decide) position rest)
  exact hvalue.assigned.assign hname

theorem readBack_result (he : e.isWritable = true) : (Statement.result e).ReadBack := by
  intro style n us position rest hn hus
  rw [Statement.tokens] at hus
  obtain ⟨first, behind, rfl, hbehind⟩ := spells_cons_iff.1 hus
  obtain ⟨opening, vs, closing, rfl, hvs⟩ := spells_between_iff.1 hbehind
  have hvalue := reads_tokens he hn hvs (ends_of_symbol (s := .closeParen) (by decide) closing
    (⟨.symbol .semicolon, position⟩ :: rest))
  simp only [List.cons_append, List.append_assoc, List.nil_append]
  exact hvalue.closedBy.result

theorem readBack_effect (he : e.isWritable = true) : (Statement.effect e).ReadBack := by
  intro style n us position rest hn hus
  rw [Statement.tokens] at hus
  have hvalue := reads_tokens he hn hus (ends_of_symbol (s := .semicolon) (by decide) position rest)
  exact hvalue.effect (opensExpression_tokens he hus rfl)

/-- A condition and its block. -/
theorem reads_guarded (he : e.isWritable = true) (hbody : BodyReadBack body) {style : Style}
    {n : Nat} (hcondition : e.nesting + 1 ≤ n) (hblock : statementNesting body + 1 ≤ n)
    {vs : List Lexeme} (hus : Spells us e.tokens)
    (hvs : Spells vs (braced (statementTokens style 0 body))) (rest : List Lexeme) :
    Reads (guarded (Rules.within n)) (us ++ (vs ++ rest)) (e, body) rest :=
  (reads_tokens he hcondition hus (ends_of_spells_braced hvs rest)).guarded
    (hbody.block hblock hvs rest)

theorem branchesReadBack_nil : BranchesReadBack [] := by
  intro style index n sofar us s ts rest hn hus h
  rw [branchTokens] at hus
  obtain rfl := spells_nil_iff.1 hus
  simpa using h

theorem branchesReadBack_cons (he : e.isWritable = true) (hbody : BodyReadBack body)
    (hmore : BranchesReadBack branches) : BranchesReadBack ((e, body) :: branches) := by
  intro style index n sofar us s ts rest hn hus h
  simp only [branchNesting, Nat.max_le] at hn
  rw [branchTokens] at hus
  obtain ⟨words, behind, rfl, hwords, hbehind⟩ := spells_append_iff.1 hus
  obtain ⟨first, word, rfl, hword⟩ := spells_cons_iff.1 hwords
  obtain ⟨second, none, rfl, hnone⟩ := spells_cons_iff.1 hword
  obtain rfl := spells_nil_iff.1 hnone
  obtain ⟨us, behind, rfl, hcondition, hrest⟩ := spells_append_iff.1 hbehind
  obtain ⟨vs, ws, rfl, hblock, hws⟩ := spells_append_iff.1 hrest
  have hguarded := reads_guarded he hbody hn.1.1 hn.1.2 hcondition hblock (ws ++ ts)
  have hlater := hmore style (index + 1) n (sofar ++ [(e, body)]) ws s ts rest hn.2 hws
    (by simpa using h)
  simp only [List.cons_append, List.append_assoc, List.nil_append]
  exact hguarded.readsElse_if hlater

theorem readBack_branch_none (he : e.isWritable = true) (hbody : BodyReadBack body)
    (hmore : BranchesReadBack branches) :
    (Statement.branch ((e, body) :: branches) none).ReadBack := by
  intro style n us position rest hn hus
  simp only [Statement.nesting, branchNesting, Nat.max_le] at hn
  rw [Statement.tokens, branchTokens, branchWords, List.singleton_append] at hus
  obtain ⟨first, behind, rfl, hbehind⟩ := spells_cons_iff.1 hus
  obtain ⟨us, behind, rfl, hcondition, hrest⟩ := spells_append_iff.1 hbehind
  obtain ⟨vs, ws, rfl, hblock, hws⟩ := spells_append_iff.1 hrest
  have hguarded := reads_guarded he hbody hn.1.1 hn.1.2 hcondition hblock
    (ws ++ ⟨.symbol .semicolon, position⟩ :: rest)
  have hnone : ReadsElse (Rules.within n) ([(e, body)] ++ branches)
      (⟨.symbol .semicolon, position⟩ :: rest) _ _ :=
    readsElse_none rfl
  have hlater := hmore style 0 n [(e, body)] ws _ _ _ hn.2 hws hnone
  simp only [List.cons_append, List.append_assoc]
  exact hguarded.branch hlater

theorem readBack_branch_some {last : List Statement} (he : e.isWritable = true)
    (hbody : BodyReadBack body) (hmore : BranchesReadBack branches) (hlast : BodyReadBack last) :
    (Statement.branch ((e, body) :: branches) (some last)).ReadBack := by
  intro style n us position rest hn hus
  simp only [Statement.nesting, branchNesting, Nat.max_le] at hn
  rw [Statement.tokens, branchTokens, branchWords, List.singleton_append] at hus
  obtain ⟨all, otherwise, rfl, hall, hotherwise⟩ := spells_append_iff.1 hus
  obtain ⟨first, behind, rfl, hbehind⟩ := spells_cons_iff.1 hall
  obtain ⟨us, behind, rfl, hcondition, hrest⟩ := spells_append_iff.1 hbehind
  obtain ⟨vs, ws, rfl, hblock, hws⟩ := spells_append_iff.1 hrest
  obtain ⟨word, xs, rfl, hxs⟩ := spells_cons_iff.1 hotherwise
  have hguarded := reads_guarded he hbody hn.1.1.1 hn.1.1.2 hcondition hblock
    (ws ++ ⟨.name "else", word⟩ :: (xs ++ ⟨.symbol .semicolon, position⟩ :: rest))
  have hfinal := hlast.block hn.2 hxs (⟨.symbol .semicolon, position⟩ :: rest)
  have hif : startsWithWord "if" (xs ++ ⟨.symbol .semicolon, position⟩ :: rest) = false := by
    obtain ⟨opening, ys, closing, rfl, -⟩ := spells_between_iff.1 hxs
    rfl
  have helse : ReadsElse (Rules.within n) ([(e, body)] ++ branches)
      (⟨.name "else", word⟩ :: (xs ++ ⟨.symbol .semicolon, position⟩ :: rest)) _ _ :=
    hfinal.readsElse hif
  have hlater := hmore style 0 n [(e, body)] ws _ _ _ hn.1.2 hws helse
  simp only [List.cons_append, List.append_assoc]
  exact hguarded.branch hlater

/-! ## Arms -/

theorem reads_pattern {style : Style} (hus : Spells us (pattern.tokens style))
    (rest : List Lexeme) : Reads Expression.pattern (us ++ rest) pattern rest := by
  cases pattern with
  | number value =>
    rw [Pattern.tokens] at hus
    split at hus
    · next h =>
      obtain ⟨first, behind, rfl, hbehind⟩ := spells_cons_iff.1 hus
      obtain ⟨second, none, rfl, hnone⟩ := spells_cons_iff.1 hbehind
      obtain rfl := spells_nil_iff.1 hnone
      refine ⟨by simp only [List.cons_append, List.nil_append, List.length_cons]; omega, ?_⟩
      show Except.ok _ = _
      simp [h.2]
    · obtain ⟨first, none, rfl, hnone⟩ := spells_cons_iff.1 hus
      obtain rfl := spells_nil_iff.1 hnone
      exact ⟨by simp, rfl⟩
  | text value =>
    obtain ⟨first, none, rfl, hnone⟩ := spells_cons_iff.1 hus
    obtain rfl := spells_nil_iff.1 hnone
    exact ⟨by simp, rfl⟩
  | rest =>
    obtain ⟨first, none, rfl, hnone⟩ := spells_cons_iff.1 hus
    obtain rfl := spells_nil_iff.1 hnone
    exact ⟨by simp, rfl⟩

/-- A pattern opens like a statement: it neither separates nor closes arms. -/
theorem opensStatement_pattern {style : Style} (hus : Spells us (pattern.tokens style))
    (rest : List Lexeme) : OpensStatement (us ++ rest) := by
  cases pattern with
  | number value =>
    rw [Pattern.tokens] at hus
    split at hus
    · obtain ⟨first, behind, rfl, -⟩ := spells_cons_iff.1 hus
      exact (opensExpression_symbol (.inr rfl)).toOpensStatement
    · obtain ⟨first, behind, rfl, -⟩ := spells_cons_iff.1 hus
      exact ⟨nofun, nofun⟩
  | text value =>
    obtain ⟨first, behind, rfl, -⟩ := spells_cons_iff.1 hus
    exact ⟨nofun, nofun⟩
  | rest =>
    obtain ⟨first, behind, rfl, -⟩ := spells_cons_iff.1 hus
    exact opensStatement_name

/-- An arm is read behind others, before whatever is read as the arms behind it. -/
theorem reads_arm (hbody : BodyReadBack body) {style style' : Style} {n : Nat} (position : Nat)
    {sofar arms : List (Pattern × List Statement)} {vs ws : List Lexeme}
    (hn : statementNesting body + 1 ≤ n) (hus : Spells us (pattern.tokens style))
    (hvs : Spells vs (braced (statementTokens style' 0 body)))
    (h : Reads (armsFrom (Rules.within n) (sofar ++ [(pattern, body)])) ws arms rest) :
    Reads (armsFrom (Rules.within n) sofar)
      (us ++ ⟨.symbol .arrow, position⟩ :: (vs ++ ws)) arms rest :=
  (reads_pattern hus _).armsFrom (opensStatement_pattern hus _)
    (startsWith_openBrace_of_spells hvs ws) (hbody.block hn hvs ws) h

theorem armsReadBack_nil : ArmsReadBack [] := by
  intro style index n sofar us position rest hn hus
  rw [furtherArms] at hus
  obtain rfl := spells_nil_iff.1 hus
  rw [List.append_nil]
  exact reads_lastArm

theorem armsReadBack_cons (hbody : BodyReadBack body) (hmore : ArmsReadBack arms) :
    ArmsReadBack ((pattern, body) :: arms) := by
  intro style index n sofar us position rest hn hus
  simp only [armNesting, Nat.max_le] at hn
  rw [furtherArms] at hus
  obtain ⟨comma, behind, rfl, hbehind⟩ := spells_cons_iff.1 hus
  obtain ⟨us, behind, rfl, hpattern, hbehind⟩ := spells_append_iff.1 hbehind
  obtain ⟨arrow, behind, rfl, hblock⟩ := spells_cons_iff.1 hbehind
  obtain ⟨vs, ws, rfl, hvs, hws⟩ := spells_append_iff.1 hblock
  have hlater := hmore style (index + 1) n (sofar ++ [(pattern, body)]) ws position rest hn.2 hws
  rw [List.append_assoc, List.singleton_append] at hlater
  simp only [List.cons_append, List.append_assoc]
  exact (reads_arm hbody arrow hn.1 hpattern hvs hlater).comma

theorem readBack_choose_nil : (Statement.choose name []).ReadBack := by
  intro style n us position rest hn hus
  rw [Statement.tokens] at hus
  obtain ⟨first, behind, rfl, hbehind⟩ := spells_cons_iff.1 hus
  obtain ⟨second, behind, rfl, hbraces⟩ := spells_cons_iff.1 hbehind
  obtain ⟨opening, vs, closing, rfl, hvs⟩ := spells_between_iff.1 hbraces
  obtain rfl := spells_nil_iff.1 hvs
  exact reads_lastArm.choose

theorem readBack_choose_cons (hbody : BodyReadBack body) (hmore : ArmsReadBack arms) :
    (Statement.choose name ((pattern, body) :: arms)).ReadBack := by
  intro style n us position rest hn hus
  simp only [Statement.nesting, armNesting, Nat.max_le] at hn
  rw [Statement.tokens] at hus
  obtain ⟨first, behind, rfl, hbehind⟩ := spells_cons_iff.1 hus
  obtain ⟨second, behind, rfl, hbraces⟩ := spells_cons_iff.1 hbehind
  obtain ⟨opening, inner, closing, rfl, hinner⟩ := spells_between_iff.1 hbraces
  obtain ⟨us, behind, rfl, hpattern, hbehind⟩ := spells_append_iff.1 hinner
  obtain ⟨arrow, behind, rfl, hblock⟩ := spells_cons_iff.1 hbehind
  obtain ⟨vs, ws, rfl, hvs, hws⟩ := spells_append_iff.1 hblock
  have hlater := hmore style 1 n [(pattern, body)] ws closing
    (⟨.symbol .semicolon, position⟩ :: rest) hn.2 hws
  rw [List.singleton_append, ← List.nil_append ((pattern, body) :: arms)] at hlater
  simp only [List.cons_append, List.append_assoc, List.nil_append]
  exact (reads_arm hbody arrow hn.1 hpattern hvs hlater).choose

/-! ## Blocks -/

theorem inBlock_false (s : Statement) : s.inBlock false = s := by
  cases s <;> rfl

/-- What is written for a statement opens one. -/
theorem opensStatement_tokens {style : Style} (hs : s.isWritable = true)
    (hus : Spells us (s.tokens style)) (hrest : startsWith .assign rest = false) :
    OpensStatement (us ++ rest) := by
  cases s with
  | declare mutable name value =>
    rw [Statement.tokens] at hus
    obtain ⟨first, behind, rfl, -⟩ := spells_cons_iff.1 hus
    exact opensStatement_name
  | assign name value =>
    rw [Statement.tokens] at hus
    obtain ⟨first, behind, rfl, -⟩ := spells_cons_iff.1 hus
    exact opensStatement_name
  | branch branches otherwise =>
    match branches, otherwise with
    | [], none => simp [Statement.isWritable] at hs
    | [], some _ => simp [Statement.isWritable] at hs
    | (_, _) :: _, none =>
      rw [Statement.tokens, branchTokens, branchWords, List.singleton_append] at hus
      obtain ⟨first, behind, rfl, -⟩ := spells_cons_iff.1 hus
      exact opensStatement_name
    | (_, _) :: _, some _ =>
      rw [Statement.tokens, branchTokens, branchWords, List.singleton_append,
        List.cons_append] at hus
      obtain ⟨first, behind, rfl, -⟩ := spells_cons_iff.1 hus
      exact opensStatement_name
  | choose subject arms =>
    match arms with
    | [] =>
      rw [Statement.tokens] at hus
      obtain ⟨first, behind, rfl, -⟩ := spells_cons_iff.1 hus
      exact opensStatement_name
    | (_, _) :: _ =>
      rw [Statement.tokens] at hus
      obtain ⟨first, behind, rfl, -⟩ := spells_cons_iff.1 hus
      exact opensStatement_name
  | result value =>
    rw [Statement.tokens] at hus
    obtain ⟨first, behind, rfl, -⟩ := spells_cons_iff.1 hus
    exact opensStatement_name
  | effect value =>
    rw [Statement.tokens] at hus
    exact (opensExpression_tokens hs hus hrest).toOpensStatement

theorem bodyReadBack_nil : BodyReadBack [] := by
  intro style index n sofar us position rest hn hus
  rw [statementTokens] at hus
  obtain rfl := spells_nil_iff.1 hus
  rw [List.append_nil]
  exact reads_closeBrace

/-- A statement with a semicolon is read as itself, a bare expression before the closing
brace as the result. -/
theorem Statement.ended_cases (bare : Bool) (s : Statement) (tokens : List Token) :
    s.ended bare tokens = tokens ++ [.symbol .semicolon] ∨
      bare = true ∧ ∃ e, s = .result e ∧ s.ended bare tokens = e.tokens := by
  cases bare with
  | false => exact .inl (by cases s <;> rfl)
  | true =>
    cases s with
    | result e => exact .inr ⟨rfl, e, rfl, rfl⟩
    | _ => exact .inl rfl

theorem bodyReadBack_cons (hs : s.isWritable = true) (hread : s.ReadBack)
    (hmore : BodyReadBack body) : BodyReadBack (s :: body) := by
  intro style index n sofar us position rest hn hus
  simp only [statementNesting, Nat.max_le] at hn
  rw [statementTokens] at hus
  obtain ⟨us, ws, rfl, hended, hws⟩ := spells_append_iff.1 hus
  rcases s.ended_cases (style.endsBare [] && body.isEmpty) (s.tokens (style.within index)) with
    htokens | ⟨hbare, e, rfl, htokens⟩
  · rw [htokens] at hended
    obtain ⟨vs, last, rfl, hvs, hlast⟩ := spells_append_iff.1 hended
    obtain ⟨semicolon, none, rfl, hnone⟩ := spells_cons_iff.1 hlast
    obtain rfl := spells_nil_iff.1 hnone
    have hlater := hmore style (index + 1) n (sofar ++ [s]) ws position rest hn.2 hws
    rw [List.append_assoc, List.singleton_append] at hlater
    have hstatement := hread (style.within index) n vs semicolon
      (ws ++ ⟨.symbol .closeBrace, position⟩ :: rest) hn.1 hvs
    simp only [List.cons_append, List.append_assoc, List.nil_append]
    refine Reads.statementsFrom (opensStatement_tokens hs hvs rfl) hstatement (.inl rfl) ?_
    rw [startsWith_symbol, decide_eq_false (by decide), inBlock_false]
    exact hlater.semicolon
  · rw [htokens] at hended
    obtain rfl : body = [] := by
      rw [Bool.and_eq_true, List.isEmpty_iff] at hbare
      exact hbare.2
    rw [statementTokens] at hws
    obtain rfl := spells_nil_iff.1 hws
    have hexpression := reads_tokens hs hn.1 hended
      (ends_of_symbol (s := .closeBrace) (by decide) position rest)
    have hopens : OpensExpression (us ++ ⟨.symbol .closeBrace, position⟩ :: rest) :=
      opensExpression_tokens hs hended rfl
    rw [List.append_nil]
    exact (hexpression.effect hopens).statementsFrom hopens.toOpensStatement (.inr rfl)
      reads_closeBrace

end

mutual

/-- What is written for a statement is read as that statement. -/
theorem reads_statement : ∀ s : Statement, s.isWritable = true → s.ReadBack
  | .declare mutable name value, h => readBack_declare h mutable
  | .assign name value, h => by
    rw [Statement.isWritable, Bool.and_eq_true] at h
    exact readBack_assign (of_decide_eq_true h.1) h.2
  | .branch [] none, h => by simp [Statement.isWritable] at h
  | .branch [] (some _), h => by simp [Statement.isWritable] at h
  | .branch ((condition, body) :: branches) none, h => by
    simp only [Statement.isWritable, branchesWritable, Bool.and_eq_true] at h
    exact readBack_branch_none h.2.1.1 (reads_body body h.2.1.2) (reads_branches branches h.2.2)
  | .branch ((condition, body) :: branches) (some last), h => by
    simp only [Statement.isWritable, branchesWritable, Bool.and_eq_true] at h
    exact readBack_branch_some h.1.2.1.1 (reads_body body h.1.2.1.2)
      (reads_branches branches h.1.2.2) (reads_body last h.2)
  | .choose subject [], _ => readBack_choose_nil
  | .choose subject ((pattern, body) :: arms), h => by
    simp only [Statement.isWritable, armsWritable, Bool.and_eq_true] at h
    exact readBack_choose_cons (reads_body body h.1) (reads_arms arms h.2)
  | .result value, h => readBack_result h
  | .effect value, h => readBack_effect h

theorem reads_body : ∀ body : List Statement, statementsWritable body = true → BodyReadBack body
  | [], _ => bodyReadBack_nil
  | s :: body, h => by
    rw [statementsWritable, Bool.and_eq_true] at h
    exact bodyReadBack_cons h.1 (reads_statement s h.1) (reads_body body h.2)

theorem reads_branches : ∀ branches : List (Expr × List Statement),
    branchesWritable branches = true → BranchesReadBack branches
  | [], _ => branchesReadBack_nil
  | (condition, body) :: branches, h => by
    simp only [branchesWritable, Bool.and_eq_true] at h
    exact branchesReadBack_cons h.1.1 (reads_body body h.1.2) (reads_branches branches h.2)

theorem reads_arms : ∀ arms : List (Pattern × List Statement), armsWritable arms = true →
    ArmsReadBack arms
  | [], _ => armsReadBack_nil
  | (pattern, body) :: arms, h => by
    rw [armsWritable, Bool.and_eq_true] at h
    exact armsReadBack_cons (reads_body body h.1) (reads_arms arms h.2)

end

/-! ## Programs are read -/

/-- A program is a block if one is read and nothing is left. -/
theorem Reads.program {ts : List Lexeme} {body : List Statement}
    (hbrace : startsWith .openBrace ts = true)
    (h : Reads (Rules.within maxDepth).block ts body []) :
    Expression.program ts = .ok (.block body) := by
  obtain ⟨hlt, h⟩ := h
  unfold Expression.program
  dsimp only
  rw [hbrace, if_pos rfl, h]
  rfl

/-- The tokens of a program are read as that program, wherever they stand and whatever
the style they are written in. -/
theorem parseTokens_tokens (style : Style) (p : Program) (hp : p.isWritable = true)
    (hdepth : p.nesting ≤ maxDepth) (ts : List Lexeme)
    (hts : ts.map Lexeme.token = p.tokens style) : parseTokens ts = .ok p := by
  cases p with
  | flat condition =>
    have hderives := (derived condition hp).whole hts []
    rw [List.append_nil] at hderives
    have hreads := hderives.reads_within hdepth
    rw [parseTokens_ok_iff, program_flat_iff]
    exact ⟨hderives.startsWith_openBrace, hreads⟩
  | block body =>
    have hreads := (reads_body body hp).block hdepth hts []
    have hbrace := startsWith_openBrace_of_spells hts []
    rw [List.append_nil] at hreads hbrace
    rw [parseTokens, hreads.program hbrace]
    rfl

/-- A block with each form of statement, an `else if` and a signed pattern. -/
def weatherProgram : Program :=
  .block [
    .declare true "light" (.binary .multiply
      (.binary .add (.variable "true_light") (.number 1.0)) (.unary .negate (.number 2.0))),
    .branch [
        (.call "true" [], [.assign "light" (.binary .power (.number 2.0) (.variable "light"))]),
        (.bool false, [.effect (.call "dim" [.variable "light", .text "dusk"])])]
      (some [.result (.variable "light")]),
    .choose "weather" [
        (.number (-1.0), [.result (.bool true)]),
        (.text "rain", []),
        (.rest, [.result (.number 0.0), .result (.variable "light")])],
    .result (.binary .less (.variable "light") (.number 3.0))]

theorem parseTokens_tokens_weatherProgram :
    weatherProgram.isWritable = true ∧ weatherProgram.nesting ≤ maxDepth ∧
      parseTokens ((weatherProgram.tokens .terse).map (⟨·, 0⟩)) = .ok weatherProgram := by
  refine ⟨by decide, by decide, ?_⟩
  refine parseTokens_tokens .terse weatherProgram (by decide) (by decide) _ ?_
  rw [List.map_map]
  exact List.map_id _

end Flipbook.Expression
