import Flipbook.Proofs.Expression.Grammar

/-!
# What the rules of expressions do

A rule `Reads` a value or `Exceeds` the nesting that is allowed. For each rule of
expressions there is a lemma for either, from what the rules in it do; the loops over
arguments and over operators are followed one round at a time.

* `Continues`: a call that has been read up to one of its arguments.
* `chainRule`: the rule for operators that bind to the left, level by level, which is
  the one of the parser (`chains_eq`).
-/
namespace Flipbook.Expression

variable {α : Type} {ts us rest : List Lexeme}

/-! ## Outcomes of rules -/

/-- Whether a rule reads a value and leaves the rest. -/
def Reads (rule : Rule α) (ts : List Lexeme) (a : α) (rest : List Lexeme) : Prop :=
  ∃ h, rule ts = .ok ⟨a, rest, h⟩

/-- Whether a rule finds the nesting too deep. -/
def Exceeds (rule : Rule α) (ts : List Lexeme) : Prop := ∃ us, rule ts = .error ⟨none, us⟩

theorem exists_reads {rule : Rule α} {p : Parsed α ts} (h : rule ts = .ok p) :
    Reads rule ts p.value p.rest :=
  ⟨p.shorter, h⟩

theorem Reads.unique {rule : Rule α} {a b : α} {rest rest' : List Lexeme}
    (h : Reads rule ts a rest) (h' : Reads rule ts b rest') : a = b ∧ rest = rest' := by
  obtain ⟨_, heq⟩ := h
  obtain ⟨_, heq'⟩ := h'
  cases heq.symm.trans heq'
  exact ⟨rfl, rfl⟩

theorem Reads.not_exceeds {rule : Rule α} {a : α} (h : Reads rule ts a rest) :
    ¬Exceeds rule ts := by
  obtain ⟨_, heq⟩ := h
  rintro ⟨us, herror⟩
  cases heq.symm.trans herror

/-! ## Calls and primaries -/

theorem length_lt_symbol (s : Symbol) (position : Nat) (us : List Lexeme) :
    us.length < (⟨.symbol s, position⟩ :: us : List Lexeme).length :=
  Nat.lt_succ_self _

/-- What is read behind an argument: the closing parenthesis, or more arguments. -/
def afterArgument (expression : Rule Expr) :
    (sofar : List Expr) → (ts : List Lexeme) → Except Failure (Parsed (List Expr) ts)
  | sofar, ⟨.symbol .closeParen, position⟩ :: us =>
    .ok ⟨sofar, us, length_lt_symbol .closeParen position us⟩
  | sofar, ts => do
    let comma ← symbol .comma ts
    return (← argumentsFrom expression sofar comma.rest).widen comma.shorter

theorem argumentsFrom_of_ok {expression : Rule Expr} {before : List Expr} {e : Expr}
    {h : rest.length < ts.length} (hread : expression ts = .ok ⟨e, rest, h⟩) :
    argumentsFrom expression before ts =
      (afterArgument expression (before ++ [e]) rest).map (·.widen h) := by
  rw [argumentsFrom, hread]
  dsimp only [bind, Except.bind]
  split
  · rfl
  · next hnot =>
    rw [afterArgument]
    · cases hcomma : symbol .comma rest with
      | error f => rfl
      | ok comma =>
        dsimp only [bind, Except.bind]
        cases argumentsFrom expression (before ++ [e]) comma.rest <;> rfl
    · exact hnot

theorem argumentsFrom_of_error {expression : Rule Expr} {before : List Expr} {f : Failure}
    (h : expression ts = .error f) : argumentsFrom expression before ts = .error f := by
  rw [argumentsFrom, h]
  rfl

theorem afterArgument_comma {expression : Rule Expr} {sofar : List Expr} {position : Nat} :
    afterArgument expression sofar (⟨.symbol .comma, position⟩ :: us) =
      (argumentsFrom expression sofar us).map (·.widen (length_lt_symbol .comma position us)) := by
  have hcomma : symbol .comma (⟨.symbol .comma, position⟩ :: us) = .ok ⟨(), us, by simp⟩ := rfl
  rw [afterArgument]
  · rw [hcomma]
    dsimp only [bind, Except.bind]
    cases argumentsFrom expression sofar us <;> rfl
  · intro closing us h
    cases h

/-- Whether a rule for primaries, having read a call up to an argument, goes on
behind that argument. -/
def Continues (expression : Rule Expr) (ts rest : List Lexeme) (name : String)
    (args : List Expr) : Prop :=
  ∃ h, primary expression ts =
    (afterArgument expression args rest).map fun p => (p.map (.call name)).widen h

section

variable {expression : Rule Expr} {position : Nat} {name : String} {args : List Expr} {e : Expr}

theorem Reads.parenthesized {closing : Nat}
    (h : Reads expression ts e (⟨.symbol .closeParen, closing⟩ :: rest)) :
    Reads (primary expression) (⟨.symbol .openParen, position⟩ :: ts) e rest := by
  obtain ⟨hlt, h⟩ := h
  refine ⟨?_, ?_⟩
  · simp only [List.length_cons] at hlt ⊢
    omega
  · rw [primary, closedBy, h]
    rfl

theorem Exceeds.parenthesized (h : Exceeds expression ts) :
    Exceeds (primary expression) (⟨.symbol .openParen, position⟩ :: ts) := by
  obtain ⟨us, h⟩ := h
  refine ⟨us, ?_⟩
  rw [primary, closedBy, h]
  rfl

theorem reads_named (h : Category.primary.Ends rest) :
    Reads (primary expression) (⟨.name name, position⟩ :: rest) (named name) rest := by
  refine ⟨by simp, ?_⟩
  rw [primary]
  intro opening us hrest
  exact absurd (h _ _ _ hrest) (by decide)

/-- Past the opening parenthesis of a call, an expression is its first argument. -/
theorem arguments_eq (h : ∀ position us, ts ≠ ⟨.symbol .closeParen, position⟩ :: us) :
    arguments expression ts = argumentsFrom expression [] ts := by
  rw [arguments]
  exact h

theorem Reads.firstArgument {opening : Nat} (h : Reads expression ts e rest)
    (hts : ∀ position us, ts ≠ ⟨.symbol .closeParen, position⟩ :: us) :
    Continues expression (⟨.name name, position⟩ :: ⟨.symbol .openParen, opening⟩ :: ts) rest
      name [e] := by
  obtain ⟨hlt, h⟩ := h
  refine ⟨?_, ?_⟩
  · simp only [List.length_cons]
    omega
  · rw [primary, arguments_eq hts, argumentsFrom_of_ok h]
    dsimp only [List.nil_append]
    cases afterArgument expression [e] rest <;> rfl

theorem Exceeds.firstArgument {opening : Nat} (h : Exceeds expression ts)
    (hts : ∀ position us, ts ≠ ⟨.symbol .closeParen, position⟩ :: us) :
    Exceeds (primary expression)
      (⟨.name name, position⟩ :: ⟨.symbol .openParen, opening⟩ :: ts) := by
  obtain ⟨vs, h⟩ := h
  refine ⟨vs, ?_⟩
  rw [primary, arguments_eq hts, argumentsFrom_of_error h]
  rfl

theorem Continues.nextArgument
    (h : Continues expression ts (⟨.symbol .comma, position⟩ :: us) name args)
    (hnext : Reads expression us e rest) :
    Continues expression ts rest name (args ++ [e]) := by
  obtain ⟨hlt, h⟩ := h
  obtain ⟨hlt', hnext⟩ := hnext
  refine ⟨?_, ?_⟩
  · simp only [List.length_cons] at hlt
    omega
  · rw [h, afterArgument_comma, argumentsFrom_of_ok hnext]
    cases afterArgument expression (args ++ [e]) rest <;> rfl

theorem Continues.exceeds
    (h : Continues expression ts (⟨.symbol .comma, position⟩ :: us) name args)
    (hnext : Exceeds expression us) : Exceeds (primary expression) ts := by
  obtain ⟨_, h⟩ := h
  obtain ⟨vs, hnext⟩ := hnext
  refine ⟨vs, ?_⟩
  rw [h, afterArgument_comma, argumentsFrom_of_error hnext]
  rfl

theorem Continues.call
    (h : Continues expression ts (⟨.symbol .closeParen, position⟩ :: rest) name args) :
    Reads (primary expression) ts (.call name args) rest := by
  obtain ⟨hlt, h⟩ := h
  refine ⟨?_, ?_⟩
  · simp only [List.length_cons] at hlt
    omega
  · rw [h]
    rfl

end

/-! ## Prefixes and exponents -/

section

variable {nested operand : Rule Expr} {position : Nat} {a b e : Expr}

/-- Where no prefix stands, the operand is a primary. -/
theorem unary_eq (h : ∀ s position us, ts = ⟨.symbol s, position⟩ :: us → s.prefix? = none) :
    unary nested operand ts = operand ts := by
  rw [unary]
  · intro position us hts
    cases h _ _ _ hts
  · intro position us hts
    cases h _ _ _ hts

theorem Reads.signed {s : Symbol} {op : UnaryOp} (hs : s.prefix? = some op)
    (h : Reads nested ts e rest) :
    Reads (unary nested operand) (⟨.symbol s, position⟩ :: ts) (.unary op e) rest := by
  obtain ⟨hlt, h⟩ := h
  refine ⟨?_, ?_⟩
  · simp only [List.length_cons]
    omega
  · cases s <;> cases hs <;> rw [unary, h] <;> rfl

theorem Exceeds.signed {s : Symbol} {op : UnaryOp} (hs : s.prefix? = some op)
    (h : Exceeds nested ts) :
    Exceeds (unary nested operand) (⟨.symbol s, position⟩ :: ts) := by
  obtain ⟨us, h⟩ := h
  refine ⟨us, ?_⟩
  cases s <;> cases hs <;> rw [unary, h] <;> rfl

theorem Reads.base (h : Reads operand ts e rest) (hrest : Category.power.Ends rest) :
    Reads (power nested operand) ts e rest := by
  obtain ⟨hlt, h⟩ := h
  refine ⟨hlt, ?_⟩
  rw [power, h]
  dsimp only [bind, Except.bind]
  split
  · exact absurd (hrest _ _ _ rfl) (by decide)
  · rfl

theorem Exceeds.base (h : Exceeds operand ts) : Exceeds (power nested operand) ts := by
  obtain ⟨us, h⟩ := h
  refine ⟨us, ?_⟩
  rw [power, h]
  rfl

theorem Reads.exponent (h : Reads operand ts a (⟨.symbol .power, position⟩ :: us))
    (hnext : Reads nested us b rest) :
    Reads (power nested operand) ts (.binary .power a b) rest := by
  obtain ⟨hlt, h⟩ := h
  obtain ⟨hlt', hnext⟩ := hnext
  refine ⟨?_, ?_⟩
  · simp only [List.length_cons] at hlt
    omega
  · rw [power, h]
    dsimp only [bind, Except.bind]
    rw [hnext]
    rfl

theorem Reads.exceeds_exponent (h : Reads operand ts a (⟨.symbol .power, position⟩ :: us))
    (hnext : Exceeds nested us) : Exceeds (power nested operand) ts := by
  obtain ⟨_, h⟩ := h
  obtain ⟨vs, hnext⟩ := hnext
  refine ⟨vs, ?_⟩
  rw [power, h]
  dsimp only [bind, Except.bind]
  rw [hnext]

end

/-! ## Operators that bind to the left -/

/-- The operators of one level. -/
def leftOp? (level : Nat) (s : Symbol) : Option BinaryOp :=
  match s.operator? with
  | some (level', op) => if level' = level then some op else none
  | none => none

theorem leftOp?_eq_some_iff {level : Nat} {s : Symbol} {op : BinaryOp} :
    leftOp? level s = some op ↔ s.operator? = some (level, op) := by
  unfold leftOp?
  cases s.operator? with
  | none => simp
  | some found =>
    obtain ⟨level', op'⟩ := found
    by_cases h : level' = level
    · simp [h]
    · simp [h]

theorem leftOp?_eq_none_of_lt {level : Nat} {s : Symbol} (h : level + 2 < s.reach) :
    leftOp? level s = none := by
  cases hop : leftOp? level s with
  | none => rfl
  | some op =>
    rw [Symbol.reach_of_operator (leftOp?_eq_some_iff.1 hop)] at h
    omega

/-- The levels of the parser are those of the grammar. -/
theorem chainLevels_eq :
    chainLevels = [leftOp? 0, leftOp? 1, leftOp? 2, leftOp? 3, leftOp? 4] := by
  unfold chainLevels
  simp only [List.cons.injEq, and_true]
  refine ⟨?_, ?_, ?_, ?_, ?_⟩
  all_goals
    funext s
    cases s <;> rfl

/-- The rule for operands with operators below a level between them, given the one
for the tightest operands. -/
def chainRule (operand : Rule Expr) : Nat → Rule Expr
  | 0 => operand
  | level + 1 => chain (chainRule operand level) (leftOp? level)

theorem chains_eq (operand : Rule Expr) : chains operand = chainRule operand operatorLevels := by
  rw [chains, chainLevels_eq]
  rfl

section

variable {operand : Rule Expr} {op? : Symbol → Option BinaryOp} {a b e : Expr}

/-- A chain ends where no operator of its level follows. -/
theorem extendChain_of_ends {left : Parsed Expr ts}
    (h : ∀ s position us, left.rest = ⟨.symbol s, position⟩ :: us → op? s = none) :
    extendChain operand op? left = .ok left := by
  rw [extendChain]
  split
  · next hrest =>
    rw [h _ _ _ hrest]
  · rfl

theorem extendChain_of_ok {s : Symbol} {op : BinaryOp} {position : Nat}
    {h : (⟨.symbol s, position⟩ :: us).length < ts.length} {h' : rest.length < us.length}
    (hs : op? s = some op) (hright : operand us = .ok ⟨b, rest, h'⟩) :
    ∃ hlt, extendChain operand op? ⟨a, ⟨.symbol s, position⟩ :: us, h⟩ =
      extendChain operand op? (⟨.binary op a b, rest, hlt⟩ : Parsed Expr ts) := by
  refine ⟨Nat.lt_trans h' (Nat.lt_trans (by simp) h), ?_⟩
  rw [extendChain]
  dsimp only
  rw [hs]
  dsimp only
  rw [hright]

theorem extendChain_of_error {s : Symbol} {op : BinaryOp} {position : Nat} {f : Failure}
    {h : (⟨.symbol s, position⟩ :: us).length < ts.length}
    (hs : op? s = some op) (hright : operand us = .error f) :
    extendChain operand op? (⟨a, ⟨.symbol s, position⟩ :: us, h⟩ : Parsed Expr ts) = .error f := by
  rw [extendChain]
  dsimp only
  rw [hs]
  dsimp only
  rw [hright]

end

end Flipbook.Expression
