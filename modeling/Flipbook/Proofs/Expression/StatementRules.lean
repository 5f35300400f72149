import Flipbook.Proofs.Expression.Printing
import Flipbook.Proofs.Expression.Rules

/-!
# What the rules of statements do

For each rule of statements there is a lemma that says what it reads, from what the
rules in it read; the loops over statements, branches and arms are followed one round
at a time.

* `OpensExpression`: the tokens that can be taken for no statement but an expression.
* `ReadsElse`: what is read behind the branches of a statement.
-/
namespace Flipbook.Expression

variable {α : Type} {ts us vs rest : List Lexeme} {rules : Rules} {position : Nat}

/-! ## How statements open -/

/-- Whether tokens may open a statement: they neither separate nor close anything. -/
structure OpensStatement (ts : List Lexeme) : Prop where
  ne_nil : ts ≠ []
  symbol : ∀ s position us, ts = ⟨.symbol s, position⟩ :: us →
    s = .openParen ∨ s.prefix?.isSome = true

/-- Whether tokens may open a statement that is an expression, and no other. -/
structure OpensExpression (ts : List Lexeme) : Prop extends OpensStatement ts where
  word : ∀ name position us, ts = ⟨.name name, position⟩ :: us →
    name ∉ statementWords ∧ startsWith .assign us = false

theorem opensStatement_name {name : String} :
    OpensStatement (⟨.name name, position⟩ :: us) :=
  ⟨nofun, nofun⟩

theorem OpensStatement.ne_symbol (h : OpensStatement ts) {s : Symbol}
    (hs : s ≠ .openParen ∧ s.prefix? = none) (position : Nat) (us : List Lexeme) :
    ts ≠ ⟨.symbol s, position⟩ :: us := by
  intro hts
  rcases h.symbol s position us hts with rfl | hprefix
  · exact hs.1 rfl
  · rw [hs.2] at hprefix
    cases hprefix

theorem startsWith_symbol {s s' : Symbol} :
    startsWith s (⟨.symbol s', position⟩ :: us) = decide (s' = s) := rfl

theorem symbol_eq (s : Symbol) :
    symbol s (⟨.symbol s, position⟩ :: us) = .ok ⟨(), us, length_lt_symbol s position us⟩ := by
  simp [symbol]

/-! ## Simple statements -/

section

variable {name : String} {e : Expr}

theorem Reads.effect (hopens : OpensExpression ts) (h : Reads rules.expression ts e rest) :
    Reads (statement rules) ts (.effect e) rest := by
  obtain ⟨hlt, h⟩ := h
  refine ⟨hlt, ?_⟩
  cases ts with
  | nil => exact absurd rfl hopens.ne_nil
  | cons t us =>
    obtain ⟨token, position⟩ := t
    cases token with
    | name word =>
      obtain ⟨hword, hassign⟩ := hopens.word word position us rfl
      simp only [statementWords, List.mem_cons, List.not_mem_nil, or_false, not_or] at hword
      obtain ⟨hconst, hmut, hif, hwhen, heval⟩ := hword
      rw [statement, if_neg (by simp [hconst, hmut]), if_neg hif, if_neg hwhen,
        if_neg (by simp [heval]), if_neg (by simp [hassign]), h]
      rfl
    | number value =>
      rw [statement, h]
      · rfl
      · rintro _ _ _ ⟨⟩
    | text value =>
      rw [statement, h]
      · rfl
      · rintro _ _ _ ⟨⟩
    | symbol s =>
      rw [statement, h]
      · rfl
      · rintro _ _ _ ⟨⟩

theorem Reads.assigned (h : Reads rules.expression us e rest) :
    Reads (Expression.assigned rules) (⟨.symbol .assign, position⟩ :: us) e rest := by
  obtain ⟨hlt, h⟩ := h
  refine ⟨Nat.lt_trans hlt (length_lt_symbol _ _ _), ?_⟩
  rw [Expression.assigned, symbol_eq]
  dsimp only [bind, Except.bind]
  rw [h]
  rfl

theorem Reads.declare {word : String} (hword : word = "const" ∨ word = "mut") {position' : Nat}
    (h : Reads (Expression.assigned rules) us e rest) :
    Reads (statement rules) (⟨.name word, position⟩ :: ⟨.name name, position'⟩ :: us)
      (.declare (word = "mut") name e) rest := by
  obtain ⟨hlt, h⟩ := h
  refine ⟨?_, ?_⟩
  · simp only [List.length_cons]
    omega
  · rw [statement, if_pos hword]
    dsimp only [identifier, bind, Except.bind]
    rw [h]
    rfl

theorem Reads.assign {position' : Nat} (hname : name ∉ statementWords)
    (h : Reads (Expression.assigned rules) (⟨.symbol .assign, position⟩ :: us) e rest) :
    Reads (statement rules) (⟨.name name, position'⟩ :: ⟨.symbol .assign, position⟩ :: us)
      (.assign name e) rest := by
  obtain ⟨hlt, h⟩ := h
  simp only [statementWords, List.mem_cons, List.not_mem_nil, or_false, not_or] at hname
  obtain ⟨hconst, hmut, hif, hwhen, heval⟩ := hname
  refine ⟨Nat.lt_succ_of_lt hlt, ?_⟩
  rw [statement, if_neg (by simp [hconst, hmut]), if_neg hif, if_neg hwhen,
    if_neg (by simp [heval]), if_pos (by simp [startsWith]), h]
  rfl

theorem Reads.closedBy {rule : Rule α} {a : α} {s : Symbol}
    (h : Reads rule ts a (⟨.symbol s, position⟩ :: rest)) :
    Reads (Expression.closedBy s rule) ts a rest := by
  obtain ⟨hlt, h⟩ := h
  refine ⟨Nat.lt_trans (length_lt_symbol _ _ _) hlt, ?_⟩
  rw [Expression.closedBy, h]
  dsimp only [bind, Except.bind]
  rw [symbol_eq]
  rfl

theorem Reads.result {position' : Nat}
    (h : Reads (Expression.closedBy .closeParen rules.expression) us e rest) :
    Reads (statement rules) (⟨.name "eval", position⟩ :: ⟨.symbol .openParen, position'⟩ :: us)
      (.result e) rest := by
  obtain ⟨hlt, h⟩ := h
  refine ⟨?_, ?_⟩
  · simp only [List.length_cons]
    omega
  · rw [statement, if_neg (by decide), if_neg (by decide), if_neg (by decide),
      if_pos (by simp [startsWith]), symbol_eq]
    dsimp only [bind, Except.bind]
    rw [h]
    rfl

end

/-! ## Branches -/

section

variable {e : Expr} {body : List Statement} {sofar : List (Expr × List Statement)} {s : Statement}

theorem Reads.guarded (hcondition : Reads rules.expression ts e us)
    (hbody : Reads rules.block us body rest) :
    Reads (Expression.guarded rules) ts (e, body) rest := by
  obtain ⟨hlt, hcondition⟩ := hcondition
  obtain ⟨hlt', hbody⟩ := hbody
  refine ⟨Nat.lt_trans hlt' hlt, ?_⟩
  rw [Expression.guarded, hcondition]
  dsimp only [bind, Except.bind]
  rw [hbody]
  rfl

/-- Whether the branches read so far become a statement with what is read behind
them. -/
def ReadsElse (rules : Rules) (sofar : List (Expr × List Statement)) (ts : List Lexeme)
    (s : Statement) (rest : List Lexeme) : Prop :=
  ∀ whole (h : ts.length < whole.length),
    ∃ h', elseParts rules (⟨sofar, ts, h⟩ : Parsed _ whole) = .ok ⟨s, rest, h'⟩

/-- Without a further word the branches are complete. -/
theorem readsElse_none (h : startsWithWord "else" rest = false) :
    ReadsElse rules sofar rest (.branch sofar none) rest := by
  intro whole hlt
  refine ⟨hlt, ?_⟩
  rw [elseParts, if_neg (by simp [h])]
  rfl

theorem Reads.readsElse (hif : startsWithWord "if" us = false)
    (h : Reads rules.block us body rest) :
    ReadsElse rules sofar (⟨.name "else", position⟩ :: us) (.branch sofar (some body)) rest := by
  intro whole hlt
  obtain ⟨hlt', h⟩ := h
  refine ⟨?_, ?_⟩
  · simp only [List.length_cons] at hlt
    omega
  · rw [elseParts, if_pos (by simp [startsWithWord])]
    dsimp only
    rw [if_neg (by simp [hif]), h]

theorem Reads.readsElse_if {position' : Nat} (h : Reads (Expression.guarded rules) us (e, body) vs)
    (hmore : ReadsElse rules (sofar ++ [(e, body)]) vs s rest) :
    ReadsElse rules sofar (⟨.name "else", position⟩ :: ⟨.name "if", position'⟩ :: us) s
      rest := by
  intro whole hlt
  obtain ⟨hlt', h⟩ := h
  obtain ⟨hlt'', hmore⟩ := hmore whole (by
    simp only [List.length_cons] at hlt
    omega)
  refine ⟨hlt'', ?_⟩
  rw [elseParts, if_pos (by simp [startsWithWord])]
  dsimp only
  rw [if_pos (by simp [startsWithWord]), h]
  exact hmore

theorem Reads.branch (h : Reads (Expression.guarded rules) us (e, body) vs)
    (hmore : ReadsElse rules [(e, body)] vs s rest) :
    Reads (statement rules) (⟨.name "if", position⟩ :: us) s rest := by
  obtain ⟨hlt, h⟩ := h
  obtain ⟨hlt', hmore⟩ := hmore us hlt
  refine ⟨Nat.lt_succ_of_lt hlt', ?_⟩
  rw [statement, if_neg (by decide), if_pos rfl, h]
  dsimp only [bind, Except.bind, Parsed.map]
  rw [hmore]
  rfl

end

/-! ## Blocks -/

section

variable {body sofar : List Statement} {s : Statement}

theorem Reads.block (h : Reads (Expression.statementsFrom rules []) us body rest) :
    Reads (Expression.block rules) (⟨.symbol .openBrace, position⟩ :: us) body rest := by
  obtain ⟨hlt, h⟩ := h
  refine ⟨Nat.lt_trans hlt (length_lt_symbol _ _ _), ?_⟩
  rw [Expression.block, symbol_eq]
  dsimp only [bind, Except.bind]
  rw [h]
  rfl

theorem reads_closeBrace :
    Reads (Expression.statementsFrom rules sofar) (⟨.symbol .closeBrace, position⟩ :: rest) sofar
      rest := by
  refine ⟨length_lt_symbol _ _ _, ?_⟩
  rw [statementsFrom]

theorem Reads.semicolon (h : Reads (Expression.statementsFrom rules sofar) us body rest) :
    Reads (Expression.statementsFrom rules sofar) (⟨.symbol .semicolon, position⟩ :: us) body
      rest := by
  obtain ⟨hlt, h⟩ := h
  refine ⟨Nat.lt_trans hlt (length_lt_symbol _ _ _), ?_⟩
  rw [statementsFrom, h]
  rfl

/-- A statement in a block, before what separates it from the rest or closes the
block. -/
theorem Reads.statementsFrom (hopens : OpensStatement ts) (hs : Reads (statement rules) ts s us)
    (hends : startsWith .semicolon us = true ∨ startsWith .closeBrace us = true)
    (h : Reads (Expression.statementsFrom rules
      (sofar ++ [s.inBlock (startsWith .closeBrace us)])) us body rest) :
    Reads (Expression.statementsFrom rules sofar) ts body rest := by
  obtain ⟨hlt, hs⟩ := hs
  obtain ⟨hlt', h⟩ := h
  refine ⟨Nat.lt_trans hlt' hlt, ?_⟩
  rw [Expression.statementsFrom]
  · rw [hs]
    dsimp only [bind, Except.bind]
    rw [if_pos (.inr hends.symm), h]
    rfl
  · exact hopens.ne_symbol (by decide)
  · exact hopens.ne_symbol (by decide)
  · exact hopens.ne_nil

end

/-! ## Arms -/

section

variable {p : Pattern} {body : List Statement} {sofar arms : List (Pattern × List Statement)}

theorem reads_lastArm :
    Reads (Expression.armsFrom rules sofar) (⟨.symbol .closeBrace, position⟩ :: rest) sofar
      rest := by
  refine ⟨length_lt_symbol _ _ _, ?_⟩
  rw [armsFrom]

theorem Reads.comma (h : Reads (Expression.armsFrom rules sofar) us arms rest) :
    Reads (Expression.armsFrom rules sofar) (⟨.symbol .comma, position⟩ :: us) arms rest := by
  obtain ⟨hlt, h⟩ := h
  refine ⟨Nat.lt_trans hlt (length_lt_symbol _ _ _), ?_⟩
  rw [armsFrom, h]
  rfl

/-- An arm with its body in braces. -/
theorem Reads.armsFrom (hopens : OpensStatement ts)
    (hpattern : Reads pattern ts p (⟨.symbol .arrow, position⟩ :: us))
    (hbraced : startsWith .openBrace us = true) (hbody : Reads rules.block us body vs)
    (h : Reads (Expression.armsFrom rules (sofar ++ [(p, body)])) vs arms rest) :
    Reads (Expression.armsFrom rules sofar) ts arms rest := by
  obtain ⟨hlt, hpattern⟩ := hpattern
  obtain ⟨hlt', hbody⟩ := hbody
  obtain ⟨hlt'', h⟩ := h
  refine ⟨?_, ?_⟩
  · simp only [List.length_cons] at hlt
    omega
  · rw [Expression.armsFrom]
    · rw [hpattern]
      dsimp only [bind, Except.bind]
      rw [symbol_eq]
      dsimp only
      rw [if_pos hbraced, hbody]
      dsimp only
      rw [if_pos (.inr (.inl hbraced)), h]
      rfl
    · exact hopens.ne_symbol (by decide)
    · exact hopens.ne_symbol (by decide)

/-- An arm with one statement as its body, before what separates it from the next arm or
closes the arms. -/
theorem Reads.armsFrom_bare {s : Statement} (hopens : OpensStatement ts)
    (hpattern : Reads pattern ts p (⟨.symbol .arrow, position⟩ :: us))
    (hbare : startsWith .openBrace us = false) (hs : Reads (statement rules) us s vs)
    (hends : startsWith .comma vs = true ∨ startsWith .closeBrace vs = true)
    (h : Reads (Expression.armsFrom rules (sofar ++ [(p, s.asArm)])) vs arms rest) :
    Reads (Expression.armsFrom rules sofar) ts arms rest := by
  obtain ⟨hlt, hpattern⟩ := hpattern
  obtain ⟨hlt', hs⟩ := hs
  obtain ⟨hlt'', h⟩ := h
  refine ⟨?_, ?_⟩
  · simp only [List.length_cons] at hlt
    omega
  · rw [Expression.armsFrom]
    · rw [hpattern]
      dsimp only [bind, Except.bind]
      rw [symbol_eq]
      dsimp only
      rw [if_neg (by simp [hbare]), hs]
      dsimp only [Functor.map, Except.map, Parsed.map]
      rw [if_pos (hends.imp_right .inr), h]
      rfl
    · exact hopens.ne_symbol (by decide)
    · exact hopens.ne_symbol (by decide)

theorem Reads.choose {name : String} {position' position'' : Nat}
    (h : Reads (Expression.armsFrom rules []) us arms rest) :
    Reads (statement rules) (⟨.name "when", position⟩ :: ⟨.name name, position'⟩ ::
      ⟨.symbol .openBrace, position''⟩ :: us) (.choose name arms) rest := by
  obtain ⟨hlt, h⟩ := h
  refine ⟨?_, ?_⟩
  · simp only [List.length_cons]
    omega
  · rw [statement, if_neg (by decide), if_neg (by decide), if_pos rfl]
    dsimp only [identifier, bind, Except.bind]
    rw [symbol_eq]
    dsimp only
    rw [h]
    rfl

end

end Flipbook.Expression
