import Flipbook.Proofs.Expression.Acceptance

/-!
# Programs wherever they stand

The parser looks at the tokens of a program and never at their positions, which only
its errors report. So a program is the same one in whatever place its tokens stand.

* `moved` puts tokens in other places, `shift` what has been read of them.
* `Steady`: a rule that reads tokens alike wherever they stand.
* `Rules.steady_within`: the rules of the parser are such rules.
* `parseTokens_moved`: what is a program stays the same program.
-/
namespace Flipbook.Expression

variable {α β : Type} {ts us rest : List Lexeme} {f : Nat → Nat}

/-! ## Moving tokens -/

/-- The same tokens in other places. -/
def moved (f : Nat → Nat) (ts : List Lexeme) : List Lexeme :=
  ts.map fun t => ⟨t.token, f t.position⟩

@[simp] theorem moved_nil : moved f [] = [] := rfl

@[simp] theorem moved_cons (t : Token) (position : Nat) (ts : List Lexeme) :
    moved f (⟨t, position⟩ :: ts) = ⟨t, f position⟩ :: moved f ts := rfl

@[simp] theorem length_moved (ts : List Lexeme) : (moved f ts).length = ts.length :=
  List.length_map _

theorem exists_eq_cons_of_moved {t : Token} {position : Nat}
    (h : moved f ts = ⟨t, position⟩ :: us) :
    ∃ position' us', ts = ⟨t, position'⟩ :: us' := by
  obtain ⟨⟨t', position'⟩, us', rfl, ht, -⟩ := List.map_eq_cons_iff.1 h
  cases ht
  exact ⟨position', us', rfl⟩

theorem startsWith_moved (s : Symbol) : startsWith s (moved f ts) = startsWith s ts := by
  cases ts with
  | nil => rfl
  | cons t us =>
    obtain ⟨token, position⟩ := t
    cases token <;> rfl

theorem startsWithWord_moved (word : String) :
    startsWithWord word (moved f ts) = startsWithWord word ts := by
  cases ts with
  | nil => rfl
  | cons t us =>
    obtain ⟨token, position⟩ := t
    cases token <;> rfl

/-- A reading of tokens in other places. -/
def Parsed.moved (f : Nat → Nat) (p : Parsed α ts) : Parsed α (moved f ts) :=
  ⟨p.value, Expression.moved f p.rest, by
    have := p.shorter
    rwa [length_moved, length_moved]⟩

/-- What a rule has done, with the tokens in other places. -/
def shift (f : Nat → Nat) : Except Failure (Parsed α ts) → Except Failure (Parsed α (moved f ts))
  | .ok p => .ok (p.moved f)
  | .error e => .error ⟨e.expected, moved f e.rest⟩

/-- What is read of `us` in two steps is moved in two steps. -/
theorem shift_bind (us : List Lexeme) {x : Except Failure (Parsed α ts)}
    {next : Parsed α ts → Except Failure (Parsed β us)}
    {next' : Parsed α (moved f ts) → Except Failure (Parsed β (moved f us))}
    (h : ∀ p, next' (p.moved f) = shift f (next p)) :
    (shift f x >>= next') = shift f (x >>= next) := by
  cases x with
  | error e => rfl
  | ok p => exact h p

/-! ## Rules -/

/-- Whether a rule reads tokens alike wherever they stand. -/
def Steady (f : Nat → Nat) (rule : Rule α) : Prop := ∀ ts, rule (moved f ts) = shift f (rule ts)

theorem Steady.bind {rule : Rule α} (hrule : Steady f rule) (us : List Lexeme)
    {next : Parsed α ts → Except Failure (Parsed β us)}
    {next' : Parsed α (moved f ts) → Except Failure (Parsed β (moved f us))}
    (h : ∀ p, next' (p.moved f) = shift f (next p)) :
    (rule (moved f ts) >>= next') = shift f (rule ts >>= next) := by
  rw [hrule ts]
  exact shift_bind us h

theorem steady_symbol (s : Symbol) : Steady f (symbol s) := by
  intro ts
  cases ts with
  | nil => rfl
  | cons t us =>
    obtain ⟨token, position⟩ := t
    cases token with
    | symbol s' =>
      by_cases hs : s' = s
      · subst hs
        simp only [moved_cons, symbol, if_true]
        rfl
      · simp only [moved_cons, symbol, if_neg hs]
        rfl
    | number value => rfl
    | text value => rfl
    | name name => rfl

theorem steady_identifier : Steady f identifier := by
  intro ts
  cases ts with
  | nil => rfl
  | cons t us =>
    obtain ⟨token, position⟩ := t
    cases token <;> rfl

theorem steady_pattern : Steady f pattern := by
  intro ts
  rcases ts with - | ⟨⟨token, position⟩, us⟩
  · rfl
  · cases token with
    | number value => rfl
    | text value => rfl
    | name name =>
      by_cases hname : name = "rest__"
      · simp only [moved_cons, pattern, if_pos hname]
        rfl
      · simp only [moved_cons, pattern, if_neg hname]
        rfl
    | symbol s =>
      cases s with
      | minus =>
        rcases us with - | ⟨⟨token, position'⟩, us⟩
        · rfl
        · cases token <;> rfl
      | _ => rfl

namespace Steady

variable {expression operand nested : Rule Expr}

theorem closedBy {rule : Rule α} (hrule : Steady f rule) (s : Symbol) :
    Steady f (closedBy s rule) :=
  fun _ => hrule.bind _ fun _ => (steady_symbol s).bind _ fun _ => rfl

theorem extendChain (hoperand : Steady f operand) (op? : Symbol → Option BinaryOp)
    (left : Parsed Expr ts) :
    Expression.extendChain operand op? (left.moved f) =
      shift f (Expression.extendChain operand op? left) := by
  induction hlength : left.rest.length using Nat.strongRecOn generalizing left with
  | _ length ih =>
    obtain ⟨value, rest, hlt⟩ := left
    rw [Expression.extendChain, Expression.extendChain.eq_def _ _ ⟨value, rest, hlt⟩]
    cases rest with
    | nil => rfl
    | cons t us =>
      obtain ⟨token, position⟩ := t
      cases token with
      | symbol s =>
        simp only [Parsed.moved, moved_cons]
        cases op? s with
        | none => rfl
        | some op =>
          dsimp only
          rw [hoperand us]
          cases operand us with
          | error e => rfl
          | ok right =>
            have hshorter := right.shorter
            refine ih right.rest.length ?_ ⟨_, right.rest, ?_⟩ rfl
            · rw [← hlength, List.length_cons]
              omega
      | number value => rfl
      | text value => rfl
      | name name => rfl

theorem chain (hoperand : Steady f operand) (op? : Symbol → Option BinaryOp) :
    Steady f (chain operand op?) :=
  fun _ => hoperand.bind _ fun left => hoperand.extendChain op? left

theorem chains (hoperand : Steady f operand) : Steady f (chains operand) := by
  unfold Expression.chains
  generalize chainLevels = levels
  induction levels generalizing operand with
  | nil => exact hoperand
  | cons op? levels ih => exact ih (hoperand.chain op?)

theorem argumentsFrom (hexpression : Steady f expression) (before : List Expr) :
    Steady f (argumentsFrom expression before) := by
  intro ts
  induction hlength : ts.length using Nat.strongRecOn generalizing ts before with
  | _ length ih =>
    rw [Expression.argumentsFrom, Expression.argumentsFrom.eq_def _ _ ts]
    refine hexpression.bind _ fun arg => ?_
    obtain ⟨value, rest, hlt⟩ := arg
    have further : (do
          let comma ← symbol .comma (moved f rest)
          let more ← Expression.argumentsFrom expression (before ++ [value]) comma.rest
          return more.widen (Nat.lt_trans comma.shorter (by simpa using hlt))) =
        shift f (do
          let comma ← symbol .comma rest
          let more ← Expression.argumentsFrom expression (before ++ [value]) comma.rest
          return more.widen (Nat.lt_trans comma.shorter hlt) : Except Failure (Parsed _ ts)) := by
      refine (steady_symbol .comma).bind _ fun comma => ?_
      have hshorter := comma.shorter
      show (Expression.argumentsFrom expression _ (moved f comma.rest) >>= _) = _
      rw [ih comma.rest.length (by omega) _ _ rfl]
      exact shift_bind _ fun _ => rfl
    rcases rest with - | ⟨⟨token, position⟩, us⟩
    · exact further
    · cases token with
      | symbol s =>
        cases s with
        | closeParen => rfl
        | _ => exact further
      | _ => exact further

theorem arguments (hexpression : Steady f expression) : Steady f (arguments expression) := by
  intro ts
  rcases ts with - | ⟨⟨token, position⟩, us⟩
  · exact hexpression.argumentsFrom [] []
  · have further : Expression.argumentsFrom expression [] (⟨token, f position⟩ :: moved f us) =
        shift f (Expression.argumentsFrom expression [] (⟨token, position⟩ :: us)) :=
      hexpression.argumentsFrom [] (⟨token, position⟩ :: us)
    cases token with
    | symbol s =>
      cases s with
      | closeParen => rfl
      | _ => exact further
    | _ => exact further

theorem primary (hexpression : Steady f expression) : Steady f (primary expression) := by
  intro ts
  rcases ts with - | ⟨⟨token, position⟩, us⟩
  · rfl
  · cases token with
    | number value => rfl
    | text value => rfl
    | symbol s =>
      cases s with
      | openParen =>
        exact (hexpression.closedBy .closeParen).bind (⟨_, position⟩ :: us) fun _ => rfl
      | _ => rfl
    | name name =>
      rcases us with - | ⟨⟨token, position'⟩, us⟩
      · rfl
      · cases token with
        | symbol s =>
          cases s with
          | openParen =>
            exact hexpression.arguments.bind (⟨_, position⟩ :: ⟨_, position'⟩ :: us) fun _ => rfl
          | _ => rfl
        | _ => rfl

theorem unary (hnested : Steady f nested) (hoperand : Steady f operand) :
    Steady f (unary nested operand) := by
  intro ts
  rcases ts with - | ⟨⟨token, position⟩, us⟩
  · exact hoperand []
  · cases token with
    | symbol s =>
      cases s with
      | minus =>
        exact hnested.bind (⟨_, position⟩ :: us) fun _ => rfl
      | not =>
        exact hnested.bind (⟨_, position⟩ :: us) fun _ => rfl
      | _ => exact hoperand (⟨.symbol _, position⟩ :: us)
    | _ => exact hoperand (⟨_, position⟩ :: us)

theorem power (hnested : Steady f nested) (hoperand : Steady f operand) :
    Steady f (power nested operand) := by
  intro ts
  refine hoperand.bind _ fun base => ?_
  obtain ⟨value, rest, hlt⟩ := base
  rcases rest with - | ⟨⟨token, position⟩, us⟩
  · rfl
  · cases token with
    | symbol s =>
      cases s with
      | power => exact hnested.bind _ fun _ => rfl
      | _ => rfl
    | _ => rfl

end Steady

/-! ## Statements -/

/-- Nested rules that read tokens alike wherever they stand. -/
structure Rules.Steady (f : Nat → Nat) (rules : Rules) : Prop where
  expression : Expression.Steady f rules.expression
  power : Expression.Steady f rules.power
  unary : Expression.Steady f rules.unary
  block : Expression.Steady f rules.block

namespace Rules.Steady

variable {rules : Rules} (hrules : rules.Steady f)
include hrules

theorem assigned : Expression.Steady f (assigned rules) :=
  fun _ => (steady_symbol .assign).bind _ fun _ => hrules.expression.bind _ fun _ => rfl

theorem guarded : Expression.Steady f (guarded rules) :=
  fun _ => hrules.expression.bind _ fun _ => hrules.block.bind _ fun _ => rfl

theorem elseParts (sofar : Parsed (List (Expr × List Statement)) ts) :
    elseParts rules (sofar.moved f) = shift f (elseParts rules sofar) := by
  induction hlength : sofar.rest.length using Nat.strongRecOn generalizing sofar with
  | _ length ih =>
    obtain ⟨branches, rest, hlt⟩ := sofar
    rw [Expression.elseParts, Expression.elseParts.eq_def _ ⟨branches, rest, hlt⟩]
    simp only [Parsed.moved, startsWithWord_moved]
    split
    · rcases rest with - | ⟨⟨token, position⟩, us⟩
      · rfl
      · simp only [moved_cons, startsWithWord_moved]
        split
        · rcases us with - | ⟨⟨token', position'⟩, vs⟩
          · rfl
          · simp only [moved_cons]
            rw [hrules.guarded vs]
            cases Expression.guarded rules vs with
            | error e => rfl
            | ok next =>
              have hshorter := next.shorter
              refine ih next.rest.length ?_ ⟨_, next.rest, ?_⟩ rfl
              rw [← hlength, List.length_cons, List.length_cons]
              omega
        · rw [hrules.block us]
          cases rules.block us <;> rfl
    · rfl

omit hrules in
/-- What does not start with a name is an expression. -/
theorem statement_eq (h : ∀ name position us, ts ≠ ⟨.name name, position⟩ :: us) :
    statement rules ts = do return (← rules.expression ts).map .effect := by
  rw [statement]
  exact h

/-- A statement, where the arms in it are read alike wherever they stand. -/
theorem statement_of_armsFrom
    (harmsFrom : ∀ us before, us.length < ts.length →
      armsFrom rules before (moved f us) = shift f (armsFrom rules before us)) :
    statement rules (moved f ts) = shift f (statement rules ts) := by
  by_cases hname : ∃ name position us, ts = ⟨.name name, position⟩ :: us
  · obtain ⟨word, position, us, rfl⟩ := hname
    simp only [moved_cons, statement, startsWith_moved]
    by_cases hdeclare : word = "const" ∨ word = "mut"
    · rw [if_pos hdeclare, if_pos hdeclare]
      exact steady_identifier.bind (⟨_, position⟩ :: us) fun _ =>
        hrules.assigned.bind (⟨_, position⟩ :: us) fun _ => rfl
    rw [if_neg hdeclare, if_neg hdeclare]
    by_cases hif : word = "if"
    · rw [if_pos hif, if_pos hif]
      refine hrules.guarded.bind (⟨_, position⟩ :: us) fun first => ?_
      show (Expression.elseParts rules ((first.map ([·])).moved f) >>= _) = _
      rw [hrules.elseParts]
      exact shift_bind (⟨_, position⟩ :: us) fun _ => rfl
    rw [if_neg hif, if_neg hif]
    by_cases hwhen : word = "when"
    · rw [if_pos hwhen, if_pos hwhen]
      refine steady_identifier.bind (⟨_, position⟩ :: us) fun subject =>
        (steady_symbol .openBrace).bind (⟨_, position⟩ :: us) fun opening => ?_
      show (armsFrom rules [] (moved f opening.rest) >>= _) = _
      rw [harmsFrom opening.rest []
        (Nat.lt_succ_of_lt (Nat.lt_trans opening.shorter subject.shorter))]
      exact shift_bind (⟨_, position⟩ :: us) fun _ => rfl
    rw [if_neg hwhen, if_neg hwhen]
    by_cases heval : word = "eval" ∧ startsWith .openParen us = true
    · rw [if_pos heval, if_pos heval]
      exact (steady_symbol .openParen).bind (⟨_, position⟩ :: us) fun _ =>
        (hrules.expression.closedBy .closeParen).bind (⟨_, position⟩ :: us) fun _ => rfl
    rw [if_neg heval, if_neg heval]
    by_cases hassign : startsWith .assign us = true
    · rw [if_pos hassign, if_pos hassign]
      exact hrules.assigned.bind (⟨_, position⟩ :: us) fun _ => rfl
    rw [if_neg hassign, if_neg hassign]
    have hexpression : rules.expression (⟨.name word, f position⟩ :: moved f us) =
        shift f (rules.expression (⟨.name word, position⟩ :: us)) :=
      hrules.expression (⟨.name word, position⟩ :: us)
    rw [hexpression]
    exact shift_bind (⟨_, position⟩ :: us) fun _ => rfl
  · have hts : ∀ name position us, ts ≠ ⟨.name name, position⟩ :: us :=
      fun name position us h => hname ⟨name, position, us, h⟩
    have hmoved : ∀ name position us, moved f ts ≠ ⟨.name name, position⟩ :: us := by
      intro name position us h
      obtain ⟨position', us', h⟩ := exists_eq_cons_of_moved h
      exact hts name position' us' h
    rw [statement_eq hts, statement_eq hmoved]
    exact hrules.expression.bind _ fun _ => rfl

end Rules.Steady

/-- Reads the body of an arm: a block or one statement. -/
def armBody (rules : Rules) : Rule (List Statement) := fun ts =>
  if startsWith .openBrace ts then rules.block ts
  else (·.map Statement.asArm) <$> statement rules ts

/-- What is read behind the arms so far when neither a comma nor the end follows. -/
theorem armsFrom_eq {rules : Rules} (hcomma : ∀ position us, ts ≠ ⟨.symbol .comma, position⟩ :: us)
    (hclose : ∀ position us, ts ≠ ⟨.symbol .closeBrace, position⟩ :: us)
    (before : List (Pattern × List Statement)) :
    armsFrom rules before ts = (do
      let head ← pattern ts
      let arrow ← symbol .arrow head.rest
      let body ← armBody rules arrow.rest
      if startsWith .comma body.rest ∨ startsWith .openBrace arrow.rest ∨
          startsWith .closeBrace body.rest then
        let more ← armsFrom rules (before ++ [(head.value, body.value)]) body.rest
        return more.widen (Nat.lt_trans body.shorter (Nat.lt_trans arrow.shorter head.shorter))
      else fail .armSeparator body.rest) := by
  rw [armsFrom]
  · congr
    funext head
    congr
    funext arrow
    dsimp only
    unfold armBody
    by_cases hbraced : startsWith .openBrace arrow.rest = true
    · rw [if_pos hbraced, if_pos hbraced]
    · rw [if_neg hbraced, if_neg hbraced]
  · exact hcomma
  · exact hclose

namespace Rules.Steady

variable {rules : Rules} (hrules : rules.Steady f)
include hrules

theorem armsFrom (before : List (Pattern × List Statement)) :
    armsFrom rules before (moved f ts) = shift f (armsFrom rules before ts) := by
  induction hlength : ts.length using Nat.strongRecOn generalizing ts before with
  | _ length ih =>
    by_cases hcomma : ∃ position us, ts = ⟨.symbol .comma, position⟩ :: us
    · obtain ⟨position, us, rfl⟩ := hcomma
      simp only [moved_cons, Expression.armsFrom]
      rw [ih us.length (by rw [← hlength]; simp) before rfl]
      exact shift_bind (⟨_, position⟩ :: us) fun _ => rfl
    by_cases hclose : ∃ position us, ts = ⟨.symbol .closeBrace, position⟩ :: us
    · obtain ⟨position, us, rfl⟩ := hclose
      simp only [moved_cons, Expression.armsFrom]
      rfl
    have hcomma' : ∀ position us, ts ≠ ⟨.symbol .comma, position⟩ :: us :=
      fun position us h => hcomma ⟨position, us, h⟩
    have hclose' : ∀ position us, ts ≠ ⟨.symbol .closeBrace, position⟩ :: us :=
      fun position us h => hclose ⟨position, us, h⟩
    rw [armsFrom_eq hcomma' hclose', armsFrom_eq]
    · refine steady_pattern.bind ts fun head => (steady_symbol .arrow).bind ts fun arrow => ?_
      have hshorter := Nat.lt_trans arrow.shorter head.shorter
      have hbody : armBody rules (moved f arrow.rest) = shift f (armBody rules arrow.rest) := by
        unfold armBody
        rw [startsWith_moved]
        split
        · exact hrules.block arrow.rest
        · rw [hrules.statement_of_armsFrom fun us before hlt => ih us.length (by omega) before rfl]
          cases statement rules arrow.rest <;> rfl
      show (armBody rules (moved f arrow.rest) >>= _) = _
      rw [hbody]
      refine shift_bind ts fun body => ?_
      simp only [Parsed.moved, startsWith_moved]
      split
      · rw [ih body.rest.length (hlength ▸ Nat.lt_trans body.shorter hshorter) _ rfl]
        exact shift_bind ts fun _ => rfl
      · rfl
    · intro position us h
      obtain ⟨position', us', h⟩ := exists_eq_cons_of_moved h
      exact hcomma' position' us' h
    · intro position us h
      obtain ⟨position', us', h⟩ := exists_eq_cons_of_moved h
      exact hclose' position' us' h

theorem statement : Expression.Steady f (statement rules) :=
  fun _ => hrules.statement_of_armsFrom fun _ before _ => hrules.armsFrom before

theorem statementsFrom (before : List Statement) :
    statementsFrom rules before (moved f ts) = shift f (statementsFrom rules before ts) := by
  induction hlength : ts.length using Nat.strongRecOn generalizing ts before with
  | _ length ih =>
    by_cases hsemicolon : ∃ position us, ts = ⟨.symbol .semicolon, position⟩ :: us
    · obtain ⟨position, us, rfl⟩ := hsemicolon
      simp only [moved_cons, Expression.statementsFrom]
      rw [ih us.length (by rw [← hlength]; simp) before rfl]
      exact shift_bind (⟨_, position⟩ :: us) fun _ => rfl
    by_cases hclose : ∃ position us, ts = ⟨.symbol .closeBrace, position⟩ :: us
    · obtain ⟨position, us, rfl⟩ := hclose
      simp only [moved_cons, Expression.statementsFrom]
      rfl
    by_cases hnil : ts = []
    · subst hnil
      simp only [moved_nil, Expression.statementsFrom]
      rfl
    rw [Expression.statementsFrom, Expression.statementsFrom]
    · refine hrules.statement.bind ts fun next => ?_
      simp only [Parsed.moved, startsWith_moved]
      split
      · rw [ih next.rest.length (hlength ▸ next.shorter) _ rfl]
        exact shift_bind ts fun _ => rfl
      · rfl
    · exact fun position us h => hsemicolon ⟨position, us, h⟩
    · exact fun position us h => hclose ⟨position, us, h⟩
    · exact hnil
    · intro position us h
      obtain ⟨position', us', h⟩ := exists_eq_cons_of_moved h
      exact hsemicolon ⟨position', us', h⟩
    · intro position us h
      obtain ⟨position', us', h⟩ := exists_eq_cons_of_moved h
      exact hclose ⟨position', us', h⟩
    · exact fun h => hnil (List.map_eq_nil_iff.1 h)

theorem enclosed : Expression.Steady f (Expression.block rules) := by
  intro ts
  refine (steady_symbol .openBrace).bind ts fun opening => ?_
  show (Expression.statementsFrom rules [] (moved f opening.rest) >>= _) = _
  rw [hrules.statementsFrom]
  exact shift_bind ts fun _ => rfl

theorem enter : rules.enter.Steady f := by
  have hunary := Expression.Steady.unary hrules.unary hrules.expression.primary
  have hpower := Expression.Steady.power hrules.power hunary
  exact ⟨hpower.chains, hpower, hunary, hrules.enclosed⟩

end Rules.Steady

/-- However deep the nesting may be, the rules read tokens alike wherever they stand. -/
theorem Rules.steady_within (n : Nat) : (within n).Steady f := by
  induction n with
  | zero => exact ⟨fun _ => rfl, fun _ => rfl, fun _ => rfl, fun _ => rfl⟩
  | succ n ih => exact ih.enter

/-! ## Programs -/

theorem program_moved {p : Program} (h : program ts = .ok p) : program (moved f ts) = .ok p := by
  have hrules : (Rules.within maxDepth).Steady f := Rules.steady_within maxDepth
  have hempty {us : List Lexeme} (h : us = []) : moved f us = [] := by rw [h, moved_nil]
  unfold program at h ⊢
  dsimp only at h ⊢
  rw [startsWith_moved]
  split at h
  · next hbrace =>
    rw [if_pos hbrace, hrules.block ts]
    cases hblock : (Rules.within maxDepth).block ts with
    | error e =>
      rw [hblock] at h
      cases h
    | ok body =>
      rw [hblock] at h
      obtain ⟨hrest, hp⟩ := whole_ok_iff.1 h
      exact whole_ok_iff.2 ⟨hempty hrest, hp⟩
  · next hbrace =>
    rw [if_neg hbrace, hrules.expression ts]
    cases hexpression : (Rules.within maxDepth).expression ts with
    | error e =>
      rw [hexpression] at h
      cases h
    | ok e =>
      rw [hexpression] at h
      obtain ⟨hrest, hp⟩ := whole_ok_iff.1 h
      exact whole_ok_iff.2 ⟨hempty hrest, hp⟩

/-- A program is the same one wherever its tokens stand. -/
theorem parseTokens_moved {p : Program} (h : parseTokens ts = .ok p) :
    parseTokens (moved f ts) = .ok p :=
  parseTokens_ok_iff.2 (program_moved (parseTokens_ok_iff.1 h))

end Flipbook.Expression
