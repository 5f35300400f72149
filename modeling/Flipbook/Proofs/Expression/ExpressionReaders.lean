import Flipbook.Proofs.Expression.Readers
import Flipbook.Proofs.Expression.StatementRules

/-!
# Expressions and what follows

The rules for expressions are plain: some tokens decide what becomes of them, unless they
end too early. Each rule is a reader that begins with a token, and looks no further or
leaves the rest to another one; the loops over operators and arguments are followed by the
length of what is left.

* `Looks`, `Begins`, `plain_of_begins`: readers by the token they begin with.
* `extension`, `reader_chain`: what an operand is extended to.
* `Plain.chain`, `Plain.arguments`, `Plain.primary`, `Plain.unary`, `Plain.power`: the rules.
* `Rules.plain_within`: the rules for expressions are plain at every depth.
-/
namespace Flipbook.Expression

variable {α : Type} {ts us rest : List Lexeme}

/-! ## Single tokens -/

/-- A symbol comes first, or it does not. -/
theorem symbol_first_or (s : Symbol) (ts : List Lexeme) :
    (∃ position us, ts = ⟨.symbol s, position⟩ :: us) ∨
      ∀ position us, ts ≠ ⟨.symbol s, position⟩ :: us := by
  by_cases h : ∃ position us, ts = ⟨.symbol s, position⟩ :: us
  · exact .inl h
  · exact .inr fun position us hts => h ⟨position, us, hts⟩

/-- Whether a reader takes a token or stops at it, whatever follows. -/
inductive Looks (m : Reader α) (t : Lexeme) : Prop where
  | takes (a : α) (h : ∀ us, m (t :: us) = (.ok a, us))
  | stops (result : Except (Option Expectation) α)
    (hresult : result ≠ .error (some .numberAfterMinus)) (h : ∀ us, m (t :: us) = (result, t :: us))

theorem Looks.suffix {m : Reader α} {t : Lexeme} (h : Looks m t) (ts : List Lexeme) :
    (m (t :: ts)).2 <:+ t :: ts := by
  cases h with
  | takes a h =>
    rw [h]
    exact List.suffix_cons t ts
  | stops result hresult h => exact suffix_of_eq (h ts)

theorem Looks.settled {m : Reader α} {t : Lexeme} (h : Looks m t) : Settled m (t :: ts) := by
  cases h with
  | takes a h => exact (settled_done a ts).cons fun _ => h _
  | stops result hresult h =>
    refine ⟨fun us => ?_, fun hsign => ?_⟩
    · rw [List.cons_append, h, h]
      rfl
    · rw [h] at hsign
      exact absurd hsign hresult

/-- How a plain reader begins with a token: it looks no further, or leaves what follows or all of
it to another one. -/
inductive Begins (m : Reader α) (t : Lexeme) : Prop where
  | looks (h : Looks m t)
  | skips {m' : Reader α} (hm' : Plain m') (h : ∀ us, m (t :: us) = m' us)
  | agrees {m' : Reader α} (hm' : Plain m') (h : ∀ us, m (t :: us) = m' (t :: us))

theorem plain_of_begins {m : Reader α} (hnil : (m []).2 = []) (h : ∀ t, Begins m t) : Plain m := by
  have hforward : Forward m := by
    intro ts
    cases ts with
    | nil => exact List.suffix_nil.2 hnil
    | cons t ts =>
      cases h t with
      | looks h => exact h.suffix ts
      | skips hm' h =>
        rw [h]
        exact (hm'.forward ts).trans (List.suffix_cons t ts)
      | agrees hm' h =>
        rw [h]
        exact hm'.forward (t :: ts)
  refine ⟨hforward, fun ts => ?_⟩
  cases ts with
  | nil => exact .inr hforward.ended_nil
  | cons t ts =>
    cases h t with
    | looks h => exact .inl h.settled
    | skips hm' h => exact settled_or_ended_cons h (hm'.decides ts)
    | agrees hm' h =>
      exact (hm'.decides (t :: ts)).imp (·.congr fun us => h _) (·.congr fun us => h _)

theorem plain_symbol (s : Symbol) : Plain (Rule.reader (symbol s)) := by
  refine plain_of_begins rfl fun t => .looks ?_
  obtain ⟨token, position⟩ := t
  cases token with
  | symbol s' =>
    by_cases hs : s' = s
    · subst hs
      exact .takes () fun us => congrArg outcome (symbol_eq s')
    · refine .stops (.error (some (.symbol s))) nofun fun us => ?_
      show outcome (if s' = s then _ else _) = _
      rw [if_neg hs]
      rfl
  | name => exact .stops (.error (some (.symbol s))) nofun fun _ => rfl
  | number => exact .stops (.error (some (.symbol s))) nofun fun _ => rfl
  | text => exact .stops (.error (some (.symbol s))) nofun fun _ => rfl

theorem plain_identifier : Plain (Rule.reader identifier) := by
  refine plain_of_begins rfl fun t => .looks ?_
  obtain ⟨token, position⟩ := t
  cases token with
  | name name => exact .takes name fun _ => rfl
  | symbol => exact .stops (.error (some .identifier)) nofun fun _ => rfl
  | number => exact .stops (.error (some .identifier)) nofun fun _ => rfl
  | text => exact .stops (.error (some .identifier)) nofun fun _ => rfl

theorem Plain.closedBy {rule : Rule α} (h : Plain rule.reader) (s : Symbol) :
    Plain (Rule.reader (closedBy s rule)) := by
  rw [reader_closedBy]
  exact h.andThen fun a => (plain_symbol s).map fun _ => a

/-! ## Operators that bind to the left -/

section

variable {operand : Rule Expr} {op? : Symbol → Option BinaryOp}

/-- What an operand is extended to, whatever has been read before. -/
def extension (operand : Rule Expr) (op? : Symbol → Option BinaryOp) (left : Expr) : Reader Expr :=
  fun ts => outcome (extendChain operand op? (readBefore left ts))

/-- The operator that a token is. -/
def operatorAt? (op? : Symbol → Option BinaryOp) (t : Lexeme) : Option BinaryOp :=
  match t.token with
  | .symbol s => op? s
  | _ => none

theorem operatorAt?_eq_none {t : Lexeme} (h : operatorAt? op? t = none) :
    ∀ s position vs, t :: us = ⟨.symbol s, position⟩ :: vs → op? s = none := by
  rintro s position vs heq
  cases heq
  exact h

theorem operatorAt?_eq_some {t : Lexeme} {op : BinaryOp} (h : operatorAt? op? t = some op) :
    ∃ s position, t = ⟨.symbol s, position⟩ ∧ op? s = some op := by
  obtain ⟨token, position⟩ := t
  cases token with
  | symbol s => exact ⟨s, position, rfl, h⟩
  | name => cases h
  | number => cases h
  | text => cases h

theorem outcome_extendChain (left : Parsed Expr ts) :
    outcome (extendChain operand op? left) = extension operand op? left.value left.rest := by
  obtain ⟨a, rest, hlt⟩ := left
  induction hlength : rest.length using Nat.strongRecOn generalizing ts a rest with
  | _ length ih =>
    cases hop : rest.head?.bind (operatorAt? op?) with
    | none =>
      have hends : ∀ s position us, rest = ⟨.symbol s, position⟩ :: us → op? s = none := by
        rintro s position us rfl
        exact hop
      rw [extension, readBefore, extendChain_of_ends hends, extendChain_of_ends hends]
      rfl
    | some op =>
      obtain ⟨t, ht, hop⟩ := Option.bind_eq_some_iff.1 hop
      obtain ⟨us, rfl⟩ := List.head?_eq_some_iff.1 ht
      obtain ⟨s, position, rfl, hs⟩ := operatorAt?_eq_some hop
      cases hright : operand us with
      | error f =>
        rw [extension, readBefore, extendChain_of_error hs hright, extendChain_of_error hs hright]
        rfl
      | ok right =>
        obtain ⟨b, more, hmore⟩ := right
        obtain ⟨_, heq⟩ := extendChain_of_ok (a := a) (h := hlt) hs hright
        obtain ⟨_, heq'⟩ := extendChain_of_ok (a := a) (h := length_lt_symbol .comma 0 _) hs hright
        have hlt : more.length < length := by
          rw [← hlength, List.length_cons]
          omega
        rw [extension, readBefore, heq, heq', ih more.length hlt _ _ _ rfl,
          ih more.length hlt _ _ _ rfl]

theorem extension_nil (a : Expr) : extension operand op? a [] = (.ok a, []) := by
  rw [extension, readBefore, extendChain_of_ends (by rintro _ _ _ ⟨⟩)]
  rfl

theorem extension_of_none {t : Lexeme} (a : Expr) (h : operatorAt? op? t = none)
    (us : List Lexeme) : extension operand op? a (t :: us) = (.ok a, t :: us) := by
  rw [extension, readBefore, extendChain_of_ends (operatorAt?_eq_none h)]
  rfl

theorem extension_of_some {t : Lexeme} {op : BinaryOp} (a : Expr) (h : operatorAt? op? t = some op)
    (us : List Lexeme) :
    extension operand op? a (t :: us) =
      operand.reader.andThen (fun b => extension operand op? (.binary op a b)) us := by
  obtain ⟨s, position, rfl, hs⟩ := operatorAt?_eq_some h
  cases hright : operand us with
  | error f =>
    have hreader : operand.reader us = (.error f.expected, f.rest) := congrArg outcome hright
    rw [extension, readBefore, extendChain_of_error hs hright, Reader.andThen_of_error hreader]
    rfl
  | ok right =>
    obtain ⟨b, more, hmore⟩ := right
    have hreader : operand.reader us = (.ok b, more) := congrArg outcome hright
    obtain ⟨_, heq⟩ := extendChain_of_ok (a := a) (h := length_lt_symbol .comma 0 _) hs hright
    rw [extension, readBefore, heq, outcome_extendChain, Reader.andThen_of_ok hreader]

theorem reader_chain :
    Rule.reader (chain operand op?) = operand.reader.andThen (extension operand op?) := by
  funext ts
  exact outcome_bind (operand ts) _ _ rfl fun p _ => outcome_extendChain p

theorem forward_extension (h : Forward operand.reader) (a : Expr) :
    Forward (extension operand op? a) := by
  intro ts
  induction hlength : ts.length using Nat.strongRecOn generalizing ts a with
  | _ length ih =>
    cases ts with
    | nil => exact suffix_of_eq (extension_nil a)
    | cons t us =>
      cases hop : operatorAt? op? t with
      | none => exact suffix_of_eq (extension_of_none a hop us)
      | some op =>
        rw [extension_of_some a hop]
        refine (suffix_andThen (h us) fun b rest hresult => ih rest.length ?_ _ rest rfl).trans
          (List.suffix_cons t us)
        have hlt := length_lt_of_reader hresult
        rw [← hlength, List.length_cons]
        omega

theorem Plain.chain (h : Plain operand.reader) : Plain (Rule.reader (chain operand op?)) := by
  have hforward (a : Expr) : Forward (extension operand op? a) := forward_extension h.forward a
  have hextension (a : Expr) (ts : List Lexeme) :
      Settled (extension operand op? a) ts ∨ Ended (extension operand op? a) ts := by
    induction hlength : ts.length using Nat.strongRecOn generalizing ts a with
    | _ length ih =>
      cases ts with
      | nil => exact .inr (hforward a).ended_nil
      | cons t us =>
        cases hop : operatorAt? op? t with
        | none => exact .inl (Looks.stops (.ok a) nofun (extension_of_none a hop)).settled
        | some op =>
          refine settled_or_ended_cons (extension_of_some a hop)
            (settled_or_ended_andThen (h.decides us) h.forward (fun b => hforward _) ?_)
          intro b rest hresult
          refine ih rest.length ?_ _ rest rfl
          have hlt := length_lt_of_reader hresult
          rw [← hlength, List.length_cons]
          omega
  rw [reader_chain]
  exact h.andThen fun a => ⟨hforward a, hextension a⟩

/-- An operand that fails is no beginning of a chain. -/
theorem reader_chains_of_error {e : Option Expectation} (h : operand.reader ts = (.error e, rest)) :
    Rule.reader (chains operand) ts = (.error e, rest) := by
  unfold Expression.chains
  generalize chainLevels = levels
  induction levels generalizing operand with
  | nil => exact h
  | cons op? levels ih =>
    refine ih ?_
    rw [reader_chain]
    exact Reader.andThen_of_error h

/-- An operand at which the tokens end is a chain. -/
theorem reader_chains_of_ok {a : Expr} (h : operand.reader ts = (.ok a, [])) :
    Rule.reader (chains operand) ts = (.ok a, []) := by
  unfold Expression.chains
  generalize chainLevels = levels
  induction levels generalizing operand with
  | nil => exact h
  | cons op? levels ih =>
    refine ih ?_
    rw [reader_chain, Reader.andThen_of_ok h, extension_nil]

theorem Plain.chains (h : Plain operand.reader) : Plain (Rule.reader (chains operand)) := by
  unfold Expression.chains
  generalize chainLevels = levels
  induction levels generalizing operand with
  | nil => exact h
  | cons op? levels ih => exact ih h.chain

end

/-! ## Calls and primaries -/

section

variable {expression nested operand : Rule Expr}

theorem reader_argumentsFrom (before : List Expr) :
    Rule.reader (argumentsFrom expression before) =
      expression.reader.andThen fun e =>
        Rule.reader (afterArgument expression (before ++ [e])) := by
  funext ts
  cases hread : expression ts with
  | error f =>
    have hreader : expression.reader ts = (.error f.expected, f.rest) := congrArg outcome hread
    rw [Rule.reader, argumentsFrom_of_error hread, Reader.andThen_of_error hreader]
    rfl
  | ok p =>
    obtain ⟨e, rest, hlt⟩ := p
    have hreader : expression.reader ts = (.ok e, rest) := congrArg outcome hread
    rw [Rule.reader, argumentsFrom_of_ok hread, Reader.andThen_of_ok hreader, Rule.reader]
    cases afterArgument expression (before ++ [e]) rest <;> rfl

/-- Behind an argument stands the closing parenthesis, a comma, or nothing of a call. -/
theorem afterArgument_cases (sofar : List Expr) (t : Lexeme) :
    Looks (Rule.reader (afterArgument expression sofar)) t ∨
      ∀ us, Rule.reader (afterArgument expression sofar) (t :: us) =
        Rule.reader (argumentsFrom expression sofar) us := by
  obtain ⟨token, position⟩ := t
  have hstops (hclose : token ≠ .symbol .closeParen) (hcomma : token ≠ .symbol .comma) :
      Looks (Rule.reader (afterArgument expression sofar)) ⟨token, position⟩ := by
    refine .stops (.error (some (.symbol .comma))) nofun fun us => ?_
    rw [Rule.reader, afterArgument]
    · cases token with
      | symbol s =>
        have hne : s ≠ .comma := fun heq => hcomma (congrArg Token.symbol heq)
        have hsymbol : symbol .comma (⟨.symbol s, position⟩ :: us) =
            fail (.symbol .comma) (⟨.symbol s, position⟩ :: us) := if_neg hne
        rw [hsymbol]
        rfl
      | name => rfl
      | number => rfl
      | text => rfl
    · rintro closing vs ⟨⟩
      exact hclose rfl
  by_cases hclose : token = .symbol .closeParen
  · subst hclose
    exact .inl (.takes sofar fun us => rfl)
  · by_cases hcomma : token = .symbol .comma
    · subst hcomma
      refine .inr fun us => ?_
      rw [Rule.reader, afterArgument_comma, Rule.reader]
      cases argumentsFrom expression sofar us <;> rfl
    · exact .inl (hstops hclose hcomma)

theorem forward_argumentsFrom (h : Forward expression.reader) (before : List Expr) :
    Forward (Rule.reader (argumentsFrom expression before)) := by
  intro ts
  induction hlength : ts.length using Nat.strongRecOn generalizing ts before with
  | _ length ih =>
    rw [reader_argumentsFrom]
    refine suffix_andThen (h ts) fun e rest hresult => ?_
    cases rest with
    | nil => exact List.suffix_rfl
    | cons t us =>
      rcases afterArgument_cases (before ++ [e]) t with hlooks | hsame
      · exact hlooks.suffix us
      · rw [hsame]
        refine (ih us.length ?_ _ us rfl).trans (List.suffix_cons t us)
        have hlt := length_lt_of_reader hresult
        rw [List.length_cons] at hlt
        omega

theorem Plain.argumentsFrom (h : Plain expression.reader) (before : List Expr) :
    Plain (Rule.reader (argumentsFrom expression before)) := by
  have hforward := forward_argumentsFrom h.forward
  have hafter (sofar : List Expr) :
      Forward (Rule.reader (afterArgument expression sofar)) := by
    intro ts
    cases ts with
    | nil => exact List.suffix_rfl
    | cons t us =>
      rcases afterArgument_cases sofar t with hlooks | hsame
      · exact hlooks.suffix us
      · rw [hsame]
        exact (hforward sofar us).trans (List.suffix_cons t us)
  refine ⟨hforward before, fun ts => ?_⟩
  induction hlength : ts.length using Nat.strongRecOn generalizing ts before with
  | _ length ih =>
    rw [reader_argumentsFrom]
    refine settled_or_ended_andThen (h.decides ts) h.forward (fun e => hafter _) ?_
    intro e rest hresult
    cases rest with
    | nil => exact .inr (hafter _).ended_nil
    | cons t us =>
      rcases afterArgument_cases (before ++ [e]) t with hlooks | hsame
      · exact .inl hlooks.settled
      · refine settled_or_ended_cons hsame (ih us.length ?_ _ us rfl)
        have hlt := length_lt_of_reader hresult
        rw [List.length_cons] at hlt
        omega

theorem reader_arguments (ts : List Lexeme)
    (hts : ∀ position us, ts ≠ ⟨.symbol .closeParen, position⟩ :: us) :
    Rule.reader (arguments expression) ts = Rule.reader (argumentsFrom expression []) ts :=
  congrArg outcome (arguments_eq hts)

theorem Plain.arguments (h : Plain expression.reader) :
    Plain (Rule.reader (arguments expression)) := by
  have hfrom := h.argumentsFrom []
  refine plain_of_begins ?_ fun t => ?_
  · rw [reader_arguments [] nofun]
    exact hfrom.forward.ended_nil.rest
  · obtain ⟨token, position⟩ := t
    by_cases hclose : token = .symbol .closeParen
    · subst hclose
      exact .looks (.takes [] fun _ => rfl)
    · refine .agrees hfrom fun us => reader_arguments _ ?_
      rintro position vs ⟨⟩
      exact hclose rfl

/-- What follows on a name: the arguments of a call, or nothing. -/
def called (expression : Rule Expr) (name : String) : Reader Expr
  | ⟨.symbol .openParen, _⟩ :: us =>
    (Rule.reader (Expression.arguments expression)).map (.call name) us
  | us => (.ok (named name), us)

theorem Plain.called (h : Plain expression.reader) (name : String) :
    Plain (Expression.called expression name) := by
  refine plain_of_begins rfl fun t => ?_
  obtain ⟨token, position⟩ := t
  by_cases hopen : token = .symbol .openParen
  · subst hopen
    exact .skips (h.arguments.map (.call name)) fun _ => rfl
  · refine .looks (.stops (.ok (named name)) nofun fun us => ?_)
    rw [Expression.called]
    rintro position vs ⟨⟩
    exact hopen rfl

theorem reader_primary_name (name : String) (position : Nat) (us : List Lexeme) :
    Rule.reader (primary expression) (⟨.name name, position⟩ :: us) =
      called expression name us := by
  rcases symbol_first_or .openParen us with ⟨opening, vs, rfl⟩ | hnot
  · exact outcome_bind (arguments expression vs) _ _ rfl fun _ _ => rfl
  · rw [Rule.reader, primary, called]
    · rfl
    · exact hnot
    · exact hnot

theorem Plain.primary (h : Plain expression.reader) :
    Plain (Rule.reader (primary expression)) := by
  refine plain_of_begins rfl fun t => ?_
  obtain ⟨token, position⟩ := t
  cases token with
  | number value => exact .looks (.takes (.number value) fun _ => rfl)
  | text value => exact .looks (.takes (.text value) fun _ => rfl)
  | name name => exact .skips (h.called name) (reader_primary_name name position)
  | symbol s =>
    by_cases hs : s = .openParen
    · subst hs
      exact .skips (h.closedBy .closeParen) fun us => outcome_widen _ _
    · refine .looks (.stops (.error (some .value)) nofun fun us => ?_)
      rw [Rule.reader, Expression.primary]
      · rfl
      all_goals simp [hs]

theorem reader_unary (ts : List Lexeme)
    (hts : ∀ s position us, ts = ⟨.symbol s, position⟩ :: us → s.prefix? = none) :
    Rule.reader (unary nested operand) ts = operand.reader ts :=
  congrArg outcome (unary_eq hts)

theorem Plain.unary (h : Plain nested.reader) (hoperand : Plain operand.reader) :
    Plain (Rule.reader (unary nested operand)) := by
  refine plain_of_begins ?_ fun t => ?_
  · rw [reader_unary [] nofun]
    exact hoperand.forward.ended_nil.rest
  · obtain ⟨token, position⟩ := t
    by_cases hminus : token = .symbol .minus
    · subst hminus
      exact .skips (h.map (.unary .negate)) fun us =>
        outcome_bind (nested us) _ _ rfl fun _ _ => rfl
    · by_cases hnot : token = .symbol .not
      · subst hnot
        exact .skips (h.map (.unary .not)) fun us =>
          outcome_bind (nested us) _ _ rfl fun _ _ => rfl
      · refine .agrees hoperand fun us => reader_unary _ ?_
        rintro s position vs ⟨⟩
        cases s with
        | minus => exact absurd rfl hminus
        | not => exact absurd rfl hnot
        | _ => rfl

/-- What follows on a base: an exponent, or nothing. -/
def raised (nested : Rule Expr) (base : Expr) : Reader Expr
  | ⟨.symbol .power, _⟩ :: us => nested.reader.map (.binary .power base) us
  | us => (.ok base, us)

theorem reader_power :
    Rule.reader (power nested operand) = operand.reader.andThen (raised nested) := by
  funext ts
  refine outcome_bind (operand ts) _ _ rfl fun p _ => ?_
  obtain ⟨base, rest, hlt⟩ := p
  dsimp only
  split
  · exact outcome_bind (nested _) _ _ rfl fun _ _ => rfl
  · next hnot =>
    rw [raised]
    · rfl
    · exact hnot

theorem Plain.power (h : Plain nested.reader) (hoperand : Plain operand.reader) :
    Plain (Rule.reader (power nested operand)) := by
  have hraised (base : Expr) : Plain (raised nested base) := by
    refine plain_of_begins rfl fun t => ?_
    obtain ⟨token, position⟩ := t
    by_cases hpower : token = .symbol .power
    · subst hpower
      exact .skips (h.map (.binary .power base)) fun _ => rfl
    · refine .looks (.stops (.ok base) nofun fun us => ?_)
      rw [raised]
      rintro position vs ⟨⟩
      exact hpower rfl
  rw [reader_power]
  exact hoperand.andThen hraised

end

/-! ## Nesting -/

/-- Whether the nested rules for expressions are plain. -/
structure Rules.Plain (rules : Rules) : Prop where
  expression : Expression.Plain rules.expression.reader
  power : Expression.Plain rules.power.reader
  unary : Expression.Plain rules.unary.reader

theorem Rules.Plain.enter {rules : Rules} (h : rules.Plain) : rules.enter.Plain := by
  have hunary := h.unary.unary h.expression.primary
  have hpower := h.power.power hunary
  exact ⟨hpower.chains, hpower, hunary⟩

/-- A name alone is an expression. -/
theorem reader_enter_name (rules : Rules) (name : String) (position : Nat) :
    rules.enter.expression.reader [⟨.name name, position⟩] = (.ok (named name), []) :=
  reader_chains_of_ok rfl

/-- A call fails where its first argument does. -/
theorem reader_enter_call {rules : Rules} {e : Option Expectation} (name : String)
    (position opening : Nat) (hus : ∀ position vs, us ≠ ⟨.symbol .closeParen, position⟩ :: vs)
    (h : rules.expression.reader us = (.error e, rest)) :
    rules.enter.expression.reader (⟨.name name, position⟩ :: ⟨.symbol .openParen, opening⟩ :: us) =
      (.error e, rest) := by
  have harguments : Rule.reader (arguments rules.expression) us = (.error e, rest) := by
    rw [reader_arguments us hus, reader_argumentsFrom]
    exact Reader.andThen_of_error h
  have hprimary : Rule.reader (primary rules.expression)
      (⟨.name name, position⟩ :: ⟨.symbol .openParen, opening⟩ :: us) = (.error e, rest) := by
    rw [reader_primary_name]
    exact Reader.map_of_error harguments
  refine reader_chains_of_error ?_
  show Rule.reader (power rules.power (unary rules.unary (primary rules.expression))) _ = _
  rw [reader_power]
  refine Reader.andThen_of_error ?_
  have hname : ∀ s place vs, (⟨.name name, position⟩ :: ⟨.symbol .openParen, opening⟩ :: us :
      List Lexeme) = ⟨.symbol s, place⟩ :: vs → s.prefix? = none := nofun
  rw [reader_unary _ hname]
  exact hprimary

theorem Rules.plain_within (n : Nat) : (within n).Plain := by
  induction n with
  | zero =>
    have hexhausted : Expression.Plain (fun ts => (.error none, ts) : Reader Expr) :=
      plain_of_begins rfl fun _ => .looks (.stops (.error none) nofun fun _ => rfl)
    exact ⟨hexhausted, hexhausted, hexhausted⟩
  | succ n ih => exact ih.enter

end Flipbook.Expression
