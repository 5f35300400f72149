import Flipbook.Proofs.Expression.Acceptance
import Flipbook.Proofs.Expression.ExpressionReaders

/-!
# Statements as readers

Each rule for statements as readers one after the other, so that what is known of two of
them is known of both together.

* `branching`: what follows on the branches that have been read.
* `bodyOfArm`, `afterArm`, `afterPattern`: what follows on an arm.
* `afterWord?`, `afterName?`, `reader_statement_word`: what follows on the first word of a
  statement.
* `afterStatement`: what follows on a statement in a block.
* `decides_pattern`: how tokens take part in a pattern.
-/
namespace Flipbook.Expression

variable {ts us rest before : List Lexeme} {rules : Rules}

/-! ## Values and branches -/

theorem reader_assigned :
    Rule.reader (assigned rules) =
      (Rule.reader (symbol .assign)).andThen fun _ => rules.expression.reader := by
  funext ts
  exact outcome_bind (symbol .assign ts) _ _ rfl fun _ _ => outcome_widen _ _

theorem reader_guarded :
    Rule.reader (guarded rules) =
      rules.expression.reader.andThen fun condition => rules.block.reader.map (condition, ·) := by
  funext ts
  refine outcome_bind (rules.expression ts) _ _ rfl fun p _ => ?_
  exact outcome_bind (rules.block p.rest) _ _ rfl fun _ _ => rfl

/-- What the branches that have been read are extended to, whatever has been read before. -/
def branching (rules : Rules) (sofar : List (Expr × List Statement)) : Reader Statement :=
  fun ts => outcome (elseParts rules (readBefore sofar ts))

/-- Reads the last branch, after `else`. -/
def lastBranch (rules : Rules) (sofar : List (Expr × List Statement)) : Reader Statement :=
  rules.block.reader.map fun body => .branch sofar (some body)

theorem startsWithWord_cons {word : String} (t : Lexeme) (us vs : List Lexeme) :
    startsWithWord word (t :: us) = startsWithWord word (t :: vs) := by
  obtain ⟨token, position⟩ := t
  cases token <;> rfl

theorem startsWith_cons {s : Symbol} (t : Lexeme) (us vs : List Lexeme) :
    startsWith s (t :: us) = startsWith s (t :: vs) := by
  obtain ⟨token, position⟩ := t
  cases token <;> rfl

section

variable {sofar : List (Expr × List Statement)} {t u : Lexeme}

theorem elseParts_of_none {h : rest.length < ts.length}
    (helse : startsWithWord "else" rest = false) :
    elseParts rules (⟨sofar, rest, h⟩ : Parsed _ ts) = .ok ⟨.branch sofar none, rest, h⟩ := by
  rw [elseParts, if_neg (by simp [helse])]
  rfl

theorem elseParts_of_last {h : (t :: us).length < ts.length}
    (helse : startsWithWord "else" [t] = true) (hif : startsWithWord "if" us = false) :
    outcome (elseParts rules (⟨sofar, t :: us, h⟩ : Parsed _ ts)) = lastBranch rules sofar us := by
  rw [elseParts, if_pos (by rwa [startsWithWord_cons t us []])]
  dsimp only
  rw [if_neg (by simp [hif])]
  cases hblock : rules.block us with
  | error f =>
    exact (Reader.map_of_error (reader_of_error hblock)).symm
  | ok body =>
    rw [lastBranch, Reader.map_of_ok (reader_of_ok hblock)]
    rfl

theorem elseParts_of_error {h : (t :: u :: us).length < ts.length} {f : Failure}
    (helse : startsWithWord "else" [t] = true) (hif : startsWithWord "if" [u] = true)
    (hnext : guarded rules us = .error f) :
    elseParts rules (⟨sofar, t :: u :: us, h⟩ : Parsed _ ts) = .error f := by
  rw [elseParts, if_pos (by rwa [startsWithWord_cons t _ []])]
  dsimp only
  rw [if_pos (by rwa [startsWithWord_cons u us []]), hnext]

theorem elseParts_of_ok (sofar : List (Expr × List Statement))
    (h : (t :: u :: us).length < ts.length) {next : Parsed (Expr × List Statement) us}
    (helse : startsWithWord "else" [t] = true) (hif : startsWithWord "if" [u] = true)
    (hnext : guarded rules us = .ok next) :
    ∃ hlt, elseParts rules (⟨sofar, t :: u :: us, h⟩ : Parsed _ ts) =
      elseParts rules (⟨sofar ++ [next.value], next.rest, hlt⟩ : Parsed _ ts) := by
  have hlt : next.rest.length < ts.length := by
    have := next.shorter
    simp only [List.length_cons] at h
    omega
  refine ⟨hlt, ?_⟩
  rw [elseParts, if_pos (by rwa [startsWithWord_cons t _ []])]
  dsimp only
  rw [if_pos (by rwa [startsWithWord_cons u us []]), hnext]

end

theorem outcome_elseParts (sofar : Parsed (List (Expr × List Statement)) ts) :
    outcome (elseParts rules sofar) = branching rules sofar.value sofar.rest := by
  obtain ⟨sofar, rest, hlt⟩ := sofar
  -- by the tokens that are left: what is read of them does not depend on those before
  induction hlength : rest.length using Nat.strongRecOn generalizing ts sofar rest with
  | _ length ih =>
    cases helse : startsWithWord "else" rest with
    | false =>
      rw [branching, readBefore, elseParts_of_none helse, elseParts_of_none helse]
      rfl
    | true =>
      cases rest with
      | nil => cases helse
      | cons t us =>
        rw [startsWithWord_cons t us []] at helse
        cases hif : startsWithWord "if" us with
        | false =>
          rw [branching, readBefore, elseParts_of_last helse hif, elseParts_of_last helse hif]
        | true =>
          cases us with
          | nil => cases hif
          | cons u vs =>
            rw [startsWithWord_cons u vs []] at hif
            cases hnext : guarded rules vs with
            | error f =>
              rw [branching, readBefore, elseParts_of_error helse hif hnext,
                elseParts_of_error helse hif hnext]
              rfl
            | ok next =>
              obtain ⟨_, heq⟩ := elseParts_of_ok sofar hlt helse hif hnext
              obtain ⟨_, heq'⟩ := elseParts_of_ok sofar
                (length_lt_symbol .comma 0 (t :: u :: vs)) helse hif hnext
              have hshorter : next.rest.length < length := by
                have := next.shorter
                simp only [List.length_cons] at hlength
                omega
              rw [branching, readBefore, heq, heq', ih _ hshorter _ _ _ rfl,
                ih _ hshorter _ _ _ rfl]

theorem branching_of_none {sofar : List (Expr × List Statement)}
    (h : startsWithWord "else" ts = false) :
    branching rules sofar ts = (.ok (.branch sofar none), ts) := by
  rw [branching, readBefore, elseParts_of_none h]
  rfl

theorem branching_of_last {sofar : List (Expr × List Statement)} {t : Lexeme}
    (helse : startsWithWord "else" [t] = true) (hif : startsWithWord "if" us = false) :
    branching rules sofar (t :: us) = lastBranch rules sofar us :=
  elseParts_of_last helse hif

theorem branching_of_if {sofar : List (Expr × List Statement)} {t u : Lexeme}
    (helse : startsWithWord "else" [t] = true) (hif : startsWithWord "if" [u] = true)
    (us : List Lexeme) :
    branching rules sofar (t :: u :: us) =
      (Rule.reader (guarded rules)).andThen (fun next => branching rules (sofar ++ [next])) us := by
  cases hnext : guarded rules us with
  | error f =>
    rw [branching, readBefore, elseParts_of_error helse hif hnext,
      Reader.andThen_of_error (reader_of_error hnext)]
    rfl
  | ok next =>
    obtain ⟨_, heq⟩ := elseParts_of_ok sofar
      (length_lt_symbol .comma 0 (t :: u :: us)) helse hif hnext
    rw [branching, readBefore, heq, outcome_elseParts, Reader.andThen_of_ok (reader_of_ok hnext)]

/-! ## Arms -/

/-- Reads the body of an arm, which may stand in braces. -/
def bodyOfArm (rules : Rules) : Reader (Bool × List Statement) := fun ts =>
  if startsWith .openBrace ts then rules.block.reader.map (true, ·) ts
  else (Rule.reader (statement rules)).map (fun s => (false, s.asArm)) ts

/-- Reads what follows on an arm: further arms, or nothing where they are not told apart. -/
def afterArm (rules : Rules) (arms : List (Pattern × List Statement)) (braced : Bool) :
    Reader (List (Pattern × List Statement)) := fun ts =>
  if startsWith .comma ts ∨ braced = true ∨ startsWith .closeBrace ts then
    Rule.reader (armsFrom rules arms) ts
  else (.error (some .armSeparator), ts)

/-- Reads what follows on the pattern of an arm: its body and further arms. -/
def afterPattern (rules : Rules) (arms : List (Pattern × List Statement)) (head : Pattern) :
    Reader (List (Pattern × List Statement)) :=
  (Rule.reader (symbol .arrow)).andThen fun _ => (bodyOfArm rules).andThen fun body =>
    afterArm rules (arms ++ [(head, body.2)]) body.1

section

variable {arms : List (Pattern × List Statement)} {position : Nat}

theorem reader_armsFrom_comma (us : List Lexeme) :
    Rule.reader (armsFrom rules arms) (⟨.symbol .comma, position⟩ :: us) =
      Rule.reader (armsFrom rules arms) us := by
  rw [Rule.reader, armsFrom]
  exact outcome_widen _ _

theorem reader_armsFrom_closeBrace (us : List Lexeme) :
    Rule.reader (armsFrom rules arms) (⟨.symbol .closeBrace, position⟩ :: us) = (.ok arms, us) := by
  rw [Rule.reader, armsFrom]
  rfl

theorem outcome_afterArm (braced : Bool) {vs : List Lexeme} (hlt : rest.length < vs.length) :
    outcome (if startsWith .comma rest ∨ braced = true ∨ startsWith .closeBrace rest then
        do return (← armsFrom rules arms rest).widen hlt
      else fail .armSeparator rest : Except Failure (Parsed _ vs)) =
      afterArm rules arms braced rest := by
  rw [afterArm]
  split
  · exact outcome_widen _ _
  · rfl

theorem reader_armsFrom_arm (hcomma : ∀ position us, ts ≠ ⟨.symbol .comma, position⟩ :: us)
    (hclose : ∀ position us, ts ≠ ⟨.symbol .closeBrace, position⟩ :: us) :
    Rule.reader (armsFrom rules arms) ts =
      (Rule.reader pattern).andThen (afterPattern rules arms) ts := by
  rw [Rule.reader, armsFrom]
  · refine outcome_bind (pattern ts) _ _ rfl fun head _ => ?_
    refine outcome_bind (symbol .arrow head.rest) _ _ rfl fun arrow _ => ?_
    dsimp only
    split
    · next hbraced =>
      have hbody : bodyOfArm rules arrow.rest = rules.block.reader.map (true, ·) arrow.rest :=
        if_pos hbraced
      cases hblock : rules.block arrow.rest with
      | error f =>
        have hfails := hbody.trans (Reader.map_of_error (reader_of_error hblock))
        rw [Reader.andThen_of_error hfails]
        rfl
      | ok body =>
        have hread := hbody.trans (Reader.map_of_ok (reader_of_ok hblock))
        rw [Reader.andThen_of_ok hread, hbraced]
        exact outcome_afterArm true _
    · next hbraced =>
      have hbody : bodyOfArm rules arrow.rest =
          (Rule.reader (statement rules)).map (fun s => (false, s.asArm)) arrow.rest :=
        if_neg hbraced
      rw [Bool.not_eq_true] at hbraced
      cases hstatement : statement rules arrow.rest with
      | error f =>
        have hfails := hbody.trans (Reader.map_of_error (reader_of_error hstatement))
        rw [Reader.andThen_of_error hfails]
        rfl
      | ok s =>
        have hread := hbody.trans (Reader.map_of_ok (reader_of_ok hstatement))
        rw [Reader.andThen_of_ok hread, hbraced]
        exact outcome_afterArm false _
  · exact hcomma
  · exact hclose

end

/-! ## Any statement -/

/-- Reads what follows on a word that opens a statement, whatever that is. -/
def afterWord? (rules : Rules) (word : String) : Option (Reader Statement) :=
  if word = "const" ∨ word = "mut" then
    some ((Rule.reader identifier).andThen fun name =>
      (Rule.reader (assigned rules)).map (.declare (word = "mut") name))
  else if word = "if" then
    some ((Rule.reader (guarded rules)).andThen fun first => branching rules [first])
  else if word = "when" then
    some ((Rule.reader identifier).andThen fun subject =>
      (Rule.reader (symbol .openBrace)).andThen fun _ =>
        (Rule.reader (armsFrom rules [])).map (.choose subject))
  else none

/-- Reads what follows on another word, as far as that shows that it does not open an
expression. -/
def afterName? (rules : Rules) (word : String) (us : List Lexeme) : Option (Reader Statement) :=
  if word = "eval" ∧ startsWith .openParen us then
    some ((Rule.reader (symbol .openParen)).andThen fun _ =>
      (Rule.reader (closedBy .closeParen rules.expression)).map .result)
  else if startsWith .assign us then some ((Rule.reader (assigned rules)).map (.assign word))
  else none

theorem afterName?_cons (word : String) (t : Lexeme) (us vs : List Lexeme) :
    afterName? rules word (t :: us) = afterName? rules word (t :: vs) := by
  rw [afterName?, afterName?, startsWith_cons t us vs, startsWith_cons t us vs]

theorem reader_statement_word (word : String) (position : Nat) (us : List Lexeme) :
    Rule.reader (statement rules) (⟨.name word, position⟩ :: us) =
      ((afterWord? rules word).or (afterName? rules word us)).elim
        (rules.expression.reader.map .effect (⟨.name word, position⟩ :: us)) (· us) := by
  rw [Rule.reader, statement, afterWord?]
  split
  · refine outcome_bind (identifier us) _ _ rfl fun name _ => ?_
    exact outcome_bind (assigned rules name.rest) _ _ rfl fun _ _ => rfl
  · split
    · refine outcome_bind (guarded rules us) _ _ rfl fun first _ => ?_
      exact (outcome_widen _ _).trans (outcome_elseParts _)
    · split
      · refine outcome_bind (identifier us) _ _ rfl fun subject _ => ?_
        refine outcome_bind (symbol .openBrace subject.rest) _ _ rfl fun opening _ => ?_
        exact outcome_bind (armsFrom rules [] opening.rest) _ _ rfl fun _ _ => rfl
      · rw [Option.none_or, afterName?]
        split
        · refine outcome_bind (symbol .openParen us) _ _ rfl fun opening _ => ?_
          exact outcome_bind (closedBy .closeParen rules.expression opening.rest) _ _ rfl
            fun _ _ => rfl
        · split
          · exact outcome_bind (assigned rules us) _ _ rfl fun _ _ => rfl
          · exact outcome_bind (rules.expression (⟨.name word, position⟩ :: us)) _ _ rfl
              fun _ _ => rfl

theorem reader_statement_other (h : ∀ word position us, ts ≠ ⟨.name word, position⟩ :: us) :
    Rule.reader (statement rules) ts = rules.expression.reader.map .effect ts := by
  rw [Rule.reader, statement]
  · exact outcome_bind (rules.expression ts) _ _ rfl fun _ _ => rfl
  · exact h

/-! ## Blocks -/

/-- Reads what follows on a statement in a block: further statements, or nothing where they are
not told apart. -/
def afterStatement (rules : Rules) (sofar : List Statement) (s : Statement) :
    Reader (List Statement) := fun ts =>
  if s.isSelfContained ∨ startsWith .closeBrace ts ∨ startsWith .semicolon ts then
    Rule.reader (statementsFrom rules (sofar ++ [s.inBlock (startsWith .closeBrace ts)])) ts
  else (.error (some .separator), ts)

section

variable {sofar : List Statement} {position : Nat}

theorem reader_statementsFrom_semicolon (us : List Lexeme) :
    Rule.reader (statementsFrom rules sofar) (⟨.symbol .semicolon, position⟩ :: us) =
      Rule.reader (statementsFrom rules sofar) us := by
  rw [Rule.reader, statementsFrom]
  exact outcome_widen _ _

theorem reader_statementsFrom_closeBrace (us : List Lexeme) :
    Rule.reader (statementsFrom rules sofar) (⟨.symbol .closeBrace, position⟩ :: us) =
      (.ok sofar, us) := by
  rw [Rule.reader, statementsFrom]
  rfl

theorem reader_statementsFrom_statement
    (hsemicolon : ∀ position us, ts ≠ ⟨.symbol .semicolon, position⟩ :: us)
    (hclose : ∀ position us, ts ≠ ⟨.symbol .closeBrace, position⟩ :: us) (hne : ts ≠ []) :
    Rule.reader (statementsFrom rules sofar) ts =
      (Rule.reader (statement rules)).andThen (afterStatement rules sofar) ts := by
  rw [Rule.reader, statementsFrom]
  · refine outcome_bind (statement rules ts) _ _ rfl fun next _ => ?_
    dsimp only
    rw [afterStatement]
    split
    · exact outcome_widen _ _
    · rfl
  · exact hsemicolon
  · exact hclose
  · exact hne

end

theorem reader_block :
    Rule.reader (block rules) =
      (Rule.reader (symbol .openBrace)).andThen fun _ => Rule.reader (statementsFrom rules []) := by
  funext ts
  exact outcome_bind (symbol .openBrace ts) _ _ rfl fun _ _ => outcome_widen _ _

/-! ## Patterns -/

/-- How a pattern that does not open with a sign is read. -/
theorem looks_pattern {t : Lexeme} (h : t.token ≠ .symbol .minus) :
    Looks (Rule.reader pattern) t := by
  obtain ⟨token, position⟩ := t
  cases token with
  | number value => exact .takes (.number value) fun _ => rfl
  | text value => exact .takes (.text value) fun _ => rfl
  | name name =>
    by_cases hrest : name = "rest__"
    · subst hrest
      exact .takes .rest fun _ => rfl
    · refine .stops (.error (some .pattern)) nofun fun us => ?_
      rw [Rule.reader, pattern, if_neg hrest]
      rfl
  | symbol s =>
    refine .stops (.error (some .pattern)) nofun fun us => ?_
    cases s with
    | minus => exact absurd rfl h
    | _ => rfl

/-- Behind the sign of a pattern stands a number, or it is missed there. -/
theorem pattern_minus (position : Nat) (t : Lexeme) :
    (∃ p, ∀ us, Rule.reader pattern (⟨.symbol .minus, position⟩ :: t :: us) = (.ok p, us)) ∨
    ∀ us, Rule.reader pattern (⟨.symbol .minus, position⟩ :: t :: us) =
      (.error (some .numberAfterMinus), t :: us) := by
  obtain ⟨token, place⟩ := t
  cases token with
  | number value => exact .inl ⟨.number (-value), fun _ => rfl⟩
  | text => exact .inr fun _ => rfl
  | name => exact .inr fun _ => rfl
  | symbol => exact .inr fun _ => rfl

theorem suffix_pattern_minus (position : Nat) (t : Lexeme) (us : List Lexeme) :
    (Rule.reader pattern (⟨.symbol .minus, position⟩ :: t :: us)).2 <:+ t :: us := by
  rcases pattern_minus position t with ⟨p, hread⟩ | hfails
  · rw [hread]
    exact List.suffix_cons t us
  · exact suffix_of_eq (hfails us)

theorem forward_pattern : Forward (Rule.reader pattern) := by
  intro ts
  cases ts with
  | nil => exact List.suffix_rfl
  | cons t us =>
    by_cases ht : t.token = .symbol .minus
    · obtain ⟨token, position⟩ := t
      obtain rfl : token = .symbol .minus := ht
      cases us with
      | nil => exact List.suffix_rfl
      | cons u vs => exact (suffix_pattern_minus position u vs).trans (List.suffix_cons _ _)
    · exact (looks_pattern ht).suffix us

/-- A pattern is cut where it ends behind its sign. -/
theorem cut_pattern (position : Nat)
    (hlast : ∀ t ∈ before.getLast?, t.token ≠ .symbol .minus) :
    Cut (Rule.reader pattern) before [⟨.symbol .minus, position⟩] := by
  refine ⟨⟨[], ⟨.symbol .minus, position⟩, rfl, rfl, rfl, by rwa [List.append_nil]⟩,
    fun us hus => ?_, [⟨.number 1, 0⟩], .number (-1), fun us _ => rfl⟩
  cases us with
  | nil => exact absurd rfl hus
  | cons u vs => exact suffix_pattern_minus position u vs

theorem decides_pattern
    (hsign : ∀ t, ts = [t] → t.token = .symbol .minus →
      ∀ t ∈ before.getLast?, t.token ≠ .symbol .minus) :
    Decides (Rule.reader pattern) before ts := by
  cases ts with
  | nil => exact .ended forward_pattern.ended_nil
  | cons t us =>
    by_cases ht : t.token = .symbol .minus
    · obtain ⟨token, position⟩ := t
      obtain rfl : token = .symbol .minus := ht
      cases us with
      | nil => exact .cut (cut_pattern position (hsign _ rfl rfl))
      | cons u vs =>
        refine .settled ?_
        rcases pattern_minus position u with ⟨p, hread⟩ | hfails
        · refine ⟨fun ws => ?_, fun hnone => ?_⟩
          · rw [hread]
            exact hread (vs ++ ws)
          · rw [hread] at hnone
            cases hnone
        · refine ⟨fun ws => ?_, fun _ => ⟨[], _, rfl, by rw [hfails]; rfl⟩⟩
          rw [hfails]
          exact hfails (vs ++ ws)
    · exact .settled (looks_pattern ht).settled

end Flipbook.Expression
