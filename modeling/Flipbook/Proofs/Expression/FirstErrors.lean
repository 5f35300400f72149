import Flipbook.Proofs.Expression.OpenStatements
import Flipbook.Proofs.Expression.RoundTrip

/-!
# Where errors point

An error points at the first token that nothing can make right, and tokens that end too
early fail at their end. There are two exceptions: at the end behind the sign of a pattern
the error is found at the sign, and where one more level of nesting would be too deep, that
is found before the end is.

* `programOutcome_cases`: the ways in which tokens take part in a program.
* `EndsAtSign`, `EndsTooDeep`: the exceptions.
* `exists_endsTooDeep`: nesting may be found too deep though the tokens can be completed.
* `final_iff_not_endsAtSign`: whether a failure at a token is final.
* `errors_point_at_first`: which errors point where.
-/
namespace Flipbook.Expression

variable {ts us rest : List Lexeme}

/-! ## Programs -/

/-- Finds the end of a program. -/
def finish (p : Program) : Reader Program := fun ts =>
  if ts.isEmpty then (.ok p, []) else (.error (some .endOfExpression), ts)

/-- Reads the block or the expression that a program is, as its first token shows. -/
def programBody (ts : List Lexeme) : Reader Program :=
  if startsWith .openBrace ts then (Rules.within maxDepth).block.reader.map .block
  else (Rules.within maxDepth).expression.reader.map .flat

/-- The outcome of reading all the tokens. -/
def wholeOutcome : Except Failure Program → Outcome Program
  | .ok p => (.ok p, [])
  | .error f => (.error f.expected, f.rest)

theorem wholeOutcome_finish {vs : List Lexeme} (p : Parsed Program vs) :
    wholeOutcome (if p.rest.isEmpty then pure p.value else fail .endOfExpression p.rest) =
      finish p.value p.rest := by
  rw [finish]
  split <;> rfl

/-- What becomes of tokens that should make up a program. -/
def programOutcome : Reader Program := fun ts => wholeOutcome (program ts)

theorem programOutcome_eq (ts : List Lexeme) :
    programOutcome ts = (programBody ts).andThen finish ts := by
  unfold programOutcome program programBody
  dsimp only
  split
  · cases hblock : (Rules.within maxDepth).block ts with
    | error f =>
      rw [Reader.andThen_of_error (Reader.map_of_error (reader_of_error hblock))]
      rfl
    | ok body =>
      rw [Reader.andThen_of_ok (Reader.map_of_ok (reader_of_ok hblock))]
      exact wholeOutcome_finish (body.map .block)
  · cases hexpression : (Rules.within maxDepth).expression ts with
    | error f =>
      rw [Reader.andThen_of_error (Reader.map_of_error (reader_of_error hexpression))]
      rfl
    | ok e =>
      rw [Reader.andThen_of_ok (Reader.map_of_ok (reader_of_ok hexpression))]
      exact wholeOutcome_finish (e.map .flat)

theorem programOutcome_of_ok {p : Program} (h : program ts = .ok p) :
    programOutcome ts = (.ok p, []) :=
  congrArg wholeOutcome h

theorem programOutcome_of_error {f : Failure} (h : program ts = .error f) :
    programOutcome ts = (.error f.expected, f.rest) :=
  congrArg wholeOutcome h

theorem program_of_outcome_ok {p : Program} (h : programOutcome ts = (.ok p, rest)) :
    program ts = .ok p := by
  cases hprogram : program ts with
  | ok q =>
    rw [programOutcome_of_ok hprogram] at h
    cases h
    rfl
  | error f =>
    rw [programOutcome_of_error hprogram] at h
    cases h

theorem program_of_outcome_error {e : Option Expectation}
    (h : programOutcome ts = (.error e, rest)) : program ts = .error ⟨e, rest⟩ := by
  cases hprogram : program ts with
  | ok q =>
    rw [programOutcome_of_ok hprogram] at h
    cases h
  | error f =>
    rw [programOutcome_of_error hprogram] at h
    cases h
    rfl

theorem plain_finish (p : Program) : Plain (finish p) :=
  plain_of_begins rfl fun _ =>
    .looks (.stops (.error (some .endOfExpression)) (by simp) fun _ => rfl)

theorem forward_programBody (ts : List Lexeme) : Forward (programBody ts) := by
  unfold programBody
  split
  · exact (Rules.decisive_within maxDepth).forward.andThen fun _ => (plain_done _).forward
  · exact ((Rules.plain_within maxDepth).expression.map _).forward

theorem forward_programOutcome : Forward programOutcome := by
  intro ts
  rw [programOutcome_eq]
  exact (forward_programBody ts).andThen (fun p => (plain_finish p).forward) ts

theorem decides_programBody (vs ts : List Lexeme) : Decides (programBody vs) [] ts := by
  have hrules := Rules.decisive_within maxDepth
  unfold programBody
  split
  · exact (hrules.block [] ts).map hrules.forward _
  · exact ((hrules.plain.expression.map _).decides ts).elim .settled .ended

/-- Whether a program is cut off behind the sign of a pattern, and the error is found at the sign:
it says that a number is missed behind it, and no other sign stands before it. -/
def EndsAtSign (ts : List Lexeme) : Prop :=
  ∃ front sign, ts = front ++ [sign] ∧ sign.token = .symbol .minus ∧
    program ts = .error ⟨some .numberAfterMinus, [sign]⟩ ∧
      ∀ t ∈ front.getLast?, t.token ≠ .symbol .minus

/-- How tokens take part in a program. -/
theorem programOutcome_cases (ts : List Lexeme) :
    Settled programOutcome ts ∨ Ended programOutcome ts ∨ Hopeless programOutcome ts ∨
      EndsAtSign ts ∧ (∀ us, us ≠ [] → (programOutcome (ts ++ us)).2 <:+ us) ∧
        ∃ us p, program (ts ++ us) = .ok p := by
  cases ts with
  | nil => exact .inr (.inl forward_programOutcome.ended_nil)
  | cons t vs =>
    -- the first token shows which program it is, whatever follows
    have hsame (us : List Lexeme) :
        programOutcome (t :: vs ++ us) =
          (programBody (t :: vs)).andThen finish (t :: vs ++ us) := by
      rw [programOutcome_eq, programBody, programBody, List.cons_append,
        startsWith_cons t (vs ++ us) vs]
    have hplain (h : Settled (programBody (t :: vs)) (t :: vs) ∨
        Ended (programBody (t :: vs)) (t :: vs)) :
        Settled programOutcome (t :: vs) ∨ Ended programOutcome (t :: vs) :=
      (settled_or_ended_andThen h (forward_programBody (t :: vs))
        (fun p => (plain_finish p).forward) fun p rest _ => (plain_finish p).decides rest).imp
          (·.congr hsame) (·.congr hsame)
    cases decides_programBody (t :: vs) (t :: vs) with
    | settled h => exact (hplain (.inl h)).imp_right .inl
    | ended h => exact (hplain (.inr h)).imp_right .inl
    | hopeless h =>
      refine .inr (.inr (.inl fun us => ?_))
      rw [hsame]
      exact Reader.fst_andThen_of_error (h us)
    | cut h =>
      obtain ⟨⟨front, sign, hsign, hts, hfails, hlast⟩, hlater, ws, p, hdone⟩ := h
      refine .inr (.inr (.inr ⟨⟨front, sign, hts, hsign, ?_, hlast⟩, fun us hus => ?_, ws, p, ?_⟩))
      · refine program_of_outcome_error ?_
        rw [programOutcome_eq]
        exact Reader.andThen_of_error hfails
      · rw [hsame]
        exact suffix_andThen (hlater us hus) fun p rest _ => (plain_finish p).forward rest
      · have hread := hdone [] rfl
        rw [List.append_nil] at hread
        have hfinished : programOutcome (t :: vs ++ ws) = (.ok p, []) :=
          (hsame ws).trans (Reader.andThen_of_ok hread)
        exact program_of_outcome_ok hfinished

/-! ## Nesting that ends at the limit -/

/-- Whether the nesting is found too deep where the tokens end. -/
def EndsTooDeep (ts : List Lexeme) : Prop := program ts = .error ⟨none, []⟩

/-- Calls that are open, one in the arguments of the other. -/
def openCalls : Nat → List Lexeme
  | 0 => []
  | n + 1 => ⟨.name "f", 0⟩ :: ⟨.symbol .openParen, 0⟩ :: openCalls n

/-- A call within calls. -/
def nestedCall : Nat → Expr
  | 0 => .call "f" []
  | n + 1 => .call "f" [nestedCall n]

theorem reader_openCalls (n : Nat) :
    (Rules.within n).expression.reader (openCalls n) = (.error none, []) := by
  induction n with
  | zero => rfl
  | succ n ih =>
    refine reader_enter_call "f" 0 0 ?_ ih
    cases n <;> exact nofun

theorem spells_nestedCall (n : Nat) :
    Spells (openCalls (n + 1) ++ List.replicate (n + 1) ⟨.symbol .closeParen, 0⟩)
      (nestedCall n).tokens := by
  induction n with
  | zero => rfl
  | succ n ih =>
    have htokens : (nestedCall (n + 1)).tokens =
        .name "f" :: parenthesized ((nestedCall n).tokens ++ []) := rfl
    rw [htokens, List.append_nil, ← ih, List.replicate_succ', openCalls]
    simp [Spells, parenthesized]

theorem isWritable_nestedCall (n : Nat) : (nestedCall n).isWritable = true := by
  induction n with
  | zero => decide
  | succ n ih =>
    have hname : "f" ∉ statementWords := by decide
    simp [nestedCall, Expr.isWritable, argumentsWritable, ih, hname]

theorem nesting_nestedCall (n : Nat) : (nestedCall n).nesting = n := by
  induction n with
  | zero => rfl
  | succ n ih => simp [nestedCall, Expr.nesting, argumentNesting, ih]

/-- Calls that are open up to the limit are too deep at their end, but they can be closed. -/
theorem exists_endsTooDeep : ∃ ts, EndsTooDeep ts ∧ ∃ us p, program (ts ++ us) = .ok p := by
  refine ⟨openCalls maxDepth, ?_, List.replicate maxDepth ⟨.symbol .closeParen, 0⟩,
    .flat (nestedCall 63), ?_⟩
  · refine program_of_outcome_error ?_
    rw [programOutcome_eq]
    exact Reader.andThen_of_error (Reader.map_of_error (reader_openCalls maxDepth))
  · have hderives := (derived _ (isWritable_nestedCall 63)).whole (spells_nestedCall 63) []
    rw [List.append_nil, nesting_nestedCall] at hderives
    exact program_flat_iff.2 ⟨hderives.startsWith_openBrace, hderives.reads_within (by decide)⟩

/-! ## Errors -/

theorem exists_parseTokens_error_iff :
    (∃ e, parseTokens ts = .error e) ↔ ∃ f, program ts = .error f := by
  unfold parseTokens
  cases program ts with
  | ok p => exact iff_of_false (fun ⟨_, h⟩ => by cases h) fun ⟨_, h⟩ => by cases h
  | error f => exact iff_of_true ⟨_, rfl⟩ ⟨f, rfl⟩

theorem program_of_unexpectedToken {e : Expectation} {token : Token} {position : Nat}
    (h : parseTokens ts = .error (.unexpectedToken e token position)) :
    ∃ us, program ts = .error ⟨some e, ⟨token, position⟩ :: us⟩ := by
  unfold parseTokens at h
  cases hprogram : program ts with
  | ok p =>
    rw [hprogram] at h
    cases h
  | error f =>
    rw [hprogram] at h
    obtain ⟨expected, rest⟩ := f
    cases expected with
    | none => cases rest <;> cases h
    | some e' =>
      cases rest with
      | nil => cases h
      | cons t us =>
        cases h
        exact ⟨us, rfl⟩

theorem parseTokens_unexpectedEnd_iff {e : Expectation} :
    parseTokens ts = .error (.unexpectedEnd e) ↔ program ts = .error ⟨some e, []⟩ := by
  unfold parseTokens
  constructor
  · intro h
    cases hprogram : program ts with
    | ok p =>
      rw [hprogram] at h
      cases h
    | error f =>
      rw [hprogram] at h
      obtain ⟨_ | e', _ | ⟨t, us⟩⟩ := f <;> cases h
      rfl
  · intro h
    rw [h]
    rfl

theorem EndsAtSign.program_eq (h : EndsAtSign ts) :
    ∃ sign, program ts = .error ⟨some .numberAfterMinus, [sign]⟩ := by
  obtain ⟨_, sign, -, -, hfails, -⟩ := h
  exact ⟨sign, hfails⟩

/-- A failure at a token is final, unless the tokens end at a sign. -/
theorem final_iff_not_endsAtSign {e : Expectation} {t : Lexeme} {front tail : List Lexeme}
    (h : program (front ++ [t] ++ tail) = .error ⟨some e, t :: tail⟩) :
    (∀ us, ∃ f, program (front ++ [t] ++ us) = .error f) ↔
      ¬EndsAtSign (front ++ [t] ++ tail) := by
  have houtcome := programOutcome_of_error h
  have hnot : ¬(t :: tail) <:+ tail := fun hsuffix => by
    have hle := hsuffix.length_le
    rw [List.length_cons] at hle
    omega
  rcases programOutcome_cases (front ++ [t]) with hsettled | hended | hhopeless | hcut
  · have happend := hsettled.append tail
    rw [houtcome] at happend
    obtain ⟨hfails, hrest⟩ := Prod.mk.inj happend
    have hstuck : [t] = (programOutcome (front ++ [t])).2 := List.append_cancel_right hrest
    refine iff_of_true (fun us => ?_) ?_
    · have hus := hsettled.append us
      rw [← hfails] at hus
      exact ⟨_, program_of_outcome_error hus⟩
    · rintro ⟨front', sign, hts, hsign, hprogram, hlast⟩
      obtain ⟨he, htail⟩ := Failure.mk.inj (Except.error.inj (h.symm.trans hprogram))
      obtain ⟨rfl, rfl⟩ := List.cons.inj htail
      -- the number is missed behind a sign that stands before the last token
      obtain ⟨behind, s, hs, hfront⟩ := hsettled.sign (hfails.symm.trans (congrArg _ he))
      rw [← hstuck, List.append_cons behind s [t]] at hfront
      rw [List.append_nil] at hts
      obtain rfl : front = behind ++ [s] := List.append_cancel_right hfront
      obtain rfl : behind ++ [s] = front' := List.append_cancel_right hts
      exact hlast s List.getLast?_concat hs
  · have hlater := hended.later tail
    rw [houtcome] at hlater
    exact absurd hlater hnot
  · have hnone := hhopeless tail
    rw [houtcome] at hnone
    cases hnone
  · obtain ⟨hsign, hlater, us, p, hdone⟩ := hcut
    cases tail with
    | cons u us =>
      have hlater := hlater (u :: us) nofun
      rw [houtcome] at hlater
      exact absurd hlater hnot
    | nil =>
      rw [List.append_nil]
      refine iff_of_false (fun hall => ?_) (fun hnot => hnot hsign)
      obtain ⟨f, hf⟩ := hall us
      cases hdone.symm.trans hf

/-- An error that names a token stands at that token, and no program starts with the tokens up to
it, unless they end at a sign. -/
theorem exists_pointed_token {e : Expectation} {token : Token} {position : Nat}
    (h : parseTokens ts = .error (.unexpectedToken e token position)) :
    ∃ i, ts[i]? = some ⟨token, position⟩ ∧ program ts = .error ⟨some e, ts.drop i⟩ ∧
      ((∀ us, us.take (i + 1) = ts.take (i + 1) → ∃ error, parseTokens us = .error error) ↔
        ¬EndsAtSign ts) := by
  obtain ⟨tail, hprogram⟩ := program_of_unexpectedToken h
  have hsuffix := forward_programOutcome ts
  rw [programOutcome_of_error hprogram] at hsuffix
  obtain ⟨front, rfl⟩ := hsuffix
  generalize (⟨token, position⟩ : Lexeme) = t at hprogram
  have htake (us : List Lexeme) : (front ++ [t] ++ us).take (front.length + 1) = front ++ [t] :=
    List.take_left' (List.length_append.trans rfl)
  refine ⟨front.length, by simp, by rw [List.drop_left, hprogram], ?_⟩
  rw [List.append_cons] at hprogram ⊢
  rw [htake, ← final_iff_not_endsAtSign hprogram]
  refine ⟨fun hall us => ?_, fun hall us hus => ?_⟩
  · exact exists_parseTokens_error_iff.1 (hall _ (htake us))
  · rw [← List.take_append_drop (front.length + 1) us, hus]
    exact exists_parseTokens_error_iff.2 (hall _)

/-- Tokens that can be completed fail at their end, unless they end at a sign or too deep. -/
theorem unexpectedEnd_iff_of_completed (hfails : ∃ error, parseTokens ts = .error error)
    (hcompleted : ∃ us p, parseTokens (ts ++ us) = .ok p) :
    (∃ e, parseTokens ts = .error (.unexpectedEnd e)) ↔ ¬EndsAtSign ts ∧ ¬EndsTooDeep ts := by
  obtain ⟨f, hf⟩ := exists_parseTokens_error_iff.1 hfails
  obtain ⟨us, p, hp⟩ := hcompleted
  rw [parseTokens_ok_iff] at hp
  simp only [parseTokens_unexpectedEnd_iff]
  have houtcome := programOutcome_of_error hf
  have hread := programOutcome_of_ok hp
  rcases programOutcome_cases ts with hsettled | hended | hhopeless | hcut
  · rw [hsettled.append, houtcome] at hread
    cases hread
  · have hrest := hended.rest
    rw [houtcome] at hrest
    obtain ⟨expected, rest⟩ := f
    obtain rfl : rest = [] := hrest
    have hsign : ¬EndsAtSign ts := fun h => by
      obtain ⟨sign, hprogram⟩ := h.program_eq
      cases hf.symm.trans hprogram
    cases expected with
    | none => exact iff_of_false (fun ⟨e, he⟩ => nomatch hf.symm.trans he) fun h => h.2 hf
    | some e => exact iff_of_true ⟨e, hf⟩ ⟨hsign, fun h => nomatch hf.symm.trans h⟩
  · have hnone := hhopeless us
    rw [hread] at hnone
    cases hnone
  · obtain ⟨sign, hprogram⟩ := hcut.1.program_eq
    refine iff_of_false ?_ fun h => h.1 hcut.1
    rintro ⟨e, he⟩
    cases hprogram.symm.trans he

/-- An error that points at a token points at the first that nothing can follow on: no program
starts with the tokens up to it, unless they end at a sign, which a number may follow on. And
tokens that can be completed fail at their end, unless they end at a sign or the nesting is found
too deep there. -/
theorem errors_point_at_first (ts : List Lexeme) :
    (∀ e token position, parseTokens ts = .error (.unexpectedToken e token position) →
      ∃ i, ts[i]? = some ⟨token, position⟩ ∧ program ts = .error ⟨some e, ts.drop i⟩ ∧
        ((∀ us, us.take (i + 1) = ts.take (i + 1) → ∃ error, parseTokens us = .error error) ↔
          ¬EndsAtSign ts)) ∧
    ((∃ error, parseTokens ts = .error error) → (∃ us p, parseTokens (ts ++ us) = .ok p) →
      ((∃ e, parseTokens ts = .error (.unexpectedEnd e)) ↔ ¬EndsAtSign ts ∧ ¬EndsTooDeep ts)) :=
  ⟨fun _ _ _ h => exists_pointed_token h, unexpectedEnd_iff_of_completed⟩

/-- The tokens of a call with no comma between its arguments. -/
def brokenCall : List Lexeme :=
  [⟨.name "f", 0⟩, ⟨.symbol .openParen, 1⟩, ⟨.name "a", 2⟩, ⟨.name "b", 4⟩]

theorem errors_point_at_first_brokenCall :
    (∃ i, brokenCall[i]? = some ⟨.name "b", 4⟩ ∧
      ∀ us, us.take (i + 1) = brokenCall.take (i + 1) → ∃ error, parseTokens us = .error error) ∧
    ∃ e, parseTokens (brokenCall.take 2) = .error (.unexpectedEnd e) := by
  have hfails : program brokenCall = .error ⟨some (.symbol .comma), [⟨.name "b", 4⟩]⟩ := by cbv
  have hends : program (brokenCall.take 2) = .error ⟨some .value, []⟩ := by cbv
  have hread : program (brokenCall.take 2 ++ [⟨.symbol .closeParen, 2⟩]) =
      .ok (.flat (.call "f" [])) := by cbv
  refine ⟨?_, ?_⟩
  · have hpoints : parseTokens brokenCall =
        .error (.unexpectedToken (.symbol .comma) (.name "b") 4) := by
      rw [parseTokens, hfails]
      rfl
    have hsign : ¬EndsAtSign brokenCall := fun h => by
      obtain ⟨sign, hprogram⟩ := h.program_eq
      cases hfails.symm.trans hprogram
    obtain ⟨i, hi, -, hfinal⟩ := (errors_point_at_first brokenCall).1 _ _ _ hpoints
    exact ⟨i, hi, hfinal.2 hsign⟩
  · have hsign : ¬EndsAtSign (brokenCall.take 2) := fun h => by
      obtain ⟨sign, hprogram⟩ := h.program_eq
      cases hends.symm.trans hprogram
    have hdeep : ¬EndsTooDeep (brokenCall.take 2) := fun h => by
      cases hends.symm.trans h
    exact ((errors_point_at_first (brokenCall.take 2)).2
      (exists_parseTokens_error_iff.2 ⟨_, hends⟩)
      ⟨_, _, parseTokens_ok_iff.2 hread⟩).2 ⟨hsign, hdeep⟩

/-- The tokens of a `when` that end behind the sign of its first pattern. -/
def cutChoice : List Lexeme :=
  [⟨.symbol .openBrace, 0⟩, ⟨.name "when", 2⟩, ⟨.name "x", 7⟩, ⟨.symbol .openBrace, 9⟩,
    ⟨.symbol .minus, 11⟩]

theorem program_cutChoice :
    program cutChoice = .error ⟨some .numberAfterMinus, [⟨.symbol .minus, 11⟩]⟩ := by
  cbv

/-- They can be completed. -/
theorem program_cutChoice_append :
    program (cutChoice ++ [⟨.number 1, 12⟩, ⟨.symbol .arrow, 14⟩, ⟨.name "y", 17⟩,
      ⟨.symbol .closeBrace, 19⟩, ⟨.symbol .closeBrace, 21⟩]) =
      .ok (.block [.choose "x" [(.number (-1), [.result (.variable "y")])]]) := by
  cbv

theorem not_forall_errors_point_at_first :
    ¬(∀ ts e token position, parseTokens ts = .error (.unexpectedToken e token position) →
      ∃ i, ts[i]? = some ⟨token, position⟩ ∧
        ∀ us, us.take (i + 1) = ts.take (i + 1) → ∃ error, parseTokens us = .error error) ∧
    ¬(∀ ts, (∃ error, parseTokens ts = .error error) → (∃ us p, parseTokens (ts ++ us) = .ok p) →
      ∃ e, parseTokens ts = .error (.unexpectedEnd e)) := by
  have hfails : parseTokens cutChoice =
      .error (.unexpectedToken .numberAfterMinus (.symbol .minus) 11) := by
    rw [parseTokens, program_cutChoice]
    rfl
  have hread := parseTokens_ok_iff.2 program_cutChoice_append
  refine ⟨fun h => ?_, fun h => ?_⟩
  · obtain ⟨i, hi, hnone⟩ := h _ _ _ _ hfails
    obtain ⟨hlt, -⟩ := List.getElem?_eq_some_iff.1 hi
    obtain ⟨error, herror⟩ := hnone _ (List.take_append_of_le_length hlt)
    cases herror.symm.trans hread
  · obtain ⟨e, he⟩ := h cutChoice ⟨_, hfails⟩ ⟨_, _, hread⟩
    cases hfails.symm.trans he

end Flipbook.Expression
