import Flipbook.Proofs.Expression.StatementReaders

/-!
# Statements and what follows

How tokens take part in a statement or a block. The induction is on the depth, and within
one depth on the length of the tokens, since a statement may stand in an arm of another
one. A rule that stopped at a sign behind its tokens must be able to go on behind the
number, so whatever follows on an arm or a statement can be closed.

* `Rules.Decisive`: what is known of the nested rules.
* `Fresh`: where a pattern that is cut behind its sign has no other sign before it.
* `Rules.Decisive.statement`, `Rules.Decisive.enter`: statements, and the next level.
* `Rules.decisive_within`: the rules decide at every depth.
-/
namespace Flipbook.Expression

variable {α : Type} {ts us rest before : List Lexeme} {rules : Rules}

/-! ## Branches -/

/-- What is known of the nested rules: what they make of tokens is decided by them or open, and
they end blocks with a brace. A word alone is a whole expression, unless no expression is read. -/
structure Rules.Decisive (rules : Rules) : Prop where
  plain : rules.Plain
  forward : Forward rules.block.reader
  block : ∀ before ts, Decides rules.block.reader before ts
  closing : ∀ ts body rest, rules.block.reader ts = (.ok body, rest) →
    ∃ front t, t.token = .symbol .closeBrace ∧ ts = front ++ t :: rest
  word : (∀ ts, (rules.expression.reader ts).1 = .error none) ∨
    ∀ name position, (rules.expression.reader [⟨.name name, position⟩]).2 = []

namespace Rules.Decisive

theorem assigned (h : rules.Decisive) : Expression.Plain (Rule.reader (assigned rules)) := by
  rw [reader_assigned]
  exact (plain_symbol .assign).andThen fun _ => h.plain.expression

theorem forward_guarded (h : rules.Decisive) : Forward (Rule.reader (guarded rules)) := by
  rw [reader_guarded]
  exact h.plain.expression.forward.andThen fun _ =>
    h.forward.andThen fun _ => (plain_done _).forward

theorem guarded (h : rules.Decisive) (before ts : List Lexeme) :
    Decides (Rule.reader (guarded rules)) before ts := by
  rw [reader_guarded]
  refine h.plain.expression.decides_andThen (fun _ => ?_) fun front _ rest _ _ => ?_
  · exact h.forward.andThen fun _ => (plain_done _).forward
  · exact (h.block _ rest).map h.forward _

theorem forward_lastBranch (h : rules.Decisive) (sofar : List (Expr × List Statement)) :
    Forward (lastBranch rules sofar) :=
  h.forward.andThen fun _ => (plain_done _).forward

theorem forward_branching (h : rules.Decisive) (sofar : List (Expr × List Statement)) :
    Forward (branching rules sofar) := by
  intro ts
  induction hlength : ts.length using Nat.strongRecOn generalizing ts sofar with
  | _ length ih =>
    cases helse : startsWithWord "else" ts with
    | false => exact suffix_of_eq (branching_of_none helse)
    | true =>
      cases ts with
      | nil => cases helse
      | cons t us =>
        rw [startsWithWord_cons t us []] at helse
        refine List.IsSuffix.trans ?_ (List.suffix_cons t us)
        cases hif : startsWithWord "if" us with
        | false =>
          rw [branching_of_last helse hif]
          exact h.forward_lastBranch sofar us
        | true =>
          cases us with
          | nil => cases hif
          | cons u vs =>
            rw [startsWithWord_cons u vs []] at hif
            rw [branching_of_if helse hif]
            refine (suffix_andThen (h.forward_guarded vs) fun next rest hresult => ?_).trans
              (List.suffix_cons u vs)
            refine ih rest.length ?_ _ rest rfl
            have hlt := length_lt_of_reader hresult
            simp only [List.length_cons] at hlength
            omega

theorem closes_branching (sofar : List (Expr × List Statement)) :
    Closes (branching rules sofar) :=
  ⟨[], .branch sofar none, fun _ hus => ⟨hus, branching_of_none hus⟩⟩

theorem branching (h : rules.Decisive) (sofar : List (Expr × List Statement))
    (before ts : List Lexeme) : Decides (branching rules sofar) before ts := by
  have hforward := h.forward_branching
  induction hlength : ts.length using Nat.strongRecOn generalizing ts sofar before with
  | _ length ih =>
    cases ts with
    | nil => exact .ended (hforward sofar).ended_nil
    | cons t us =>
      cases helse : startsWithWord "else" [t] with
      | false =>
        have hstops (vs : List Lexeme) :
            Expression.branching rules sofar (t :: vs) = (.ok (.branch sofar none), t :: vs) :=
          branching_of_none (by rw [startsWithWord_cons t vs [], helse])
        exact .settled (Looks.stops (.ok (.branch sofar none)) nofun hstops).settled
      | true =>
        cases us with
        | nil =>
          -- the tokens may go on with another condition or with the last branch
          refine .ended ⟨?_, fun us => ?_⟩
          · rw [branching_of_last helse rfl]
            exact List.suffix_nil.1 (h.forward_lastBranch sofar [])
          · rw [List.singleton_append]
            cases hif : startsWithWord "if" us with
            | false =>
              rw [branching_of_last helse hif]
              exact h.forward_lastBranch sofar us
            | true =>
              cases us with
              | nil => cases hif
              | cons u vs =>
                rw [startsWithWord_cons u vs []] at hif
                rw [branching_of_if helse hif]
                exact (h.forward_guarded.andThen (fun _ => hforward _) vs).trans
                  (List.suffix_cons u vs)
        | cons u vs =>
          have hshorter (next : Expr × List Statement) (rest : List Lexeme)
              (hresult : Rule.reader (Expression.guarded rules) vs = (.ok next, rest)) :
              rest.length < length := by
            have hlt := length_lt_of_reader hresult
            simp only [List.length_cons] at hlength
            omega
          cases hif : startsWithWord "if" [u] with
          | false =>
            refine .cons (fun ws => branching_of_last helse ?_)
              ((h.block _ (u :: vs)).map h.forward _)
            rw [List.cons_append, startsWithWord_cons u (vs ++ ws) [], hif]
          | true =>
            have hnext : Decides ((Rule.reader (Expression.guarded rules)).andThen fun next =>
                Expression.branching rules (sofar ++ [next])) (before ++ [t] ++ [u]) vs :=
              (h.guarded _ vs).andThen h.forward_guarded (fun _ => hforward _)
                (fun _ _ => closes_branching _)
                fun _ next rest _ hresult =>
                  ih rest.length (hshorter next rest hresult) _ _ rest rfl
            exact hnext.skip.cons fun ws => branching_of_if helse hif _

/-! ## Arms and statements -/

theorem plain_of_afterName? (h : rules.Decisive) {word : String} {ws : List Lexeme}
    {m : Reader Statement} (hm : afterName? rules word ws = some m) : Expression.Plain m := by
  unfold afterName? at hm
  split at hm
  · cases hm
    exact (plain_symbol .openParen).andThen fun _ =>
      (h.plain.expression.closedBy .closeParen).map _
  · split at hm
    · cases hm
      exact h.assigned.map _
    · cases hm

theorem suffix_statement (h : rules.Decisive)
    (harms : ∀ us, us.length < ts.length → (Rule.reader (armsFrom rules []) us).2 <:+ us) :
    (Rule.reader (statement rules) ts).2 <:+ ts := by
  have heffect := h.plain.expression.map Statement.effect
  by_cases hword : ∃ word position us, ts = ⟨.name word, position⟩ :: us
  · obtain ⟨word, position, us, rfl⟩ := hword
    rw [reader_statement_word]
    cases hafter : (afterWord? rules word).or (afterName? rules word us) with
    | none => exact heffect.forward _
    | some m =>
      refine List.IsSuffix.trans ?_ (List.suffix_cons _ us)
      rw [Option.elim_some]
      rcases Option.or_eq_some_iff.1 hafter with hm | ⟨-, hm⟩
      · unfold afterWord? at hm
        split at hm
        · cases hm
          exact (plain_identifier.andThen fun _ => h.assigned.map _).forward us
        · split at hm
          · cases hm
            exact h.forward_guarded.andThen (fun _ => h.forward_branching _) us
          · split at hm
            · cases hm
              refine suffix_andThen (plain_identifier.forward us) fun subject vs hsubject => ?_
              refine suffix_andThen ((plain_symbol .openBrace).forward vs) fun _ ws hopening => ?_
              refine suffix_andThen (harms ws ?_) fun _ _ _ => List.suffix_rfl
              have := length_lt_of_reader hsubject
              have := length_lt_of_reader hopening
              simp only [List.length_cons]
              omega
            · cases hm
      · exact (h.plain_of_afterName? hm).forward us
  · rw [reader_statement_other fun word position us hts => hword ⟨word, position, us, hts⟩]
    exact heffect.forward ts

theorem suffix_bodyOfArm (h : rules.Decisive) (hts : (Rule.reader (statement rules) ts).2 <:+ ts) :
    (bodyOfArm rules ts).2 <:+ ts := by
  unfold bodyOfArm
  split
  · exact h.forward.andThen (fun _ => (plain_done _).forward) ts
  · exact suffix_andThen hts fun _ _ _ => List.suffix_rfl

theorem suffix_afterArm {arms : List (Pattern × List Statement)} (braced : Bool)
    (hts : (Rule.reader (armsFrom rules arms) ts).2 <:+ ts) :
    (afterArm rules arms braced ts).2 <:+ ts := by
  unfold afterArm
  split
  · exact hts
  · exact List.suffix_rfl

theorem suffix_statement_armsFrom (h : rules.Decisive) (ts : List Lexeme) :
    (Rule.reader (statement rules) ts).2 <:+ ts ∧
      ∀ arms, (Rule.reader (armsFrom rules arms) ts).2 <:+ ts := by
  induction hlength : ts.length using Nat.strongRecOn generalizing ts with
  | _ length ih =>
    refine ⟨h.suffix_statement fun us hus => (ih _ (hlength ▸ hus) us rfl).2 [], fun arms => ?_⟩
    rcases symbol_first_or .comma ts with ⟨position, us, rfl⟩ | hcomma
    · rw [reader_armsFrom_comma]
      refine ((ih us.length ?_ us rfl).2 arms).trans (List.suffix_cons _ us)
      rw [← hlength, List.length_cons]
      exact Nat.lt_succ_self _
    · rcases symbol_first_or .closeBrace ts with ⟨position, us, rfl⟩ | hclose
      · rw [reader_armsFrom_closeBrace]
        exact List.suffix_cons _ us
      · rw [reader_armsFrom_arm hcomma hclose]
        refine suffix_andThen (forward_pattern ts) fun head us hhead => ?_
        refine suffix_andThen ((plain_symbol .arrow).forward us) fun _ vs harrow => ?_
        have hvs : vs.length < length := by
          have := length_lt_of_reader hhead
          have := length_lt_of_reader harrow
          omega
        have hbody := h.suffix_bodyOfArm (ih vs.length hvs vs rfl).1
        refine suffix_andThen hbody fun body ws hresult => ?_
        rw [hresult] at hbody
        have hws : ws.length < length := Nat.lt_of_le_of_lt hbody.length_le hvs
        exact suffix_afterArm body.1 ((ih ws.length hws ws rfl).2 _)

theorem forward_statement (h : rules.Decisive) : Forward (Rule.reader (statement rules)) :=
  fun ts => (h.suffix_statement_armsFrom ts).1

theorem forward_armsFrom (h : rules.Decisive) (arms : List (Pattern × List Statement)) :
    Forward (Rule.reader (armsFrom rules arms)) :=
  fun ts => (h.suffix_statement_armsFrom ts).2 arms

theorem forward_bodyOfArm (h : rules.Decisive) : Forward (bodyOfArm rules) :=
  fun ts => h.suffix_bodyOfArm (h.forward_statement ts)

theorem forward_afterArm (h : rules.Decisive) (arms : List (Pattern × List Statement))
    (braced : Bool) : Forward (afterArm rules arms braced) :=
  fun ts => suffix_afterArm braced (h.forward_armsFrom arms ts)

theorem forward_afterPattern (h : rules.Decisive) (arms : List (Pattern × List Statement))
    (head : Pattern) : Forward (afterPattern rules arms head) :=
  (plain_symbol .arrow).forward.andThen fun _ =>
    h.forward_bodyOfArm.andThen fun body => h.forward_afterArm _ body.1

end Rules.Decisive

theorem reader_of_reads {rule : Rule α} {a : α} (h : Reads rule ts a rest) :
    rule.reader ts = (.ok a, rest) := by
  obtain ⟨_, h⟩ := h
  exact reader_of_ok h

theorem closes_afterArm (arms : List (Pattern × List Statement)) (braced : Bool) :
    Closes (afterArm rules arms braced) := by
  refine ⟨[⟨.symbol .closeBrace, 0⟩], arms, fun us _ => ⟨rfl, ?_⟩⟩
  rw [afterArm, if_pos (.inr (.inr rfl))]
  exact reader_armsFrom_closeBrace us

theorem closes_afterStatement (sofar : List Statement) (s : Statement) :
    Closes (afterStatement rules sofar s) := by
  refine ⟨[⟨.symbol .closeBrace, 0⟩], sofar ++ [s.inBlock true], fun us _ => ⟨rfl, ?_⟩⟩
  rw [afterStatement, if_pos (.inr (.inl rfl))]
  exact reader_statementsFrom_closeBrace us

/-- A choice without arms is a body that needs no nesting. -/
theorem closes_afterPattern (arms : List (Pattern × List Statement)) (head : Pattern) :
    Closes (afterPattern rules arms head) := by
  refine ⟨[⟨.symbol .arrow, 0⟩, ⟨.name "when", 0⟩, ⟨.name "y", 0⟩, ⟨.symbol .openBrace, 0⟩,
    ⟨.symbol .closeBrace, 0⟩, ⟨.symbol .closeBrace, 0⟩], arms ++ [(head, [.choose "y" []])],
    fun us _ => ⟨rfl, ?_⟩⟩
  have hchoice : Reads (statement rules)
      (⟨.name "when", 0⟩ :: ⟨.name "y", 0⟩ :: ⟨.symbol .openBrace, 0⟩ ::
        ⟨.symbol .closeBrace, 0⟩ :: ⟨.symbol .closeBrace, 0⟩ :: us)
      (.choose "y" []) (⟨.symbol .closeBrace, 0⟩ :: us) :=
    .choose reads_lastArm
  have hbody : bodyOfArm rules (⟨.name "when", 0⟩ :: ⟨.name "y", 0⟩ :: ⟨.symbol .openBrace, 0⟩ ::
      ⟨.symbol .closeBrace, 0⟩ :: ⟨.symbol .closeBrace, 0⟩ :: us) =
      (.ok (false, [.choose "y" []]), ⟨.symbol .closeBrace, 0⟩ :: us) :=
    Reader.map_of_ok (reader_of_reads hchoice)
  refine (Reader.andThen_of_ok (reader_of_ok (symbol_eq .arrow))).trans ?_
  refine (Reader.andThen_of_ok hbody).trans ?_
  rw [afterArm, if_pos (.inr (.inr rfl))]
  exact reader_armsFrom_closeBrace us

theorem exists_of_startsWith {s : Symbol} (h : startsWith s ts = true) :
    ∃ position us, ts = ⟨.symbol s, position⟩ :: us := by
  unfold startsWith at h
  split at h
  · next s' position us =>
    obtain rfl : s' = s := of_decide_eq_true h
    exact ⟨position, us, rfl⟩
  · cases h

theorem exists_openBrace {a : Unit} (h : Rule.reader (symbol .openBrace) ts = (.ok a, rest)) :
    ∃ position, ts = ⟨.symbol .openBrace, position⟩ :: rest := by
  unfold Rule.reader at h
  cases hsymbol : symbol .openBrace ts with
  | error f =>
    rw [hsymbol] at h
    cases h
  | ok p =>
    rw [hsymbol] at h
    cases h
    exact symbol_ok hsymbol

/-- Whether tokens behind others are no sign that stands behind another one. -/
def Fresh (before ts : List Lexeme) : Prop :=
  ∀ t, ts = [t] → t.token = .symbol .minus → ∀ t ∈ before.getLast?, t.token ≠ .symbol .minus

theorem fresh_of_getLast? {t : Lexeme} (h : before.getLast? = some t)
    (ht : t.token ≠ .symbol .minus) (ts : List Lexeme) : Fresh before ts := by
  intro _ _ _ t' ht'
  rw [h] at ht'
  cases ht'
  exact ht

theorem fresh_of_symbol (s : Symbol) (hs : s ≠ .minus) (position : Nat)
    (before ts : List Lexeme) : Fresh (before ++ [⟨.symbol s, position⟩]) ts :=
  fresh_of_getLast? List.getLast?_concat (fun h => hs (Token.symbol.inj h)) ts

theorem fresh_of_startsWith {s : Symbol} (hs : s ≠ .minus) (h : startsWith s ts = true)
    (before : List Lexeme) : Fresh before ts := by
  obtain ⟨position, us, rfl⟩ := exists_of_startsWith h
  rintro _ ⟨⟩ hminus
  exact absurd (Token.symbol.inj hminus) hs

namespace Rules.Decisive

theorem decides_afterWord (h : rules.Decisive) {word : String} {m : Reader Statement}
    (hm : afterWord? rules word = some m) (before ts : List Lexeme)
    (harms : ∀ before us, us.length < ts.length → Fresh before us →
      Decides (Rule.reader (armsFrom rules [])) before us) : Decides m before ts := by
  unfold afterWord? at hm
  split at hm
  · cases hm
    exact ((plain_identifier.andThen fun _ => h.assigned.map _).decides ts).elim .settled .ended
  · split at hm
    · cases hm
      exact (h.guarded before ts).andThen h.forward_guarded (fun _ => h.forward_branching _)
        (fun _ _ => closes_branching _) fun _ _ rest _ _ => h.branching _ _ rest
    · split at hm
      · cases hm
        have hforward : Forward (Rule.reader (armsFrom rules [])) := h.forward_armsFrom []
        have hmap (subject : String) :
            Forward ((Rule.reader (armsFrom rules [])).map (Statement.choose subject)) :=
          hforward.andThen fun _ => (plain_done _).forward
        refine plain_identifier.decides_andThen
          (fun _ => (plain_symbol .openBrace).forward.andThen fun _ => hmap _) ?_
        intro name subject us _ hsubject
        refine (plain_symbol .openBrace).decides_andThen (fun _ => hmap _) ?_
        intro opening _ vs hus hopening
        obtain ⟨position, hbrace⟩ := exists_openBrace hopening
        have hopen : opening = [⟨.symbol .openBrace, position⟩] :=
          List.append_cancel_right (hus.symm.trans hbrace)
        refine (harms _ vs ?_ ?_).map hforward _
        · have := length_lt_of_reader hsubject
          have := length_lt_of_reader hopening
          omega
        · rw [hopen]
          exact fresh_of_symbol .openBrace (by decide) position _ vs
      · cases hm

/-- What a word alone is does not matter where no expression is read, and elsewhere the tokens
end with it. -/
theorem decides_word (h : rules.Decisive) {word : String} (hword : afterWord? rules word = none)
    (position : Nat) (before : List Lexeme) :
    Decides (Rule.reader (statement rules)) before [⟨.name word, position⟩] := by
  have hstatement (us : List Lexeme) :
      Rule.reader (statement rules) ([⟨.name word, position⟩] ++ us) =
        (afterName? rules word us).elim
          (rules.expression.reader.map .effect (⟨.name word, position⟩ :: us)) (· us) := by
    rw [List.singleton_append, reader_statement_word, hword, Option.none_or]
  rcases h.word with hnone | halone
  · refine .hopeless fun us => ?_
    -- whatever statement it turns out to be, an expression is a part of it
    rw [hstatement]
    unfold afterName?
    split
    · next hopen =>
      obtain ⟨opening, vs, rfl⟩ := exists_of_startsWith hopen.2
      rw [Option.elim_some, Reader.andThen_of_ok (reader_of_ok (symbol_eq .openParen)),
        reader_closedBy]
      exact Reader.fst_andThen_of_error (Reader.fst_andThen_of_error (hnone vs))
    · split
      · next hassign =>
        obtain ⟨sign, vs, rfl⟩ := exists_of_startsWith hassign
        rw [Option.elim_some, reader_assigned]
        refine Reader.fst_andThen_of_error ?_
        rw [Reader.andThen_of_ok (reader_of_ok (symbol_eq .assign))]
        exact hnone vs
      · exact Reader.fst_andThen_of_error (hnone _)
  · have heffect := h.plain.expression.map Statement.effect
    have hended : (rules.expression.reader.map Statement.effect [⟨.name word, position⟩]).2 = [] :=
      (Reader.snd_map _ _ _).trans (halone word position)
    refine .ended ⟨?_, fun us => ?_⟩
    · exact (congrArg Prod.snd (hstatement [])).trans
        (by simpa [afterName?, startsWith] using hended)
    · rw [hstatement]
      cases hname : afterName? rules word us with
      | some m => exact (h.plain_of_afterName? hname).forward us
      | none =>
        rcases heffect.decides [⟨.name word, position⟩] with hsettled | hends
        · have happend := hsettled.append us
          rw [hended] at happend
          exact (congrArg Prod.snd happend).symm ▸ List.suffix_rfl
        · exact hends.later us

theorem decides_statement (h : rules.Decisive) (before ts : List Lexeme)
    (harms : ∀ before us, us.length < ts.length → Fresh before us →
      Decides (Rule.reader (armsFrom rules [])) before us) :
    Decides (Rule.reader (statement rules)) before ts := by
  have heffect := h.plain.expression.map Statement.effect
  cases ts with
  | nil => exact .ended h.forward_statement.ended_nil
  | cons t us =>
    obtain ⟨token, position⟩ := t
    cases token with
    | number =>
      refine .congr (fun vs => reader_statement_other nofun) ?_
      exact (heffect.decides _).elim .settled .ended
    | text =>
      refine .congr (fun vs => reader_statement_other nofun) ?_
      exact (heffect.decides _).elim .settled .ended
    | symbol =>
      refine .congr (fun vs => reader_statement_other nofun) ?_
      exact (heffect.decides _).elim .settled .ended
    | name word =>
      cases hword : afterWord? rules word with
      | some m =>
        have hafter := h.decides_afterWord hword (before ++ [⟨.name word, position⟩]) us
          fun before' us' hus' => harms before' us' (Nat.lt_succ_of_lt hus')
        exact hafter.cons fun vs => by rw [reader_statement_word, hword]; rfl
      | none =>
        cases us with
        | nil => exact h.decides_word hword position before
        | cons u vs =>
          cases hname : afterName? rules word (u :: vs) with
          | some m =>
            have hafter : Decides m (before ++ [⟨.name word, position⟩]) (u :: vs) :=
              ((h.plain_of_afterName? hname).decides _).elim .settled .ended
            refine hafter.cons fun ws => ?_
            rw [reader_statement_word, hword, Option.none_or, List.cons_append,
              afterName?_cons word u (vs ++ ws) vs, hname]
            rfl
          | none =>
            refine .congr (fun ws => ?_) ((heffect.decides _).elim .settled .ended)
            rw [List.cons_append, reader_statement_word, hword, Option.none_or, List.cons_append,
              afterName?_cons word u (vs ++ ws) vs, hname]
            rfl

theorem decides_bodyOfArm (h : rules.Decisive)
    (hstatement : Decides (Rule.reader (statement rules)) before ts) :
    Decides (bodyOfArm rules) before ts := by
  cases ts with
  | nil => exact .ended h.forward_bodyOfArm.ended_nil
  | cons t us =>
    have hbraced (vs : List Lexeme) :
        startsWith .openBrace (t :: us ++ vs) = startsWith .openBrace (t :: us) :=
      startsWith_cons t _ _
    cases hopen : startsWith .openBrace (t :: us) with
    | true =>
      refine .congr (fun vs => ?_) ((h.block before (t :: us)).map h.forward (true, ·))
      exact if_pos ((hbraced vs).trans hopen)
    | false =>
      refine .congr (fun vs => ?_)
        (hstatement.map h.forward_statement fun s => (false, s.asArm))
      exact if_neg (by rw [hbraced, hopen]; exact Bool.false_ne_true)

/-- A body in braces ends with one. -/
theorem closing_bodyOfArm (h : rules.Decisive) {body : List Statement}
    (hread : bodyOfArm rules ts = (.ok (true, body), rest)) :
    ∃ front t, t.token = .symbol .closeBrace ∧ ts = front ++ t :: rest := by
  unfold bodyOfArm at hread
  split at hread
  · rcases hresult : rules.block.reader ts with ⟨e | body', rest'⟩
    · rw [Reader.map_of_error hresult] at hread
      cases hread
    · rw [Reader.map_of_ok hresult] at hread
      cases hread
      exact h.closing ts _ _ hresult
  · rcases hresult : Rule.reader (statement rules) ts with ⟨e | s, rest'⟩
    · rw [Reader.map_of_error hresult] at hread
      cases hread
    · rw [Reader.map_of_ok hresult] at hread
      cases hread

theorem decides_afterArm (h : rules.Decisive) {arms : List (Pattern × List Statement)}
    {braced : Bool} (hfresh : braced = true → Fresh before ts)
    (harms : Fresh before ts → Decides (Rule.reader (armsFrom rules arms)) before ts) :
    Decides (afterArm rules arms braced) before ts := by
  cases ts with
  | nil => exact .ended (h.forward_afterArm arms braced).ended_nil
  | cons t us =>
    have hsame (s : Symbol) (vs : List Lexeme) :
        startsWith s (t :: us ++ vs) = startsWith s (t :: us) :=
      startsWith_cons t _ _
    by_cases hmore : startsWith .comma (t :: us) ∨ braced = true ∨ startsWith .closeBrace (t :: us)
    · refine .congr (fun vs => ?_) (harms ?_)
      · exact if_pos (by rwa [hsame, hsame])
      · rcases hmore with hcomma | hbraced | hclose
        · exact fresh_of_startsWith (by decide : Symbol.comma ≠ .minus) hcomma before
        · exact hfresh hbraced
        · exact fresh_of_startsWith (by decide : Symbol.closeBrace ≠ .minus) hclose before
    · refine .settled (Looks.stops (.error (some .armSeparator)) nofun fun vs => ?_).settled
      exact if_neg (by rwa [startsWith_cons t vs us, startsWith_cons t vs us])

theorem decides_afterPattern (h : rules.Decisive) {arms : List (Pattern × List Statement)}
    {head : Pattern}
    (harms : ∀ before us arms, us.length < ts.length → Fresh before us →
      Decides (Rule.reader (armsFrom rules arms)) before us) :
    Decides (afterPattern rules arms head) before ts := by
  refine (plain_symbol .arrow).decides_andThen
    (fun _ => h.forward_bodyOfArm.andThen fun body => h.forward_afterArm _ body.1) ?_
  intro first _ us _ harrow
  have hus : us.length < ts.length := length_lt_of_reader harrow
  have hstatement := h.decides_statement (before ++ first) us
    fun before vs hvs => harms before vs [] (Nat.lt_trans hvs hus)
  refine (h.decides_bodyOfArm hstatement).andThen h.forward_bodyOfArm
    (fun body => h.forward_afterArm _ body.1) (fun _ body => closes_afterArm _ body.1) ?_
  rintro second ⟨braced, body⟩ vs hvs hbody
  -- a body that tells the arms apart ends with a brace, which is no sign
  refine h.decides_afterArm (fun hbraced => ?_) (harms _ vs _ ?_)
  · obtain rfl : braced = true := hbraced
    obtain ⟨front, t, ht, hfront⟩ := h.closing_bodyOfArm hbody
    have hsecond : second = front ++ [t] := by
      refine List.append_cancel_right (hvs.symm.trans ?_)
      rw [hfront, List.append_assoc]
      rfl
    have hlast : (before ++ first ++ second).getLast? = some t := by
      rw [hsecond, ← List.append_assoc, List.getLast?_concat]
    exact fresh_of_getLast? hlast (by rw [ht]; exact nofun) vs
  · have hle := congrArg List.length hvs
    rw [List.length_append] at hle
    omega

theorem decides_armsFrom (h : rules.Decisive) (before ts : List Lexeme)
    (arms : List (Pattern × List Statement)) (hfresh : Fresh before ts) :
    Decides (Rule.reader (armsFrom rules arms)) before ts := by
  induction hlength : ts.length using Nat.strongRecOn generalizing before ts arms with
  | _ length ih =>
    rcases symbol_first_or .comma ts with ⟨position, us, rfl⟩ | hcomma
    · have hafter := ih us.length (by rw [← hlength]; exact Nat.lt_succ_self _)
        (before ++ [⟨.symbol .comma, position⟩]) us arms
        (fresh_of_symbol .comma (by decide) position before us) rfl
      exact hafter.cons fun _ => reader_armsFrom_comma _
    · rcases symbol_first_or .closeBrace ts with ⟨position, us, rfl⟩ | hclose
      · exact .settled (Looks.takes arms reader_armsFrom_closeBrace).settled
      · have harm :
            Decides ((Rule.reader pattern).andThen (afterPattern rules arms)) before ts := by
          refine (decides_pattern hfresh).andThen forward_pattern (h.forward_afterPattern arms)
            (fun _ => closes_afterPattern arms) fun front head us _ hhead => ?_
          have hus : us.length < length := hlength ▸ length_lt_of_reader hhead
          exact h.decides_afterPattern fun before vs arms hvs hfresh =>
            ih vs.length (Nat.lt_trans hvs hus) before vs arms hfresh rfl
        cases ts with
        | nil => exact .ended (h.forward_armsFrom arms).ended_nil
        | cons t us =>
          refine harm.congr fun vs => reader_armsFrom_arm ?_ ?_
          · rintro position ws ⟨⟩
            exact hcomma position us rfl
          · rintro position ws ⟨⟩
            exact hclose position us rfl

/-! ## Blocks -/

theorem statement (h : rules.Decisive) (before ts : List Lexeme) :
    Decides (Rule.reader (statement rules)) before ts :=
  h.decides_statement before ts fun before us _ hfresh => h.decides_armsFrom before us [] hfresh

theorem forward_statementsFrom (h : rules.Decisive) (sofar : List Statement) :
    Forward (Rule.reader (statementsFrom rules sofar)) := by
  intro ts
  induction hlength : ts.length using Nat.strongRecOn generalizing ts sofar with
  | _ length ih =>
    rcases symbol_first_or .semicolon ts with ⟨position, us, rfl⟩ | hsemicolon
    · rw [reader_statementsFrom_semicolon]
      refine (ih us.length ?_ sofar us rfl).trans (List.suffix_cons _ us)
      rw [← hlength, List.length_cons]
      exact Nat.lt_succ_self _
    · rcases symbol_first_or .closeBrace ts with ⟨position, us, rfl⟩ | hclose
      · rw [reader_statementsFrom_closeBrace]
        exact List.suffix_cons _ us
      · by_cases hne : ts = []
        · subst hne
          rw [Rule.reader, statementsFrom]
          exact List.suffix_rfl
        · rw [reader_statementsFrom_statement hsemicolon hclose hne]
          refine suffix_andThen (h.forward_statement ts) fun s rest hresult => ?_
          unfold afterStatement
          split
          · exact ih rest.length (hlength ▸ length_lt_of_reader hresult) _ rest rfl
          · exact List.suffix_rfl

theorem forward_afterStatement (h : rules.Decisive) (sofar : List Statement) (s : Statement) :
    Forward (afterStatement rules sofar s) := by
  intro ts
  unfold afterStatement
  split
  · exact h.forward_statementsFrom _ ts
  · exact List.suffix_rfl

theorem decides_afterStatement (h : rules.Decisive) {sofar : List Statement} {s : Statement}
    (hmore : ∀ sofar, Decides (Rule.reader (statementsFrom rules sofar)) before ts) :
    Decides (afterStatement rules sofar s) before ts := by
  cases ts with
  | nil => exact .ended (h.forward_afterStatement sofar s).ended_nil
  | cons t us =>
    have hsame (sign : Symbol) (vs : List Lexeme) :
        startsWith sign (t :: us ++ vs) = startsWith sign (t :: us) :=
      startsWith_cons t _ _
    by_cases hgoes : s.isSelfContained ∨ startsWith .closeBrace (t :: us) ∨
        startsWith .semicolon (t :: us)
    · refine .congr (fun vs => ?_)
        (hmore (sofar ++ [s.inBlock (startsWith .closeBrace (t :: us))]))
      rw [afterStatement, hsame, hsame, if_pos hgoes]
    · refine .settled (Looks.stops (.error (some .separator)) (by simp) fun vs => ?_).settled
      exact if_neg (by rwa [startsWith_cons t vs us, startsWith_cons t vs us])

theorem decides_statementsFrom (h : rules.Decisive) (before ts : List Lexeme)
    (sofar : List Statement) :
    Decides (Rule.reader (statementsFrom rules sofar)) before ts := by
  induction hlength : ts.length using Nat.strongRecOn generalizing before ts sofar with
  | _ length ih =>
    rcases symbol_first_or .semicolon ts with ⟨position, us, rfl⟩ | hsemicolon
    · have hafter := ih us.length (by rw [← hlength]; exact Nat.lt_succ_self _)
        (before ++ [⟨.symbol .semicolon, position⟩]) us sofar rfl
      exact hafter.cons fun _ => reader_statementsFrom_semicolon _
    · rcases symbol_first_or .closeBrace ts with ⟨position, us, rfl⟩ | hclose
      · exact .settled (Looks.takes sofar reader_statementsFrom_closeBrace).settled
      · have hstatement : Decides
            ((Rule.reader (Expression.statement rules)).andThen (afterStatement rules sofar))
            before ts := by
          refine (h.statement before ts).andThen h.forward_statement
            (h.forward_afterStatement sofar) (fun _ s => closes_afterStatement sofar s)
            fun front s rest _ hresult => ?_
          have hshorter : rest.length < length := hlength ▸ length_lt_of_reader hresult
          exact h.decides_afterStatement fun sofar => ih _ hshorter _ rest sofar rfl
        cases ts with
        | nil => exact .ended (h.forward_statementsFrom sofar).ended_nil
        | cons t us =>
          refine hstatement.congr fun vs => reader_statementsFrom_statement ?_ ?_ nofun
          · rintro position ws ⟨⟩
            exact hsemicolon position us rfl
          · rintro position ws ⟨⟩
            exact hclose position us rfl

/-- What is read of a block ends with its brace. -/
theorem closing_statementsFrom (h : rules.Decisive) {sofar body : List Statement}
    (hread : Rule.reader (statementsFrom rules sofar) ts = (.ok body, rest)) :
    ∃ front t, t.token = .symbol .closeBrace ∧ ts = front ++ t :: rest := by
  induction hlength : ts.length using Nat.strongRecOn generalizing ts sofar with
  | _ length ih =>
    rcases symbol_first_or .semicolon ts with ⟨position, us, rfl⟩ | hsemicolon
    · rw [reader_statementsFrom_semicolon] at hread
      obtain ⟨front, t, ht, hus⟩ := ih us.length (by rw [← hlength]; exact Nat.lt_succ_self _)
        hread rfl
      exact ⟨⟨.symbol .semicolon, position⟩ :: front, t, ht, congrArg _ hus⟩
    · rcases symbol_first_or .closeBrace ts with ⟨position, us, rfl⟩ | hclose
      · rw [reader_statementsFrom_closeBrace] at hread
        cases hread
        exact ⟨[], ⟨.symbol .closeBrace, position⟩, rfl, rfl⟩
      · by_cases hne : ts = []
        · subst hne
          rw [Rule.reader, statementsFrom] at hread
          cases hread
        · rw [reader_statementsFrom_statement hsemicolon hclose hne] at hread
          obtain ⟨s, us, hstatement, hread⟩ := Reader.exists_of_andThen_eq_ok hread
          obtain ⟨first, hfirst⟩ := h.forward_statement ts
          rw [hstatement] at hfirst
          unfold afterStatement at hread
          split at hread
          · obtain ⟨front, t, ht, hus⟩ := ih us.length
              (hlength ▸ length_lt_of_reader hstatement) hread rfl
            refine ⟨first ++ front, t, ht, ?_⟩
            rw [← hfirst, hus, List.append_assoc]
          · cases hread

theorem enter (h : rules.Decisive) : rules.enter.Decisive where
  plain := h.plain.enter
  forward := by
    show Forward (Rule.reader (Expression.block rules))
    rw [reader_block]
    exact (plain_symbol .openBrace).forward.andThen fun _ => h.forward_statementsFrom []
  block before ts := by
    show Decides (Rule.reader (Expression.block rules)) before ts
    rw [reader_block]
    exact (plain_symbol .openBrace).decides_andThen (fun _ => h.forward_statementsFrom [])
      fun _ _ rest _ _ => h.decides_statementsFrom _ rest []
  closing ts body rest hread := by
    change Rule.reader (Expression.block rules) ts = _ at hread
    rw [reader_block] at hread
    obtain ⟨_, us, hopening, hread⟩ := Reader.exists_of_andThen_eq_ok hread
    obtain ⟨position, rfl⟩ := exists_openBrace hopening
    obtain ⟨front, t, ht, rfl⟩ := h.closing_statementsFrom hread
    exact ⟨⟨.symbol .openBrace, position⟩ :: front, t, ht, rfl⟩
  word := by
    refine .inr fun name position => ?_
    show (Rule.reader rules.enter.expression _).2 = []
    rw [reader_enter_name]

end Rules.Decisive

theorem Rules.decisive_within (n : Nat) : (within n).Decisive := by
  induction n with
  | zero =>
    have hplain := plain_within 0
    refine ⟨hplain, ?_, ?_, nofun, .inl fun _ => rfl⟩
    · exact fun _ => List.suffix_rfl
    · exact fun _ _ => .hopeless fun _ => rfl
  | succ n ih => exact ih.enter

end Flipbook.Expression
