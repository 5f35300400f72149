import Flipbook.Document.Read
import Flipbook.Proofs.Document.BlockRoundTrip
import Flipbook.Proofs.Expression.Brackets
import Flipbook.Proofs.Expression.Evaluation
import Flipbook.Proofs.Expression.Lexing

/-!
# Conditions in block documents

A condition in a block document stands between parentheses, and two readers have to
agree on where it ends: the one that looks for the closing parenthesis, which knows only
texts in double quotes, and the one that reads the condition, which knows texts in
single quotes as well.

* `encloses_of_lexemes`: they agree where no text in single quotes holds a parenthesis
  or a double quote.
* `argument_of_mem_readSegments`: where a condition that has been read comes from.
* `readsCondition_iff`: a condition is read back exactly if they agree.
-/
namespace Flipbook.Document

open Expression (Lexeme Program Token lexemes openAfter readText readToken spellings)

/-! ## Tokens between parentheses -/

/-- Whether a token means the same to a reader that does not know single quotes: in
them stand no parentheses and no double quotes. -/
def Plain (token : List Char) : Prop :=
  token.head? = some '\x27' → '\x22' ∉ token ∧ '(' ∉ token ∧ ')' ∉ token

instance (token : List Char) : Decidable (Plain token) :=
  inferInstanceAs (Decidable (_ → _))

/-- A text in double quotes is passed over as the string that it is. -/
theorem after_readText {cs value taken rest : List Char}
    (h : readText '\x22' cs = some (value, taken, rest)) :
    Quoting.inside.after taken = .outside ∧ Quoting.inside.bare taken = [] := by
  fun_induction readText '\x22' cs generalizing value taken with
  | case1 => cases h
  | case2 => cases h
  | case3 c cs ih =>
    obtain ⟨⟨v, t, r⟩, hr, heq⟩ := Option.map_eq_some_iff.1 h
    cases heq
    obtain ⟨hafter, hbare⟩ := ih hr
    exact ⟨hafter, hbare⟩
  | case4 =>
    cases h
    exact ⟨rfl, rfl⟩
  | case5 c cs hend hescape hne ih =>
    obtain ⟨⟨v, t, r⟩, hr, heq⟩ := Option.map_eq_some_iff.1 h
    cases heq
    have hc : c ≠ '\\' := by
      rintro rfl
      rcases cs with - | ⟨d, cs⟩
      · exact hend rfl rfl
      · exact hescape d cs rfl rfl
    have hnext : Quoting.inside.next c = .inside := by
      rw [Quoting.next, if_neg hc, if_neg hne]
    rw [Quoting.after_cons, Quoting.bare_cons_of_not_counts (by simp [Quoting.counts]), hnext]
    exact ih hr

theorem encloses_of_not_delimiter {text : List Char}
    (h : '\x22' ∉ text ∧ '(' ∉ text ∧ ')' ∉ text) : Encloses '(' ')' .outside 0 text := by
  obtain ⟨hquote, hopening, hclosing⟩ := h
  refine encloses_of_notMem (Quoting.after_outside hquote) ?_ ?_
  · rwa [Quoting.bare_outside hquote]
  · rwa [Quoting.bare_outside hquote]

/-- A token that is no parenthesis encloses nothing. -/
theorem encloses_taken {position : Nat} {c : Char} {cs : List Char} {r : Expression.Reading}
    (h : readToken position c cs = .ok r) (hparen : r.token.isParenthesis = false)
    (hplain : Plain r.taken) : Encloses '(' ')' .outside 0 r.taken := by
  have hclass {p : Char → Bool} (hp : p '\x22' = false ∧ p '(' = false ∧ p ')' = false)
      (hall : ∀ d ∈ r.taken, p d = true) : Encloses '(' ')' .outside 0 r.taken := by
    have hnot {d : Char} (hd : p d = false) : d ∉ r.taken := by
      intro hmem
      rw [hall d hmem] at hd
      cases hd
    exact encloses_of_not_delimiter ⟨hnot hp.1, hnot hp.2.1, hnot hp.2.2⟩
  rcases Expression.readToken_cases h with
    ⟨s, htoken, htaken⟩ | ⟨value, taken, hquote, -, htaken, hread⟩ | ⟨value, -, hall⟩ |
      ⟨name, -, hall⟩
  · have hspelling : ∀ s : Expression.Symbol, s.isParenthesis = false →
        '\x22' ∉ s.spelling ∧ '(' ∉ s.spelling ∧ ')' ∉ s.spelling := by
      intro s
      cases s <;> decide
    rw [htoken] at hparen
    rw [htaken]
    exact encloses_of_not_delimiter (hspelling s hparen)
  · rcases hquote with rfl | rfl
    · obtain ⟨hafter, hbare⟩ := after_readText hread
      rw [htaken]
      have hbare' : Quoting.outside.bare ('\x22' :: taken) = [] := hbare
      refine encloses_of_notMem hafter ?_ ?_ <;> simp [hbare']
    · exact encloses_of_not_delimiter (hplain (by rw [htaken]; rfl))
  · exact hclass (by decide) hall
  · exact hclass (by decide +kernel) hall

/-- A parenthesis is written as itself. -/
theorem exists_symbol_of_isParenthesis {position : Nat} {c : Char} {cs : List Char}
    {r : Expression.Reading} (h : readToken position c cs = .ok r)
    (hparen : ¬r.token.isParenthesis = false) :
    ∃ s, r.token = .symbol s ∧ r.taken = s.spelling := by
  rcases Expression.readToken_cases h with
    hsymbol | ⟨value, taken, -, htoken, -⟩ | ⟨value, htoken, -⟩ | ⟨name, htoken, -⟩
  · exact hsymbol
  · rw [htoken] at hparen
    exact absurd rfl hparen
  · rw [htoken] at hparen
    exact absurd rfl hparen
  · rw [htoken] at hparen
    exact absurd rfl hparen

/-- A text encloses what its tokens enclose, if these are plain. -/
theorem encloses_of_lexemes {position depth : Nat} {cs : List Char} {ts : List Lexeme}
    (h : lexemes position cs = .ok ts) (hplain : ∀ token ∈ spellings cs, Plain token)
    (hdepth : openAfter depth ts = some 0) : Encloses '(' ')' .outside depth cs := by
  induction hlength : cs.length using Nat.strongRecOn generalizing cs position depth ts with
  | _ length ih =>
    rcases cs with - | ⟨c, cs⟩
    · rw [lexemes] at h
      cases h
      cases hdepth
      exact encloses_nil_iff.2 ⟨rfl, rfl⟩
    by_cases hc : Text.isBlank c = true
    · rw [Expression.lexemes_cons_blank hc] at h
      rw [Expression.spellings_cons_blank hc] at hplain
      have hblank {d : Char} (hd : Text.isBlank d = false) : c ≠ d := Expression.ne_of_isBlank hc hd
      have hfirst : Encloses '(' ')' .outside 0 [c] := encloses_of_not_delimiter
        ⟨by simpa using (hblank (by decide)).symm, by simpa using (hblank (by decide)).symm,
          by simpa using (hblank (by decide)).symm⟩
      have hrest := hfirst.append (ih cs.length (by rw [← hlength]; simp) h hplain hdepth rfl)
      rwa [Nat.zero_add] at hrest
    rw [Bool.not_eq_true] at hc
    obtain ⟨r, us, hread, hrest, rfl⟩ := (Expression.lexemes_cons_iff hc).1 h
    rw [Expression.spellings_cons hc hread] at hplain
    obtain ⟨hfirst, hlater⟩ := List.forall_mem_cons.1 hplain
    obtain ⟨htext, -⟩ := Expression.eq_append_of_readToken hread
    have hshorter : r.rest.length < length := hlength ▸ Expression.length_rest_of_readToken hread
    have hbehind {depth : Nat} (hdepth : openAfter depth us = some 0) :
        Encloses '(' ')' .outside depth r.rest := ih _ hshorter hrest hlater hdepth rfl
    rw [htext]
    by_cases hparen : r.token.isParenthesis = false
    · have henclosed := (encloses_taken hread hparen hfirst).append
        (hbehind ((Expression.Level.token hparen position us depth).symm.trans hdepth))
      rwa [Nat.zero_add] at henclosed
    · obtain ⟨s, htoken, htaken⟩ := exists_symbol_of_isParenthesis hread hparen
      rw [htoken] at hparen hdepth
      rw [htaken]
      cases s with
      | openParen => exact (encloses_cons_iff (by decide)).2 ⟨depth + 1, rfl, hbehind hdepth⟩
      | closeParen =>
        cases depth with
        | zero => cases hdepth
        | succ depth => exact (encloses_cons_iff (by decide)).2 ⟨depth, rfl, hbehind hdepth⟩
      | _ => exact absurd rfl hparen

/-! ## Reading correctors -/

open Text (Remainder)

/-- A corrector is a name with its argument in parentheses. -/
theorem corrector_ok {position : Nat} {text : List Char} {c : Corrector}
    {r : Remainder position text} (h : corrector position text = .ok (c, r)) :
    ∃ head, text = head ++ '(' :: (c.argument ++ ')' :: r.rest.1) ∧
      Encloses '(' ')' .outside 0 c.argument := by
  unfold corrector at h
  split at h
  · next name body hcut =>
    split at h
    · next argument rest hbalanced =>
      cases h
      obtain ⟨hbody, hencloses⟩ := balanced_parentheses.1 hbalanced
      exact ⟨name, (Text.eq_of_cut hcut).1.trans (congrArg (name ++ '(' :: ·) hbody), hencloses⟩
    · cases h
  · cases h

/-- Whether an argument stands in parentheses somewhere in a text. -/
def Holds (text argument : List Char) : Prop :=
  ∃ head rest, text = head ++ '(' :: (argument ++ ')' :: rest) ∧
    Encloses '(' ')' .outside 0 argument

theorem Holds.of_suffix {part text argument : List Char} (h : Holds part argument)
    (hpart : part <:+ text) : Holds text argument := by
  obtain ⟨head, rest, rfl, hencloses⟩ := h
  obtain ⟨front, rfl⟩ := hpart
  exact ⟨front ++ head, rest, (List.append_assoc _ _ _).symm, hencloses⟩

theorem optionalCorrector_ok {position : Nat} {text : List Char} {found : Option Corrector}
    {r : Remainder position text} (h : optionalCorrector position text = .ok (found, r)) :
    r.rest.1 <:+ text ∧ ∀ c ∈ found, Holds text c.argument := by
  unfold optionalCorrector at h
  split at h
  · next body =>
    obtain ⟨⟨c, behind⟩, hcorrector, h⟩ := Expression.bind_ok h
    cases h
    obtain ⟨head, hbody, hencloses⟩ := corrector_ok hcorrector
    have hbehind : behind.rest.1 <:+ '@' :: body :=
      ⟨'@' :: (head ++ '(' :: (c.argument ++ [')'])),
        Eq.trans (by simp) (congrArg ('@' :: ·) hbody).symm⟩
    refine ⟨(List.dropWhile_suffix _).trans hbehind, ?_⟩
    rintro c ⟨⟩
    exact ⟨'@' :: head, behind.rest.1, congrArg ('@' :: ·) hbody, hencloses⟩
  · cases h
    exact ⟨List.suffix_rfl, nofun⟩

theorem propertyBraces_ok {position : Nat} {text properties : List Char}
    {r : Remainder position text} (h : propertyBraces position text = .ok (properties, r)) :
    r.rest.1 <:+ text := by
  unfold propertyBraces at h
  split at h
  · next body =>
    split at h
    · next rest hbalanced =>
      cases h
      exact ⟨'\x7b' :: (properties ++ ['\x7d']), Eq.trans (by simp [Remainder.behind])
        (congrArg ('\x7b' :: ·) (eq_of_balanced hbalanced)).symm⟩
    · cases h
  · cases h

theorem behindKind_suffix (position : Nat) (text : List Char) :
    (behindKind position text).rest.1 <:+ text :=
  (List.dropWhile_suffix _).trans (List.dropWhile_suffix _)

/-- A declaration leaves the end of the text, and its corrector stands in it. -/
theorem declaration_ok {position : Nat} {text : List Char} {d : Declaration}
    {r : Remainder position text} (h : declaration position text = .ok (d, r)) :
    r.rest.1 <:+ text ∧ ∀ c ∈ d.corrector, Holds text c.argument := by
  obtain ⟨kind, -, h⟩ := Expression.bind_ok h
  obtain ⟨⟨found, behind⟩, hcorrector, h⟩ := Expression.bind_ok h
  obtain ⟨⟨properties, later⟩, hproperties, h⟩ := Expression.bind_ok h
  cases h
  have hhead := behindKind_suffix position text
  obtain ⟨hbehind, hfound⟩ := optionalCorrector_ok hcorrector
  exact ⟨(propertyBraces_ok hproperties).trans (hbehind.trans hhead),
    fun c hc => (hfound c hc).of_suffix hhead⟩

/-! ## Reading conditions -/

variable {config : Config} {texture : Texture}

theorem Corrector.condition_trigger {name : String} {random : Expression.Random} {c : Corrector}
    {condition : Expression.Condition}
    (h : (c.trigger name random).value.condition = some condition) :
    condition =
      (Expression.Condition.read (String.ofList (Text.trim c.argument)) random).value := by
  unfold Corrector.trigger at h
  split at h
  · cases h
  · split at h
    · exact (Option.some.inj h).symm
    · cases h

/-- The condition of a segment is what stands in the parentheses of its corrector. -/
theorem condition_of_segment {d : Declaration} {index : Nat} {s : Segment}
    (h : (d.segment config index).outcome.value = .ok s) {trigger : Trigger}
    (htrigger : s.kind.trigger? = some trigger) {condition : Expression.Condition}
    (hcondition : trigger.condition = some condition) :
    ∃ c ∈ d.corrector, condition = (Expression.Condition.read
      (String.ofList (Text.trim c.argument)) (config.random index)).value := by
  obtain ⟨declared, hdeclared, h⟩ := Reading.outcome_bind_eq_ok_iff.1 h
  rw [Reading.outcome_ofNoted] at hdeclared
  have hcorrector (hsame : declared = trigger) : ∃ c ∈ d.corrector, condition =
      (Expression.Condition.read (String.ofList (Text.trim c.argument))
        (config.random index)).value := by
    subst hsame
    cases hfound : d.corrector with
    | none =>
      rw [hfound] at hdeclared
      cases hdeclared
      cases hcondition
    | some c =>
      rw [hfound] at hdeclared
      cases hdeclared
      exact ⟨c, rfl, c.condition_trigger hcondition⟩
  dsimp only at h
  cases hkind : d.kind with
  | fallback =>
    rw [hkind] at h
    cases h
    cases htrigger
  | singleFrame =>
    rw [hkind] at h
    cases h
    exact hcorrector (Option.some.inj htrigger)
  | sequence =>
    rw [hkind] at h
    obtain ⟨range, -, h⟩ := Reading.outcome_bind_eq_ok_iff.1 h
    cases h
    exact hcorrector (Option.some.inj htrigger)
  | oneShot =>
    rw [hkind] at h
    obtain ⟨range, -, h⟩ := Reading.outcome_bind_eq_ok_iff.1 h
    cases h
    exact hcorrector (Option.some.inj htrigger)

/-- What is left behind a marker is the end of the text, and a segment comes from the
declaration there. -/
theorem readSegment_cases (config : Config) (texture : Texture) (index position : Nat)
    (text : List Char) :
    (readSegment config texture index position text).value.remainder.rest.1 <:+ text ∧
      ∀ s, (readSegment config texture index position text).value.segment = some s →
        ∃ d r, declaration (behindMarker position) text = .ok (d, r) ∧
          (d.segment config index).outcome.value = .ok s := by
  unfold readSegment
  dsimp only
  rw [Noted.value_bind]
  split
  · next segment remainder hread =>
    obtain ⟨⟨d, behind⟩, hdeclaration, hread⟩ := Reading.outcome_bind_eq_ok_iff.1 hread
    obtain ⟨s, hsegment, hread⟩ := Reading.outcome_bind_eq_ok_iff.1 hread
    cases hread
    refine ⟨(declaration_ok hdeclaration).1, ?_⟩
    rintro s ⟨⟩
    exact ⟨d, behind, hdeclaration, hsegment⟩
  · exact ⟨List.suffix_rfl, nofun⟩

/-- Every condition that is read stands in parentheses in the list of segments. -/
theorem argument_of_mem_readSegments {index position : Nat} {text : List Char} :
    ∀ s ∈ (readSegments config texture index position text).value,
      ∀ trigger condition, s.kind.trigger? = some trigger → trigger.condition = some condition →
        ∃ argument random, Holds text argument ∧ condition =
          (Expression.Condition.read (String.ofList (Text.trim argument)) random).value := by
  induction hlength : text.length using Nat.strongRecOn generalizing index position text with
  | _ length ih =>
    intro s hs trigger condition htrigger hcondition
    unfold readSegments at hs
    split at hs
    · cases hs
    · next left right hbreak =>
      have hright : right.drop segmentMarker.length <:+ text := by
        rw [(Text.eq_of_breakOn hbreak).1]
        exact (List.drop_suffix _ _).trans (List.suffix_append _ _)
      obtain ⟨hrest, hread⟩ := readSegment_cases config texture index
        (position + Text.byteSize left) (right.drop segmentMarker.length)
      rcases List.mem_append.1 hs with hs | hs
      · obtain ⟨d, r, hdeclaration, hsegment⟩ := hread s (Option.mem_toList.1 hs)
        obtain ⟨c, hc, hsource⟩ := condition_of_segment hsegment htrigger hcondition
        exact ⟨c.argument, _, ((declaration_ok hdeclaration).2 c hc).of_suffix hright, hsource⟩
      · have hshorter : (readSegment config texture index (position + Text.byteSize left)
            (right.drop segmentMarker.length)).value.remainder.rest.1.length < length := by
          rw [← hlength]
          exact SegmentStep.length_rest_lt _ (length_drop_marker_lt hbreak)
        obtain ⟨argument, random, hholds, hsource⟩ :=
          ih _ hshorter rfl s hs trigger condition htrigger hcondition
        exact ⟨argument, random, hholds.of_suffix (hrest.trans hright), hsource⟩

/-! ## Documents of one condition -/

/-- The declaration of a segment that shows frame one while a condition holds. -/
def conditionDeclaration (source : List Char) : Declaration :=
  ⟨.singleFrame, some ⟨"expression".toList, source⟩, " frame_index = 1 ".toList⟩

/-- A block document with that declaration only. -/
def conditionDocument (source : String) : List Char := (conditionDeclaration source.toList).text

/-- What stands before the condition in its document. -/
def beforeCondition : List Char := "segment!SINGLE_FRAME @expression".toList

/-- What stands behind the condition and the parenthesis that closes it. -/
def behindCondition : List Char := " \x7b frame_index = 1 \x7d".toList

theorem conditionDocument_eq (source : String) :
    conditionDocument source =
      beforeCondition ++ '(' :: (source.toList ++ ')' :: behindCondition) := by
  have hbefore : beforeCondition = segmentMarker ++ (BlockKind.singleFrame.capitals ++
      ' ' :: '@' :: "expression".toList) := by
    decide
  have hbehind : behindCondition = ' ' :: '\x7b' :: (" frame_index = 1 ".toList ++ ['\x7d']) := by
    decide
  rw [hbefore, hbehind]
  simp [conditionDocument, conditionDeclaration, Declaration.text, Declaration.body,
    Corrector.text]

/-- Whether a document is read to one segment, which shows frame one while a condition
holds. -/
def ReadsCondition (config : Config) (texture : Texture) (document : List Char)
    (condition : Expression.Condition) : Prop :=
  ∃ m s, (read config texture document).outcome.value = .ok m ∧ m.segments = [s] ∧
    s.kind = .singleFrame 1 (.ofCondition condition)

theorem formatOf_conditionDocument (source : String) :
    formatOf (conditionDocument source) = .block := by
  have hdocument : conditionDocument source =
      segmentMarker ++ (conditionDeclaration source.toList).body := rfl
  obtain ⟨more, lines, hlines⟩ := exists_codeLines_marker (conditionDeclaration source.toList).body
  have hmarker : Text.trimStart (segmentMarker ++ more) = segmentMarker ++ more := rfl
  have hopening : ¬(Text.trimStart (conditionDocument source)).head? = some '\x7b' := by
    rw [hdocument]
    exact nofun
  have hfound : Text.occursIn segmentMarker (segmentMarker ++ more) = true := by
    rw [Text.occursIn, Text.breakOn_word]
    rfl
  rw [formatOf, if_neg hopening, hdocument, hlines, List.map_cons, hmarker]
  dsimp only
  rw [List.any_cons, hfound, Bool.true_or]
  rfl

/-- The whole document is the list of segments. -/
theorem layout_conditionDocument (source : String) :
    Layout.of (conditionDocument source) = .ok ⟨[], 0, conditionDocument source⟩ := by
  have hbreak : Text.breakOn segmentMarker (conditionDocument source) =
      some ([], conditionDocument source) :=
    Text.breakOn_word segmentMarker (conditionDeclaration source.toList).body
  unfold Layout.of
  rw [hbreak]
  dsimp only
  split
  · exact if_neg (Nat.not_lt_zero _)
  · rfl

theorem outcome_segment_conditionDeclaration (config : Config) (source : List Char) (index : Nat) :
    ∃ s, ((conditionDeclaration source).segment config index).outcome.value = .ok s ∧
      s.kind = .singleFrame 1 (.ofCondition (Expression.Condition.read
        (String.ofList (Text.trim source)) (config.random index)).value) := by
  have hframe : blockValue (blockProperties (conditionDeclaration source).properties)
      Decimal.frame? "frame_index" = some 1 := by
    show blockValue (blockProperties " frame_index = 1 ".toList) Decimal.frame? "frame_index" =
      some 1
    decide +kernel
  unfold Declaration.segment
  dsimp only
  rw [hframe]
  exact ⟨_, rfl, rfl⟩

/-- A condition that ends with its parentheses is the trigger of the only segment. -/
theorem readsCondition_of_encloses (config : Config) (texture : Texture) {source : String}
    (h : Encloses '(' ')' .outside 0 source.toList) :
    ReadsCondition config texture (conditionDocument source) (Expression.Condition.read
      (String.ofList (Text.trim source.toList)) (config.random 0)).value := by
  have hname : Decimal.IsWord "expression".toList := List.all_eq_true.1 (by decide)
  have hreadable : ∀ c ∈ (conditionDeclaration source.toList).corrector, c.Readable := by
    rintro c ⟨⟩
    exact ⟨hname, h⟩
  have hbraces : Encloses '\x7b' '\x7d' .outside 0 " frame_index = 1 ".toList :=
    encloses_of_notMem (by decide) (by decide) (by decide)
  obtain ⟨s, hsegment, hkind⟩ := outcome_segment_conditionDeclaration config source.toList 0
  have hsegments : (readSegments config texture 0 0 (conditionDocument source)).value = [s] := by
    have hbreak := Text.breakOn_word segmentMarker (conditionDeclaration source.toList).body
    unfold readSegments
    split
    · next hnone => cases hbreak.symm.trans hnone
    · next left right hfound =>
      cases hbreak.symm.trans hfound
      obtain ⟨hread, hrest⟩ : _ ∧ _ = ([] : List Char) :=
        value_readSegment_body hreadable hbraces hsegment (0 + Text.byteSize [])
          ((List.drop_left' rfl).trans (List.append_nil _).symm)
      dsimp only
      rw [hread, hrest, readSegments]
      rfl
  have hfallback : s.isFallback = false := by
    rw [Segment.isFallback, hkind]
  have hfallbacks (header : Header) : Metadata.fallbacks ⟨header, [s]⟩ ≤ 1 := by
    simp [Metadata.fallbacks, hfallback]
  have hread : ∃ m, (readBlock config texture (conditionDocument source)).outcome.value = .ok m ∧
      m.segments = [s] := by
    unfold readBlock
    exact ⟨_, Reading.outcome_bind_eq_ok_iff.2
      ⟨_, (Reading.outcome_ofExcept _).trans (layout_conditionDocument source),
        Reading.outcome_bind_eq_ok_iff.2 ⟨[s], congrArg Except.ok hsegments,
          Reading.outcome_bind_eq_ok_iff.2 ⟨_, rfl,
            validated_eq_ok_iff.2 ⟨rfl, List.cons_ne_nil _ _, hfallbacks _⟩⟩⟩⟩, rfl⟩
  obtain ⟨m, hm, hsegment⟩ := hread
  refine ⟨m, s, ?_, hsegment, hkind⟩
  rw [outcome_read, formatOf_conditionDocument]
  exact hm

/-- Between parentheses, no text but the whole one has all that is not blank in it. -/
theorem eq_of_trim_eq {source argument left right : List Char}
    (h : '(' :: (source ++ [')']) = left ++ ('(' :: (argument ++ [')']) ++ right))
    (htrim : Text.trim argument = Text.trim source) : argument = source := by
  have hcount : argument.countP (!Text.isBlank ·) = source.countP (!Text.isBlank ·) := by
    have hboth := congrArg (List.countP (!Text.isBlank ·)) htrim
    rwa [Text.trim, Text.trim, Text.countP_stripWhile, Text.countP_stripWhile] at hboth
  have hall := congrArg (List.countP (!Text.isBlank ·)) h
  simp only [List.countP_append, List.countP_cons, List.countP_nil, hcount] at hall
  have hleft : ∀ c ∈ left, ¬(!Text.isBlank c) = true := List.countP_eq_zero.1 (by omega)
  have hright : ∀ c ∈ right, ¬(!Text.isBlank c) = true := List.countP_eq_zero.1 (by omega)
  obtain rfl : left = [] := by
    cases left with
    | nil => rfl
    | cons c left =>
      obtain rfl : '(' = c := (List.cons.inj h).1
      exact absurd (by decide) (hleft '(' List.mem_cons_self)
  obtain rfl : right = [] := by
    rcases List.eq_nil_or_concat right with rfl | ⟨front, c, rfl⟩
    · rfl
    · have hlast := congrArg (List.head? ∘ List.reverse) h
      obtain rfl : ')' = c := by simpa using hlast
      exact absurd (by decide) (hright ')' (by simp))
  simpa using h.symm

/-- Where a condition stands that is read back. -/
theorem argument_eq_source {source : String} {argument : List Char}
    (h : Holds (conditionDocument source) argument)
    (htrim : Text.trim argument = Text.trim source.toList) :
    argument = source.toList ∧ Encloses '(' ')' .outside 0 argument := by
  obtain ⟨head, rest, htext, hencloses⟩ := h
  rw [conditionDocument_eq] at htext
  obtain ⟨left, rfl, hbehind⟩ := Text.exists_eq_append_of_notMem (by decide) htext
  have hreversed : behindCondition.reverse ++ ')' :: ('(' :: source.toList).reverse =
      rest.reverse ++ ')' :: (left ++ '(' :: argument).reverse := by
    simpa using congrArg List.reverse hbehind
  have hnone : ')' ∉ behindCondition.reverse := by decide
  obtain ⟨right, hrest, hbetween⟩ := Text.exists_eq_append_of_notMem hnone hreversed
  have hparts : '(' :: (source.toList ++ [')']) =
      left ++ ('(' :: (argument ++ [')']) ++ right.reverse) := by
    simpa using congrArg List.reverse hbetween
  exact ⟨eq_of_trim_eq hparts htrim, hencloses⟩

/-- A condition that is read back ends with its parentheses. -/
theorem encloses_of_readsCondition {source : String} {condition : Expression.Condition}
    (h : ReadsCondition config texture (conditionDocument source) condition)
    (hsource : condition.source = String.ofList (Text.trim source.toList)) :
    Encloses '(' ')' .outside 0 source.toList ∧ ∃ random, condition =
      (Expression.Condition.read (String.ofList (Text.trim source.toList)) random).value := by
  obtain ⟨m, s, hread, hsegments, hkind⟩ := h
  rw [outcome_read, formatOf_conditionDocument] at hread
  obtain ⟨layout, hlayout, hread⟩ := Reading.outcome_bind_eq_ok_iff.1 hread
  rw [Reading.outcome_ofExcept, layout_conditionDocument] at hlayout
  cases hlayout
  obtain ⟨segments, hlist, hread⟩ := Reading.outcome_bind_eq_ok_iff.1 hread
  cases hlist
  obtain ⟨header, -, hread⟩ := Reading.outcome_bind_eq_ok_iff.1 hread
  obtain ⟨rfl, -, -⟩ := validated_eq_ok_iff.1 hread
  have hlist : (readSegments config texture 0 0 (conditionDocument source)).value = [s] := hsegments
  have hmem : s ∈ (readSegments config texture 0 0 (conditionDocument source)).value := by
    rw [hlist]
    exact List.mem_cons_self
  have htrigger : s.kind.trigger? = some (.ofCondition condition) := by
    rw [hkind]
    rfl
  obtain ⟨argument, random, hholds, rfl⟩ :=
    argument_of_mem_readSegments s hmem _ condition htrigger rfl
  rw [Expression.Condition.source_read] at hsource
  have htrim : Text.trim argument = Text.trim source.toList := String.ofList_inj.1 hsource
  obtain ⟨rfl, hencloses⟩ := argument_eq_source hholds htrim
  exact ⟨hencloses, random, rfl⟩

/-- Reading a source that can be read gives its program. -/
theorem read_trim {source : String} {program : Program}
    (h : Expression.parse source = .ok program) (random : Expression.Random) :
    (Expression.Condition.read (String.ofList (Text.trim source.toList)) random).value =
      (Expression.Condition.build source (some program) random).withSource
        (String.ofList (Text.trim source.toList)) := by
  unfold Expression.Condition.read Expression.Condition.parse
  rw [Expression.parse_trim h]
  rfl

/-- A source that can be read is the condition of its document exactly if its parentheses
are balanced outside texts in double quotes, and they are if there is none of these
characters in single quotes. The condition is valid then, and every evaluation has the
result that it has for the source itself with the same random numbers. -/
theorem readsCondition_iff (config : Config) (texture : Texture) (source : String)
    (program : Program) (h : Expression.parse source = .ok program) :
    ((∃ condition, ReadsCondition config texture (conditionDocument source) condition ∧
        condition.source = String.ofList (Text.trim source.toList)) ↔
      Encloses '(' ')' .outside 0 source.toList) ∧
    ((∀ token ∈ spellings source.toList, Plain token) → Encloses '(' ')' .outside 0 source.toList) ∧
    ∀ condition, ReadsCondition config texture (conditionDocument source) condition →
      condition.source = String.ofList (Text.trim source.toList) →
      condition.isValid = true ∧ condition.program = some program ∧
        ∀ (σ : Type) (game : Game σ) (s : σ) (scopes : List Expression.Scope),
          condition.results game s scopes =
            (Expression.Condition.build source (some program) condition.memory.random).results
              game s scopes := by
  refine ⟨⟨?_, ?_⟩, ?_, ?_⟩
  · rintro ⟨condition, hreads, hsource⟩
    exact (encloses_of_readsCondition hreads hsource).1
  · intro hencloses
    exact ⟨_, readsCondition_of_encloses config texture hencloses,
      Expression.Condition.source_read _ _⟩
  · intro hplain
    obtain ⟨ts, hlexemes, hparse⟩ := Expression.parse_ok_iff.1 h
    exact encloses_of_lexemes hlexemes hplain (Expression.openAfter_of_parseTokens hparse)
  · intro condition hreads hsource
    obtain ⟨-, random, rfl⟩ := encloses_of_readsCondition hreads hsource
    rw [read_trim h]
    exact ⟨rfl, rfl, fun σ game s scopes =>
      Expression.Condition.results_withSource _ _ game s scopes⟩

/-- A condition with a parenthesis in double quotes. -/
def quotedParenthesis : String := " near(\x22)\x22) && x == 'b' "

/-- Blanks around the condition are dropped, and its parentheses are told apart. -/
theorem readsCondition_iff_quotedParenthesis :
    ∃ program, Expression.parse quotedParenthesis = .ok program ∧
      ∃ condition, ReadsCondition .standard ⟨"minecraft", "item/clock"⟩
          (conditionDocument quotedParenthesis) condition ∧
        condition.source = "near(\x22)\x22) && x == 'b'" ∧ condition.isValid = true ∧
        condition.program = some program := by
  have hparse : (Expression.parse quotedParenthesis).isOk = true := by decide +kernel
  cases hprogram : Expression.parse quotedParenthesis with
  | error e =>
    rw [hprogram] at hparse
    cases hparse
  | ok program =>
    obtain ⟨hiff, hplain, hvalid⟩ :=
      readsCondition_iff .standard ⟨"minecraft", "item/clock"⟩ quotedParenthesis program hprogram
    obtain ⟨condition, hreads, hsource⟩ := hiff.2 (hplain (by decide +kernel))
    obtain ⟨hsome, hsame, -⟩ := hvalid condition hreads hsource
    have htrim : String.ofList (Text.trim quotedParenthesis.toList) =
        "near(\x22)\x22) && x == 'b'" := by
      decide
    exact ⟨program, rfl, condition, hreads, hsource.trans htrim, hsome, hsame⟩

/-- A text in single quotes ends at the parenthesis in it. -/
theorem not_forall_readsCondition :
    ¬∀ (source : String) (program : Program), Expression.parse source = .ok program →
      ∃ condition, ReadsCondition .standard ⟨"minecraft", "item/clock"⟩
          (conditionDocument source) condition ∧
        condition.source = String.ofList (Text.trim source.toList) := by
  intro hall
  have hparse : (Expression.parse "x == ')'").isOk = true := by decide +kernel
  cases hprogram : Expression.parse "x == ')'" with
  | error e =>
    rw [hprogram] at hparse
    cases hparse
  | ok program =>
    obtain ⟨condition, hreads, hsource⟩ := hall _ program hprogram
    have hencloses := (encloses_of_readsCondition hreads hsource).1
    have hbalanced : balanced '(' ')' ("x == ')'".toList ++ ')' :: []) =
        some ("x == ')'".toList, []) :=
      balanced_parentheses.2 ⟨rfl, hencloses⟩
    have hearly : balanced '(' ')' ("x == ')'".toList ++ ')' :: []) =
        some ("x == '".toList, "')".toList) := by
      decide
    cases hearly.symm.trans hbalanced

end Flipbook.Document
