import Mathlib.Data.List.TakeWhile
import Flipbook.Proofs.Expression.Lexing

/-!
# The lexical grammar

A condition is white space with tokens in it, each of them as long as it can be. The grammar
says how tokens are written (`Token.Spelled`) and where they end (`Token.EndsBefore`), and
nothing about how they are found.

* `readToken_ok_iff`: the token that a text starts with.
* `lexemes_ok_iff`: the tokens of a text, and the bytes at which they start.
* `tokenize_words`: a text has tokens exactly if it is made of them, and what is written
  with white space between tokens is read back.
-/
namespace Flipbook.Expression

variable {c : Char} {cs rest : List Char}

/-! ## Quoted texts -/

/-- `Quotes quote value written` says that between two quotes `written` stands for `value`: a
backslash stands for the character behind it, and any other character for itself, but for
the quote. -/
inductive Quotes (quote : Char) : List Char → List Char → Prop where
  | nil : Quotes quote [] []
  | plain {c : Char} {value written : List Char} (hquote : c ≠ quote) (hescape : c ≠ '\\')
    (h : Quotes quote value written) : Quotes quote (c :: value) (c :: written)
  | escaped (c : Char) {value written : List Char} (h : Quotes quote value written) :
    Quotes quote (c :: value) ('\\' :: c :: written)

/-- A quoted text runs to the first quote that is not escaped. -/
theorem readText_eq_some_iff {quote : Char} (hquote : quote ≠ '\\')
    {value taken : List Char} :
    readText quote cs = some (value, taken, rest) ↔
      ∃ written, Quotes quote value written ∧ taken = written ++ [quote] ∧ cs = taken ++ rest := by
  constructor
  · intro h
    have happend := eq_append_of_readText h
    suffices ∃ written, Quotes quote value written ∧ taken = written ++ [quote] by
      obtain ⟨written, hquotes, htaken⟩ := this
      exact ⟨written, hquotes, htaken, happend⟩
    clear happend
    fun_induction readText quote cs generalizing value taken with
    | case1 => cases h
    | case2 => cases h
    | case3 c cs ih =>
      obtain ⟨⟨v, t, r⟩, hr, heq⟩ := Option.map_eq_some_iff.1 h
      cases heq
      obtain ⟨written, hquotes, rfl⟩ := ih hr
      exact ⟨'\\' :: c :: written, hquotes.escaped c, rfl⟩
    | case4 =>
      cases h
      exact ⟨[], .nil, rfl⟩
    | case5 c cs hend hescape hne ih =>
      have hc : c ≠ '\\' := by
        rintro rfl
        rcases cs with - | ⟨d, cs⟩
        · exact hend rfl rfl
        · exact hescape d cs rfl rfl
      obtain ⟨⟨v, t, r⟩, hr, heq⟩ := Option.map_eq_some_iff.1 h
      cases heq
      obtain ⟨written, hquotes, rfl⟩ := ih hr
      exact ⟨c :: written, hquotes.plain hne hc, rfl⟩
  · rintro ⟨written, hquotes, rfl, rfl⟩
    induction hquotes with
    | nil =>
      rw [List.nil_append, List.singleton_append, readText_cons hquote, if_pos rfl]
    | plain hne hescape _ ih =>
      rw [List.cons_append, List.cons_append, readText_cons hescape, if_neg hne, ih]
      rfl
    | escaped c _ ih =>
      rw [List.cons_append, List.cons_append, List.cons_append, List.cons_append, readText, ih]
      rfl

/-- A text between quotes, with a backslash before the marked characters. -/
def quotedWith (quote : Char) (marked : Char → Bool) (value : List Char) : List Char :=
  quote :: ((value.flatMap fun c => if marked c then ['\\', c] else [c]) ++ [quote])

/-- Whatever else is escaped, quotes and backslashes have to be. -/
theorem quotes_marked {quote : Char} {marked : Char → Bool} (hquote : marked quote = true)
    (hescape : marked '\\' = true) (value : List Char) :
    Quotes quote value (value.flatMap fun c => if marked c then ['\\', c] else [c]) := by
  induction value with
  | nil => exact .nil
  | cons c value ih =>
    rw [List.flatMap_cons]
    by_cases hc : marked c = true
    · rw [if_pos hc]
      exact ih.escaped c
    · rw [if_neg hc]
      refine ih.plain ?_ ?_
      · rintro rfl
        exact hc hquote
      · rintro rfl
        exact hc hescape

/-! ## Symbols -/

theorem Symbol.length_spelling_le (s : Symbol) : s.spelling.length ≤ 2 := by
  cases s <;> decide

theorem Symbol.ofPair?_of_spelling {s : Symbol} {d : Char} (h : s.spelling = [c, d]) :
    ofPair? c d = some s := by
  cases s <;> cases h <;> rfl

theorem Symbol.ofChar?_of_spelling {s : Symbol} (h : s.spelling = [c]) : ofChar? c = some s := by
  cases s <;> cases h <;> rfl

/-- Of the symbols that a text starts with the longest is read. -/
theorem Symbol.read?_eq_some_iff {s : Symbol} :
    read? cs = some (s, rest) ↔ cs = s.spelling ++ rest ∧
      ∀ longer : Symbol, longer.spelling <+: cs →
        longer.spelling.length ≤ s.spelling.length := by
  constructor
  · intro h
    refine ⟨eq_append_of_read? h, fun longer hlonger => ?_⟩
    have hpos := List.length_pos_iff.2 s.spelling_ne_nil
    obtain ⟨later, rfl⟩ := hlonger
    rcases hspelling : longer.spelling with - | ⟨c, - | ⟨d, - | ⟨e, more⟩⟩⟩
    · exact Nat.zero_le _
    · exact hpos
    · -- the two characters are read together
      rw [hspelling, List.cons_append, List.cons_append, List.nil_append, read?,
        ofPair?_of_spelling hspelling] at h
      cases h
      exact Nat.le_of_eq (congrArg List.length hspelling.symm)
    · have htwo := longer.length_spelling_le
      rw [hspelling] at htwo
      simp at htwo
  · rintro ⟨rfl, hlongest⟩
    have htwo := s.length_spelling_le
    rcases hs : s.spelling with - | ⟨c, - | ⟨d, - | ⟨e, more⟩⟩⟩
    · exact absurd hs s.spelling_ne_nil
    · rw [hs] at hlongest
      rcases rest with - | ⟨d, rest⟩
      · rw [List.append_nil, read?, ofChar?_of_spelling hs]
        rfl
      · rw [List.singleton_append, read?]
        cases hpair : ofPair? c d with
        | some longer =>
          have hlonger := ofPair?_eq_some hpair
          have hle := hlongest longer ⟨rest, by rw [hlonger]; rfl⟩
          rw [hlonger] at hle
          exact absurd hle (by simp)
        | none =>
          rw [ofChar?_of_spelling hs]
          rfl
    · rw [List.cons_append, List.cons_append, List.nil_append, read?, ofPair?_of_spelling hs]
    · rw [hs] at htwo
      simp at htwo

/-! ## How tokens start -/

/-- No symbol is read at a character with which none starts. -/
theorem Symbol.read?_eq_none {p : Char → Bool}
    (hp : ∀ s : Symbol, ∀ d ∈ s.spelling.head?, p d = false) (hc : p c = true) (cs : List Char) :
    read? (c :: cs) = none := by
  cases hread : read? (c :: cs) with
  | none => rfl
  | some found =>
    obtain ⟨s, rest⟩ := found
    have happend := eq_append_of_read? hread
    have hhead : c ∈ s.spelling.head? := by
      cases hspelling : s.spelling with
      | nil => exact absurd hspelling s.spelling_ne_nil
      | cons d ds =>
        rw [hspelling] at happend
        cases happend
        rfl
    rw [hp s c hhead] at hc
    cases hc

theorem startsName_iff : startsName c = true ↔ Text.isAlphabetic c = true ∨ c = '_' :=
  Bool.or_eq_true_iff.trans (or_congr_right beq_iff_eq)

theorem isBlank_of_startsName (h : startsName c = true) : Text.isBlank c = false := by
  rw [← Bool.not_eq_true]
  intro hblank
  rcases startsName_iff.1 h with h | rfl
  · have hpart := isNameChar_of_isBlank hblank
    simp [isNameChar, Text.isAlphanumeric_of_isAlphabetic h] at hpart
  · exact absurd hblank (by decide)

theorem isDigit_of_startsName (h : startsName c = true) : c.isDigit = false := by
  rcases startsName_iff.1 h with h | rfl
  · exact isDigit_of_disjoint (by decide +kernel) h
  · rfl

/-- The punctuation marks of ASCII, but for the underscore. -/
def punctuationRanges : Text.Ranges :=
  [(0x21, 0x2F), (0x3A, 0x40), (0x5B, 0x5E), (0x60, 0x60), (0x7B, 0x7E)]

theorem startsName_of_punctuation (h : punctuationRanges.holds c = true) :
    startsName c = false := by
  have halphabetic : Text.isAlphabetic c = false :=
    Text.Ranges.not_holds_of_disjoint (by decide +kernel) h
  rw [← Bool.not_eq_true, startsName_iff, not_or]
  refine ⟨by simp [halphabetic], ?_⟩
  rintro rfl
  exact absurd h (by decide)

theorem read?_of_startsName (h : startsName c = true) (cs : List Char) :
    Symbol.read? (c :: cs) = none := by
  have hhead : ∀ s : Symbol, ∀ d ∈ s.spelling.head?, punctuationRanges.holds d = true := by
    intro s
    cases s <;> decide
  exact Symbol.read?_eq_none (fun s d hd => startsName_of_punctuation (hhead s d hd)) h cs

theorem read?_of_isDigit (h : c.isDigit = true) (cs : List Char) :
    Symbol.read? (c :: cs) = none := by
  refine Symbol.read?_eq_none (fun s => ?_) h cs
  cases s <;> decide

/-- Whether a text is quoted with a character. -/
def isQuote (c : Char) : Bool := c == '\x22' || c == '\x27'

theorem isQuote_iff : isQuote c = true ↔ c = '\x22' ∨ c = '\x27' :=
  Bool.or_eq_true_iff.trans (or_congr beq_iff_eq beq_iff_eq)

theorem read?_of_isQuote (h : isQuote c = true) (cs : List Char) :
    Symbol.read? (c :: cs) = none := by
  refine Symbol.read?_eq_none (fun s => ?_) h cs
  cases s <;> decide

theorem ne_backslash_of_isQuote (h : isQuote c = true) : c ≠ '\\' := by
  rintro rfl
  exact absurd h (by decide)

/-! ## Tokens at the start of a text -/

theorem readToken_text (hquote : isQuote c = true) {value written : List Char}
    (h : Quotes c value written) (position : Nat) (rest : List Char) :
    readToken position c (written ++ [c] ++ rest) =
      .ok ⟨.text (String.ofList value), c :: (written ++ [c]), rest⟩ := by
  rw [readToken, read?_of_isQuote hquote]
  dsimp only
  rw [if_pos (isQuote_iff.1 hquote),
    (readText_eq_some_iff (ne_backslash_of_isQuote hquote)).2 ⟨written, h, rfl, rfl⟩]

theorem readToken_number (hc : c.isDigit = true) (hcs : ∀ d ∈ cs, isNumberChar d = true)
    {value : Float} (hvalue : numberValue? (c :: cs) = some value)
    (hrest : ∀ d ∈ rest.head?, isNumberChar d = false) (position : Nat) :
    readToken position c (cs ++ rest) = .ok ⟨.number value, c :: cs, rest⟩ := by
  have hquote : ¬(c = '\x22' ∨ c = '\x27') := by
    rintro (rfl | rfl) <;> exact absurd hc (by decide)
  obtain ⟨htaken, hleft⟩ := Text.takeWhile_append_of_head? cs hrest
  rw [readToken, read?_of_isDigit hc]
  dsimp only
  rw [if_neg hquote, if_pos hc, htaken, hleft, List.takeWhile_eq_self_iff.2 hcs, hvalue,
    Text.dropWhile_eq_nil hcs, List.nil_append]

theorem readToken_name (hc : startsName c = true) (hcs : ∀ d ∈ cs, isNameChar d = true)
    (hrest : ∀ d ∈ rest.head?, isNameChar d = false) (position : Nat) :
    readToken position c (cs ++ rest) =
      .ok ⟨.name (String.ofList (c :: cs)), c :: cs, rest⟩ := by
  have hquote : ¬(c = '\x22' ∨ c = '\x27') := by
    intro hquote
    have hpunctuation : punctuationRanges.holds c = true := by rcases hquote with rfl | rfl <;> rfl
    rw [startsName_of_punctuation hpunctuation] at hc
    cases hc
  obtain ⟨htaken, hleft⟩ := Text.takeWhile_append_of_head? cs hrest
  rw [readToken, read?_of_startsName hc]
  dsimp only
  rw [if_neg hquote, if_neg (by simp [isDigit_of_startsName hc]), if_pos hc, htaken, hleft,
    List.takeWhile_eq_self_iff.2 hcs, Text.dropWhile_eq_nil hcs, List.nil_append]

/-! ## Tokens -/

/-- What a token is written in. -/
inductive Token.Spelled : Token → List Char → Prop where
  | symbol (s : Symbol) : Spelled (.symbol s) s.spelling
  | text {quote : Char} {value written : List Char} (hquote : isQuote quote = true)
    (h : Quotes quote value written) :
    Spelled (.text (String.ofList value)) (quote :: (written ++ [quote]))
  | number {c : Char} {cs : List Char} {value : Float} (hc : c.isDigit = true)
    (hcs : ∀ d ∈ cs, isNumberChar d = true) (h : numberValue? (c :: cs) = some value) :
    Spelled (.number value) (c :: cs)
  | name {c : Char} {cs : List Char} (hc : startsName c = true)
    (hcs : ∀ d ∈ cs, isNameChar d = true) : Spelled (.name (String.ofList (c :: cs))) (c :: cs)

/-- Whether a token is as long as it can be before what follows: no longer symbol stands there,
and no number or name goes on. -/
def Token.EndsBefore : Token → List Char → Prop
  | .symbol s, rest => ∀ longer : Symbol, longer.spelling <+: s.spelling ++ rest →
      longer.spelling.length ≤ s.spelling.length
  | .text _, _ => True
  | .number _, rest => ∀ d ∈ rest.head?, isNumberChar d = false
  | .name _, rest => ∀ d ∈ rest.head?, isNameChar d = false

theorem Token.Spelled.ne_nil {t : Token} {spelling : List Char} (h : t.Spelled spelling) :
    spelling ≠ [] := by
  cases h with
  | symbol s => exact s.spelling_ne_nil
  | text | number | name => nofun

/-- A token is as long as it can be when it is read. -/
theorem spelled_of_readToken {position : Nat} {r : Reading}
    (h : readToken position c cs = .ok r) :
    r.token.Spelled r.taken ∧ r.token.EndsBefore r.rest := by
  have hmore {p : Char → Bool} (cs : List Char) : ∀ d ∈ (cs.dropWhile p).head?, p d = false := by
    intro d hd
    have hhead := List.head?_dropWhile_not p cs
    rw [hd] at hhead
    exact hhead
  have hpart (p : Char → Bool) (cs : List Char) : ∀ d ∈ cs.takeWhile p, p d = true :=
    List.all_eq_true.1 List.all_takeWhile
  unfold readToken at h
  split at h
  · next s rest hs =>
    cases h
    obtain ⟨happend, hlongest⟩ := Symbol.read?_eq_some_iff.1 hs
    rw [happend] at hlongest
    exact ⟨.symbol s, hlongest⟩
  · split at h
    · next hquote =>
      split at h
      · next value taken rest hread =>
        cases h
        have hquote := isQuote_iff.2 hquote
        obtain ⟨written, hquotes, rfl, -⟩ :=
          (readText_eq_some_iff (ne_backslash_of_isQuote hquote)).1 hread
        exact ⟨.text hquote hquotes, trivial⟩
      · cases h
    · split at h
      · next hdigit =>
        dsimp only at h
        split at h
        · next value hvalue =>
          cases h
          exact ⟨.number hdigit (hpart _ cs) hvalue, hmore cs⟩
        · cases h
      · split at h
        · next hstart =>
          cases h
          exact ⟨.name hstart (hpart _ cs), hmore cs⟩
        · cases h

/-- A token that is as long as it can be is read. -/
theorem readToken_of_spelled {t : Token} {spelling : List Char}
    (happend : c :: cs = spelling ++ rest) (h : t.Spelled spelling) (hends : t.EndsBefore rest)
    (position : Nat) : readToken position c cs = .ok ⟨t, spelling, rest⟩ := by
  cases h with
  | symbol s => rw [readToken, happend, Symbol.read?_eq_some_iff.2 ⟨rfl, hends⟩]
  | text hquote hquotes =>
    obtain ⟨rfl, rfl⟩ := List.cons.inj happend
    exact readToken_text hquote hquotes position rest
  | number hdigit hcs hvalue =>
    obtain ⟨rfl, rfl⟩ := List.cons.inj happend
    exact readToken_number hdigit hcs hvalue hends position
  | name hstart hcs =>
    obtain ⟨rfl, rfl⟩ := List.cons.inj happend
    exact readToken_name hstart hcs hends position

/-- The text starts with the token that is read, and the token is as long as it can be. -/
theorem readToken_ok_iff {position : Nat} {r : Reading} :
    readToken position c cs = .ok r ↔ c :: cs = r.taken ++ r.rest ∧ r.token.Spelled r.taken ∧
      r.token.EndsBefore r.rest := by
  constructor
  · intro h
    exact ⟨(eq_append_of_readToken h).1, spelled_of_readToken h⟩
  · rintro ⟨happend, hspelled, hends⟩
    exact readToken_of_spelled happend hspelled hends position

/-! ## Words -/

/-- A token as it stands in a text. -/
structure Word where
  /-- The white space before the token. -/
  gap : List Char
  token : Token
  /-- The characters that the token is written in. -/
  spelling : List Char

/-- A text of words with something behind them. -/
def wordsText (words : List Word) (after : List Char) : List Char :=
  words.foldr (fun w later => w.gap ++ (w.spelling ++ later)) after

/-- The tokens of words, each with the byte at which its spelling starts. -/
def lexemesFrom (position : Nat) (words : List Word) : List Lexeme :=
  words.mapIdx fun i w => ⟨w.token, position + Text.byteSize (wordsText (words.take i) w.gap)⟩

/-- Whether words with something behind them are tokens with nothing but white space between
them and around them. -/
structure Written (words : List Word) (after : List Char) : Prop where
  gap : ∀ w ∈ words, ∀ c ∈ w.gap, Text.isBlank c = true
  behind : ∀ c ∈ after, Text.isBlank c = true
  spelled : ∀ w ∈ words, w.token.Spelled w.spelling

/-- Whether words with something behind them follow the lexical grammar: each token is as long
as it can be. -/
structure Lexical (words : List Word) (after : List Char) : Prop extends Written words after where
  ends : ∀ before w later, words = before ++ w :: later →
    w.token.EndsBefore (wordsText later after)

/-- Whether there is white space between any two words. -/
structure Separated (words : List Word) (after : List Char) : Prop
    extends Written words after where
  apart : ∀ w ∈ words.tail, w.gap ≠ []

variable {words : List Word} {w : Word} {after : List Char}

theorem wordsText_cons (w : Word) (words : List Word) (after : List Char) :
    wordsText (w :: words) after = w.gap ++ (w.spelling ++ wordsText words after) := rfl

theorem lexemesFrom_cons (position : Nat) (w : Word) (words : List Word) :
    lexemesFrom position (w :: words) = ⟨w.token, position + Text.byteSize w.gap⟩ ::
      lexemesFrom (position + Text.byteSize w.gap + Text.byteSize w.spelling) words := by
  simp only [lexemesFrom, List.mapIdx_cons, List.take_zero, List.take_succ_cons, wordsText_cons,
    Text.byteSize_append, Nat.add_assoc]
  rfl

theorem written_nil_iff : Written [] after ↔ ∀ c ∈ after, Text.isBlank c = true :=
  ⟨Written.behind, fun h => ⟨List.forall_mem_nil _, h, List.forall_mem_nil _⟩⟩

theorem written_cons_iff :
    Written (w :: words) after ↔ (∀ c ∈ w.gap, Text.isBlank c = true) ∧
      w.token.Spelled w.spelling ∧ Written words after := by
  constructor
  · rintro ⟨hgap, hbehind, hspelled⟩
    rw [List.forall_mem_cons] at hgap hspelled
    exact ⟨hgap.1, hspelled.1, hgap.2, hbehind, hspelled.2⟩
  · rintro ⟨hgap, hspelled, hwords⟩
    exact ⟨List.forall_mem_cons.2 ⟨hgap, hwords.gap⟩, hwords.behind,
      List.forall_mem_cons.2 ⟨hspelled, hwords.spelled⟩⟩

theorem lexical_nil_iff : Lexical [] after ↔ ∀ c ∈ after, Text.isBlank c = true :=
  ⟨fun h => h.behind, fun h => ⟨written_nil_iff.2 h, by simp⟩⟩

theorem lexical_cons_iff :
    Lexical (w :: words) after ↔ (∀ c ∈ w.gap, Text.isBlank c = true) ∧
      w.token.Spelled w.spelling ∧ w.token.EndsBefore (wordsText words after) ∧
      Lexical words after := by
  constructor
  · rintro ⟨hwritten, hends⟩
    obtain ⟨hgap, hspelled, hwords⟩ := written_cons_iff.1 hwritten
    refine ⟨hgap, hspelled, hends [] w words rfl, hwords, ?_⟩
    rintro before u later rfl
    exact hends (w :: before) u later rfl
  · rintro ⟨hgap, hspelled, hend, hwords⟩
    refine ⟨written_cons_iff.2 ⟨hgap, hspelled, hwords.toWritten⟩, fun before u later heq => ?_⟩
    rcases before with - | ⟨v, before⟩
    · cases heq
      exact hend
    · obtain ⟨-, rfl⟩ := List.cons.inj heq
      exact hwords.ends before u later rfl

/-! ## Texts of words -/

/-- No token starts with white space. -/
theorem Token.Spelled.not_isBlank {t : Token} {spelling : List Char} (h : t.Spelled spelling) :
    ∀ d ∈ spelling.head?, Text.isBlank d = false := by
  cases h with
  | symbol s => cases s <;> decide
  | text hquote _ =>
    rintro _ ⟨⟩
    rcases isQuote_iff.1 hquote with rfl | rfl <;> decide
  | number hc _ _ =>
    rintro d ⟨⟩
    rw [← Bool.not_eq_true]
    intro hblank
    rw [isDigit_of_disjoint (by decide) hblank] at hc
    cases hc
  | name hc _ =>
    rintro _ ⟨⟩
    exact isBlank_of_startsName hc

/-- Words that follow the lexical grammar are read. -/
theorem lexemes_wordsText (h : Lexical words after) (position : Nat) :
    lexemes position (wordsText words after) = .ok (lexemesFrom position words) := by
  induction words generalizing position with
  | nil => exact lexemes_of_blank h.behind position
  | cons w words ih =>
    obtain ⟨hgap, hspelled, hends, hwords⟩ := lexical_cons_iff.1 h
    rw [wordsText_cons, lexemes_blank_append hgap, lexemesFrom_cons]
    rcases hspelling : w.spelling with - | ⟨c, cs⟩
    · exact absurd hspelling hspelled.ne_nil
    · rw [hspelling] at hspelled
      exact (lexemes_cons_iff (hspelled.not_isBlank c rfl)).2
        ⟨_, _, readToken_of_spelled rfl hspelled hends _, ih hwords _, rfl⟩

/-- Whatever is read is made up of words that follow the lexical grammar. -/
theorem exists_words_of_lexemes {position : Nat} {ts : List Lexeme}
    (h : lexemes position cs = .ok ts) :
    ∃ words after, cs = wordsText words after ∧ Lexical words after ∧
      ts = lexemesFrom position words := by
  induction hlength : cs.length using Nat.strongRecOn generalizing cs position ts with
  | _ length ih =>
    have hgap : ∀ d ∈ cs.takeWhile Text.isBlank, Text.isBlank d = true :=
      List.all_eq_true.1 List.all_takeWhile
    rw [← List.takeWhile_append_dropWhile (p := Text.isBlank) (l := cs),
      lexemes_blank_append hgap] at h
    rcases hrest : cs.dropWhile Text.isBlank with - | ⟨c, rest⟩
    · rw [hrest, lexemes] at h
      cases h
      refine ⟨[], cs, rfl, lexical_nil_iff.2 ?_, rfl⟩
      exact List.dropWhile_eq_nil_iff.1 hrest
    · have hc : Text.isBlank c = false := by
        have hhead := List.head?_dropWhile_not Text.isBlank cs
        rw [hrest] at hhead
        exact hhead
      rw [hrest] at h
      obtain ⟨r, us, hread, hus, rfl⟩ := (lexemes_cons_iff hc).1 h
      obtain ⟨happend, hspelled, hends⟩ := readToken_ok_iff.1 hread
      have hshorter : r.rest.length < length := by
        have hlt := length_rest_of_readToken hread
        have hle := List.length_dropWhile_le Text.isBlank cs
        rw [hrest] at hle
        omega
      obtain ⟨words, after, htext, hlexical, rfl⟩ := ih r.rest.length hshorter hus rfl
      refine ⟨⟨cs.takeWhile Text.isBlank, r.token, r.taken⟩ :: words, after, ?_,
        lexical_cons_iff.2 ⟨hgap, hspelled, by rwa [← htext], hlexical⟩,
        (lexemesFrom_cons position ⟨_, r.token, r.taken⟩ words).symm⟩
      rw [wordsText_cons, ← htext, ← happend, ← hrest, List.takeWhile_append_dropWhile]

/-- The tokens of a text are those of the words that make it up. -/
theorem lexemes_ok_iff {position : Nat} {ts : List Lexeme} :
    lexemes position cs = .ok ts ↔
      ∃ words after, cs = wordsText words after ∧ Lexical words after ∧
        ts = lexemesFrom position words := by
  constructor
  · exact exists_words_of_lexemes
  · rintro ⟨words, after, rfl, hlexical, rfl⟩
    exact lexemes_wordsText hlexical position

/-! ## Where tokens start -/

theorem position_le_of_mem {position : Nat} {t : Lexeme} (h : t ∈ lexemesFrom position words) :
    position ≤ t.position := by
  obtain ⟨i, hi, rfl⟩ := List.mem_mapIdx.1 h
  exact Nat.le_add_right _ _

/-- Tokens start one behind the other. -/
theorem pairwise_lexemesFrom (h : Written words after) (position : Nat) :
    ((lexemesFrom position words).map Lexeme.position).Pairwise (· < ·) := by
  induction words generalizing position with
  | nil => exact .nil
  | cons w words ih =>
    obtain ⟨-, hspelled, hwords⟩ := written_cons_iff.1 h
    have hpos : 0 < Text.byteSize w.spelling := by
      rcases hspelling : w.spelling with - | ⟨c, cs⟩
      · exact absurd hspelling hspelled.ne_nil
      · rw [Text.byteSize_cons]
        exact Nat.add_pos_left c.utf8Size_pos _
    rw [lexemesFrom_cons, List.map_cons, List.pairwise_cons]
    refine ⟨List.forall_mem_map.2 fun t ht => ?_, ih hwords _⟩
    have hle := position_le_of_mem ht
    dsimp only
    omega

/-! ## Words kept apart -/

/-- White space ends any token. -/
theorem Token.endsBefore_of_isBlank (t : Token) (h : ∀ d ∈ rest.head?, Text.isBlank d = true) :
    t.EndsBefore rest := by
  cases t with
  | symbol s =>
    intro longer hlonger
    rcases List.prefix_or_prefix_of_prefix hlonger (List.prefix_append s.spelling rest) with
      hshort | ⟨more, hmore⟩
    · exact hshort.length_le
    · -- a longer symbol would go on with white space
      rw [← hmore, List.prefix_append_right_inj] at hlonger
      rcases more with - | ⟨d, more⟩
      · rw [← hmore, List.append_nil]
      · obtain ⟨later, rfl⟩ := hlonger
        have hblank := h d rfl
        have hpart : ∀ e ∈ longer.spelling, Text.isBlank e = false := by
          cases longer <;> decide
        rw [hpart d (by rw [← hmore]; simp)] at hblank
        cases hblank
  | text value => trivial
  | number value => exact fun d hd => isNumberChar_of_isBlank (h d hd)
  | name value => exact fun d hd => isNameChar_of_isBlank (h d hd)

/-- Words with white space between them are as long as they can be. -/
theorem Separated.lexical (h : Separated words after) : Lexical words after := by
  induction words with
  | nil => exact lexical_nil_iff.2 h.behind
  | cons w words ih =>
    obtain ⟨hgap, hspelled, hwords⟩ := written_cons_iff.1 h.toWritten
    refine lexical_cons_iff.2 ⟨hgap, hspelled, w.token.endsBefore_of_isBlank ?_,
      ih ⟨hwords, fun u hu => h.apart u (List.mem_of_mem_tail hu)⟩⟩
    rcases words with - | ⟨u, words⟩
    · exact fun d hd => h.behind d (List.mem_of_mem_head? hd)
    · intro d hd
      rcases hu : u.gap with - | ⟨e, gap⟩
      · exact absurd hu (h.apart u List.mem_cons_self)
      · rw [wordsText_cons, hu] at hd
        cases hd
        exact hwords.gap u List.mem_cons_self _ (by rw [hu]; exact List.mem_cons_self)

/-! ## All tokens -/

/-- A text has tokens exactly if it is made of them as the lexical grammar says: with nothing
but white space between them and around them, each as long as it can be and each at the byte
where its spelling starts. So the bytes increase. Whatever is written with white space between
the tokens is read back, and a text can be written with any characters escaped, as long as
quotes of its kind and backslashes are. -/
theorem tokenize_words :
    (∀ source ts, tokenize source = .ok ts ↔
      ∃ words after, source.toList = wordsText words after ∧ Lexical words after ∧
        ts = lexemesFrom 0 words) ∧
    (∀ source ts, tokenize source = .ok ts → (ts.map Lexeme.position).Pairwise (· < ·)) ∧
    (∀ words after, Separated words after →
      tokenize (String.ofList (wordsText words after)) = .ok (lexemesFrom 0 words)) ∧
    ∀ quote marked value, isQuote quote = true → marked quote = true → marked '\\' = true →
      (Token.text (String.ofList value)).Spelled (quotedWith quote marked value) := by
  refine ⟨fun source ts => lexemes_ok_iff, fun source ts h => ?_, fun words after h => ?_,
    fun quote marked value hquote hmarked hescape => ?_⟩
  · obtain ⟨words, after, -, hlexical, rfl⟩ := lexemes_ok_iff.1 h
    exact pairwise_lexemesFrom hlexical.toWritten 0
  · rw [tokenize, String.toList_ofList]
    exact lexemes_wordsText h.lexical 0
  · exact .text hquote (quotes_marked hmarked hescape value)

/-- A name, a symbol, a number and a text with an escaped quote in it, and the same gap before
each of them but the first. -/
def measureWords (gap : List Char) : List Word :=
  [⟨[], .name "größe", ['g', 'r', 'ö', 'ß', 'e']⟩, ⟨gap, .symbol .atMost, ['<', '=']⟩,
    ⟨gap, .number (Decimal.scaled 15 (-1)), ['1', '.', '5']⟩,
    ⟨gap, .text "it's", ['\x27', 'i', 't', '\\', '\x27', 's', '\x27']⟩]

theorem tokenize_words_measure :
    Lexical (measureWords []) [] ∧ Separated (measureWords [' ']) ['\t'] ∧
    tokenize "größe<=1.5'it\\'s'" = .ok (lexemesFrom 0 (measureWords [])) ∧
    tokenize "größe <= 1.5 'it\\'s'\t" = .ok (lexemesFrom 0 (measureWords [' '])) ∧
    (lexemesFrom 0 (measureWords [])).map Lexeme.position = [0, 7, 9, 12] ∧
    ((lexemesFrom 0 (measureWords [])).map Lexeme.position).Pairwise (· < ·) ∧
    (lexemesFrom 0 (measureWords [' '])).map Lexeme.position = [0, 8, 11, 15] := by
  obtain ⟨hmade, hpairwise, hseparated, hquoted⟩ := tokenize_words
  have hname : (Token.name "größe").Spelled ['g', 'r', 'ö', 'ß', 'e'] :=
    .name (by decide +kernel) (by decide +kernel)
  have hnumber : (Token.number (Decimal.scaled 15 (-1))).Spelled ['1', '.', '5'] :=
    .number rfl (by decide) rfl
  have htext : (Token.text "it's").Spelled ['\x27', 'i', 't', '\\', '\x27', 's', '\x27'] :=
    hquoted '\x27' (fun c => isQuote c || c == '\\') ['i', 't', '\x27', 's'] rfl rfl rfl
  have hdense : Lexical (measureWords []) [] := by
    refine lexical_cons_iff.2 ⟨List.forall_mem_nil _, hname, ?_,
      lexical_cons_iff.2 ⟨List.forall_mem_nil _, .symbol .atMost, ?_,
        lexical_cons_iff.2 ⟨List.forall_mem_nil _, hnumber, ?_,
          lexical_cons_iff.2 ⟨List.forall_mem_nil _, htext, trivial,
            lexical_nil_iff.2 (List.forall_mem_nil _)⟩⟩⟩⟩
    · rintro _ ⟨⟩
      decide +kernel
    · exact (Symbol.read?_eq_some_iff.1 rfl).2
    · rintro _ ⟨⟩
      rfl
  have hsparse : Separated (measureWords [' ']) ['\t'] := by
    refine ⟨?_, by simp [measureWords]⟩
    have hgap : ∀ c ∈ [' '], Text.isBlank c = true := by decide
    exact written_cons_iff.2 ⟨List.forall_mem_nil _, hname, written_cons_iff.2
      ⟨hgap, .symbol .atMost, written_cons_iff.2 ⟨hgap, hnumber, written_cons_iff.2
        ⟨hgap, htext, written_nil_iff.2 (by decide)⟩⟩⟩⟩
  have htokens : tokenize "größe<=1.5'it\\'s'" = .ok (lexemesFrom 0 (measureWords [])) :=
    (hmade _ _).2 ⟨_, [], by decide +kernel, hdense, rfl⟩
  have hsource : String.ofList (wordsText (measureWords [' ']) ['\t']) =
      "größe <= 1.5 'it\\'s'\t" := by
    decide +kernel
  exact ⟨hdense, hsparse, htokens, hsource ▸ hseparated _ _ hsparse, rfl, hpairwise _ _ htokens,
    rfl⟩

end Flipbook.Expression
