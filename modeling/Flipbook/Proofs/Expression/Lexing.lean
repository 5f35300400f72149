import Flipbook.Proofs.Expression.Positions
import Flipbook.Proofs.Text.Split

/-!
# Tokens and the white space around them

White space separates tokens and is part of none but texts. So what is read of a
condition does not depend on the white space around it: only positions do.

* `lexemes_append_blank`, `lexemes_blank_append`: white space behind and before a text.
* `parse_trim`: a program stays the same program when its text is trimmed.
* `spellings` are the tokens of a text as they are written.
-/
namespace Flipbook.Text

/-- Sets of characters whose ranges keep apart have no character in common. -/
theorem Ranges.not_holds_of_disjoint {a b : Ranges}
    (h : (a.all fun r => b.all fun s => decide (r.2 < s.1) || decide (s.2 < r.1)) = true)
    {c : Char} (hc : a.holds c = true) : b.holds c = false := by
  obtain ⟨r, hr, hfirst, hlast⟩ := Ranges.holds_iff.1 hc
  rw [← Bool.not_eq_true, Ranges.holds_iff]
  rintro ⟨s, hs, hfirst', hlast'⟩
  have hapart := List.all_eq_true.1 (List.all_eq_true.1 h r hr) s hs
  simp only [Bool.or_eq_true, decide_eq_true_eq] at hapart
  omega

end Flipbook.Text

namespace Flipbook.Expression

variable {c : Char} {cs after : List Char}

/-! ## White space in tokens -/

/-- White space is no mark of punctuation and no ASCII digit. -/
theorem ne_of_isBlank {d : Char} (h : Text.isBlank c = true) (hd : Text.isBlank d = false) :
    c ≠ d := by
  rintro rfl
  rw [h] at hd
  cases hd

theorem isNameChar_of_isBlank (h : Text.isBlank c = true) : isNameChar c = false := by
  have halphabetic : Text.alphabeticRanges.holds c = false :=
    Text.Ranges.not_holds_of_disjoint (by decide +kernel) h
  have hnumeric : Text.numericRanges.holds c = false :=
    Text.Ranges.not_holds_of_disjoint (by decide +kernel) h
  simp [isNameChar, Text.isAlphanumeric, halphabetic, hnumeric,
    ne_of_isBlank h (d := '_') (by decide), ne_of_isBlank h (d := '.') (by decide),
    ne_of_isBlank h (d := ':') (by decide)]

/-- A character of a set without ASCII digits is none. -/
theorem isDigit_of_disjoint {a : Text.Ranges}
    (h : (a.all fun r => decide (r.2 < 0x30) || decide (0x39 < r.1)) = true)
    (hc : a.holds c = true) : c.isDigit = false := by
  have hdigit : Text.Ranges.holds [(0x30, 0x39)] c = false :=
    Text.Ranges.not_holds_of_disjoint (by simpa using h) hc
  rw [← Bool.not_eq_true] at hdigit ⊢
  intro hc
  refine hdigit (Text.Ranges.holds_iff.2 ⟨_, List.mem_cons_self, ?_⟩)
  exact Char.isDigit_iff_toNat.1 hc

theorem isNumberChar_of_isBlank (h : Text.isBlank c = true) : isNumberChar c = false := by
  have hdigit : c.isDigit = false := isDigit_of_disjoint (by decide) h
  have hpoint : c ≠ '.' := ne_of_isBlank h (by decide)
  simp [isNumberChar, hdigit, hpoint]

theorem ofPair?_of_isBlank {d : Char} (h : Text.isBlank d = true) (c : Char) :
    Symbol.ofPair? c d = none := by
  cases hpair : Symbol.ofPair? c d with
  | none => rfl
  | some s =>
    have hspelling := Symbol.ofPair?_eq_some hpair
    have hsecond : ∀ s : Symbol, ∀ d ∈ s.spelling, Text.isBlank d = false := by
      intro s
      cases s <;> decide
    rw [hsecond s d (by rw [hspelling]; simp)] at h
    cases h

/-- A symbol is read alike with white space behind the text. -/
theorem read?_append_blank (h : ∀ d ∈ after, Text.isBlank d = true) :
    Symbol.read? (c :: (cs ++ after)) =
      (Symbol.read? (c :: cs)).map fun (s, rest) => (s, rest ++ after) := by
  rcases cs with - | ⟨d, cs⟩
  · rcases after with - | ⟨d, after⟩
    · simp [Symbol.read?, Function.comp_def]
    · simp [Symbol.read?, ofPair?_of_isBlank (h d List.mem_cons_self), Function.comp_def]
  · simp only [List.cons_append, Symbol.read?]
    cases Symbol.ofPair? c d <;> simp [Function.comp_def]

theorem readText_cons {quote : Char} (hc : c ≠ '\\') (cs : List Char) :
    readText quote (c :: cs) =
      if c = quote then some ([], [c], cs)
      else (readText quote cs).map fun (value, taken, rest) => (c :: value, c :: taken, rest) := by
  rw [readText]
  · exact fun h _ => hc h
  · exact fun _ _ h _ => hc h

/-- A quoted text ends with its quote. -/
theorem quote_mem_of_readText {quote : Char} {value taken rest : List Char}
    (h : readText quote cs = some (value, taken, rest)) : quote ∈ taken := by
  fun_induction readText quote cs generalizing value taken with
  | case1 => cases h
  | case2 => cases h
  | case3 c cs ih =>
    obtain ⟨⟨v, t, r⟩, hr, heq⟩ := Option.map_eq_some_iff.1 h
    cases heq
    simp [ih hr]
  | case4 => cases h; simp_all
  | case5 c cs _ _ _ ih =>
    obtain ⟨⟨v, t, r⟩, hr, heq⟩ := Option.map_eq_some_iff.1 h
    cases heq
    simp [ih hr]

/-- A quoted text is read alike with white space behind it. -/
theorem readText_append_blank {quote : Char} (hquote : Text.isBlank quote = false)
    (hafter : ∀ d ∈ after, Text.isBlank d = true) {value taken rest : List Char}
    (h : readText quote (cs ++ after) = some (value, taken, rest)) :
    ∃ rest', rest = rest' ++ after ∧ readText quote cs = some (value, taken, rest') := by
  have hnone {blanks : List Char} (hblanks : ∀ d ∈ blanks, Text.isBlank d = true)
      {found : List Char × List Char × List Char} : readText quote blanks ≠ some found := by
    intro hread
    have hmem : quote ∈ blanks := by
      rw [eq_append_of_readText hread]
      exact List.mem_append_left _ (quote_mem_of_readText hread)
    rw [hblanks quote hmem] at hquote
    cases hquote
  fun_induction readText quote cs generalizing value taken with
  | case1 => exact absurd h (hnone hafter)
  | case2 =>
    rcases after with - | ⟨d, after⟩
    · cases h
    · obtain ⟨found, hr, -⟩ := Option.map_eq_some_iff.1 h
      exact absurd hr (hnone fun d hd => hafter d (List.mem_cons_of_mem _ hd))
  | case3 c cs ih =>
    obtain ⟨⟨v, t, r⟩, hr, heq⟩ := Option.map_eq_some_iff.1 h
    cases heq
    obtain ⟨rest', hrest, hread⟩ := ih hr
    exact ⟨rest', hrest, by rw [hread]; rfl⟩
  | case4 cs hend hescape =>
    have hc : quote ≠ '\\' := by
      rintro rfl
      rcases cs with - | ⟨d, cs⟩
      · exact hend rfl rfl
      · exact hescape d cs rfl rfl
    rw [List.cons_append, readText_cons hc, if_pos rfl] at h
    cases h
    exact ⟨cs, rfl, rfl⟩
  | case5 c cs hend hescape hne ih =>
    have hc : c ≠ '\\' := by
      rintro rfl
      rcases cs with - | ⟨d, cs⟩
      · exact hend rfl rfl
      · exact hescape d cs rfl rfl
    rw [List.cons_append, readText_cons hc, if_neg hne] at h
    obtain ⟨⟨v, t, r⟩, hr, heq⟩ := Option.map_eq_some_iff.1 h
    cases heq
    obtain ⟨rest', hrest, hread⟩ := ih hr
    exact ⟨rest', hrest, by rw [hread]; rfl⟩

/-- A token is read alike with white space behind the text, and wherever it stands. -/
theorem readToken_append_blank (hafter : ∀ d ∈ after, Text.isBlank d = true) {position : Nat}
    {r : Reading} (h : readToken position c (cs ++ after) = .ok r) (position' : Nat) :
    ∃ rest, r.rest = rest ++ after ∧ readToken position' c cs = .ok ⟨r.token, r.taken, rest⟩ := by
  have hhead : ∀ d ∈ after.head?, Text.isBlank d = true :=
    fun d hd => hafter d (List.mem_of_mem_head? hd)
  have hnumber := Text.takeWhile_append_of_head? cs
    fun d hd => isNumberChar_of_isBlank (hhead d hd)
  have hname := Text.takeWhile_append_of_head? cs fun d hd => isNameChar_of_isBlank (hhead d hd)
  unfold readToken at h ⊢
  rw [read?_append_blank hafter] at h
  cases hsymbol : Symbol.read? (c :: cs) with
  | some found =>
    rw [hsymbol] at h
    cases h
    exact ⟨found.2, rfl, rfl⟩
  | none =>
    rw [hsymbol] at h
    dsimp only [Option.map_none] at h ⊢
    by_cases hquote : c = '\x22' ∨ c = '\x27'
    · rw [if_pos hquote] at h ⊢
      have hblank : Text.isBlank c = false := by
        rcases hquote with rfl | rfl <;> decide
      split at h
      · next value taken rest hread =>
        cases h
        obtain ⟨rest', hrest, hread⟩ := readText_append_blank hblank hafter hread
        exact ⟨rest', hrest, by rw [hread]⟩
      · cases h
    rw [if_neg hquote] at h ⊢
    by_cases hdigit : c.isDigit = true
    · rw [if_pos hdigit] at h ⊢
      rw [hnumber.1, hnumber.2] at h
      split at h
      · next value hvalue =>
        cases h
        exact ⟨_, rfl, by rw [hvalue]⟩
      · cases h
    rw [if_neg hdigit] at h ⊢
    by_cases hstart : startsName c = true
    · rw [if_pos hstart] at h ⊢
      rw [hname.1, hname.2] at h
      cases h
      exact ⟨_, rfl, rfl⟩
    · rw [if_neg hstart] at h
      cases h

/-! ## Texts of tokens -/

theorem lexemes_cons_blank (h : Text.isBlank c = true) (position : Nat) (cs : List Char) :
    lexemes position (c :: cs) = lexemes (position + c.utf8Size) cs := by
  rw [lexemes, if_pos h]

/-- The first token of a text and those behind it. -/
theorem lexemes_cons_iff (hc : Text.isBlank c = false) {position : Nat} {ts : List Lexeme} :
    lexemes position (c :: cs) = .ok ts ↔
      ∃ r us, readToken position c cs = .ok r ∧
        lexemes (position + Text.byteSize r.taken) r.rest = .ok us ∧
        ts = ⟨r.token, position⟩ :: us := by
  rw [lexemes, if_neg (by simp [hc])]
  constructor
  · intro h
    split at h
    · cases h
    · next r hread =>
      cases hrest : lexemes (position + Text.byteSize r.taken) r.rest with
      | error e =>
        rw [hrest] at h
        cases h
      | ok us =>
        rw [hrest] at h
        cases h
        exact ⟨r, us, hread, hrest, rfl⟩
  · rintro ⟨r, us, hread, hrest, rfl⟩
    split
    · next e herror =>
      rw [herror] at hread
      cases hread
    · next r' hread' =>
      obtain rfl : r = r' := Except.ok.inj (hread.symm.trans hread')
      rw [hrest]
      rfl

theorem lexemes_of_blank (h : ∀ d ∈ cs, Text.isBlank d = true) (position : Nat) :
    lexemes position cs = .ok [] := by
  induction cs generalizing position with
  | nil => rw [lexemes]
  | cons c cs ih =>
    obtain ⟨hc, hcs⟩ := List.forall_mem_cons.1 h
    rw [lexemes_cons_blank hc]
    exact ih hcs _

theorem lexemes_blank_append {before : List Char} (h : ∀ d ∈ before, Text.isBlank d = true)
    (position : Nat) (cs : List Char) :
    lexemes position (before ++ cs) = lexemes (position + Text.byteSize before) cs := by
  induction before generalizing position with
  | nil => rfl
  | cons c before ih =>
    obtain ⟨hc, hbefore⟩ := List.forall_mem_cons.1 h
    rw [List.cons_append, lexemes_cons_blank hc, ih hbefore, Text.byteSize_cons, Nat.add_assoc]

/-- The tokens of a text are the same where it stands `distance` bytes further on and
white space follows. -/
theorem lexemes_append_blank (hafter : ∀ d ∈ after, Text.isBlank d = true) {distance position : Nat}
    {ts : List Lexeme} (h : lexemes (distance + position) (cs ++ after) = .ok ts) :
    ∃ us, lexemes position cs = .ok us ∧ ts = moved (distance + ·) us := by
  induction hlength : cs.length using Nat.strongRecOn generalizing cs position ts with
  | _ length ih =>
    rcases cs with - | ⟨c, cs⟩
    · rw [List.nil_append, lexemes_of_blank hafter] at h
      cases h
      exact ⟨[], by rw [lexemes], rfl⟩
    by_cases hc : Text.isBlank c = true
    · rw [List.cons_append, lexemes_cons_blank hc, Nat.add_assoc] at h
      rw [lexemes_cons_blank hc]
      exact ih cs.length (by rw [← hlength]; simp) h rfl
    · rw [Bool.not_eq_true] at hc
      obtain ⟨r, later, hread, hlater, rfl⟩ := (lexemes_cons_iff hc).1 h
      obtain ⟨rest, hrest, hread'⟩ := readToken_append_blank hafter hread position
      rw [hrest, Nat.add_assoc] at hlater
      have hshorter : rest.length < length := hlength ▸ length_rest_of_readToken hread'
      obtain ⟨us, hus, rfl⟩ := ih rest.length hshorter hlater rfl
      exact ⟨⟨r.token, position⟩ :: us, (lexemes_cons_iff hc).2 ⟨_, us, hread', hus, rfl⟩, rfl⟩

theorem parse_ok_iff {source : String} {p : Program} :
    parse source = .ok p ↔ ∃ ts, lexemes 0 source.toList = .ok ts ∧ parseTokens ts = .ok p := by
  unfold parse tokenize
  cases lexemes 0 source.toList with
  | error e => exact iff_of_false nofun (by simp)
  | ok ts => simp [bind, Except.bind]

/-- A program is the same one without the white space around it. -/
theorem parse_trim {source : String} {p : Program} (h : parse source = .ok p) :
    parse (String.ofList (Text.trim source.toList)) = .ok p := by
  obtain ⟨before, after, hsource, hbefore, hafter⟩ :=
    Text.exists_eq_stripWhile Text.isBlank source.toList
  obtain ⟨ts, hlexemes, hparse⟩ := parse_ok_iff.1 h
  rw [hsource, lexemes_blank_append hbefore, Nat.zero_add,
    ← Nat.add_zero (Text.byteSize before)] at hlexemes
  obtain ⟨us, hus, rfl⟩ := lexemes_append_blank hafter hlexemes
  have hback :
      moved (fun n => n - Text.byteSize before) (moved (Text.byteSize before + ·) us) = us := by
    simp [moved, Function.comp_def]
  refine parse_ok_iff.2 ⟨us, ?_, ?_⟩
  · rw [String.toList_ofList]
    exact hus
  · rw [← hback]
    exact parseTokens_moved hparse

/-! ## Spellings -/

/-- The tokens of a text as they are written, up to what is no token. -/
def spellings (cs : List Char) : List (List Char) :=
  match cs with
  | [] => []
  | c :: cs =>
    if Text.isBlank c then spellings cs
    else
      match _h : readToken 0 c cs with
      | .error _ => []
      | .ok r => r.taken :: spellings r.rest
termination_by cs.length
decreasing_by
  · simp
  · exact length_rest_of_readToken (by assumption)

theorem spellings_cons_blank (h : Text.isBlank c = true) (cs : List Char) :
    spellings (c :: cs) = spellings cs := by
  rw [spellings, if_pos h]

theorem spellings_cons (hc : Text.isBlank c = false) {position : Nat} {r : Reading}
    (h : readToken position c cs = .ok r) :
    spellings (c :: cs) = r.taken :: spellings r.rest := by
  have hread : readToken 0 c cs = .ok r := by
    rw [← List.append_nil cs] at h
    obtain ⟨rest, hrest, hread⟩ := readToken_append_blank (List.forall_mem_nil _) h 0
    rw [List.append_nil] at hrest
    rw [hread, ← hrest]
  rw [spellings, if_neg (by simp [hc])]
  split
  · next e herror =>
    rw [herror] at hread
    cases hread
  · next r' hread' =>
    obtain rfl : r = r' := Except.ok.inj (hread.symm.trans hread')
    rfl

/-- The kinds of token, by how they are written. -/
theorem readToken_cases {position : Nat} {r : Reading} (h : readToken position c cs = .ok r) :
    (∃ s, r.token = .symbol s ∧ r.taken = s.spelling) ∨
    (∃ value taken, (c = '\x22' ∨ c = '\x27') ∧ r.token = .text (String.ofList value) ∧
      r.taken = c :: taken ∧ readText c cs = some (value, taken, r.rest)) ∨
    (∃ value, r.token = .number value ∧ ∀ d ∈ r.taken, isNumberChar d = true) ∨
    (∃ name, r.token = .name name ∧ ∀ d ∈ r.taken, isNameChar d = true) := by
  have htaken {p : Char → Bool} (hc : p c = true) : ∀ d ∈ c :: cs.takeWhile p, p d = true :=
    List.forall_mem_cons.2 ⟨hc, List.all_eq_true.1 List.all_takeWhile⟩
  unfold readToken at h
  split at h
  · next s rest hs =>
    cases h
    exact .inl ⟨s, rfl, rfl⟩
  · split at h
    · next hquote =>
      split at h
      · next value taken rest hread =>
        cases h
        exact .inr (.inl ⟨value, taken, hquote, rfl, rfl, hread⟩)
      · cases h
    · split at h
      · next hdigit =>
        dsimp only at h
        split at h
        · next value hvalue =>
          cases h
          exact .inr (.inr (.inl ⟨value, rfl, htaken (by simp [isNumberChar, hdigit])⟩))
        · cases h
      · split at h
        · next hstart =>
          cases h
          have hpart : isNameChar c = true := by
            rcases Bool.or_eq_true_iff.1 hstart with h | h
            · simp [isNameChar, Text.isAlphanumeric_of_isAlphabetic h]
            · simp [isNameChar, h]
          exact .inr (.inr (.inr ⟨_, rfl, htaken hpart⟩))
        · cases h

end Flipbook.Expression
