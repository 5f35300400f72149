import Flipbook.Proofs.Expression.Lexical
import Flipbook.Proofs.Expression.RoundTrip

/-!
# Tokens with spaces between them

Symbols and names that are written with a space behind each are read back as they are:
no two of them can run together.

* `spaced`: the text.
* `exists_lexemes_spaced`: its tokens.
* `parse_spaced`: the program in it.
-/
namespace Flipbook.Expression

/-! ## Tokens before a space -/

/-- Whether a text is a name: it starts like one, and goes on like one. -/
def isName (name : String) : Bool :=
  match name.toList with
  | [] => false
  | c :: cs => startsName c && cs.all isNameChar

/-- Whether a token is a symbol or a name. -/
def Token.isWord : Token → Bool
  | .symbol _ => true
  | .name word => isName word
  | _ => false

/-- Symbols and names are written as they are shown. -/
theorem spelled_display {t : Token} (h : t.isWord = true) : t.Spelled t.display.toList := by
  cases t with
  | number value => cases h
  | text value => cases h
  | symbol s =>
    rw [Token.display, String.toList_ofList]
    exact .symbol s
  | name name =>
    have hname : isName name = true := h
    unfold isName at hname
    split at hname
    · cases hname
    · next c cs hcs =>
      rw [Bool.and_eq_true] at hname
      have hspelled := Token.Spelled.name hname.1 (List.all_eq_true.1 hname.2)
      rwa [← hcs, String.ofList_toList] at hspelled

/-! ## Texts -/

/-- Tokens with a space behind each. -/
def spaced (tokens : List Token) : List Char :=
  tokens.flatMap fun t => t.display.toList ++ [' ']

theorem spaced_cons (t : Token) (tokens : List Token) :
    spaced (t :: tokens) = t.display.toList ++ ' ' :: spaced tokens := by
  simp [spaced]

/-- Symbols and names are read back. -/
theorem exists_lexemes_spaced {tokens : List Token} (h : ∀ t ∈ tokens, t.isWord = true)
    (position : Nat) : ∃ us, lexemes position (spaced tokens) = .ok us ∧ Spells us tokens := by
  induction tokens generalizing position with
  | nil => exact ⟨[], by rw [spaced, List.flatMap_nil, lexemes], rfl⟩
  | cons t tokens ih =>
    obtain ⟨ht, htokens⟩ := List.forall_mem_cons.1 h
    have hspelled := spelled_display ht
    rw [spaced_cons]
    rcases hdisplay : t.display.toList with - | ⟨c, cs⟩
    · exact absurd hdisplay hspelled.ne_nil
    · rw [hdisplay] at hspelled
      obtain ⟨us, hus, hspells⟩ := ih htokens (position + Text.byteSize (c :: cs) + ' '.utf8Size)
      have hends : t.EndsBefore (' ' :: spaced tokens) := by
        refine t.endsBefore_of_isBlank ?_
        rintro _ ⟨⟩
        rfl
      refine ⟨⟨t, position⟩ :: us, ?_, congrArg (t :: ·) hspells⟩
      refine (lexemes_cons_iff (hspelled.not_isBlank c rfl)).2
        ⟨⟨t, c :: cs, ' ' :: spaced tokens⟩, us, readToken_ok_iff.2 ⟨rfl, hspelled, hends⟩, ?_, rfl⟩
      rw [lexemes_cons_blank (by decide)]
      exact hus

/-- A program that symbols and names are read as is in the text of them. -/
theorem parse_spaced {tokens : List Token} {p : Program} (h : ∀ t ∈ tokens, t.isWord = true)
    (hparse : ∀ us, Spells us tokens → parseTokens us = .ok p) :
    parse (String.ofList (spaced tokens)) = .ok p := by
  obtain ⟨us, hus, hspells⟩ := exists_lexemes_spaced h 0
  refine parse_ok_iff.2 ⟨us, ?_, hparse us hspells⟩
  rw [String.toList_ofList]
  exact hus

end Flipbook.Expression
