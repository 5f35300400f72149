import Flipbook.Proofs.Document.BlockDeclarations
import Flipbook.Proofs.Document.Correctors
import Flipbook.Proofs.Document.Overrun

/-!
# Declarations wherever they stand

A declaration is read from its text. Where the text stands counts only in the errors that are
reported: what is found in it, and what is left of it, is always the same.

* `corrector_of_balanced` and its like: what the parts of a declaration are read to.
* `found?_declaration`: two places where a text is read to the same declaration.
* `exists_part`: what a marker comes to.
* `readSegments_of_breakOn`: the segments of a list, one marker after the other.
-/
namespace Flipbook.Text.Remainder

/-- A position is behind what was taken. -/
theorem position_eq {start : Nat} {text taken : List Char} (r : Remainder start text)
    (h : text = taken ++ r.rest.1) : r.position = start + byteSize taken := by
  have hmeasured := r.measured
  have hsize := congrArg byteSize h
  rw [byteSize_append] at hsize
  omega

end Flipbook.Text.Remainder

namespace Flipbook.Document

open Text (Remainder byteSize)

variable {text : List Char}

/-! ## The parts of a declaration -/

theorem propertyBraces_of_not_opening (h : text.head? ≠ some '\x7b') (position : Nat) :
    propertyBraces position text = .error (.illFormed position .noProperties) := by
  unfold propertyBraces
  split
  · exact absurd rfl h
  · rfl

theorem propertyBraces_of_unbalanced {body : List Char} (htext : text = '\x7b' :: body)
    (h : balanced '\x7b' '\x7d' body = none) (position : Nat) :
    propertyBraces position text = .error (.illFormed position .unterminatedBrace) := by
  unfold propertyBraces
  split
  · next body' =>
    obtain rfl : body' = body := (List.cons.inj htext).2
    split
    · next hfound =>
      rw [h] at hfound
      cases hfound
    · rfl
  · next hnot => exact absurd htext (hnot body)

theorem corrector_of_cut_none (h : Text.cut '(' text = none) (position : Nat) :
    corrector position text = .error (.illFormed position .noArgument) := by
  unfold corrector
  split
  · next hfound =>
    rw [h] at hfound
    cases hfound
  · rfl

theorem corrector_of_unbalanced {name body : List Char}
    (hcut : Text.cut '(' text = some (name, body)) (h : balanced '(' ')' body = none)
    (position : Nat) :
    corrector position text =
      .error (.illFormed (position + byteSize name) .unterminatedParen) := by
  unfold corrector
  split
  · next hfound =>
    rw [hcut] at hfound
    cases hfound
    split
    · next hfound =>
      rw [h] at hfound
      cases hfound
    · rfl
  · next hfound =>
    rw [hcut] at hfound
    cases hfound

theorem corrector_of_balanced {name body argument rest : List Char}
    (hcut : Text.cut '(' text = some (name, body))
    (h : balanced '(' ')' body = some (argument, rest)) (position : Nat) :
    ∃ r, corrector position text = .ok (⟨Text.trim name, argument⟩, r) ∧ r.rest.1 = rest := by
  unfold corrector
  split
  · next hfound =>
    rw [hcut] at hfound
    cases hfound
    split
    · next hfound =>
      rw [h] at hfound
      cases hfound
      exact ⟨_, rfl, rfl⟩
    · next hfound =>
      rw [h] at hfound
      cases hfound
  · next hfound =>
    rw [hcut] at hfound
    cases hfound

theorem optionalCorrector_of_not_sign (h : text.head? ≠ some '@') (position : Nat) :
    optionalCorrector position text = .ok (none, .whole position text) := by
  unfold optionalCorrector
  split
  · exact absurd rfl h
  · rfl

theorem optionalCorrector_sign (position : Nat) (body : List Char) :
    optionalCorrector position ('@' :: body) =
      (corrector (position + 1) body).bind fun (c, r) =>
        .ok (some c, (Remainder.behind position ['@'] body rfl).andThen
          (r.andThen (.dropWhile Text.isBlank r.position r.rest.1))) :=
  rfl

/-! ## Two places -/

/-- What a reader finds and what it leaves, without the positions. -/
def found? {α : Type} {start : Nat} (x : Except Error (α × Remainder start text)) :
    Option (α × List Char) :=
  match x with
  | .ok (a, r) => some (a, r.rest.1)
  | .error _ => none

variable {text' : List Char} {start start' : Nat}

/-- Readers that find the same go on alike. -/
theorem found?_bind {α β : Type} {whole whole' : List Char} {origin origin' : Nat}
    {x : Except Error (α × Remainder start text)} {y : Except Error (α × Remainder start' text')}
    (h : found? x = found? y)
    {f : α × Remainder start text → Except Error (β × Remainder origin whole)}
    {g : α × Remainder start' text' → Except Error (β × Remainder origin' whole')}
    (hfg : ∀ a r r', r.rest.1 = r'.rest.1 → found? (f (a, r)) = found? (g (a, r'))) :
    found? (x >>= f) = found? (y >>= g) := by
  cases x with
  | error e =>
    cases y with
    | error e' => rfl
    | ok found' => cases h
  | ok found =>
    cases y with
    | error e' => cases h
    | ok found' =>
      obtain ⟨ha, hr⟩ := Prod.mk.inj (Option.some.inj h)
      obtain ⟨a, r⟩ := found
      obtain ⟨a', r'⟩ := found'
      obtain rfl : a = a' := ha
      exact hfg a r r' hr

theorem found?_propertyBraces (position position' : Nat) (htext : text = text') :
    found? (propertyBraces position text) = found? (propertyBraces position' text') := by
  subst htext
  by_cases hopen : text.head? = some '\x7b'
  · obtain ⟨body, rfl⟩ := List.head?_eq_some_iff.1 hopen
    cases hbalanced : balanced '\x7b' '\x7d' body with
    | none =>
      rw [propertyBraces_of_unbalanced rfl hbalanced, propertyBraces_of_unbalanced rfl hbalanced]
      rfl
    | some found =>
      obtain ⟨inner, rest⟩ := found
      obtain ⟨hbody, hinner⟩ := balanced_eq_some_iff.1 hbalanced
      obtain ⟨r, hr, hrest⟩ := propertyBraces_eq hinner (congrArg ('\x7b' :: ·) hbody) position
      obtain ⟨r', hr', hrest'⟩ := propertyBraces_eq hinner (congrArg ('\x7b' :: ·) hbody) position'
      rw [hr, hr', found?, found?, hrest, hrest']
  · rw [propertyBraces_of_not_opening hopen, propertyBraces_of_not_opening hopen]
    rfl

theorem found?_corrector (position position' : Nat) (text : List Char) :
    found? (corrector position text) = found? (corrector position' text) := by
  cases hcut : Text.cut '(' text with
  | none =>
    rw [corrector_of_cut_none hcut, corrector_of_cut_none hcut]
    rfl
  | some found =>
    obtain ⟨name, body⟩ := found
    cases hbalanced : balanced '(' ')' body with
    | none =>
      rw [corrector_of_unbalanced hcut hbalanced, corrector_of_unbalanced hcut hbalanced]
      rfl
    | some found =>
      obtain ⟨argument, rest⟩ := found
      obtain ⟨r, hr, hrest⟩ := corrector_of_balanced hcut hbalanced position
      obtain ⟨r', hr', hrest'⟩ := corrector_of_balanced hcut hbalanced position'
      rw [hr, hr', found?, found?, hrest, hrest']

theorem found?_optionalCorrector (position position' : Nat) (text : List Char) :
    found? (optionalCorrector position text) = found? (optionalCorrector position' text) := by
  by_cases hsign : text.head? = some '@'
  · obtain ⟨body, rfl⟩ := List.head?_eq_some_iff.1 hsign
    rw [optionalCorrector_sign, optionalCorrector_sign]
    refine found?_bind (found?_corrector _ _ body) fun c r r' hrest => ?_
    show some (some c, r.rest.1.dropWhile Text.isBlank) =
      some (some c, r'.rest.1.dropWhile Text.isBlank)
    rw [hrest]
  · rw [optionalCorrector_of_not_sign hsign, optionalCorrector_of_not_sign hsign]
    rfl

/-- What a declaration is does not depend on its position. -/
theorem found?_declaration (position position' : Nat) (text : List Char) :
    found? (declaration position text) = found? (declaration position' text) := by
  unfold declaration
  cases BlockKind.ofName (String.ofList (text.takeWhile (!endsKind ·))) with
  | error e => rfl
  | ok kind =>
    refine found?_bind (found?_optionalCorrector _ _ _) fun c r r' hrest => ?_
    refine found?_bind (found?_propertyBraces _ _ hrest) fun properties s s' hrest => ?_
    exact congrArg (fun rest => some (Declaration.mk kind c properties, rest)) hrest

/-! ## Segments -/

theorem ofExcept_ok_bind {α β : Type} (a : α) (f : α → Reading β) :
    (Reading.ofExcept (.ok a) >>= f) = f a :=
  rfl

/-- What comes of a marker does not depend on its position. -/
theorem readSegment_position (config : Config) (texture : Texture) (index position position' : Nat)
    (text : List Char) :
    (readSegment config texture index position text).value.segment =
        (readSegment config texture index position' text).value.segment ∧
      (readSegment config texture index position text).value.remainder.rest.1 =
        (readSegment config texture index position' text).value.remainder.rest.1 := by
  have hfound := found?_declaration (behindMarker position) (behindMarker position') text
  unfold readSegment
  revert hfound
  cases declaration (behindMarker position) text with
  | error e =>
    cases declaration (behindMarker position') text with
    | error e' => exact fun _ => ⟨rfl, rfl⟩
    | ok found' => exact nofun
  | ok found =>
    cases declaration (behindMarker position') text with
    | error e' => exact nofun
    | ok found' =>
      intro hfound
      obtain ⟨d, r⟩ := found
      obtain ⟨d', r'⟩ := found'
      obtain ⟨hd, hr⟩ := Prod.mk.inj (Option.some.inj hfound)
      obtain rfl : d = d' := hd
      simp only [ofExcept_ok_bind]
      generalize d.segment config index = read
      cases read with
      | mk outcome notices =>
        cases outcome with
        | error e => exact ⟨rfl, rfl⟩
        | ok s => exact ⟨rfl, hr⟩

/-- What comes of a marker, wherever it stands: a segment or none, and the part of the text that
it takes. -/
theorem exists_part (config : Config) (texture : Texture) (index : Nat) (text : List Char) :
    ∃ segment part rest, text = part ++ rest ∧
      ∀ position, (readSegment config texture index position text).value.segment = segment ∧
        (readSegment config texture index position text).value.remainder.rest.1 = rest ∧
        (readSegment config texture index position text).value.remainder.position =
          behindMarker position + byteSize part := by
  obtain ⟨part, hpart⟩ := (readSegment_cases config texture index 0 text).1
  refine ⟨(readSegment config texture index 0 text).value.segment, part, _, hpart.symm,
    fun position => ?_⟩
  obtain ⟨hsegment, hrest⟩ := readSegment_position config texture index position 0 text
  have htext : text =
      part ++ (readSegment config texture index position text).value.remainder.rest.1 := by
    rw [hrest, hpart]
  exact ⟨hsegment, hrest, Remainder.position_eq _ htext⟩

theorem readSegments_none {config : Config} {texture : Texture} {index position : Nat}
    {text : List Char} (h : Text.breakOn segmentMarker text = none) :
    readSegments config texture index position text = pure [] := by
  rw [readSegments]
  split
  · rfl
  · next hfound =>
    rw [h] at hfound
    cases hfound

theorem readSegments_of_breakOn {text left tail : List Char}
    (h : Text.breakOn segmentMarker text = some (left, segmentMarker ++ tail)) (config : Config)
    (texture : Texture) (index position : Nat) :
    readSegments config texture index position text =
      let step := readSegment config texture index (position + byteSize left) tail
      let later := readSegments config texture (index + 1) step.value.remainder.position
        step.value.remainder.rest.1
      ⟨step.value.segment.toList ++ later.value, step.notices ++ later.notices⟩ := by
  rw [readSegments]
  split
  · next hfound =>
    rw [h] at hfound
    cases hfound
  · next left' right hfound =>
    rw [h] at hfound
    obtain ⟨rfl, rfl⟩ : left = left' ∧ segmentMarker ++ tail = right := by simpa using hfound
    rw [List.drop_left]

end Flipbook.Document
