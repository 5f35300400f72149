import Flipbook.Document.Read
import Flipbook.Proofs.Document.SectionedWriting

/-!
# Sections are read as they are written

The lines of a sectioned document are told apart, their sections come with the
properties that were written in them, and the frames of a range come out of the list
of its ends, as long as a list may hold two frames.

* `logicalLines_linesText`: lines are read one by one.
* `get?_propertiesOf`: properties.
* `sections_lines`: sections come with their properties.
* `listFrames?_rangeText`, `spanning_ends`: a list of the ends of a range spans the range.
-/
namespace Flipbook.Document

open Decimal (IsWord frameBound naturalText frame?_naturalText isWord_naturalText)

variable {text : List Char} {entries : List (String × List Char)}

/-! ## Lines -/

theorem onLine_of_isWord (h : IsWord text) : OnLine text :=
  ⟨h.trim, fun hc => absurd (h _ hc) (by decide), fun hc => absurd (h _ hc) (by decide)⟩

theorem OnLine.first (h : OnLine text) : ∀ c ∈ text.head?, Text.isBlank c = false :=
  (Text.stripWhile_eq_self_iff.1 h.trimmed).1

theorem OnLine.last (h : OnLine text) : ∀ c ∈ text.getLast?, Text.isBlank c = false :=
  (Text.stripWhile_eq_self_iff.1 h.trimmed).2

theorem OnLine.trimEnd (h : OnLine text) : Text.trimEnd text = text := by
  have hend : Text.trimEnd (text ++ []) = text := Text.dropEndWhile_eq nofun h.last
  rwa [List.append_nil] at hend

/-- Whether some lines are read as they are. -/
def AreLines (lines : List (List Char)) : Prop := ∀ line ∈ lines, OnLine line ∧ line ≠ []

theorem codeLines_linesText {lines : List (List Char)} (h : AreLines lines) :
    codeLines (linesText lines) = lines := by
  induction lines with
  | nil => rfl
  | cons line lines ih =>
    obtain ⟨⟨hline, hne⟩, hlines⟩ := List.forall_mem_cons.1 h
    have htext : linesText (line :: lines) = line ++ '\n' :: linesText lines := by
      simp [linesText]
    rw [htext, codeLines_append hline.line hline.comment hline.trimEnd hne,
      ih hlines]

/-- A line that opens with no blank continues no other. -/
theorem continues_eq_false {line : List Char} (h : OnLine line) : continues line = false := by
  cases line with
  | nil => rfl
  | cons c cs =>
    have hblank := h.first c rfl
    have hsigns : ∀ c ∈ [' ', '\t'], Text.isBlank c = true := by decide
    have hnot : ¬(c = ' ' ∨ c = '\t') := by
      rintro (rfl | rfl) <;> rw [hsigns _ (by simp)] at hblank <;> cases hblank
    rw [not_or] at hnot
    simp [continues, hnot.1, hnot.2]

theorem addLine_eq {line : List Char} (h : OnLine line) (lines : List (List Char)) :
    addLine lines line = line :: lines := by
  cases lines with
  | nil => rw [addLine, h.trimmed]
  | cons previous earlier =>
    rw [addLine, if_neg (by simp [continues_eq_false h]), h.trimmed]

/-- Lines are read one by one. -/
theorem logicalLines_linesText {lines : List (List Char)} (h : AreLines lines) :
    logicalLines (linesText lines) = lines := by
  have hfold : ∀ sofar, lines.foldl addLine sofar = lines.reverse ++ sofar := by
    intro sofar
    induction lines generalizing sofar with
    | nil => rfl
    | cons line lines ih =>
      obtain ⟨hline, hlines⟩ := List.forall_mem_cons.1 h
      rw [List.foldl_cons, addLine_eq hline.1, ih hlines, List.reverse_cons, List.append_assoc]
      rfl
  rw [logicalLines, codeLines_linesText h, hfold, List.append_nil, List.reverse_reverse]

/-! ## Properties -/

/-- Whether a property can be written on a line. -/
structure IsProperty (entry : String × List Char) : Prop where
  key : IsKey entry.1.toList
  value : OnLine entry.2
  nonempty : entry.2 ≠ []

theorem IsKey.head?_ne {key : List Char} (h : IsKey key) (behind : List Char) :
    ∀ c ∈ (key ++ ':' :: behind).head?, Text.isBlank c = false ∧ c ≠ '[' := by
  intro c hc
  cases key with
  | nil =>
    cases hc
    decide
  | cons first key =>
    cases hc
    exact ⟨h.not_isBlank c List.mem_cons_self, fun heq =>
      h.notMem (c := '[') (by decide) (by decide) (heq ▸ List.mem_cons_self)⟩

namespace IsProperty

variable {entry : String × List Char}

theorem onLine (h : IsProperty entry) : OnLine (propertyLine entry) where
  trimmed := by
    refine Text.stripWhile_eq_self_iff.2 ⟨fun c hc => (h.key.head?_ne _ c hc).1, ?_⟩
    intro c hc
    have hlast : (entry.1.toList ++ ([':', ' '] ++ entry.2)).getLast? = entry.2.getLast? := by
      rw [← List.append_assoc, List.getLast?_append, List.getLast?_eq_some_getLast h.nonempty,
        Option.some_or]
    exact h.value.last c (hlast ▸ hc)
  line := by
    simp [propertyLine, h.key.notMem (c := '\n') (by decide) (by decide), h.value.line]
  comment := by
    simp [propertyLine, h.key.notMem (c := '#') (by decide) (by decide), h.value.comment]

theorem isHeader_eq (h : IsProperty entry) : isHeader (propertyLine entry) = false := by
  have hhead : (propertyLine entry).head? ≠ some '[' := fun hc => (h.key.head?_ne _ _ hc).2 rfl
  simp [isHeader, hhead]

/-- A property is read as it is written. -/
theorem property?_eq (h : IsProperty entry) : property? (propertyLine entry) = some entry := by
  have hcolon : ':' ∉ entry.1.toList := h.key.notMem (by decide) (by decide)
  have htrim : Text.trim ([' '] ++ (entry.2 ++ [])) = entry.2 :=
    Text.stripWhile_append (by decide) (by simp) h.value.first h.value.last
  rw [List.append_nil, List.singleton_append] at htrim
  rw [property?, propertyLine, Text.cut_append hcolon, Option.map_some]
  dsimp only
  rw [h.key.trim, htrim, String.ofList_toList]

end IsProperty

/-- Properties with different keys are all kept. -/
theorem get?_foldl_add {p : Properties} (hkeys : (entries.map Prod.fst).Nodup)
    (hp : ∀ entry ∈ entries, p.get? entry.1 = none) (key : String) :
    (entries.foldl (fun p (key, value) => p.add key value) p).get? key =
      (entries.lookup key).or (p.get? key) := by
  have hfold : entries.foldl (fun p (key, value) => p.add key value) p =
      entries.foldl (fun p e => p.insert e.1 e.2) p := by
    induction entries generalizing p with
    | nil => rfl
    | cons entry entries ih =>
      rw [List.map_cons, List.nodup_cons] at hkeys
      obtain ⟨hnone, hlater⟩ := List.forall_mem_cons.1 hp
      have hadd : p.add entry.1 entry.2 = p.insert entry.1 entry.2 := by
        rw [Properties.add, hnone]
      rw [List.foldl_cons, List.foldl_cons]
      dsimp only
      rw [hadd]
      refine ih hkeys.2 fun later hmem => ?_
      have hne : ¬compare later.1 entry.1 = .eq := by
        intro heq
        have hsame : later.1 = entry.1 := Std.LawfulEqCmp.eq_of_compare heq
        exact hkeys.1 (hsame ▸ List.mem_map_of_mem hmem)
      rw [Table.get?_insert, if_neg hne]
      exact hlater later hmem
  rw [hfold, Table.get?_foldl_insert hkeys]

theorem get?_propertiesOf (h : ∀ entry ∈ entries, IsProperty entry)
    (hkeys : (entries.map Prod.fst).Nodup) (key : String) :
    (propertiesOf (entries.map propertyLine)).get? key = entries.lookup key := by
  have hread : (entries.map propertyLine).filterMap property? = entries := by
    clear key
    induction entries with
    | nil => rfl
    | cons entry entries ih =>
      obtain ⟨hentry, hentries⟩ := List.forall_mem_cons.1 h
      rw [List.map_cons, List.filterMap_cons_some hentry.property?_eq,
        ih hentries (List.nodup_cons.1 hkeys).2]
  have hnone : ∀ entry ∈ entries, (∅ : Properties).get? entry.1 = none := fun _ _ => rfl
  rw [propertiesOf, hread, get?_foldl_add hkeys hnone]
  exact Option.or_none

/-! ## Sections -/

/-- Whether a section can be written. -/
structure WrittenSection.Writable (part : WrittenSection) : Prop where
  header : OnLine part.header
  nonempty : part.header ≠ []
  isHeader : Document.isHeader part.header = true
  entries : ∀ entry ∈ part.entries, IsProperty entry

namespace WrittenSection.Writable

variable {part : WrittenSection}

theorem areLines (h : part.Writable) : AreLines part.lines := by
  refine List.forall_mem_cons.2 ⟨⟨h.header, h.nonempty⟩, ?_⟩
  intro line hline
  obtain ⟨entry, hentry, rfl⟩ := List.mem_map.1 hline
  exact ⟨(h.entries entry hentry).onLine, by simp [propertyLine]⟩

/-- The lines of a section are its own. -/
theorem sections_append (h : part.Writable) {lines : List (List Char)}
    (hlines : (sections lines).1 = []) :
    sections (part.lines ++ lines) =
      ([], (Section.ofHeader part.header, part.entries.map propertyLine) ::
        (sections lines).2) := by
  have hbody : ∀ entries : List (String × List Char), (∀ entry ∈ entries, IsProperty entry) →
      sections (entries.map propertyLine ++ lines) =
        (entries.map propertyLine, (sections lines).2) := by
    intro entries hentries
    induction entries with
    | nil => exact Prod.ext hlines rfl
    | cons entry entries ih =>
      obtain ⟨hentry, hentries⟩ := List.forall_mem_cons.1 hentries
      rw [List.map_cons, List.cons_append, sections, ih hentries]
      dsimp only
      rw [if_neg (by simp [hentry.isHeader_eq])]
  rw [WrittenSection.lines, List.cons_append, sections, hbody part.entries h.entries]
  dsimp only
  rw [if_pos h.isHeader]

end WrittenSection.Writable

/-- Sections come one after the other. -/
theorem sections_lines {parts : List WrittenSection} (h : ∀ part ∈ parts, part.Writable) :
    sections (parts.flatMap WrittenSection.lines) =
      ([], parts.map fun part =>
        (Section.ofHeader part.header, part.entries.map propertyLine)) := by
  induction parts with
  | nil => rfl
  | cons part parts ih =>
    obtain ⟨hpart, hparts⟩ := List.forall_mem_cons.1 h
    have hlater := ih hparts
    rw [List.flatMap_cons, hpart.sections_append (by rw [hlater]), hlater]
    rfl

/-! ## Substitutions -/

theorem pieces_of_notMem (h : '$' ∉ text) : pieces text = text.map Piece.char := by
  induction text with
  | nil => rw [pieces, List.map_nil]
  | cons c cs ih =>
    rw [List.mem_cons, not_or] at h
    rw [pieces, if_neg (by simp [Ne.symm h.1]), ih h.2]
    rfl

/-- A text without tokens stays as it is. -/
theorem value_expand_of_notMem (s : Substitutions) (h : '$' ∉ text) :
    (s.expand text).value = text := by
  have hmap : (text.map Piece.char).map (fun piece => (s.expandPiece text piece).value) =
      text.map fun c => [c] :=
    List.map_map
  rw [Substitutions.expand, Noted.value_bind, pieces_of_notMem h, Noted.value_mapM, hmap]
  exact List.flatMap_singleton' text

/-! ## Frames -/

/-- The frames of a text that is a list as it stands. -/
theorem outcome_resolveFrames (s : Substitutions) (limit : Nat) {frames : List Nat}
    (htoken : '$' ∉ text) (htrim : Text.trim text = text)
    (hframes : listFrames? limit text = some frames) :
    (resolveFrames s limit text).outcome.value = .ok frames.mergeSort.eraseReps := by
  refine Reading.outcome_bind_eq_ok_iff.2
    ⟨text, congrArg Except.ok (value_expand_of_notMem s htoken), ?_⟩
  dsimp only
  rw [htrim, hframes]
  rfl

theorem partFrames?_naturalText (limit : Nat) {n : Nat} (h : n < frameBound) :
    partFrames? limit (naturalText n) = some [n] := by
  have hnot {c : Char} (hc : c.isDigit = false) : c ∉ naturalText n := by
    intro hmem
    rw [Decimal.isDigit_of_mem_naturalText hmem] at hc
    cases hc
  rw [partFrames?, Text.cut_eq_none (hnot (by decide))]
  dsimp only
  rw [plainFrames?, Text.cut_eq_none (hnot (by decide))]
  dsimp only
  rw [(isWord_naturalText n).trim, frame?_naturalText h]
  rfl

theorem listFrames?_naturalText (limit : Nat) {n : Nat} (h : n < frameBound) :
    listFrames? limit (naturalText n) = some [n] := by
  have hbracketed : bracketed? (naturalText n) = none := by
    unfold bracketed?
    split
    · next inner hinner => exact absurd hinner (Decimal.naturalText_ne_cons (by decide) n inner)
    · rfl
  rw [listFrames?, hbracketed]
  exact partFrames?_naturalText limit h

/-- The two ends of a range are its frames in a list. -/
theorem listFrames?_rangeText {limit : Nat} (hlimit : 2 ≤ limit) {range : FrameRange}
    (hfirst : range.first < frameBound) (hlast : range.last < frameBound) :
    listFrames? limit (rangeText range) = some [range.first, range.last] := by
  let inner := naturalText range.first ++ ',' :: ([' '] ++ (naturalText range.last ++ []))
  have htext : rangeText range = '[' :: (inner ++ [']']) := by
    simp [rangeText, inner]
  have hbracketed : bracketed? (rangeText range) = some inner := by
    rw [htext]
    unfold bracketed?
    split
    · next within hwithin =>
      obtain rfl : inner ++ [']'] = within := (List.cons.inj hwithin).2
      rw [List.getLast?_concat, if_pos rfl, List.dropLast_concat]
    · next hnot => exact absurd rfl (hnot _)
  have hcomma (n : Nat) : ',' ∉ naturalText n :=
    fun hmem => absurd (Decimal.isDigit_of_mem_naturalText hmem) (by decide)
  have hsplit : Text.splitOn ',' inner =
      [naturalText range.first, [' '] ++ (naturalText range.last ++ [])] := by
    rw [Text.splitOn_append (hcomma _), Text.splitOn_of_notMem (by simp [hcomma])]
  have htrim : Text.trim ([' '] ++ (naturalText range.last ++ [])) = naturalText range.last := by
    have hline := onLine_of_isWord (isWord_naturalText range.last)
    exact Text.stripWhile_append (by decide) (by simp) hline.first hline.last
  rw [listFrames?, hbracketed]
  dsimp only
  rw [hsplit]
  simp only [List.mapM_cons, List.mapM_nil]
  rw [(isWord_naturalText _).trim, htrim, partFrames?_naturalText limit hfirst,
    partFrames?_naturalText limit hlast]
  exact if_pos (by simp [hlimit])

/-- A list of the ends of a range spans the range. -/
theorem spanning_ends {range : FrameRange} (h : range.first ≤ range.last) :
    FrameRange.spanning [range.first, range.last].mergeSort.eraseReps = range := by
  obtain ⟨first, last⟩ := range
  have hsort : [first, last].mergeSort = [first, last] :=
    List.mergeSort_of_pairwise (by simpa using h)
  rw [hsort]
  rcases Nat.eq_or_lt_of_le h with heq | hlt
  · obtain rfl : first = last := heq
    have hreps : [first, first].eraseReps = [first] := by
      simp [List.eraseReps, List.eraseRepsBy, List.eraseRepsBy.loop]
    rw [hreps]
    rfl
  · have hne : (first == last) = false := beq_eq_false_iff_ne.2 (Nat.ne_of_lt hlt)
    have hreps : [first, last].eraseReps = [first, last] := by
      simp [List.eraseReps, List.eraseRepsBy, List.eraseRepsBy.loop, hne]
    rw [hreps]
    simp [FrameRange.spanning, Nat.min_eq_left h, Nat.max_eq_right h]

/-- A numeral or a range holds neither what separates nor what is substituted. -/
theorem notMem_rangeText {range : FrameRange} {c : Char} (hdigit : c.isDigit = false)
    (hc : c ∉ ['[', ',', ' ', ']']) : c ∉ rangeText range := by
  have hnatural (n : Nat) : c ∉ naturalText n := by
    intro hmem
    rw [Decimal.isDigit_of_mem_naturalText hmem] at hdigit
    cases hdigit
  simp only [List.mem_cons, List.not_mem_nil, or_false, not_or] at hc
  simp [rangeText, hnatural, hc]

theorem onLine_rangeText (range : FrameRange) : OnLine (rangeText range) where
  trimmed := by
    have htext : rangeText range =
        '[' :: (naturalText range.first ++ ',' :: ' ' :: naturalText range.last ++ [']']) := by
      simp [rangeText]
    rw [htext]
    exact Text.stripWhile_between (by decide) (by decide) _
  line := notMem_rangeText (by decide) (by decide)
  comment := notMem_rangeText (by decide) (by decide)

end Flipbook.Document
