import Mathlib.Logic.Relation
import Flipbook.Document.Read
import Flipbook.Proofs.Text.Split

/-!
# Remarks and line endings

What stands in a document for its readers only makes no difference: blank lines, comments, white
space at the ends of lines and the way in which lines are ended.

* `IsRemark`: white space and a comment.
* `Retouch`: a step that adds a remark, on a line of its own or at the end of another, or that
  changes how lines are ended.
* `codeLines_of_retouch`, `opening_of_retouch`: what a step leaves as it is.
* `readSectioned_of_retouches`: so do any number of steps.
-/
namespace Flipbook.Document

/-! ## Retouching -/

/-- Whether a text is white space with at most a comment behind it, all on one line. -/
structure IsRemark (text : List Char) : Prop where
  line : '\n' ∉ text
  blank : ∃ blanks comment, text = blanks ++ comment ∧ (∀ c ∈ blanks, Text.isBlank c = true) ∧
    ∀ c ∈ comment.head?, c = '#'

/-- Whether a line starts behind a text. -/
def LineStarts (before : List Char) : Prop := before = [] ∨ before.getLast? = some '\n'

/-- Whether a line ends before a text. -/
def LineEnds (after : List Char) : Prop := after = [] ∨ ['\n'] <+: after ∨ ['\r', '\n'] <+: after

/-- A text whose lines all end with a carriage return before the line feed. -/
def withReturns (text : List Char) : List Char :=
  text.flatMap fun c => if c = '\n' then ['\r', '\n'] else [c]

/-- A step from a document to one that differs in a remark or in its line endings. -/
inductive Retouch : List Char → List Char → Prop where
  /-- A remark on a line of its own, before another line or behind the last line break. -/
  | lineBefore {before remark : List Char} (hbefore : LineStarts before) (hremark : IsRemark remark)
    (after : List Char) : Retouch (before ++ after) (before ++ (remark ++ '\n' :: after))
  /-- A remark on a line of its own, behind the last line. -/
  | lineBehind {remark : List Char} (text : List Char) (hremark : IsRemark remark) :
    Retouch text (text ++ '\n' :: remark)
  /-- A remark at the end of a line. -/
  | lineEnd {remark after : List Char} (before : List Char) (hremark : IsRemark remark)
    (hafter : LineEnds after) : Retouch (before ++ after) (before ++ (remark ++ after))
  | returns (text : List Char) : Retouch text (withReturns text)

variable {before after line remark : List Char}

/-! ## Lines without remarks -/

/-- A line up to its comment, without white space at its end. -/
def codeOf (line : List Char) : List Char := Text.trimEnd (Text.before '#' line)

theorem codeLines_of_notMem (h : '\n' ∉ line) :
    codeLines line = [codeOf line].filter (!·.isEmpty) := by
  rw [codeLines, Text.splitOn_of_notMem h]
  rfl

/-- The lines of two texts with a line break between them. -/
theorem codeLines_append_cons (before after : List Char) :
    codeLines (before ++ '\n' :: after) = codeLines before ++ codeLines after := by
  rw [codeLines, Text.splitOn_append_cons, List.map_append, List.filter_append]
  rfl

theorem trimEnd_append_blanks {blanks : List Char} (h : ∀ c ∈ blanks, Text.isBlank c = true)
    (text : List Char) : Text.trimEnd (text ++ blanks) = Text.trimEnd text := by
  have hreverse : ∀ c ∈ blanks.reverse, Text.isBlank c = true :=
    fun c hc => h c (List.mem_reverse.1 hc)
  rw [Text.trimEnd, Text.dropEndWhile, List.reverse_append,
    List.dropWhile_append_of_pos hreverse]
  rfl

/-- A remark adds nothing to a line. -/
theorem codeOf_append (h : IsRemark remark) (line : List Char) :
    codeOf (line ++ remark) = codeOf line := by
  obtain ⟨-, blanks, comment, rfl, hblanks, hcomment⟩ := h
  unfold codeOf
  by_cases hsign : '#' ∈ line
  · -- what stands behind the number sign does not count
    obtain ⟨code, behind, rfl, hcode⟩ := List.eq_append_cons_of_mem hsign
    rw [List.append_assoc, List.cons_append, Text.before_append hcode, Text.before_append hcode]
  · have hnot : '#' ∉ line ++ blanks := by
      rw [List.mem_append, not_or]
      exact ⟨hsign, fun hmem => absurd (hblanks '#' hmem) (by decide)⟩
    have hbefore : Text.before '#' (line ++ (blanks ++ comment)) = line ++ blanks := by
      rw [← List.append_assoc]
      cases comment with
      | nil => rw [List.append_nil, Text.before_of_notMem hnot]
      | cons c comment =>
        obtain rfl : c = '#' := hcomment c rfl
        exact Text.before_append hnot comment
    rw [hbefore, Text.before_of_notMem hsign, trimEnd_append_blanks hblanks]

theorem codeLines_append_remark (hline : '\n' ∉ line) (h : IsRemark remark) :
    codeLines (line ++ remark) = codeLines line := by
  have hboth : '\n' ∉ line ++ remark := by simp [hline, h.line]
  rw [codeLines_of_notMem hboth, codeLines_of_notMem hline, codeOf_append h]

theorem codeLines_remark (h : IsRemark remark) : codeLines remark = [] :=
  codeLines_append_remark List.not_mem_nil h

theorem isRemark_return : IsRemark ['\r'] where
  line := by decide
  blank := ⟨['\r'], [], rfl, by decide, nofun⟩

/-- A remark may stand before a carriage return at the end of a line. -/
theorem IsRemark.append_return (h : IsRemark remark) : IsRemark (remark ++ ['\r']) := by
  obtain ⟨hline, blanks, comment, rfl, hblanks, hcomment⟩ := h
  refine ⟨by simpa using hline, ?_⟩
  cases comment with
  | nil =>
    refine ⟨blanks ++ ['\r'], [], by simp, ?_, nofun⟩
    exact List.forall_mem_append.2 ⟨hblanks, by decide⟩
  | cons c comment => exact ⟨blanks, c :: (comment ++ ['\r']), by simp, hblanks, hcomment⟩

/-- The last line of a text, and what stands before it. -/
theorem exists_last_line (text : List Char) :
    ∃ front line, text = front ++ line ∧ LineStarts front ∧ '\n' ∉ line := by
  induction text with
  | nil => exact ⟨[], [], rfl, .inl rfl, List.not_mem_nil⟩
  | cons c text ih =>
    obtain ⟨front, line, rfl, rfl | hfront, hline⟩ := ih
    · by_cases hc : c = '\n'
      · exact ⟨[c], line, rfl, .inr (congrArg some hc), hline⟩
      · exact ⟨[], c :: line, rfl, .inl rfl, by simp [Ne.symm hc, hline]⟩
    · obtain ⟨most, rfl⟩ := List.getLast?_eq_some_iff.1 hfront
      refine ⟨c :: (most ++ ['\n']), line, rfl, .inr ?_, hline⟩
      rw [← List.cons_append, List.getLast?_concat]

/-- The lines of a text are those before the start of a line and those behind it. -/
theorem codeLines_append_of_lineStarts (h : LineStarts before) (after : List Char) :
    codeLines (before ++ after) = codeLines before ++ codeLines after := by
  rcases h with rfl | h
  · rfl
  · obtain ⟨front, rfl⟩ := List.getLast?_eq_some_iff.1 h
    have hlast : codeLines (front ++ ['\n']) = codeLines front := by
      rw [codeLines_append_cons]
      exact List.append_nil _
    rw [List.append_assoc, List.singleton_append, codeLines_append_cons, hlast]

/-- The lines of a text are those up to the end of a line and those behind it; the end itself is
a remark. -/
theorem LineEnds.exists_ending (h : LineEnds after) :
    ∃ ending, IsRemark ending ∧ (∀ remark, IsRemark remark → IsRemark (remark ++ ending)) ∧
      ∃ rest, ∀ before, codeLines (before ++ after) = codeLines (before ++ ending) ++ rest := by
  have hnone : IsRemark [] := ⟨List.not_mem_nil, [], [], rfl, nofun, nofun⟩
  rcases h with rfl | ⟨rest, rfl⟩ | ⟨rest, rfl⟩
  · exact ⟨[], hnone, fun remark h => (List.append_nil remark).symm ▸ h, [],
      fun before => (List.append_nil _).symm⟩
  · refine ⟨[], hnone, fun remark h => (List.append_nil remark).symm ▸ h, codeLines rest,
      fun before => ?_⟩
    rw [List.append_nil]
    exact codeLines_append_cons before rest
  · refine ⟨['\r'], isRemark_return, fun _ h => h.append_return, codeLines rest, fun before => ?_⟩
    rw [← codeLines_append_cons, List.append_assoc]
    rfl

theorem withReturns_of_notMem (h : '\n' ∉ line) : withReturns line = line := by
  induction line with
  | nil => rfl
  | cons c line ih =>
    rw [List.mem_cons, not_or] at h
    rw [withReturns, List.flatMap_cons, if_neg (Ne.symm h.1)]
    exact congrArg _ (ih h.2)

theorem codeLines_withReturns (text : List Char) :
    codeLines (withReturns text) = codeLines text := by
  induction hlength : text.length using Nat.strongRecOn generalizing text with
  | _ length ih =>
    by_cases hbreak : '\n' ∈ text
    · obtain ⟨line, rest, rfl, hline⟩ := List.eq_append_cons_of_mem hbreak
      have htext : withReturns (line ++ '\n' :: rest) =
          (line ++ ['\r']) ++ '\n' :: withReturns rest := by
        rw [withReturns, List.flatMap_append, List.flatMap_cons, if_pos rfl, List.append_assoc]
        exact congrArg (· ++ _) (withReturns_of_notMem hline)
      rw [htext, codeLines_append_cons, codeLines_append_cons,
        codeLines_append_remark hline isRemark_return, ih rest.length ?_ rest rfl]
      rw [← hlength, List.length_append, List.length_cons]
      omega
    · rw [withReturns_of_notMem hbreak]

/-- A step changes no line of code. -/
theorem codeLines_of_retouch {content content' : List Char} (h : Retouch content content') :
    codeLines content' = codeLines content := by
  cases h with
  | lineBefore hbefore hremark after =>
    rw [codeLines_append_of_lineStarts hbefore, codeLines_append_of_lineStarts hbefore,
      codeLines_append_cons, codeLines_remark hremark]
    rfl
  | lineBehind _ hremark =>
    rw [codeLines_append_cons, codeLines_remark hremark, List.append_nil]
  | lineEnd before hremark hafter =>
    obtain ⟨front, line, rfl, hfront, hline⟩ := exists_last_line before
    obtain ⟨ending, hending, hjoined, rest, hrest⟩ := hafter.exists_ending
    simp only [List.append_assoc]
    rw [codeLines_append_of_lineStarts hfront, codeLines_append_of_lineStarts hfront, hrest,
      ← List.append_assoc line, hrest, List.append_assoc,
      codeLines_append_remark hline hending, codeLines_append_remark hline (hjoined _ hremark)]
  | returns => exact codeLines_withReturns content

/-! ## How a document opens -/

/-- The first character of a text that is no white space. -/
theorem head?_trimStart (text : List Char) :
    (Text.trimStart text).head? = text.find? (!Text.isBlank ·) := by
  induction text with
  | nil => rfl
  | cons c text ih =>
    rw [Text.trimStart, List.dropWhile_cons, List.find?_cons]
    cases Text.isBlank c with
    | true => exact ih
    | false => rfl

theorem IsRemark.find?_ne (h : IsRemark remark) :
    remark.find? (!Text.isBlank ·) ≠ some '\x7b' := by
  obtain ⟨-, blanks, comment, rfl, hblanks, hcomment⟩ := h
  have hnone : blanks.find? (!Text.isBlank ·) = none :=
    List.find?_eq_none.2 fun c hc => by simp [hblanks c hc]
  rw [List.find?_append, hnone, Option.none_or]
  cases comment with
  | nil => nofun
  | cons c comment =>
    obtain rfl : c = '#' := hcomment c rfl
    rw [List.find?_cons_of_pos (by decide)]
    decide

theorem find?_withReturns (text : List Char) :
    (withReturns text).find? (!Text.isBlank ·) = text.find? (!Text.isBlank ·) := by
  induction text with
  | nil => rfl
  | cons c text ih =>
    rw [withReturns, List.flatMap_cons, List.find?_append, ← withReturns, ih]
    by_cases hc : c = '\n'
    · rw [hc]
      rfl
    · rw [if_neg hc, ← List.find?_append]
      rfl

/-- A remark between two parts of a text brings no brace to its start. -/
theorem IsRemark.find?_between_ne (h : IsRemark remark) (before after : List Char)
    (htext : (before ++ after).find? (!Text.isBlank ·) ≠ some '\x7b') :
    (before ++ (remark ++ after)).find? (!Text.isBlank ·) ≠ some '\x7b' := by
  have hremark := h.find?_ne
  rw [List.find?_append] at htext
  rw [List.find?_append, List.find?_append]
  cases hbefore : before.find? (!Text.isBlank ·) with
  | some c => rwa [hbefore] at htext
  | none =>
    cases hfirst : remark.find? (!Text.isBlank ·) with
    | some c => rwa [hfirst] at hremark
    | none => rwa [hbefore] at htext

/-- A step brings no brace to the start of a document. -/
theorem opening_of_retouch {content content' : List Char} (h : Retouch content content')
    (hopening : (Text.trimStart content).head? ≠ some '\x7b') :
    (Text.trimStart content').head? ≠ some '\x7b' := by
  rw [head?_trimStart] at hopening ⊢
  cases h with
  | lineBefore hbefore hremark after =>
    refine hremark.find?_between_ne _ ('\n' :: after) ?_
    -- the line break is white space, too
    rwa [List.find?_append, List.find?_cons_of_neg (by decide), ← List.find?_append]
  | lineBehind text hremark =>
    have hbreak : (content ++ ['\n'] ++ []).find? (!Text.isBlank ·) ≠ some '\x7b' := by
      rwa [List.append_nil, List.find?_append, List.find?_cons_of_neg (by decide),
        List.find?_nil, Option.or_none]
    have hended := hremark.find?_between_ne (content ++ ['\n']) [] hbreak
    rwa [List.append_nil, List.append_assoc] at hended
  | lineEnd before hremark hafter => exact hremark.find?_between_ne before _ hopening
  | returns => rwa [find?_withReturns]

/-! ## Retouched documents -/

theorem codeLines_of_retouches {content content' : List Char}
    (h : Relation.ReflTransGen Retouch content content') :
    codeLines content' = codeLines content := by
  induction h with
  | refl => rfl
  | tail _ hstep ih => exact (codeLines_of_retouch hstep).trans ih

theorem opening_of_retouches {content content' : List Char}
    (h : Relation.ReflTransGen Retouch content content')
    (hopening : (Text.trimStart content).head? ≠ some '\x7b') :
    (Text.trimStart content').head? ≠ some '\x7b' := by
  induction h with
  | refl => exact hopening
  | tail _ hstep ih => exact opening_of_retouch hstep ih

/-- However often a document is retouched, it reads the same under every configuration and
texture, and it keeps its format unless it opens with a brace. -/
theorem readSectioned_of_retouches {content content' : List Char}
    (h : Relation.ReflTransGen Retouch content content') :
    (∀ config texture, readSectioned config texture content' =
      readSectioned config texture content) ∧
    ((Text.trimStart content).head? ≠ some '\x7b' → formatOf content' = formatOf content) := by
  have hlines := codeLines_of_retouches h
  refine ⟨fun config texture => ?_, fun hopening => ?_⟩
  · have hlogical : logicalLines content' = logicalLines content := by
      rw [logicalLines, logicalLines, hlines]
    rw [readSectioned, readSectioned, hlogical]
  · rw [formatOf, formatOf, if_neg hopening, if_neg (opening_of_retouches h hopening), hlines]

/-- A section with a condition that goes on. -/
def lanternHeading : List Char := "[segment:lit]\nwhen: dark".toList

/-- The rest of the condition, on a line of its own. -/
def lanternCondition : List Char := "  && near".toList

def lanternDocument : List Char := lanternHeading ++ '\n' :: lanternCondition

/-- The same with a comment behind either line of the condition, one between them, and carriage
returns. -/
def annotatedLantern : List Char :=
  withReturns (lanternHeading ++ (" # at night".toList ++
    '\n' :: ("\t# or in a cave".toList ++ '\n' :: (lanternCondition ++ "\t #by hand".toList))))

theorem retouches_annotatedLantern :
    Relation.ReflTransGen Retouch lanternDocument annotatedLantern := by
  have hnight : IsRemark " # at night".toList :=
    ⟨by decide, [' '], "# at night".toList, rfl, by decide, by rintro _ ⟨⟩; rfl⟩
  have hcave : IsRemark "\t# or in a cave".toList :=
    ⟨by decide, ['\t'], "# or in a cave".toList, rfl, by decide, by rintro _ ⟨⟩; rfl⟩
  have hhand : IsRemark "\t #by hand".toList :=
    ⟨by decide, ['\t', ' '], "#by hand".toList, rfl, by decide, by rintro _ ⟨⟩; rfl⟩
  have hfirst := Retouch.lineEnd lanternHeading hnight (.inr (.inl ⟨lanternCondition, rfl⟩))
  have hsecond : LineStarts (lanternHeading ++ (" # at night".toList ++ ['\n'])) :=
    .inr (by rw [← List.append_assoc, List.getLast?_concat])
  have hbetween := Retouch.lineBefore hsecond hcave lanternCondition
  have hlast := Retouch.lineEnd (lanternHeading ++ (" # at night".toList ++ '\n' ::
    ("\t# or in a cave".toList ++ '\n' :: lanternCondition))) hhand (.inl rfl)
  simp only [List.append_assoc, List.cons_append, List.nil_append, List.append_nil]
    at hfirst hbetween hlast
  exact .tail (.tail (.tail (.single hfirst) hbetween) hlast) (.returns _)

theorem readSectioned_of_retouches_lantern :
    Relation.ReflTransGen Retouch lanternDocument annotatedLantern ∧
      (Text.trimStart lanternDocument).head? ≠ some '\x7b' ∧
      (∀ config texture, readSectioned config texture annotatedLantern =
        readSectioned config texture lanternDocument) ∧
      formatOf annotatedLantern = formatOf lanternDocument := by
  have hopening : (Text.trimStart lanternDocument).head? ≠ some '\x7b' := by decide
  obtain ⟨hread, hformat⟩ := readSectioned_of_retouches retouches_annotatedLantern
  exact ⟨retouches_annotatedLantern, hopening, hread, hformat hopening⟩

end Flipbook.Document
