import Flipbook.Document.Read
import Flipbook.Proofs.Document.BlockDeclarations

/-!
# Block documents are read as they are written

What is written for an animation is recognised as a block document and read as that
animation, whatever stands in its names, events and conditions.

* `value_readSegments_declarationLines`: lists of declarations.
* `layout_blockText`: the list of a document is found between its braces.
* `formatOf_blockText`: the format is recognised by the first declaration.
* `read_blockText`: whole documents.
-/
namespace Flipbook.Document

open Decimal (IsWord isWordChar frame?_naturalText boolean?_booleanText isWord_naturalText
  isWord_booleanText)

variable {text rest : List Char} {entries : List (String × List Char)}

/-! ## Lists of declarations -/

theorem encloses_blank : Encloses '\x7b' '\x7d' .outside 0 [' '] :=
  encloses_of_notMem rfl (by decide) (by decide)

theorem encloses_line : Encloses '\x7b' '\x7d' .outside 0 ['\n'] :=
  encloses_of_notMem rfl (by decide) (by decide)

theorem encloses_entriesText (h : ∀ entry ∈ entries, IsEntry entry) :
    Encloses '\x7b' '\x7d' .outside 0 (entriesText entries) := by
  induction entries with
  | nil => exact encloses_nil_iff.2 ⟨rfl, rfl⟩
  | cons entry entries ih =>
    obtain ⟨hentry, hentries⟩ := List.forall_mem_cons.1 h
    have hbrace {c : Char} (hc : isEntryChar c = false) :
        c ∉ Quoting.outside.bare (entryHead entry ++ entry.2) := by
      intro hmem
      rw [hentry.bare c hmem] at hc
      cases hc
    have hpiece : Encloses '\x7b' '\x7d' .outside 0 (entryHead entry ++ entry.2) :=
      encloses_of_notMem hentry.closed (hbrace (by decide)) (hbrace (by decide))
    have hsemicolon : Encloses '\x7b' '\x7d' .outside 0 [';'] :=
      encloses_of_notMem rfl (by decide) (by decide)
    have htext : entriesText (entry :: entries) =
        entryHead entry ++ entry.2 ++ ([';'] ++ entriesText entries) := by
      simp [entriesText, entryText]
    rw [htext]
    exact hpiece.append (hsemicolon.append (ih hentries))

theorem Quotable.encloses (h : Quotable text) {opening closing : Char} :
    Encloses opening closing .outside 0 (inQuotes text) := by
  refine encloses_of_notMem h.after_inQuotes ?_ ?_ <;> rw [h.bare_inQuotes] <;> exact nofun

/-- The corrector of a trigger keeps to its delimiters. -/
theorem embeddable_corrector {t : Trigger} {random : Expression.Random}
    (h : t.BlockWritable random) :
    ∀ c ∈ t.corrector, c.Embeddable := by
  intro c hc
  cases h with
  | none => cases hc
  | event h =>
    have hname : IsWord "event".toList := List.all_eq_true.1 (by decide)
    cases hc
    exact ⟨hname, h.encloses, h.encloses⟩
  | @condition source h =>
    have hname : IsWord "expression".toList := List.all_eq_true.1 (by decide)
    cases hc
    rw [Expression.Condition.source_read]
    exact ⟨hname, h.parentheses, h.braces⟩

theorem embeddable_declaration {s : Segment} {random : Expression.Random}
    (h : s.BlockWritable random) : s.declaration.Embeddable := by
  refine ⟨?_, ?_⟩
  · intro c hc
    obtain ⟨t, ht, hc⟩ := Option.bind_eq_some_iff.1 hc
    exact embeddable_corrector (h.trigger t ht) c hc
  · exact (encloses_entriesText (isEntry_blockEntries h.name)).append encloses_blank

theorem encloses_word {word : List Char} (h : IsWord word) :
    Encloses '\x7b' '\x7d' .outside 0 word := by
  have hnot {c : Char} (hc : isWordChar c = false) : c ∉ word := by
    intro hmem
    rw [h c hmem] at hc
    cases hc
  have hquote : '\x22' ∉ word := hnot (by decide)
  refine encloses_of_notMem (Quoting.after_outside hquote) ?_ ?_
  · rw [Quoting.bare_outside hquote]
    exact hnot (by decide)
  · rw [Quoting.bare_outside hquote]
    exact hnot (by decide)

theorem Corrector.Embeddable.encloses {c : Corrector} (h : c.Embeddable) :
    Encloses '\x7b' '\x7d' .outside 0 c.text := by
  have hsign : Encloses '\x7b' '\x7d' .outside 0 [' ', '@'] :=
    encloses_of_notMem rfl (by decide) (by decide)
  have hopening : Encloses '\x7b' '\x7d' .outside 0 ['('] :=
    encloses_of_notMem rfl (by decide) (by decide)
  have hclosing : Encloses '\x7b' '\x7d' .outside 0 [')'] :=
    encloses_of_notMem rfl (by decide) (by decide)
  exact hsign.append ((encloses_word h.name).append (hopening.append (h.braces.append hclosing)))

/-- A declaration opens and closes braces of its own only. -/
theorem Declaration.Embeddable.encloses {d : Declaration} (h : d.Embeddable) :
    Encloses '\x7b' '\x7d' .outside 0 d.text := by
  have hmarker : Encloses '\x7b' '\x7d' .outside 0 segmentMarker :=
    encloses_of_notMem (by decide) (by decide) (by decide)
  have hkind : Encloses '\x7b' '\x7d' .outside 0 d.kind.capitals := by
    cases d.kind <;> exact encloses_of_notMem (by decide) (by decide) (by decide)
  have hcorrector : Encloses '\x7b' '\x7d' .outside 0 (d.corrector.elim [] Corrector.text) := by
    cases hfound : d.corrector with
    | none => exact encloses_nil_iff.2 ⟨rfl, rfl⟩
    | some c => exact (h.corrector c hfound).encloses
  have hbraces := h.braces.between (by decide) (by decide) (by decide)
  exact hmarker.append (hkind.append (hcorrector.append (encloses_blank.append hbraces)))

theorem encloses_declarationLines {segments : List Segment}
    (h : ∀ s ∈ segments, ∃ random, s.BlockWritable random) :
    Encloses '\x7b' '\x7d' .outside 0 (Metadata.declarationLines segments) := by
  induction segments with
  | nil => exact encloses_nil_iff.2 ⟨rfl, rfl⟩
  | cons s segments ih =>
    obtain ⟨⟨random, hs⟩, hsegments⟩ := List.forall_mem_cons.1 h
    have htext : Metadata.declarationLines (s :: segments) =
        ['\n'] ++ (s.declaration.text ++ Metadata.declarationLines segments) := by
      simp [Metadata.declarationLines]
    rw [htext]
    exact encloses_line.append ((embeddable_declaration hs).encloses.append (ih hsegments))

section

variable {config : Config} {texture : Texture}

/-- A declaration that can be read is read to its segment, and no more is read. -/
theorem value_readSegment_body {d : Declaration} (hreadable : ∀ c ∈ d.corrector, c.Readable)
    (hbraces : Encloses '\x7b' '\x7d' .outside 0 d.properties) {s : Segment} {index : Nat}
    (hsegment : (d.segment config index).outcome.value = .ok s) (position : Nat)
    (htext : text = d.body ++ rest) :
    (readSegment config texture index position text).value.segment = some s ∧
      (readSegment config texture index position text).value.remainder.rest.1 = rest := by
  subst htext
  obtain ⟨r, hr, hrest⟩ := declaration_body hreadable hbraces (behindMarker position) rest
  have hread : (do
      let (found, remainder) ← Reading.ofExcept
        (declaration (behindMarker position) (d.body ++ rest))
      return (← found.segment config index, remainder) :
        Reading (Segment × Text.Remainder _ _)).outcome.value = .ok (s, r) := by
    rw [hr]
    exact Reading.outcome_bind_eq_ok_iff.2 ⟨(d, r), rfl,
      Reading.outcome_bind_eq_ok_iff.2 ⟨s, hsegment, rfl⟩⟩
  unfold readSegment
  dsimp only
  rw [Noted.value_bind, hread]
  exact ⟨rfl, hrest⟩

/-- A segment is read from its declaration, and no more is read. -/
theorem value_readSegment {s : Segment} {index : Nat}
    (h : s.BlockWritable (config.random index)) (position : Nat)
    (htext : text = s.declaration.body ++ rest) :
    (readSegment config texture index position text).value.segment = some s ∧
      (readSegment config texture index position text).value.remainder.rest.1 = rest := by
  have hembeddable := embeddable_declaration h
  exact value_readSegment_body (fun c hc => (hembeddable.corrector c hc).readable)
    hembeddable.braces (outcome_segment_declaration h) position htext

/-- Declarations are read one after the other. -/
theorem value_readSegments_declarationLines {segments : List Segment} {index : Nat}
    (h : ∀ entry ∈ segments.zipIdx index, entry.1.BlockWritable (config.random entry.2))
    (position : Nat) :
    (readSegments config texture index position
      (Metadata.declarationLines segments ++ ['\n'])).value = segments := by
  induction segments generalizing index position with
  | nil =>
    rw [readSegments]
    rfl
  | cons s segments ih =>
    rw [List.zipIdx_cons] at h
    obtain ⟨hs, hsegments⟩ := List.forall_mem_cons.1 h
    have htext : Metadata.declarationLines (s :: segments) ++ ['\n'] = [] ++ '\n' ::
        (segmentMarker ++ (s.declaration.body ++
          (Metadata.declarationLines segments ++ ['\n']))) := by
      simp [Metadata.declarationLines, Declaration.text]
    have hbreak : Text.breakOn segmentMarker (Metadata.declarationLines (s :: segments) ++ ['\n']) =
        some ([] ++ ['\n'], segmentMarker ++
          (s.declaration.body ++ (Metadata.declarationLines segments ++ ['\n']))) := by
      rw [htext]
      exact Text.breakOn_append rfl (by decide) _
    unfold readSegments
    split
    · next hnone =>
      rw [hbreak] at hnone
      cases hnone
    · next left right hfound =>
      rw [hbreak] at hfound
      cases hfound
      obtain ⟨hsegment, hrest⟩ := value_readSegment hs (position + Text.byteSize ['\n'])
        (List.drop_left' rfl)
      dsimp only [List.nil_append]
      rw [hsegment, hrest, ih hsegments]
      rfl

end

/-! ## The layout -/

section

variable {config : Config} {m : Metadata}

theorem isEntry_animation (m : Metadata) : ∀ entry ∈ m.blockEntries, IsEntry entry := by
  simp only [Metadata.blockEntries, List.forall_mem_cons]
  exact ⟨isEntry_of_isWord (by decide) (isWord_naturalText _),
    isEntry_of_isWord (by decide) (isWord_booleanText _), nofun⟩

/-- The properties of an animation hold none of the characters by which the keyword and
the markers behind them are known, and they stand on one line without a comment. -/
theorem notMem_entriesText_animation (m : Metadata) {c : Char} (hc : c ∈ ['g', '!', '#', '\n']) :
    c ∉ entriesText m.blockEntries := by
  let letters := "framti nepolsu=;".toList
  have hletters {text : List Char} (h : text.all (· ∈ letters) = true) :
      ∀ d ∈ text, d.isDigit = true ∨ d ∈ letters :=
    fun d hd => .inr (of_decide_eq_true (List.all_eq_true.1 h d hd))
  have hboolean : (Decimal.booleanText m.header.interpolate).all (· ∈ letters) = true := by
    cases m.header.interpolate <;> rfl
  have hfirst : (' ' :: ("frametime".toList ++ [' ', '=', ' '])).all (· ∈ letters) = true := by
    decide
  have hsecond : (' ' :: ("interpolate".toList ++ [' ', '=', ' '])).all (· ∈ letters) = true := by
    decide
  have hall : ∀ d ∈ entriesText m.blockEntries, d.isDigit = true ∨ d ∈ letters := by
    simp only [entriesText, Metadata.blockEntries, List.flatMap_cons, List.flatMap_nil, entryText,
      List.forall_mem_append]
    exact ⟨⟨hletters hfirst, fun d hd => .inl (Decimal.isDigit_of_mem_naturalText hd),
      hletters rfl⟩, ⟨hletters hsecond, hletters hboolean, hletters rfl⟩,
      List.forall_mem_nil _⟩
  have hnone : ∀ c ∈ ['g', '!', '#', '\n'], ¬(c.isDigit = true ∨ c ∈ letters) := by decide
  exact fun hmem => hnone c hc (hall c hmem)

/-- What stands before the list of segments. -/
def beforeList (m : Metadata) : List Char := entriesText m.blockEntries ++ [' ']

theorem bracketed_blockText (h : m.BlockWritable config) :
    Bracketed m.blockText Metadata.blockTitle (beforeList m) [' ']
      (Metadata.declarationLines m.segments ++ ['\n'] ++ ['\x7d', ' ']) [] where
  parts := by
    simp only [Metadata.blockText, beforeList, List.append_assoc, List.cons_append,
      List.nil_append]
  opens := by decide
  opensFirst := by decide
  encloses := by
    have hentries := encloses_entriesText (isEntry_animation m)
    have hlines := encloses_declarationLines (Config.exists_random h.segment)
    have hkeyword : Encloses '\x7b' '\x7d' .outside 0 listKeyword :=
      encloses_of_notMem (by decide) (by decide) (by decide)
    have hlist := (hlines.append encloses_line).between (by decide) (by decide) (by decide)
    have hall := (hentries.append encloses_blank).append (hkeyword.append (encloses_blank.append
      (hlist.append encloses_blank)))
    simpa [beforeList] using hall
  keywordFirst := by
    have hnone : Text.breakOn listKeyword (entriesText m.blockEntries) = none :=
      Text.breakOn_eq_none_of_notMem (c := 'g') (by decide)
        (notMem_entriesText_animation m (by decide))
    have hblank : ' ' ∉ listKeyword := by decide
    have hbreak := Text.breakOn_append hnone hblank
      ([' '] ++ '\x7b' :: (Metadata.declarationLines m.segments ++ ['\n'] ++ ['\x7d', ' ']))
    have hfirst := (Text.breakOn_eq_some_iff.1 hbreak).2.2
    simpa [beforeList] using hfirst
  separates := ⟨[' '], [], by decide, nofun, .inl ⟨rfl, rfl⟩⟩
  beforeSegments := by
    intro part hpart
    have hfront : '!' ∉ Metadata.blockTitle ++ '\x7b' :: (beforeList m ++ listKeyword) := by
      have hentries := notMem_entriesText_animation m (c := '!') (by decide)
      have hopening : '!' ∉ Metadata.blockTitle := by decide
      have hkeyword : '!' ∉ listKeyword := by decide
      simp [beforeList, hentries, hopening, hkeyword]
    have htext : m.blockText = (Metadata.blockTitle ++ '\x7b' :: (beforeList m ++ listKeyword)) ++
        (' ' :: '\x7b' ::
          (Metadata.declarationLines m.segments ++ ['\n', '\x7d', ' ', '\x7d'])) := by
      simp only [Metadata.blockText, beforeList, List.append_assoc, List.cons_append,
        List.nil_append]
    rw [htext] at hpart
    have hmem : '!' ∈ segmentMarker := by decide
    have hlength := Text.length_lt_of_notMem hmem hfront hpart
    have hmarker : segmentMarker.length = listKeyword.length := by decide
    simp only [List.length_append, List.length_cons] at hlength
    omega

/-- The list of a document is what stands in its braces, and its properties are what
stands before and behind. -/
theorem layout_blockText (h : m.BlockWritable config) :
    ∃ start, Layout.of m.blockText = .ok ⟨entriesText m.blockEntries ++ [' ', ';', ' '], start,
      Metadata.declarationLines m.segments ++ ['\n']⟩ := by
  have hbalanced : balanced '\x7b' '\x7d'
      (Metadata.declarationLines m.segments ++ ['\n'] ++ ['\x7d', ' '] ++ '\x7d' :: []) =
        some (Metadata.declarationLines m.segments ++ ['\n'], [' ', '\x7d']) :=
    balanced_eq_some_iff.2 ⟨by simp,
      (encloses_declarationLines (Config.exists_random h.segment)).append encloses_line⟩
  have hdrop : (Metadata.declarationLines m.segments ++ ['\n'] ++ ['\x7d', ' ']).drop
      ((Metadata.declarationLines m.segments ++ ['\n']).length + 1) = [' '] := by
    rw [← List.drop_drop, List.drop_left]
    rfl
  rw [(bracketed_blockText h).layout_eq, hbalanced]
  dsimp only
  rw [if_pos (by simp), hdrop, beforeList, List.append_assoc]
  exact ⟨_, rfl⟩

/-! ## Recognition -/

/-- A line that opens with a declaration is read so, whatever comes behind it. -/
theorem exists_codeLines_marker (behind : List Char) :
    ∃ more lines, codeLines (segmentMarker ++ behind) = (segmentMarker ++ more) :: lines := by
  obtain ⟨line, lines, hsplit⟩ : ∃ line lines,
      Text.splitOn '\n' (segmentMarker ++ behind) = (segmentMarker ++ line) :: lines :=
    Text.splitOn_word (by decide) behind
  have hbefore : Text.before '#' (segmentMarker ++ line) = segmentMarker ++ Text.before '#' line :=
    List.takeWhile_append_of_pos (by decide)
  have hend : Text.trimEnd (segmentMarker ++ Text.before '#' line) =
      segmentMarker ++ Text.trimEnd (Text.before '#' line) :=
    Text.dropEndWhile_append (by decide) "segment".toList (Text.before '#' line)
  rw [codeLines, hsplit, List.map_cons, hbefore, hend, List.filter_cons_of_pos rfl]
  exact ⟨_, _, rfl⟩

/-- What stands on the first line of a document. -/
def firstLine (m : Metadata) : List Char :=
  Metadata.blockTitle ++ '\x7b' :: (beforeList m ++ (listKeyword ++ [' ', '\x7b']))

theorem codeLines_firstLine (m : Metadata) (rest : List Char) :
    codeLines (firstLine m ++ '\n' :: rest) = firstLine m :: codeLines rest := by
  have hnot {c : Char} (hc : c ∈ ['#', '\n']) : c ∉ firstLine m := by
    have hentries : c ∉ entriesText m.blockEntries :=
      notMem_entriesText_animation m (List.mem_append_right ['g', '!'] hc)
    have hfixed : ∀ c ∈ ['#', '\n'],
        c ∉ Metadata.blockTitle ∧ c ∉ listKeyword ∧ c ≠ '\x7b' ∧ c ≠ ' ' := by decide
    obtain ⟨htitle, hkeyword, hbrace, hblank⟩ := hfixed c hc
    simp [firstLine, beforeList, hentries, htitle, hkeyword, hbrace, hblank]
  have hend : Text.trimEnd (firstLine m) = firstLine m := by
    have htext : firstLine m = (Metadata.blockTitle ++ '\x7b' ::
        (beforeList m ++ (listKeyword ++ [' ']))) ++ '\x7b' :: [] := by
      simp only [firstLine, List.append_assoc, List.cons_append, List.nil_append]
    rw [htext]
    exact Text.dropEndWhile_append (by decide) _ []
  exact codeLines_append (hnot (by decide)) (hnot (by decide)) hend (by simp [firstLine]) rest

/-- What is written as a block document is recognised as one. -/
theorem formatOf_blockText (hsegments : m.segments ≠ []) : formatOf m.blockText = .block := by
  obtain ⟨s, segments, hs⟩ := List.exists_cons_of_ne_nil hsegments
  have htext : ∃ behind, m.blockText = firstLine m ++ '\n' :: (segmentMarker ++ behind) := by
    refine ⟨s.declaration.body ++
      (Metadata.declarationLines segments ++ ['\n', '\x7d', ' ', '\x7d']), ?_⟩
    simp only [Metadata.blockText, firstLine, beforeList, hs, Metadata.declarationLines,
      List.flatMap_cons, Declaration.text, List.append_assoc, List.cons_append, List.nil_append]
  obtain ⟨behind, htext⟩ := htext
  obtain ⟨more, lines, hlines⟩ := exists_codeLines_marker behind
  obtain ⟨title, htitle⟩ : ∃ title, firstLine m = '\x22' :: title := ⟨_, rfl⟩
  have hstart : Text.trimStart (firstLine m) = '\x22' :: title := by
    rw [htitle]
    rfl
  have hmarker : Text.trimStart (segmentMarker ++ more) = segmentMarker ++ more := rfl
  have hopening : ¬(Text.trimStart m.blockText).head? = some '\x7b' := by
    rw [htext, htitle]
    exact nofun
  have hfound : Text.occursIn segmentMarker (segmentMarker ++ more) = true := by
    rw [Text.occursIn, Text.breakOn_word]
    rfl
  rw [formatOf, if_neg hopening, htext, codeLines_firstLine, hlines, List.map_cons, List.map_cons,
    hstart, hmarker]
  dsimp only
  rw [List.any_cons, List.any_cons, hfound, Bool.true_or, Bool.or_true]
  rfl

/-! ## Animations -/

theorem outcome_readBlock_blockText (h : m.BlockWritable config) :
    (readBlock config m.header.texture m.blockText).outcome.value = .ok m := by
  obtain ⟨start, hlayout⟩ := layout_blockText h
  have hget (key : String) : (blockProperties (entriesText m.blockEntries ++
      [' ', ';', ' '])).get? key = m.blockEntries.lookup key :=
    get?_blockProperties (isEntry_animation m)
      (show ["frametime", "interpolate"].Nodup by decide) (by decide) key
  have hframetime : blockValue (blockProperties (entriesText m.blockEntries ++ [' ', ';', ' ']))
      Decimal.frame? "frametime" = some m.header.frametime := by
    rw [blockValue_of_isWord (hget "frametime") (isWord_naturalText _),
      frame?_naturalText h.inRange.frametime]
  have hinterpolate : blockValue (blockProperties (entriesText m.blockEntries ++ [' ', ';', ' ']))
      Decimal.boolean? "interpolate" = some m.header.interpolate := by
    rw [blockValue_of_isWord (hget "interpolate") (isWord_booleanText _), boolean?_booleanText]
  have hsegments : (readSegments config m.header.texture 0 start
      (Metadata.declarationLines m.segments ++ ['\n'])).value = m.segments :=
    value_readSegments_declarationLines h.segment start
  obtain ⟨⟨_, _, frametime, interpolate, _, _, _⟩, segments⟩ := m
  obtain ⟨⟨-, rfl, hpositive, hne, hfallbacks, -, -⟩, -, rfl, rfl, rfl, -⟩ := h
  unfold readBlock
  refine Reading.outcome_bind_eq_ok_iff.2 ⟨_, (Reading.outcome_ofExcept _).trans hlayout, ?_⟩
  refine Reading.outcome_bind_eq_ok_iff.2 ⟨segments, congrArg Except.ok hsegments, ?_⟩
  refine Reading.outcome_bind_eq_ok_iff.2 ⟨_, rfl, ?_⟩
  refine validated_eq_ok_iff.2 ⟨?_, hne, hfallbacks⟩
  dsimp only at hframetime hinterpolate ⊢
  rw [hframetime, hinterpolate]
  simp [Header.withFrametime, Header.plain, Nat.max_eq_right hpositive]

/-- What is written for an animation is recognised as a block document and read as that
animation. -/
theorem read_blockText (config : Config) (m : Metadata) (h : m.BlockWritable config) :
    formatOf m.blockText = .block ∧
      (read config m.header.texture m.blockText).outcome.value = .ok m := by
  have hformat := formatOf_blockText h.wellFormed.segments
  refine ⟨hformat, ?_⟩
  rw [outcome_read, hformat]
  exact outcome_readBlock_blockText h

end

theorem embeddable_of_balanced {text : List Char} (htrim : Text.trim text = text)
    (hparentheses : balanced '(' ')' (text ++ [')']) = some (text, []))
    (hbraces : balanced '\x7b' '\x7d' (text ++ ['\x7d']) = some (text, [])) : Embeddable text :=
  ⟨htrim, (balanced_parentheses.1 hparentheses).2, (balanced_eq_some_iff.1 hbraces).2⟩

/-- Names, an event and a condition full of what separates, opens and closes
elsewhere. -/
def tangledAnimation : Metadata where
  header := ⟨⟨"game", "clock"⟩, .block, 2, true, none, none, none⟩
  segments := [
    ⟨"rest; segment!", -1000, none, .fallback 7⟩,
    ⟨"a = \x7bb\x7d", 5, some 3, .singleFrame 1 (.ofEvent "storm) \x7b")⟩,
    ⟨"x, # y", -4, some 0, .sequence ⟨1, 4⟩ true false
      (.ofCondition (Expression.Condition.read "near(\x22\x7d)\x22) && (1)" .zeros).value)⟩,
    ⟨"", 20, none, .oneShot ⟨5, 5⟩ .none⟩]

theorem blockWritable_of_mem_tangledAnimation :
    ∀ s ∈ tangledAnimation.segments, s.BlockWritable .zeros := by
  have hevent : Quotable "storm) \x7b".toList := ⟨by decide, by decide, by decide, by decide⟩
  have hsource : Embeddable "near(\x22\x7d)\x22) && (1)".toList :=
    embeddable_of_balanced (by decide) (by decide) (by decide)
  simp only [tangledAnimation, List.forall_mem_cons]
  refine ⟨?_, ?_, ?_, ?_, List.forall_mem_nil _⟩
  · exact ⟨⟨SegmentKind.wellFormed_fallback 7, fun _ => rfl⟩,
      ⟨⟨by decide, nofun⟩, by decide, by decide, nofun⟩,
      ⟨by decide, by decide, by decide, by decide⟩, nofun⟩
  · exact ⟨⟨SegmentKind.wellFormed_singleFrame 1 (Trigger.single_ofEvent _), nofun⟩,
      ⟨⟨by decide, nofun⟩, by decide, by decide, by rintro _ ⟨⟩; decide⟩,
      ⟨by decide, by decide, by decide, by decide⟩, by rintro _ ⟨⟩; exact .event hevent⟩
  · exact ⟨⟨SegmentKind.wellFormed_sequence (by decide) _ _ (Trigger.single_ofCondition _), nofun⟩,
      ⟨⟨by decide, by rintro _ ⟨⟩; decide⟩, by decide, by decide, by rintro _ ⟨⟩; decide⟩,
      ⟨by decide, by decide, by decide, by decide⟩, by rintro _ ⟨⟩; exact .condition hsource⟩
  · exact ⟨⟨SegmentKind.wellFormed_oneShot (by decide) Trigger.single_none, nofun⟩,
      ⟨⟨by decide, by rintro _ ⟨⟩; decide⟩, by decide, by decide, nofun⟩,
      ⟨by decide, by decide, by decide, by decide⟩, by rintro _ ⟨⟩; exact .none⟩

theorem blockWritable_tangledAnimation : tangledAnimation.BlockWritable .strict where
  wellFormed :=
    { texture := rfl
      source := rfl
      frametime := by decide
      segments := nofun
      fallbacks := by decide
      segment := fun s hs => (blockWritable_of_mem_tangledAnimation s hs).wellFormed
      vanilla := nofun }
  inRange := ⟨by decide, nofun⟩
  maxFps := rfl
  width := rfl
  height := rfl
  segment := fun entry hentry =>
    blockWritable_of_mem_tangledAnimation entry.1 (List.fst_mem_of_mem_zipIdx hentry)

theorem read_blockText_tangledAnimation :
    tangledAnimation.BlockWritable .strict ∧ formatOf tangledAnimation.blockText = .block ∧
      (read .strict tangledAnimation.header.texture tangledAnimation.blockText).outcome.value =
        .ok tangledAnimation :=
  ⟨blockWritable_tangledAnimation, read_blockText .strict _ blockWritable_tangledAnimation⟩

end Flipbook.Document
