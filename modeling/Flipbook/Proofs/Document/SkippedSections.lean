import Flipbook.Proofs.Document.SectionedLines

/-!
# Sections that fail

A section that fails leaves no trace: a document is read as it would be without it.

* `Draft.edit`: a section worked in by one change after the other, as far as it goes.
* `Draft.run_edit`: a section that fails has changed nothing.
* `SourceSection`: a section as it stands in a document.
* `Draft.lasting`: the sections of a document that do not fail, each in its turn.
* `readSectioned_lastingText`: a document is read as one of them alone.
-/
namespace Flipbook.Document

variable {config : Config} {texture : Texture} {d : Draft}

/-! ## Changes in place -/

/-- Changes to a draft. Those that come before a failure stay. -/
abbrev Editing := ExceptT Error (StateT Draft Noted)

/-- What is read with the help of a draft. -/
def Editing.reading {α : Type} (f : Draft → Reading α) : Editing α :=
  ExceptT.mk fun d => do return (← (f d).outcome, d)

namespace Draft

open Editing (reading)

/-- Works a section in by one change after the other. -/
def edit (config : Config) (texture : Texture) (heading : Section) (p : Properties) :
    Editing Unit :=
  match heading with
  | .animation => do
    modify ({ · with frametime := (p.read Decimal.frame? "frametime").getD 1 })
    modify ({ · with interpolate := (p.read Decimal.boolean? "interpolate").getD false })
    match p.read Decimal.frame? "max_fps" with
    | some rate => modify ({ · with maxFps := some rate })
    | none => return
  | .variableTexts => p.entries.forM fun (name, text) =>
    modify fun d => { d with substitutions := d.substitutions.defineVariable name text }
  | .conditionTexts => p.entries.forM fun (name, text) =>
    modify fun d => { d with substitutions := d.substitutions.defineCondition name text }
  | .fallback => do
    let segment := { Segment.fallback (← reading (·.frame config p)) with
      frametime := p.read Decimal.frame? "frametime" }
    modify fun d => { d with segments := d.segments ++ [segment] }
  | .segment name => do
    let segment ← reading (·.segment config name p)
    modify fun d => { d with segments := d.segments ++ [segment] }
  | .unknown name => reading fun _ => Reading.note (.sectionIgnored name texture)

/-- The outcome of working a section in, with the draft that is left: a section that fails leaves
the draft as it was. -/
def settled (d : Draft) : Except Error Draft → Except Error Unit × Draft
  | .ok extended => (.ok (), extended)
  | .error e => (.error e, d)

theorem run_forM_define {α : Type} (define : Substitutions → α → Substitutions) (entries : List α)
    (d : Draft) :
    ((entries.forM fun entry => modify fun d =>
      { d with substitutions := define d.substitutions entry } : Editing Unit).run.run d) =
      pure (.ok (), { d with substitutions := entries.foldl define d.substitutions }) := by
  induction entries generalizing d with
  | nil => rfl
  | cons entry entries ih => exact ih { d with substitutions := define d.substitutions entry }

theorem run_addSegment {α : Type} (f : Draft → Reading α) (segment : α → Segment) (d : Draft) :
    ((do
      let found ← reading f
      modify fun d => { d with segments := d.segments ++ [segment found] } : Editing Unit).run.run
        d) =
      d.settled <$> (do
        let found ← f d
        return { d with segments := d.segments ++ [segment found] } : Reading Draft).outcome := by
  -- both are what is found in the draft, followed by the same change
  have hfound (x : Reading α) : (do
      let found ← ExceptT.mk fun d => do return (← x.outcome, d)
      modify fun d => { d with segments := d.segments ++ [segment found] } : Editing Unit).run.run
        d = d.settled <$> (do
          let found ← x
          return { d with segments := d.segments ++ [segment found] } : Reading Draft).outcome := by
    obtain ⟨outcome, notices⟩ := x
    cases outcome with
    | error e => rfl
    | ok found => rfl
  exact hfound (f d)

/-- A section is worked in as a whole, or it has changed nothing when it fails. -/
theorem run_edit (config : Config) (texture : Texture) (heading : Section) (p : Properties)
    (d : Draft) :
    (edit config texture heading p).run.run d =
      d.settled <$> (d.extend config texture heading p).outcome := by
  cases heading with
  | animation =>
    unfold edit extend
    cases p.read Decimal.frame? "max_fps" <;> rfl
  | variableTexts =>
    exact run_forM_define (fun s (entry : String × List Char) =>
      s.defineVariable entry.1 entry.2) _ d
  | conditionTexts =>
    exact run_forM_define (fun s (entry : String × List Char) =>
      s.defineCondition entry.1 entry.2) _ d
  | fallback => exact run_addSegment _ _ d
  | segment name => exact run_addSegment _ id d
  | unknown name => rfl

/-- To process a section is to work it in as far as it goes, and to report it if it fails. -/
theorem process_eq_edit (config : Config) (texture : Texture) (d : Draft)
    (part : Section × List (List Char)) :
    d.process config texture part = (do
      match ← (edit config texture part.1 (propertiesOf part.2)).run.run d with
      | (.ok _, left) => return left
      | (.error e, left) => ⟨left, [.sectionSkipped part.1 texture e]⟩) := by
  rw [run_edit, bind_map_left, process]
  congr 1
  funext result
  cases result <;> rfl

end Draft

/-! ## Sections in a document -/

/-- A section as it stands in a document: its header and the lines up to the next one. -/
structure SourceSection where
  header : List Char
  body : List (List Char)

namespace SourceSection

/-- The lines of a section. -/
def lines (part : SourceSection) : List (List Char) := part.header :: part.body

/-- A section as it is processed. -/
def part (s : SourceSection) : Section × List (List Char) := (Section.ofHeader s.header, s.body)

/-- Whether the lines of a section are read as one section. -/
structure WellFormed (s : SourceSection) : Prop where
  header : isHeader s.header = true
  body : ∀ line ∈ s.body, isHeader line = false

end SourceSection

/-- The lines before the first section, and the sections as they stand. -/
def sourceSections : List (List Char) → List (List Char) × List SourceSection
  | [] => ([], [])
  | line :: rest =>
    let (body, later) := sourceSections rest
    if isHeader line then ([], ⟨line, body⟩ :: later) else (line :: body, later)

/-- Sections are processed in the order in which they stand. -/
theorem sections_eq (lines : List (List Char)) :
    sections lines =
      ((sourceSections lines).1, (sourceSections lines).2.map SourceSection.part) := by
  induction lines with
  | nil => rfl
  | cons line rest ih =>
    rw [sections, sourceSections, ih]
    dsimp only
    split <;> rfl

/-- All lines stand before the first section or in one. -/
theorem flatten_sourceSections (lines : List (List Char)) :
    (sourceSections lines).1 ++ (sourceSections lines).2.flatMap SourceSection.lines = lines := by
  induction lines with
  | nil => rfl
  | cons line rest ih =>
    rw [sourceSections]
    dsimp only
    split
    · exact congrArg (line :: ·) ih
    · exact congrArg (line :: ·) ih

theorem wellFormed_sourceSections (lines : List (List Char)) :
    (∀ line ∈ (sourceSections lines).1, isHeader line = false) ∧
      ∀ s ∈ (sourceSections lines).2, s.WellFormed := by
  induction lines with
  | nil => exact ⟨nofun, nofun⟩
  | cons line rest ih =>
    rw [sourceSections]
    dsimp only
    split
    · next hheader => exact ⟨nofun, List.forall_mem_cons.2 ⟨⟨hheader, ih.1⟩, ih.2⟩⟩
    · next hheader =>
      exact ⟨List.forall_mem_cons.2 ⟨Bool.eq_false_iff.2 hheader, ih.1⟩, ih.2⟩

/-- Lines that are no headers belong to what stands before them. -/
theorem sourceSections_append {body : List (List Char)}
    (hbody : ∀ line ∈ body, isHeader line = false) (rest : List (List Char)) :
    sourceSections (body ++ rest) =
      (body ++ (sourceSections rest).1, (sourceSections rest).2) := by
  induction body with
  | nil => rfl
  | cons line body ih =>
    obtain ⟨hline, hbody⟩ := List.forall_mem_cons.1 hbody
    rw [List.cons_append, sourceSections, ih hbody]
    dsimp only
    rw [if_neg (by simp [hline])]
    rfl

/-- Sections are told apart in the lines that they come to. -/
theorem sourceSections_lines {stray : List (List Char)} {parts : List SourceSection}
    (hstray : ∀ line ∈ stray, isHeader line = false) (hparts : ∀ s ∈ parts, s.WellFormed) :
    sourceSections (stray ++ parts.flatMap SourceSection.lines) = (stray, parts) := by
  have hflat : sourceSections (parts.flatMap SourceSection.lines) = ([], parts) := by
    induction parts with
    | nil => rfl
    | cons s parts ih =>
      obtain ⟨hs, hparts⟩ := List.forall_mem_cons.1 hparts
      rw [List.flatMap_cons, SourceSection.lines, List.cons_append, sourceSections,
        sourceSections_append hs.body, ih hparts]
      dsimp only
      rw [if_pos hs.header, List.append_nil]
  rw [sourceSections_append hstray, hflat, List.append_nil]

/-! ## Lines that are read again -/

theorem of_mem_codeLines {content line : List Char} (h : line ∈ codeLines content) :
    '\n' ∉ line ∧ '#' ∉ line ∧ Text.trim line ≠ [] := by
  obtain ⟨hmem, hne⟩ := List.mem_filter.1 h
  obtain ⟨raw, hraw, rfl⟩ := List.mem_map.1 hmem
  refine ⟨?_, ?_, ?_⟩
  · intro hbreak
    have hcode := Text.mem_of_mem_dropEndWhile hbreak
    exact Text.notMem_of_mem_splitOn hraw (List.takeWhile_subset _ hcode)
  · exact fun hsign => Text.notMem_before '#' raw (Text.mem_of_mem_dropEndWhile hsign)
  · -- the last character is no white space
    intro hnil
    cases hlast : (Text.trimEnd (Text.before '#' raw)).getLast? with
    | none => simp [List.getLast?_eq_none_iff.1 hlast] at hne
    | some c =>
      have hc : Text.isBlank c = false := Text.apply_getLast?_dropEndWhile c hlast
      have hkept := Text.mem_stripWhile_of_mem (List.mem_of_getLast? hlast) hc
      rw [← Text.trim, hnil] at hkept
      cases hkept

theorem onLine_trim {line : List Char} (hline : '\n' ∉ line) (hcomment : '#' ∉ line) :
    OnLine (Text.trim line) where
  trimmed := Text.stripWhile_stripWhile _ line
  line := fun h => hline (Text.mem_of_mem_stripWhile h)
  comment := fun h => hcomment (Text.mem_of_mem_stripWhile h)

/-- A line and its continuation make one line. -/
theorem OnLine.continued {line more : List Char} (hline : OnLine line) (hne : line ≠ [])
    (hmore : OnLine more) (hmne : more ≠ []) : OnLine (line ++ ' ' :: more) where
  trimmed := by
    refine Text.stripWhile_eq_self_iff.2 ⟨fun c hc => ?_, fun c hc => ?_⟩
    · rw [List.head?_append, List.head?_eq_some_head hne, Option.some_or] at hc
      exact hline.first c ((List.head?_eq_some_head hne).trans hc)
    · rw [List.getLast?_append, List.getLast?_cons, List.getLast?_eq_some_getLast hmne] at hc
      exact hmore.last c ((List.getLast?_eq_some_getLast hmne).trans hc)
  line := by simp [hline.line, hmore.line]
  comment := by simp [hline.comment, hmore.comment]

theorem areLines_addLine {lines : List (List Char)} (h : AreLines lines) {line : List Char}
    (hline : '\n' ∉ line) (hcomment : '#' ∉ line) (hne : Text.trim line ≠ []) :
    AreLines (addLine lines line) := by
  have htrim := onLine_trim hline hcomment
  cases lines with
  | nil => exact List.forall_mem_singleton.2 ⟨htrim, hne⟩
  | cons previous earlier =>
    obtain ⟨hprevious, hearlier⟩ := List.forall_mem_cons.1 h
    rw [addLine]
    split
    · exact List.forall_mem_cons.2
        ⟨⟨hprevious.1.continued hprevious.2 htrim hne, by simp⟩, hearlier⟩
    · exact List.forall_mem_cons.2 ⟨⟨htrim, hne⟩, h⟩

/-- The lines of a document are read as they are when they are read again. -/
theorem areLines_logicalLines (content : List Char) : AreLines (logicalLines content) := by
  have hfold : ∀ code sofar : List (List Char), (∀ line ∈ code, line ∈ codeLines content) →
      AreLines sofar → AreLines (code.foldl addLine sofar) := by
    intro code
    induction code with
    | nil => exact fun _ _ hsofar => hsofar
    | cons line code ih =>
      intro sofar hcode hsofar
      obtain ⟨hline, hcode⟩ := List.forall_mem_cons.1 hcode
      obtain ⟨hbreak, hcomment, hne⟩ := of_mem_codeLines hline
      exact ih _ hcode (areLines_addLine hsofar hbreak hcomment hne)
  have hlines := hfold (codeLines content) [] (fun _ h => h) (List.forall_mem_nil _)
  exact fun line hline => hlines line (List.mem_reverse.1 hline)

/-! ## Sections that last -/

namespace Draft

/-- The sections that do not fail, where each is worked in as far as it goes. -/
def lasting (config : Config) (texture : Texture) : Draft → List SourceSection → List SourceSection
  | _, [] => []
  | d, s :: rest =>
    match ((edit config texture s.part.1 (propertiesOf s.part.2)).run.run d).value with
    | (.ok _, left) => s :: lasting config texture left rest
    | (.error _, left) => lasting config texture left rest

/-- The draft behind some sections. -/
def after (config : Config) (texture : Texture) (d : Draft) (parts : List SourceSection) : Draft :=
  ((parts.map SourceSection.part).foldlM (process config texture) d).value

theorem after_cons (config : Config) (texture : Texture) (d : Draft) (s : SourceSection)
    (rest : List SourceSection) :
    d.after config texture (s :: rest) =
      (d.process config texture s.part).value.after config texture rest := rfl

/-- A section fails and leaves the draft as it is, or it lasts. -/
theorem lasting_cons_cases (config : Config) (texture : Texture) (d : Draft) (s : SourceSection) :
    ((d.process config texture s.part).value = d ∧ ∀ rest,
      lasting config texture d (s :: rest) = lasting config texture d rest) ∨
    ∀ rest, lasting config texture d (s :: rest) =
      s :: lasting config texture (d.process config texture s.part).value rest := by
  have hedit : ((edit config texture s.part.1 (propertiesOf s.part.2)).run.run d).value =
      d.settled (d.extend config texture s.part.1 (propertiesOf s.part.2)).outcome.value := by
    rw [run_edit]
    rfl
  cases hextend : (d.extend config texture s.part.1 (propertiesOf s.part.2)).outcome.value with
  | error e =>
    rw [hextend] at hedit
    refine .inl ⟨?_, fun rest => ?_⟩
    · rw [process_eq_edit, Noted.value_bind, hedit]
      rfl
    · rw [lasting, hedit]
      rfl
  | ok extended =>
    rw [hextend] at hedit
    refine .inr fun rest => ?_
    rw [lasting, process_eq_edit, Noted.value_bind, hedit]
    rfl

/-- Without the sections that fail, the draft comes out the same. -/
theorem after_lasting (d : Draft) (parts : List SourceSection) :
    d.after config texture (lasting config texture d parts) = d.after config texture parts := by
  induction parts generalizing d with
  | nil => rfl
  | cons s rest ih =>
    rcases lasting_cons_cases config texture d s with ⟨hsame, hskip⟩ | hkeep
    · rw [hskip, after_cons, hsame, ih]
    · rw [hkeep, after_cons, after_cons, ih]

/-- Each section is judged by the draft before it. -/
theorem lasting_append (d : Draft) (earlier later : List SourceSection) :
    lasting config texture d (earlier ++ later) = lasting config texture d earlier ++
      lasting config texture (d.after config texture earlier) later := by
  induction earlier generalizing d with
  | nil => rfl
  | cons s earlier ih =>
    rcases lasting_cons_cases config texture d s with ⟨hsame, hskip⟩ | hkeep
    · rw [List.cons_append, hskip, hskip, ih, after_cons, hsame]
    · rw [List.cons_append, hkeep, hkeep, ih, after_cons, List.cons_append]

/-- None of the sections that last fails without the others. -/
theorem lasting_lasting (d : Draft) (parts : List SourceSection) :
    lasting config texture d (lasting config texture d parts) =
      lasting config texture d parts := by
  induction parts generalizing d with
  | nil => rfl
  | cons s rest ih =>
    rcases lasting_cons_cases config texture d s with ⟨-, hskip⟩ | hkeep
    · rw [hskip, ih]
    · rw [hkeep, hkeep, ih]

theorem lasting_sublist (config : Config) (texture : Texture) (d : Draft)
    (parts : List SourceSection) :
    (lasting config texture d parts).Sublist parts := by
  induction parts generalizing d with
  | nil => exact .slnil
  | cons s rest ih =>
    rcases lasting_cons_cases config texture d s with ⟨-, hskip⟩ | hkeep
    · rw [hskip]
      exact .cons _ (ih d)
    · rw [hkeep]
      exact .cons_cons _ (ih _)

/-- The animation that a draft comes to. -/
def finish (texture : Texture) (d : Draft) : Reading Metadata := do
  let header ← Reading.ofNoted ((Header.plain texture .sectioned).withFrametime d.frametime)
  let header := { header with interpolate := d.interpolate, maxFps := d.maxFps }
  Reading.ofExcept (Metadata.validated ⟨header, d.segments⟩)

end Draft

/-! ## Documents without the sections that fail -/

/-- What is read from a document comes from the draft behind its sections. -/
theorem outcome_readSectioned_eq_finish (config : Config) (texture : Texture)
    (content : List Char) :
    (readSectioned config texture content).outcome.value =
      ((Draft.blank.after config texture (sourceSections (logicalLines content)).2).finish
        texture).outcome.value := by
  unfold readSectioned
  rw [sections_eq]
  dsimp only
  rw [Reading.outcome_bind, Reading.outcome_ofNoted]
  dsimp only
  rw [Reading.outcome_bind, Reading.outcome_ofNoted]
  rfl

/-- A document with the sections alone that do not fail, behind the lines that stand before the
first section. -/
def lastingText (config : Config) (texture : Texture) (content : List Char) : List Char :=
  linesText ((sourceSections (logicalLines content)).1 ++
    (Draft.blank.lasting config texture (sourceSections (logicalLines content)).2).flatMap
      SourceSection.lines)

/-- A document holds the sections that last and no others, behind the same stray lines. -/
theorem sourceSections_lastingText (config : Config) (texture : Texture) (content : List Char) :
    sourceSections (logicalLines (lastingText config texture content)) =
      ((sourceSections (logicalLines content)).1,
        Draft.blank.lasting config texture (sourceSections (logicalLines content)).2) := by
  have hsub := Draft.lasting_sublist config texture .blank (sourceSections (logicalLines content)).2
  obtain ⟨hstray, hparts⟩ := wellFormed_sourceSections (logicalLines content)
  rw [lastingText, logicalLines_linesText]
  · exact sourceSections_lines hstray fun s hs => hparts s (hsub.subset hs)
  · intro line hline
    refine areLines_logicalLines content line ?_
    rw [← flatten_sourceSections (logicalLines content), List.mem_append]
    rcases List.mem_append.1 hline with hline | hline
    · exact .inl hline
    · obtain ⟨s, hs, hline⟩ := List.mem_flatMap.1 hline
      exact .inr (List.mem_flatMap.2 ⟨s, hsub.subset hs, hline⟩)

/-- A document without the sections that fail is read as the document itself, none of the
sections that are left fails in it, and each of them is worked into the draft that it meets in
the document, with the substitutions that it holds. -/
theorem readSectioned_lastingText (config : Config) (texture : Texture) (content : List Char) :
    let parts := (sourceSections (logicalLines content)).2
    let lasting := Draft.blank.lasting config texture
    let after := Draft.blank.after config texture
    sourceSections (logicalLines (lastingText config texture content)) =
        ((sourceSections (logicalLines content)).1, lasting parts) ∧
      lasting (lasting parts) = lasting parts ∧
      (∀ n, after (lasting (parts.take n)) = after (parts.take n) ∧
        lasting parts = lasting (parts.take n) ++
          (after (parts.take n)).lasting config texture (parts.drop n)) ∧
      (readSectioned config texture (lastingText config texture content)).outcome.value =
        (readSectioned config texture content).outcome.value := by
  refine ⟨sourceSections_lastingText config texture content, Draft.lasting_lasting _ _, ?_, ?_⟩
  · intro n
    refine ⟨Draft.after_lasting _ _, ?_⟩
    rw [← Draft.lasting_append, List.take_append_drop]
  · rw [outcome_readSectioned_eq_finish, outcome_readSectioned_eq_finish,
      sourceSections_lastingText, Draft.after_lasting]

/-- A section of no known kind and one with too many frames between others. -/
def patchedLantern : List Char :=
  ("[variables]\nflicker: 1-4\n[segment:burning]\ntype: warp\nwhen: lit\n" ++
    "[segment:lit]\nframes: $flicker\n[fallback]\nframe: 0-4000000000\n[fallback]").toList

example : ((Draft.blank.lasting .standard ⟨"game", "lantern"⟩
      (sourceSections (logicalLines patchedLantern)).2).map (String.ofList ·.header)) =
    ["[variables]", "[segment:lit]", "[fallback]"] := by
  decide +kernel

end Flipbook.Document
