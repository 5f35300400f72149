import Flipbook.Document.Block
import Flipbook.Proofs.Document.Balance

/-!
# Segment lists that leave their braces

Braces around an animation are matched from the outside, those around its segment
list from the keyword on. The keyword is looked for without regard to strings, so
the two scans may disagree on which quotes open a string, and the list may close
behind the braces around it. A document with such a list cannot be read at all.

* `layout_of_overrun_iff`: exactly the documents that fail so (`Overruns`).
* `Bracketed.closes`: it takes a keyword inside a string.
* `Layout.cutFrom_of`: what is found otherwise are parts of the document.
-/
namespace Flipbook.Document

/-! ## Where a list stands -/

/-- Whether a text, read behind an opening brace, closes that brace. -/
def Closes (text : List Char) : Prop :=
  ∃ inner rest, text = inner ++ '\x7d' :: rest ∧ Encloses '\x7b' '\x7d' .outside 0 inner

/-- What may stand between the keyword and the list: blanks, and a colon among
them. -/
def Separates (sign : List Char) : Prop :=
  ∃ blanks more, (∀ c ∈ blanks, Text.isBlank c = true) ∧ (∀ c ∈ more, Text.isBlank c = true) ∧
    (sign = blanks ∧ more = [] ∨ sign = blanks ++ ':' :: more)

/-- A document whose animation stands in braces, and its segment list in braces
among the properties: the first brace outside strings opens the animation, and the
first keyword in it, in a string or not, stands before the list and before every
segment declaration. -/
structure Bracketed (document before left sign list behind : List Char) : Prop where
  parts : document =
    before ++ '\x7b' :: (left ++ (listKeyword ++ (sign ++ '\x7b' :: list)) ++ '\x7d' :: behind)
  opens : Quoting.outside.after before = .outside
  opensFirst : '\x7b' ∉ Quoting.outside.bare before
  encloses :
    Encloses '\x7b' '\x7d' .outside 0 (left ++ (listKeyword ++ (sign ++ '\x7b' :: list)))
  keywordFirst : ∀ part,
    part ++ listKeyword <+: left ++ (listKeyword ++ (sign ++ '\x7b' :: list)) →
      left.length ≤ part.length
  separates : Separates sign
  beforeSegments : ∀ part, part ++ segmentMarker <+: document →
    before.length + 1 + left.length < part.length

/-- The list does not close in the braces around the animation, but behind them. -/
def Overruns (document : List Char) : Prop :=
  ∃ before left sign list behind, Bracketed document before left sign list behind ∧
    ¬Closes list ∧ Closes (list ++ '\x7d' :: behind)

/-! ## The scans -/

theorem balanced_eq_some_iff {text inner rest : List Char} :
    balanced '\x7b' '\x7d' text = some (inner, rest) ↔
      text = inner ++ '\x7d' :: rest ∧ Encloses '\x7b' '\x7d' .outside 0 inner :=
  balancedFrom_eq_some_iff (by decide) (by decide)

theorem closes_iff {text : List Char} :
    Closes text ↔ ∃ inner rest, balanced '\x7b' '\x7d' text = some (inner, rest) := by
  simp only [Closes, balanced_eq_some_iff]

/-- What closes a brace closes it whatever follows. -/
theorem balanced_append {text inner rest : List Char}
    (h : balanced '\x7b' '\x7d' text = some (inner, rest)) (more : List Char) :
    balanced '\x7b' '\x7d' (text ++ more) = some (inner, rest ++ more) := by
  obtain ⟨rfl, hinner⟩ := balanced_eq_some_iff.1 h
  exact balanced_eq_some_iff.2 ⟨by simp, hinner⟩

/-- A list closes in the text around it if its closing brace stands there. -/
theorem closes_iff_length_lt {list behind inner rest : List Char}
    (h : balanced '\x7b' '\x7d' (list ++ '\x7d' :: behind) = some (inner, rest)) :
    Closes list ↔ inner.length < list.length := by
  constructor
  · intro hcloses
    obtain ⟨inner', rest', h'⟩ := closes_iff.1 hcloses
    rw [balanced_append h'] at h
    obtain ⟨rfl, -⟩ : inner' = inner ∧ _ := by simpa using h
    rw [(balanced_eq_some_iff.1 h').1, List.length_append, List.length_cons]
    omega
  · intro hlength
    obtain ⟨heq, hinner⟩ := balanced_eq_some_iff.1 h
    have hread : inner ++ ['\x7d'] <+: list ++ '\x7d' :: behind :=
      ⟨rest, by rw [heq, List.append_assoc, List.singleton_append]⟩
    have hprefix : inner ++ ['\x7d'] <+: list := by
      refine List.prefix_of_prefix_length_le hread (List.prefix_append _ _) ?_
      rw [List.length_append, List.length_singleton]
      exact hlength
    obtain ⟨more, rfl⟩ := hprefix
    exact ⟨inner, more, by simp, hinner⟩

theorem not_isBlank_colon : ¬Text.isBlank ':' = true := by decide

theorem not_isBlank_opening : ¬Text.isBlank '\x7b' = true := by decide

theorem not_isBlank_closing : ¬Text.isBlank '\x7d' = true := by decide

theorem trimStart_append {blanks : List Char} (hblanks : ∀ c ∈ blanks, Text.isBlank c = true)
    {c : Char} (hc : ¬Text.isBlank c = true) (text : List Char) :
    Text.trimStart (blanks ++ c :: text) = c :: text := by
  rw [Text.trimStart, List.dropWhile_append_of_pos hblanks, List.dropWhile_cons, if_neg hc]

/-- A text is its white space at the start and what is left without it. -/
theorem exists_trimStart (text : List Char) :
    ∃ blanks, (∀ c ∈ blanks, Text.isBlank c = true) ∧ text = blanks ++ Text.trimStart text :=
  ⟨text.takeWhile Text.isBlank, List.all_eq_true.1 List.all_takeWhile,
    List.takeWhile_append_dropWhile.symm⟩

theorem Separates.notMem {sign : List Char} (h : Separates sign) : '\x7d' ∉ sign := by
  obtain ⟨blanks, more, hblanks, hmore, hsign⟩ := h
  have hmem (text : List Char) (h : ∀ c ∈ text, Text.isBlank c = true) : '\x7d' ∉ text :=
    fun hc => not_isBlank_closing (h _ hc)
  rcases hsign with ⟨rfl, -⟩ | rfl
  · exact hmem _ hblanks
  · simp [hmem _ hblanks, hmem _ hmore]

/-- What separates the keyword from the list opens no string. -/
theorem Separates.after {sign : List Char} (h : Separates sign) :
    Quoting.outside.after sign = .outside := by
  obtain ⟨blanks, more, hblanks, hmore, hsign⟩ := h
  have hblank (text : List Char) (h : ∀ c ∈ text, Text.isBlank c = true) :
      Quoting.outside.after text = .outside := by
    induction text with
    | nil => rfl
    | cons c cs ih =>
      have hc : c ≠ '\x22' := by
        rintro rfl
        exact absurd (h _ List.mem_cons_self) (by decide)
      rw [Quoting.after_cons, Quoting.next_of_counts (Quoting.counts_iff.2 ⟨rfl, hc⟩)]
      exact ih fun c hc => h c (List.mem_cons_of_mem _ hc)
  rcases hsign with ⟨rfl, -⟩ | rfl
  · exact hblank _ hblanks
  · rw [Quoting.after_append, hblank _ hblanks]
    exact hblank more hmore

/-- Behind the keyword a list follows if its brace does, past what separates them. -/
theorem Layout.listBrace_eq_iff {text body : List Char} :
    Layout.listBrace text = '\x7b' :: body ↔
      ∃ sign, Separates sign ∧ text = sign ++ '\x7b' :: body := by
  constructor
  · intro h
    obtain ⟨blanks, hblanks, htext⟩ := exists_trimStart text
    unfold Layout.listBrace at h
    split at h
    · next rest hrest =>
      obtain ⟨more, hmore, hbody⟩ := exists_trimStart rest
      rw [hrest, hbody, h] at htext
      exact ⟨blanks ++ ':' :: more, ⟨blanks, more, hblanks, hmore, .inr rfl⟩,
        by rw [htext, List.append_assoc, List.cons_append]⟩
    · rw [h] at htext
      exact ⟨blanks, ⟨blanks, [], hblanks, by simp, .inl ⟨rfl, rfl⟩⟩, htext⟩
  · rintro ⟨sign, ⟨blanks, more, hblanks, hmore, hsign⟩, rfl⟩
    unfold Layout.listBrace
    rcases hsign with ⟨rfl, -⟩ | rfl
    · rw [trimStart_append hblanks not_isBlank_opening]
      rfl
    · rw [List.append_assoc, List.cons_append, trimStart_append hblanks not_isBlank_colon]
      exact trimStart_append hmore not_isBlank_opening body

/-- The opening brace of the list stands in the braces around the animation: only
blanks and a colon may stand before it. -/
theorem Separates.split {text behind sign body : List Char} (h : Separates sign)
    (heq : text ++ '\x7d' :: behind = sign ++ '\x7b' :: body) :
    ∃ list, text = sign ++ '\x7b' :: list ∧ body = list ++ '\x7d' :: behind := by
  rcases List.append_eq_append_iff.1 heq with ⟨more, hsign, hmore⟩ | ⟨more, htext, hmore⟩
  · cases more with
    | nil => simp at hmore
    | cons c more =>
      obtain ⟨rfl, -⟩ := List.cons.inj hmore
      exact absurd (by simp [hsign]) h.notMem
  · cases more with
    | nil => simp at hmore
    | cons c more =>
      obtain ⟨rfl, hbody⟩ := List.cons.inj hmore
      exact ⟨more, htext, hbody⟩

/-- What stands before the first segment declaration. -/
def beforeSegments (document : List Char) : List Char :=
  match Text.breakOn segmentMarker document with
  | some (before, _) => before
  | none => document

theorem lt_length_beforeSegments_iff {document : List Char} {place : Nat}
    (h : place < document.length) :
    place < (beforeSegments document).length ↔
      ∀ part, part ++ segmentMarker <+: document → place < part.length := by
  unfold beforeSegments
  cases hb : Text.breakOn segmentMarker document with
  | none =>
    rw [Text.breakOn_eq_none_iff] at hb
    exact iff_of_true h fun part hpart => absurd hpart (hb part)
  | some found =>
    obtain ⟨left, right⟩ := found
    obtain ⟨rfl, ⟨rest, rfl⟩, hfirst⟩ := Text.breakOn_eq_some_iff.1 hb
    constructor
    · intro hleft part hpart
      exact Nat.lt_of_lt_of_le hleft (hfirst part hpart)
    · intro hall
      exact hall left ⟨rest, List.append_assoc _ _ _⟩

/-! ## The layout found -/

theorem Layout.of_eq (document : List Char) :
    Layout.of document =
      match findOutside '\x7b' .outside document with
      | some (outer, after) =>
        if outer.length < (beforeSegments document).length then do
          let (inner, _) ← braces (Text.byteSize outer) after
          match Text.breakOn listKeyword inner with
          | some (left, _) =>
            if outer.length + 1 + left.length < (beforeSegments document).length then
              ofKeyword document after inner left
            else .ok ⟨[], positionOf document after, inner⟩
          | none => .ok ⟨[], positionOf document after, inner⟩
        else .ok ⟨[], 0, document⟩
      | none => .ok ⟨[], 0, document⟩ := rfl

theorem Layout.braces_of_balanced {position : Nat} {text inner rest : List Char}
    (h : balanced '\x7b' '\x7d' text = some (inner, rest)) :
    braces position text = .ok (inner, rest) := by
  rw [braces, h]

theorem Layout.ofKeyword_of_brace {document after inner left body : List Char}
    (h : listBrace (after.drop (left.length + listKeyword.length)) = '\x7b' :: body) :
    ofKeyword document after inner left =
      match balanced '\x7b' '\x7d' body with
      | some (list, tail) =>
        if inner.length < after.length - tail.length then .error .listOverrun
        else .ok ⟨left ++ ';' :: inner.drop (after.length - tail.length),
          positionOf document body, list⟩
      | none => .error (.illFormed (positionOf document ('\x7b' :: body)) .unterminatedBrace) := by
  unfold ofKeyword braces
  dsimp only
  rw [h]
  split
  · next rest hrest =>
    obtain rfl : body = rest := (List.cons.inj hrest).2
    cases balanced '\x7b' '\x7d' body <;> rfl
  · next hnot => exact absurd rfl (hnot body)

theorem Layout.ofKeyword_of_not_brace {document after inner left : List Char}
    (h : ∀ body, listBrace (after.drop (left.length + listKeyword.length)) ≠ '\x7b' :: body) :
    ∃ position, ofKeyword document after inner left =
      .error (.illFormed position .noSegmentList) := by
  unfold ofKeyword
  dsimp only
  split
  · next body hbody => exact absurd hbody (h body)
  · exact ⟨_, rfl⟩

/-- Behind a keyword there is a list in braces, or there is none and the layout is
refused for that. -/
theorem Layout.exists_list_or_error (document left text behind : List Char) :
    (∃ sign list, Separates sign ∧ text = sign ++ '\x7b' :: list) ∨
    ∃ position, ofKeyword document (left ++ (listKeyword ++ text) ++ '\x7d' :: behind)
      (left ++ (listKeyword ++ text)) left = .error (.illFormed position .noSegmentList) := by
  by_cases hbrace : ∃ body, listBrace ((left ++ (listKeyword ++ text) ++ '\x7d' :: behind).drop
      (left.length + listKeyword.length)) = '\x7b' :: body
  · obtain ⟨body, hbody⟩ := hbrace
    obtain ⟨sign, hsign, htext⟩ := listBrace_eq_iff.1 hbody
    rw [← List.drop_drop] at htext
    simp only [List.append_assoc, List.drop_left] at htext
    obtain ⟨list, rfl, -⟩ := hsign.split htext
    exact .inl ⟨sign, list, hsign, rfl⟩
  · exact .inr (ofKeyword_of_not_brace fun body hbody => hbrace ⟨body, hbody⟩)

/-- The layout behind a keyword whose list has braces, from the scan for the end of
the list. -/
theorem Layout.ofKeyword_eq {document left sign list behind : List Char}
    (hsign : Separates sign) :
    Layout.ofKeyword document
        (left ++ (listKeyword ++ (sign ++ '\x7b' :: list)) ++ '\x7d' :: behind)
        (left ++ (listKeyword ++ (sign ++ '\x7b' :: list))) left =
      match balanced '\x7b' '\x7d' (list ++ '\x7d' :: behind) with
      | some (inner, _) =>
        if inner.length < list.length then
          .ok ⟨left ++ ';' :: list.drop (inner.length + 1),
            positionOf document (list ++ '\x7d' :: behind), inner⟩
        else .error .listOverrun
      | none =>
        .error (.illFormed (positionOf document ('\x7b' :: (list ++ '\x7d' :: behind)))
          .unterminatedBrace) := by
  have hlist : listBrace
      ((left ++ (listKeyword ++ (sign ++ '\x7b' :: list)) ++ '\x7d' :: behind).drop
        (left.length + listKeyword.length)) = '\x7b' :: (list ++ '\x7d' :: behind) := by
    refine listBrace_eq_iff.2 ⟨sign, hsign, ?_⟩
    rw [← List.drop_drop]
    simp only [List.append_assoc, List.drop_left, List.cons_append]
  rw [ofKeyword_of_brace hlist]
  cases hb : balanced '\x7b' '\x7d' (list ++ '\x7d' :: behind) with
  | none => rfl
  | some found =>
    obtain ⟨inner, rest⟩ := found
    have hclosed :
        (left ++ (listKeyword ++ (sign ++ '\x7b' :: list)) ++ '\x7d' :: behind).length -
          rest.length =
        left.length + (listKeyword.length + (sign.length + (1 + (inner.length + 1)))) := by
      have hlength := congrArg List.length (balanced_eq_some_iff.1 hb).1
      simp only [List.length_append, List.length_cons] at hlength ⊢
      omega
    have hdrop : (left ++ (listKeyword ++ (sign ++ '\x7b' :: list))).drop
        (left.length + (listKeyword.length + (sign.length + (1 + (inner.length + 1))))) =
        list.drop (inner.length + 1) := by
      simp only [← List.drop_drop, List.drop_left, List.drop_succ_cons, List.drop_zero]
    dsimp only
    rw [hclosed, hdrop]
    simp only [List.length_append, List.length_cons]
    by_cases hinner : inner.length < list.length
    · rw [if_pos hinner, if_neg (by omega)]
    · rw [if_neg hinner, if_pos (by omega)]

namespace Bracketed

variable {document before left sign list behind : List Char}

theorem length_lt (h : Bracketed document before left sign list behind) :
    before.length + 1 + left.length < document.length := by
  rw [h.parts]
  simp only [List.length_append, List.length_cons]
  omega

/-- The layout of a document whose list stands in braces, from the scan for the end
of the list. -/
theorem layout_eq (h : Bracketed document before left sign list behind) :
    Layout.of document =
      match balanced '\x7b' '\x7d' (list ++ '\x7d' :: behind) with
      | some (inner, _) =>
        if inner.length < list.length then
          .ok ⟨left ++ ';' :: list.drop (inner.length + 1),
            positionOf document (list ++ '\x7d' :: behind), inner⟩
        else .error .listOverrun
      | none =>
        .error (.illFormed (positionOf document ('\x7b' :: (list ++ '\x7d' :: behind)))
          .unterminatedBrace) := by
  have hfind := (findOutside_eq_some_iff (by decide)).2 ⟨h.parts, h.opens, h.opensFirst⟩
  have hbalanced : balanced '\x7b' '\x7d' (_ ++ '\x7d' :: behind) = some (_, behind) :=
    balanced_eq_some_iff.2 ⟨rfl, h.encloses⟩
  have hbreak := Text.breakOn_eq_some_iff.2 ⟨rfl, List.prefix_append _ _, h.keywordFirst⟩
  have hmarker := (lt_length_beforeSegments_iff h.length_lt).2 h.beforeSegments
  rw [Layout.of_eq, hfind]
  dsimp only
  rw [if_pos (Nat.lt_of_le_of_lt (by omega) hmarker), Layout.braces_of_balanced hbalanced]
  dsimp only [bind, Except.bind]
  rw [hbreak]
  dsimp only
  rw [if_pos hmarker]
  exact Layout.ofKeyword_eq h.separates

/-- Where the keyword stands outside strings, the list closes in the braces around
the animation: read from either brace, the quotes open the same strings, and the
list's brace must be closed there too. -/
theorem closes (h : Bracketed document before left sign list behind)
    (hleft : Quoting.outside.after left = .outside) : Closes list := by
  obtain ⟨-, -, -, ⟨-, heven, hnested⟩, -, hsign, -⟩ := h
  have hsigned : Quoting.outside.after (left ++ (listKeyword ++ sign)) = .outside := by
    rw [Quoting.after_append, hleft, Quoting.after_append,
      show Quoting.outside.after listKeyword = .outside from rfl, hsign.after]
  have hbare : Quoting.outside.bare (left ++ (listKeyword ++ (sign ++ '\x7b' :: list))) =
      Quoting.outside.bare (left ++ (listKeyword ++ sign)) ++
        '\x7b' :: Quoting.outside.bare list := by
    rw [← List.append_assoc listKeyword, ← List.append_assoc left, Quoting.bare_append, hsigned]
    rfl
  have hpart := hnested (left ++ (listKeyword ++ sign)) ⟨'\x7b' :: list, by simp⟩
  rw [hbare, List.count_append, List.count_append, List.count_cons_self,
    List.count_cons_of_ne (by decide)] at heven
  exact exists_encloses (by decide) (by omega)

end Bracketed

/-- The ways to read a layout. Unless the list stands in braces, none can overrun
them. -/
theorem Layout.of_cases (document : List Char) :
    (∃ before left sign list behind, Bracketed document before left sign list behind) ∨
    Layout.of document = .ok ⟨[], 0, document⟩ ∨
    (∃ before inner behind, document = before ++ '\x7b' :: (inner ++ '\x7d' :: behind) ∧
      Layout.of document = .ok ⟨[], positionOf document (inner ++ '\x7d' :: behind), inner⟩) ∨
    ∃ position problem, Layout.of document = .error (.illFormed position problem) := by
  rw [Layout.of_eq]
  cases hfind : findOutside '\x7b' .outside document with
  | none => exact .inr (.inl rfl)
  | some found =>
    obtain ⟨before, after⟩ := found
    obtain ⟨hparts, hopens, hfirst⟩ := (findOutside_eq_some_iff (by decide)).1 hfind
    dsimp only
    by_cases hbefore : before.length < (beforeSegments document).length
    · rw [if_pos hbefore]
      cases hb : balanced '\x7b' '\x7d' after with
      | none =>
        refine .inr (.inr (.inr ⟨Text.byteSize before, .unterminatedBrace, ?_⟩))
        rw [braces, hb]
        rfl
      | some found =>
        obtain ⟨inner, behind⟩ := found
        obtain ⟨rfl, hinner⟩ := balanced_eq_some_iff.1 hb
        rw [braces_of_balanced hb]
        dsimp only [bind, Except.bind]
        cases hk : Text.breakOn listKeyword inner with
        | none => exact .inr (.inr (.inl ⟨before, inner, behind, hparts, rfl⟩))
        | some found =>
          obtain ⟨left, right⟩ := found
          obtain ⟨rfl, ⟨text, rfl⟩, hkeyword⟩ := Text.breakOn_eq_some_iff.1 hk
          dsimp only
          split
          · next hmarker =>
            rcases exists_list_or_error document left text behind with
              ⟨sign, list, hsign, rfl⟩ | ⟨position, herror⟩
            · have hlength : before.length + 1 + left.length < document.length := by
                rw [hparts]
                simp only [List.length_append, List.length_cons]
                omega
              exact .inl ⟨before, left, sign, list, behind, hparts, hopens, hfirst, hinner,
                hkeyword, hsign, (lt_length_beforeSegments_iff hlength).1 hmarker⟩
            · exact .inr (.inr (.inr ⟨position, _, herror⟩))
          · exact .inr (.inr (.inl ⟨before, _, behind, hparts, rfl⟩))
    · rw [if_neg hbefore]
      exact .inr (.inl rfl)

/-! ## Documents that cannot be read -/

/-- A layout consists of parts of the document: its list stands where it says, and
its header is empty or what stands in the braces around the animation before the
keyword and behind the list. -/
def Layout.CutFrom (layout : Layout) (document : List Char) : Prop :=
  (∃ before behind, document = before ++ (layout.list ++ behind) ∧
    layout.start = Text.byteSize before) ∧
  (layout.header = [] ∨ ∃ before left between right behind,
    document = before ++ '\x7b' :: (left ++ (between ++ right) ++ '\x7d' :: behind) ∧
      layout.header = left ++ ';' :: right)

theorem positionOf_append (before rest : List Char) :
    positionOf (before ++ rest) rest = Text.byteSize before := by
  rw [positionOf, Text.byteSize_append, Nat.add_sub_cancel]

/-- The list of a layout stands where it says, and reaches to the end of the document or to a
closing brace. -/
theorem Layout.exists_around {document : List Char} {layout : Layout}
    (h : Layout.of document = .ok layout) :
    ∃ before behind, document = before ++ (layout.list ++ behind) ∧
      layout.start = Text.byteSize before ∧ ∀ c ∈ behind.head?, c = '\x7d' := by
  rcases Layout.of_cases document with ⟨before, left, sign, list, behind, hb⟩ | hbare |
    ⟨before, inner, behind, hparts, hinner⟩ | ⟨position, problem, herror⟩
  · rw [hb.layout_eq] at h
    split at h
    · next inner rest hbalanced =>
      split at h
      · obtain rfl := Except.ok.inj h
        have hparts : document =
            (before ++ '\x7b' :: (left ++ (listKeyword ++ (sign ++ ['\x7b'])))) ++
              (list ++ '\x7d' :: behind) := by
          rw [hb.parts]
          simp
        have hstart := congrArg (positionOf · (list ++ '\x7d' :: behind)) hparts
        rw [(balanced_eq_some_iff.1 hbalanced).1] at hparts
        exact ⟨_, '\x7d' :: rest, hparts, hstart.trans (positionOf_append _ _), by simp⟩
      · cases h
    · cases h
  · obtain rfl := Except.ok.inj (hbare.symm.trans h)
    exact ⟨[], [], by simp, rfl, by simp⟩
  · obtain rfl := Except.ok.inj (hinner.symm.trans h)
    have hbrace : document = (before ++ ['\x7b']) ++ (inner ++ '\x7d' :: behind) := by
      rw [hparts]
      simp
    have hstart := congrArg (positionOf · (inner ++ '\x7d' :: behind)) hbrace
    exact ⟨_, '\x7d' :: behind, hbrace, hstart.trans (positionOf_append _ _), by simp⟩
  · rw [herror] at h
    cases h

/-- What a layout is read from are parts of the document. -/
theorem Layout.cutFrom_of {document : List Char} {layout : Layout}
    (h : Layout.of document = .ok layout) : layout.CutFrom document := by
  obtain ⟨outer, after, hlist, hstart, -⟩ := Layout.exists_around h
  refine ⟨⟨outer, after, hlist, hstart⟩, ?_⟩
  rcases Layout.of_cases document with ⟨before, left, sign, list, behind, hb⟩ | hbare |
    ⟨before, inner, behind, hparts, hinner⟩ | ⟨position, problem, herror⟩
  · rw [hb.layout_eq] at h
    split at h
    · next inner rest hbalanced =>
      split at h
      · obtain rfl := Except.ok.inj h
        have hheader : document = before ++ '\x7b' :: (left ++
            ((listKeyword ++ (sign ++ '\x7b' :: list.take (inner.length + 1))) ++
              list.drop (inner.length + 1)) ++ '\x7d' :: behind) := by
          rw [hb.parts]
          simp [List.take_append_drop]
        exact .inr ⟨before, left, _, _, behind, hheader, rfl⟩
      · cases h
    · cases h
  · obtain rfl := Except.ok.inj (hbare.symm.trans h)
    exact .inl rfl
  · obtain rfl := Except.ok.inj (hinner.symm.trans h)
    exact .inl rfl
  · rw [herror] at h
    cases h

/-- A layout fails for a list that overruns its braces exactly where there is one. -/
theorem layout_of_overrun_iff {document : List Char} :
    Layout.of document = .error .listOverrun ↔ Overruns document := by
  constructor
  · intro h
    rcases Layout.of_cases document with ⟨before, left, sign, list, behind, hb⟩ | hbare |
      ⟨before, inner, behind, hparts, hinner⟩ | ⟨position, problem, herror⟩
    · refine ⟨before, left, sign, list, behind, hb, ?_⟩
      rw [hb.layout_eq] at h
      split at h
      · next inner rest hbalanced =>
        split at h
        · cases h
        · next hlength =>
          exact ⟨fun hcloses => hlength ((closes_iff_length_lt hbalanced).1 hcloses),
            closes_iff.2 ⟨inner, rest, hbalanced⟩⟩
      · cases h
    · rw [hbare] at h
      cases h
    · rw [hinner] at h
      cases h
    · rw [herror] at h
      cases h
  · rintro ⟨before, left, sign, list, behind, hb, hopen, hcloses⟩
    obtain ⟨inner, rest, hbalanced⟩ := closes_iff.1 hcloses
    rw [hb.layout_eq, hbalanced]
    exact if_neg fun hlength => hopen ((closes_iff_length_lt hbalanced).2 hlength)

theorem validated_ne_overrun (m : Metadata) : m.validated ≠ .error .listOverrun := by
  unfold Metadata.validated
  split
  · simp
  · split <;> simp

/-- Only the layout of a document can fail for a list that overruns its braces. -/
theorem readBlock_overrun_iff_layout (config : Config) (texture : Texture)
    (document : List Char) :
    (readBlock config texture document).outcome.value = .error .listOverrun ↔
      Layout.of document = .error .listOverrun := by
  rw [readBlock, Reading.outcome_bind, Reading.outcome_ofExcept]
  cases Layout.of document with
  | error e => simp
  | ok layout =>
    refine iff_of_false ?_ (by simp)
    dsimp only
    rw [Reading.outcome_bind, Reading.outcome_ofNoted]
    dsimp only
    rw [Reading.outcome_bind, Reading.outcome_ofNoted]
    dsimp only
    rw [Reading.outcome_ofExcept]
    exact validated_ne_overrun _

/-- A block document is read, or refused for a reason of its own, unless its list
overruns the braces around it; that takes a keyword that stands in a string. What is
read are parts of the document. -/
theorem readBlock_overrun_iff (config : Config) (texture : Texture) (document : List Char) :
    ((readBlock config texture document).outcome.value = .error .listOverrun ↔
      Overruns document) ∧
    (∀ before left sign list behind, Bracketed document before left sign list behind →
      Quoting.outside.after left = .outside → Closes list) ∧
    ∀ layout, Layout.of document = .ok layout → layout.CutFrom document :=
  ⟨(readBlock_overrun_iff_layout config texture document).trans layout_of_overrun_iff,
    fun _ _ _ _ _ hb hleft => hb.closes hleft, fun _ h => Layout.cutFrom_of h⟩

/-- A title with the keyword in it: the list that seems to stand there closes in the
remark behind the animation. -/
def titledDocument : List Char :=
  ("\"animation\" \x7b title = \"segments \x7b\"; " ++
    "segment!FALLBACK_FRAME \x7b frame_index = 0; \x7d \x7d \"\x7d\"").toList

theorem layout_of_titledDocument : Layout.of titledDocument = .error .listOverrun := by
  have h : (match Layout.of titledDocument with
      | .error e => decide (e = .listOverrun)
      | .ok _ => false) = true := by
    decide +kernel
  cases hlayout : Layout.of titledDocument with
  | error e =>
    rw [hlayout] at h
    rw [of_decide_eq_true h]
  | ok layout =>
    rw [hlayout] at h
    cases h

theorem not_forall_readBlock_ne_overrun :
    (readBlock .standard ⟨"minecraft", "item/clock"⟩ titledDocument).outcome.value =
      .error .listOverrun ∧
    ¬∀ config texture document,
      (readBlock config texture document).outcome.value ≠ .error .listOverrun := by
  have h : (readBlock .standard ⟨"minecraft", "item/clock"⟩ titledDocument).outcome.value =
      .error .listOverrun :=
    (readBlock_overrun_iff_layout _ _ _).2 layout_of_titledDocument
  exact ⟨h, fun hall => hall _ _ _ h⟩

end Flipbook.Document
