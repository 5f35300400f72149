import Flipbook.Document.Substitution
import Flipbook.Proofs.Text.Split

/-!
# What substitution does to a text

A text is split from left to right into tokens and the characters between them, where the name of
a token goes on as long as it can. Each piece then stands for a text of its own, so that nothing
that is put in is looked at again.

* `Splits`: the rules of splitting, and `pieces_eq_iff`: `pieces` follows them, which leaves no
  choice.
* `Splits.exists_append`: a text that is cut in two, but in no token, is split as its parts are.
* `Substitutions.expand_pieces`: what a text comes to, piece by piece and part by part.
-/
namespace Flipbook.Document

/-! ## Splitting -/

/-- The name of a token: a letter or an underscore, and then any of these and digits. -/
def IsName : List Char → Prop
  | [] => False
  | c :: cs => isNameStart c = true ∧ ∀ d ∈ cs, isNamePart d = true

/-- Splitting a text from left to right. -/
inductive Splits : List Char → List Piece → Prop where
  | nil : Splits [] []
  /-- A character stands for itself, a dollar sign only where no name follows. -/
  | char {c : Char} {text : List Char} {ps : List Piece}
      (hlone : c = '$' → ∀ d ∈ text.head?, isNameStart d = false) (h : Splits text ps) :
      Splits (c :: text) (.char c :: ps)
  /-- A token ends where its name cannot go on. -/
  | token {name text : List Char} {ps : List Piece} (hname : IsName name)
      (hends : ∀ d ∈ text.head?, isNamePart d = false) (h : Splits text ps) :
      Splits ('$' :: (name ++ text)) (.token name :: ps)

theorem leadingName_eq_nil {text : List Char} (h : ∀ d ∈ text.head?, isNameStart d = false) :
    leadingName text = [] := by
  cases text with
  | nil => rfl
  | cons d ds => simp [leadingName, h d rfl]

theorem leadingName_append {name text : List Char} (hname : IsName name)
    (hends : ∀ d ∈ text.head?, isNamePart d = false) : leadingName (name ++ text) = name := by
  cases name with
  | nil => exact hname.elim
  | cons c cs =>
    obtain ⟨hfirst, hrest⟩ := hname
    have hstop : text.takeWhile isNamePart = [] := by
      cases text with
      | nil => rfl
      | cons d ds => simp [hends d rfl]
    simp [leadingName, hfirst, List.takeWhile_append_of_pos hrest, hstop]

theorem isName_leadingName {text : List Char} (h : leadingName text ≠ []) :
    IsName (leadingName text) := by
  cases text with
  | nil => exact absurd rfl h
  | cons c cs =>
    by_cases hc : isNameStart c = true
    · rw [leadingName, if_pos hc]
      exact ⟨hc, List.all_eq_true.1 List.all_takeWhile⟩
    · rw [leadingName, if_neg hc] at h
      exact absurd rfl h

/-- Behind its leading name a text does not go on with it. -/
theorem head?_drop_leadingName {text : List Char} (h : leadingName text ≠ []) :
    ∀ d ∈ (text.drop (leadingName text).length).head?, isNamePart d = false := by
  cases text with
  | nil => exact absurd rfl h
  | cons c cs =>
    by_cases hc : isNameStart c = true
    · have hdrop : (c :: cs).drop (leadingName (c :: cs)).length = cs.dropWhile isNamePart := by
        rw [leadingName, if_pos hc, List.length_cons, List.drop_succ_cons]
        calc cs.drop (cs.takeWhile isNamePart).length
            = (cs.takeWhile isNamePart ++ cs.dropWhile isNamePart).drop
                (cs.takeWhile isNamePart).length := by rw [List.takeWhile_append_dropWhile]
          _ = cs.dropWhile isNamePart := List.drop_left
      intro d hd
      have hnot := List.head?_dropWhile_not isNamePart cs
      rw [hdrop] at hd
      rw [Option.mem_def.1 hd] at hnot
      simpa using hnot
    · rw [leadingName, if_neg hc] at h
      exact absurd rfl h

/-- A text is split by the rules. -/
theorem splits_pieces (text : List Char) : Splits text (pieces text) := by
  induction text using pieces.induct with
  | case1 =>
    rw [pieces]
    exact .nil
  | case2 c cs name h ih =>
    obtain ⟨rfl, hname⟩ : c = '$' ∧ leadingName cs ≠ [] := by simpa [name] using h
    have htoken := Splits.token (isName_leadingName hname) (head?_drop_leadingName hname) ih
    rw [leadingName_append_drop] at htoken
    rw [pieces, if_pos h]
    exact htoken
  | case3 c cs name h ih =>
    rw [pieces, if_neg h]
    refine .char ?_ ih
    rintro rfl d hd
    have hnone : leadingName cs = [] := by simpa [name] using h
    cases cs with
    | nil => cases hd
    | cons e es =>
      obtain rfl : e = d := Option.some.inj hd
      simpa [leadingName] using hnone

/-- The rules leave no choice. -/
theorem Splits.pieces_eq {text : List Char} {ps : List Piece} (h : Splits text ps) :
    pieces text = ps := by
  induction h with
  | nil => rw [pieces]
  | @char c text ps hlone _ ih =>
    have hnot : ¬(decide (c = '$') && !(leadingName text).isEmpty) = true := by
      intro hboth
      obtain ⟨hc, hname⟩ : c = '$' ∧ leadingName text ≠ [] := by simpa using hboth
      exact hname (leadingName_eq_nil (hlone hc))
    rw [pieces, if_neg hnot, ih]
  | @token name text ps hname hends _ ih =>
    have hne : name ≠ [] := by
      rintro rfl
      exact hname
    rw [pieces, leadingName_append hname hends, if_pos (by simpa using hne), List.drop_left, ih]

theorem pieces_eq_iff {text : List Char} {ps : List Piece} :
    pieces text = ps ↔ Splits text ps :=
  ⟨fun h => h ▸ splits_pieces text, Splits.pieces_eq⟩

/-! ## Parts of a text -/

/-- The text of some pieces. -/
abbrev writtenText (ps : List Piece) : List Char := ps.flatMap Piece.written

@[simp] theorem length_written_char (c : Char) : (Piece.char c).written.length = 1 := rfl

@[simp] theorem length_written_token (name : List Char) :
    (Piece.token name).written.length = name.length + 1 := rfl

/-- Whether a token of a text begins before a cut and ends behind it. -/
def Straddles (front back : List Char) : Prop :=
  ∃ before name after, Splits (front ++ back) (before ++ .token name :: after) ∧
    (writtenText before).length < front.length ∧
    front.length < (writtenText before).length + (Piece.token name).written.length

/-- A token straddles no cut behind a piece that it stands behind. -/
theorem Straddles.behind {p : Piece} {taken front back : List Char} (h : Straddles front back)
    (hp : p.written = taken)
    (hsplits : ∀ ps, Splits (front ++ back) ps → Splits (taken ++ front ++ back) (p :: ps)) :
    Straddles (taken ++ front) back := by
  obtain ⟨before, name, after, hrest, hbegins, hends⟩ := h
  subst hp
  refine ⟨p :: before, name, after, hsplits _ hrest, ?_, ?_⟩
  · simp only [writtenText, List.flatMap_cons, List.length_append] at hbegins ⊢
    omega
  · simp only [writtenText, List.flatMap_cons, List.length_append] at hends ⊢
    omega

theorem mem_head?_append {front : List Char} {c : Char} (h : c ∈ front.head?)
    (back : List Char) : c ∈ (front ++ back).head? := by
  rw [List.head?_append, Option.mem_def.1 h, Option.some_or, Option.mem_def]

/-- A text that is cut in two, but in no token, is split as its parts are. -/
theorem Splits.exists_append {front back : List Char} {ps : List Piece}
    (h : Splits (front ++ back) ps) (hcut : ¬Straddles front back) :
    ∃ as bs, ps = as ++ bs ∧ Splits front as ∧ Splits back bs := by
  generalize htext : front ++ back = text at h
  induction h generalizing front with
  | nil =>
    obtain ⟨rfl, rfl⟩ := List.append_eq_nil_iff.1 htext
    exact ⟨[], [], rfl, .nil, .nil⟩
  | @char c text ps hlone hrest ih =>
    cases front with
    | nil =>
      obtain rfl : back = c :: text := htext
      exact ⟨[], .char c :: ps, rfl, .nil, .char hlone hrest⟩
    | cons d front =>
      obtain ⟨rfl, rfl⟩ : d = c ∧ front ++ back = text := List.cons.inj htext
      have hlater : ¬Straddles front back := fun hrest =>
        hcut (hrest.behind (p := .char d) rfl fun _ => .char hlone)
      obtain ⟨as, bs, rfl, hfront, hback⟩ := ih hlater rfl
      exact ⟨.char d :: as, bs, rfl,
        .char (fun hd e he => hlone hd e (mem_head?_append he back)) hfront, hback⟩
  | @token name text ps hname hends hrest ih =>
    cases front with
    | nil =>
      obtain rfl : back = '$' :: (name ++ text) := htext
      exact ⟨[], .token name :: ps, rfl, .nil, .token hname hends hrest⟩
    | cons d front =>
      have hwhole : Splits (d :: front ++ back) (.token name :: ps) :=
        htext ▸ .token hname hends hrest
      -- the cut stands behind the token, as it stands behind its first character
      have hlength : name.length ≤ front.length := by
        refine Nat.le_of_not_lt fun hlt => hcut ⟨[], name, ps, hwhole, by simp, ?_⟩
        simpa using hlt
      obtain ⟨rfl, hbody⟩ : d = '$' ∧ front ++ back = name ++ text := List.cons.inj htext
      obtain ⟨front, rfl⟩ := List.prefix_of_prefix_length_le ⟨text, rfl⟩ ⟨back, hbody⟩ hlength
      obtain rfl : front ++ back = text := by simpa using hbody
      have hlater : ¬Straddles front back := fun hrest =>
        hcut (hrest.behind (p := .token name) rfl fun _ hsplits => by
          simpa using .token hname hends hsplits)
      obtain ⟨as, bs, rfl, hfront, hback⟩ := ih hlater rfl
      exact ⟨.token name :: as, bs, rfl,
        .token hname (fun e he => hends e (mem_head?_append he back)) hfront, hback⟩

/-! ## What pieces stand for -/

/-- A definition of a text, of a variable or of a condition. -/
inductive Definition where
  | plain (name : String) (text : List Char)
  | condition (name : String) (text : List Char)
deriving DecidableEq

/-- Whether a definition is one of a variable. -/
def Definition.isVariable : Definition → Bool
  | .plain .. => true
  | .condition .. => false

namespace Substitutions

/-- Makes a definition, in place of any of its kind and name. -/
def define (s : Substitutions) : Definition → Substitutions
  | .plain name text => s.defineVariable name text
  | .condition name text => s.defineCondition name text

/-- What a piece stands for: a variable's text comes before a condition's, which is put between
parentheses. -/
def meaning (s : Substitutions) : Piece → List Char
  | .char c => [c]
  | .token name =>
    match s.plain.get? (String.ofList name), s.conditions.get? (String.ofList name) with
    | some text, _ => text
    | none, some text => '(' :: text ++ [')']
    | none, none => '$' :: name

theorem value_expandPiece (s : Substitutions) (whole : List Char) (p : Piece) :
    (s.expandPiece whole p).value = s.meaning p := by
  cases p with
  | char c => rfl
  | token name =>
    dsimp only [expandPiece, lookup, meaning]
    cases s.plain.get? (String.ofList name) with
    | some text => rfl
    | none => cases s.conditions.get? (String.ofList name) <;> rfl

theorem value_expand (s : Substitutions) {text : List Char} {ps : List Piece}
    (h : Splits text ps) : (s.expand text).value = ps.flatMap s.meaning := by
  have hmap : (pieces text).map (fun p => (s.expandPiece text p).value) = ps.map s.meaning := by
    rw [h.pieces_eq]
    exact List.map_congr_left fun p _ => s.value_expandPiece text p
  rw [expand, Noted.value_bind, Noted.value_mapM, hmap]
  exact List.flatMap_def.symm

/-- The variables that are defined do not depend on the definitions of conditions. -/
theorem plain_foldl_define {s t : Substitutions} (h : s.plain = t.plain) (ds : List Definition) :
    (ds.foldl define s).plain = ((ds.filter Definition.isVariable).foldl define t).plain := by
  induction ds generalizing s t with
  | nil => exact h
  | cons d ds ih =>
    cases d with
    | plain name text => exact ih (congrArg (Table.insert · name text) h)
    | condition name text => exact ih h

/-- The conditions that are defined do not depend on the definitions of variables. -/
theorem conditions_foldl_define {s t : Substitutions} (h : s.conditions = t.conditions)
    (ds : List Definition) :
    (ds.foldl define s).conditions =
      ((ds.filter (!·.isVariable)).foldl define t).conditions := by
  induction ds generalizing s t with
  | nil => exact h
  | cons d ds ih =>
    cases d with
    | plain name text => exact ih h
    | condition name text => exact ih (congrArg (Table.insert · name text) h)

/-- A text is split in just one way, and comes to what its pieces stand for, one after the other.
So it comes to what its parts come to where it is cut in no token, and it does not matter how
definitions of variables and of conditions are mixed. -/
theorem expand_pieces (s : Substitutions) :
    (∀ text, ∃ ps, (∀ qs, Splits text qs ↔ qs = ps) ∧ writtenText ps = text ∧
      (s.expand text).value = ps.flatMap s.meaning) ∧
    (∀ front back, ¬Straddles front back →
      (s.expand (front ++ back)).value = (s.expand front).value ++ (s.expand back).value) ∧
    ∀ ds es : List Definition,
      ds.filter Definition.isVariable = es.filter Definition.isVariable →
      ds.filter (!·.isVariable) = es.filter (!·.isVariable) →
      (ds.foldl define s).expand = (es.foldl define s).expand := by
  refine ⟨fun text => ?_, fun front back hcut => ?_, fun ds es hvariables hconditions => ?_⟩
  · refine ⟨pieces text, fun qs => ?_, flatMap_written_pieces text,
      s.value_expand (splits_pieces text)⟩
    rw [← pieces_eq_iff, eq_comm]
  · obtain ⟨as, bs, hpieces, hfront, hback⟩ := (splits_pieces (front ++ back)).exists_append hcut
    have hwhole : Splits (front ++ back) (as ++ bs) := hpieces ▸ splits_pieces (front ++ back)
    rw [s.value_expand hwhole, s.value_expand hfront, s.value_expand hback, List.flatMap_append]
  · have hplain : (ds.foldl define s).plain = (es.foldl define s).plain := by
      rw [plain_foldl_define (t := s) rfl, hvariables, ← plain_foldl_define (s := s) rfl]
    have hconds : (ds.foldl define s).conditions = (es.foldl define s).conditions := by
      rw [conditions_foldl_define (t := s) rfl, hconditions,
        ← conditions_foldl_define (s := s) rfl]
    have hsame : ds.foldl define s = es.foldl define s := by
      show Substitutions.mk _ _ = Substitutions.mk _ _
      rw [hplain, hconds]
    rw [hsame]

/-- Two definitions of one name, and one of a name that begins with it. -/
def gaits : List Definition :=
  [.condition "walk" "health > 1".toList, .plain "walk" "0-$walk".toList,
    .condition "walk_fast" "$walk".toList]

theorem expand_pieces_gaits :
    ¬Straddles "$walk".toList "$walk_fast$".toList ∧
      ((gaits.foldl define empty).expand ("$walk".toList ++ "$walk_fast$".toList)).value =
        ((gaits.foldl define empty).expand "$walk".toList).value ++
          ((gaits.foldl define empty).expand "$walk_fast$".toList).value ∧
      (gaits.foldl define empty).expand =
        ((gaits.filter (!·.isVariable) ++ gaits.filter Definition.isVariable).foldl define
          empty).expand := by
  have hpieces : pieces ("$walk".toList ++ "$walk_fast$".toList) =
      [.token "walk".toList, .token "walk_fast".toList, .char '$'] := by
    decide +kernel
  have hcut : ¬Straddles "$walk".toList "$walk_fast$".toList := by
    rintro ⟨before, name, after, hsplits, hbegins, hends⟩
    rw [← pieces_eq_iff, hpieces] at hsplits
    match before, hsplits with
    | [], hsplits =>
      obtain ⟨rfl, -⟩ : "walk".toList = name ∧ _ := by simpa using hsplits
      exact absurd hends (by decide)
    | p :: before, hsplits =>
      obtain ⟨rfl, -⟩ := List.cons.inj hsplits
      have hlong : 5 ≤ (List.flatMap Piece.written (.token "walk".toList :: before)).length := by
        rw [List.flatMap_cons, List.length_append]
        exact Nat.le_add_right 5 _
      exact absurd (Nat.lt_of_le_of_lt hlong hbegins) (by decide)
  exact ⟨hcut, (expand_pieces _).2.1 _ _ hcut, (expand_pieces empty).2.2 _ _ rfl rfl⟩

end Substitutions
end Flipbook.Document
