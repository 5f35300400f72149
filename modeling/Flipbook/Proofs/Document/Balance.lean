import Flipbook.Document.Balanced

/-!
# Matching delimiters

What `balanced` finds, said without its scan. `Quoting.bare` are the characters of
a text that stand outside strings, and a text `Encloses` what stands between a
pair of delimiters if every delimiter opened in it, outside strings, is closed in
it and no other is.

* `balancedFrom_eq_some_iff`: the scan finds such a text, and the only one.
* `findOutside_eq_some_iff`: the first occurrence outside strings.
* `exists_encloses`: where more delimiters close than are open, one of them closes
  the outermost.
* `Encloses.append`, `Encloses.between`: what texts enclose when they are put
  together.
-/
namespace Flipbook.Document

/-! ## Texts outside strings -/

namespace Quoting

/-- Where a reader stands who has read a text. -/
def after (q : Quoting) (text : List Char) : Quoting := text.foldl next q

/-- The characters of a text that stand outside strings. -/
def bare (q : Quoting) : List Char → List Char
  | [] => []
  | c :: cs => if q.counts c then c :: (q.next c).bare cs else (q.next c).bare cs

@[simp] theorem after_nil (q : Quoting) : q.after [] = q := rfl

@[simp] theorem after_cons (q : Quoting) (c : Char) (cs : List Char) :
    q.after (c :: cs) = (q.next c).after cs := rfl

@[simp] theorem after_append (q : Quoting) (as bs : List Char) :
    q.after (as ++ bs) = (q.after as).after bs :=
  List.foldl_append

@[simp] theorem bare_nil (q : Quoting) : q.bare [] = [] := rfl

theorem bare_cons_of_counts {q : Quoting} {c : Char} (h : q.counts c = true) (cs : List Char) :
    q.bare (c :: cs) = c :: (q.next c).bare cs := by
  rw [bare, if_pos h]

theorem bare_cons_of_not_counts {q : Quoting} {c : Char} (h : ¬q.counts c = true)
    (cs : List Char) : q.bare (c :: cs) = (q.next c).bare cs := by
  rw [bare, if_neg h]

@[simp] theorem bare_append (q : Quoting) (as bs : List Char) :
    q.bare (as ++ bs) = q.bare as ++ (q.after as).bare bs := by
  induction as generalizing q with
  | nil => rfl
  | cons a as ih =>
    rw [List.cons_append, after_cons]
    by_cases h : q.counts a = true
    · rw [bare_cons_of_counts h, bare_cons_of_counts h, ih, List.cons_append]
    · rw [bare_cons_of_not_counts h, bare_cons_of_not_counts h, ih]

theorem counts_iff {q : Quoting} {c : Char} : q.counts c = true ↔ q = .outside ∧ c ≠ '\x22' := by
  simp [counts]

/-- A character that counts leaves the reader where it was. -/
theorem next_of_counts {q : Quoting} {c : Char} (h : q.counts c = true) : q.next c = .outside := by
  obtain ⟨rfl, hc⟩ := counts_iff.1 h
  exact if_neg hc

/-- A text without quotes stays outside strings. -/
theorem after_outside {text : List Char} (h : '\x22' ∉ text) : outside.after text = outside := by
  induction text with
  | nil => rfl
  | cons c cs ih =>
    rw [List.mem_cons, not_or] at h
    rw [after_cons, next_of_counts (counts_iff.2 ⟨rfl, Ne.symm h.1⟩), ih h.2]

theorem bare_outside {text : List Char} (h : '\x22' ∉ text) : outside.bare text = text := by
  induction text with
  | nil => rfl
  | cons c cs ih =>
    rw [List.mem_cons, not_or] at h
    have hcounts : outside.counts c = true := counts_iff.2 ⟨rfl, Ne.symm h.1⟩
    rw [bare_cons_of_counts hcounts, next_of_counts hcounts, ih h.2]

/-- A text without quotes and backslashes stays in its string. -/
theorem after_inside {text : List Char} (hquote : '\x22' ∉ text) (hbackslash : '\\' ∉ text) :
    inside.after text = inside := by
  induction text with
  | nil => rfl
  | cons c cs ih =>
    rw [List.mem_cons, not_or] at hquote hbackslash
    have hnext : inside.next c = inside := by
      rw [next, if_neg (Ne.symm hbackslash.1), if_neg (Ne.symm hquote.1)]
    rw [after_cons, hnext, ih hquote.2 hbackslash.2]

theorem bare_inside {text : List Char} (hquote : '\x22' ∉ text) (hbackslash : '\\' ∉ text) :
    inside.bare text = [] := by
  induction text with
  | nil => rfl
  | cons c cs ih =>
    rw [List.mem_cons, not_or] at hquote hbackslash
    have hnext : inside.next c = inside := by
      rw [next, if_neg (Ne.symm hbackslash.1), if_neg (Ne.symm hquote.1)]
    rw [bare_cons_of_not_counts (by simp [counts]), hnext, ih hquote.2 hbackslash.2]

end Quoting

/-! ## Scans -/

/-- A scan that passes over a character finds what it finds behind it. -/
theorem map_cons_eq_some_iff {found : Option (List Char × List Char)} {c a : Char}
    {left right : List Char} :
    found.map (fun (left, right) => (c :: left, right)) = some (a :: left, right) ↔
      c = a ∧ found = some (left, right) := by
  cases found <;> simp [and_assoc, Prod.ext_iff]

theorem findOutside_cons_of_counts {needle : Char} {q : Quoting} (h : q.counts needle = true)
    (cs : List Char) : findOutside needle q (needle :: cs) = some ([], cs) := by
  simp [findOutside, h]

theorem findOutside_cons_of_not {needle c : Char} {q : Quoting}
    (h : ¬(q.counts c = true ∧ c = needle)) (cs : List Char) :
    findOutside needle q (c :: cs) =
      (findOutside needle (q.next c) cs).map fun (left, right) => (c :: left, right) := by
  rw [findOutside, if_neg]
  simpa using h

/-- `findOutside` finds the first occurrence outside strings. -/
theorem findOutside_eq_some_iff {needle : Char} (hneedle : needle ≠ '\x22') {q : Quoting}
    {cs left right : List Char} :
    findOutside needle q cs = some (left, right) ↔
      cs = left ++ needle :: right ∧ q.after left = .outside ∧ needle ∉ q.bare left := by
  induction cs generalizing q left with
  | nil => simp [findOutside]
  | cons c cs ih =>
    by_cases h : q.counts c = true ∧ c = needle
    · obtain ⟨hc, rfl⟩ := h
      rw [findOutside_cons_of_counts hc]
      cases left with
      | nil => simp [(Quoting.counts_iff.1 hc).1]
      | cons a left =>
        refine iff_of_false (by simp) ?_
        rintro ⟨heq, -, hmem⟩
        obtain ⟨rfl, -⟩ := List.cons.inj heq
        rw [Quoting.bare_cons_of_counts hc] at hmem
        exact hmem List.mem_cons_self
    · rw [findOutside_cons_of_not h]
      cases left with
      | nil =>
        refine iff_of_false ?_ ?_
        · simp [Option.map_eq_some_iff]
        · rintro ⟨heq, hq, -⟩
          obtain ⟨rfl, -⟩ := List.cons.inj heq
          exact h ⟨Quoting.counts_iff.2 ⟨hq, hneedle⟩, rfl⟩
      | cons a left =>
        have hbare (hca : c = a) : needle ∉ q.bare (a :: left) ↔ needle ∉ (q.next c).bare left := by
          subst hca
          by_cases hc : q.counts c = true
          · rw [Quoting.bare_cons_of_counts hc, List.mem_cons, not_or]
            exact and_iff_right fun hcn => h ⟨hc, hcn.symm⟩
          · rw [Quoting.bare_cons_of_not_counts hc]
        rw [map_cons_eq_some_iff, ih, List.cons_append, List.cons.injEq, Quoting.after_cons]
        constructor
        · rintro ⟨rfl, rfl, hq, hmem⟩
          exact ⟨⟨rfl, rfl⟩, hq, (hbare rfl).2 hmem⟩
        · rintro ⟨⟨rfl, rfl⟩, hq, hmem⟩
          exact ⟨rfl, rfl, hq, (hbare rfl).1 hmem⟩

/-! ## Texts between delimiters -/

variable {opening closing : Char} {q : Quoting} {depth : Nat}

/-- Whether a text, read where `depth + 1` delimiters are open, closes those above
the outermost, whatever it opens, and no more. -/
structure Encloses (opening closing : Char) (q : Quoting) (depth : Nat) (text : List Char) :
    Prop where
  outside : q.after text = .outside
  even : (q.bare text).count opening + depth = (q.bare text).count closing
  nested : ∀ part, part <+: text →
    (q.bare part).count closing ≤ (q.bare part).count opening + depth

/-- How many delimiters are open above the outermost behind a character, unless it
closes that one. -/
def nest (opening closing : Char) (q : Quoting) (depth : Nat) (c : Char) : Option Nat :=
  if q.counts c then
    if c = opening then some (depth + 1)
    else if c = closing then
      match depth with
      | 0 => none
      | depth + 1 => some depth
    else some depth
  else some depth

theorem balancedFrom_cons (c : Char) (cs : List Char) :
    balancedFrom opening closing q depth (c :: cs) =
      match nest opening closing q depth c with
      | none => some ([], cs)
      | some depth =>
        (balancedFrom opening closing (q.next c) depth cs).map
          fun (left, right) => (c :: left, right) := by
  simp only [balancedFrom, nest]
  cases q.counts c with
  | false => rfl
  | true =>
    by_cases ho : c = opening
    · simp only [if_pos ho, if_true]
    · by_cases hc : c = closing
      · cases depth <;> simp only [if_neg ho, if_pos hc, if_true]
      · simp only [if_neg ho, if_neg hc, if_true]

/-- What a character adds to the delimiters opened and closed. -/
theorem nest_eq_some_iff (hne : opening ≠ closing) {c : Char} {later : Nat} :
    nest opening closing q depth c = some later ↔
      (q.bare [c]).count opening + depth = (q.bare [c]).count closing + later := by
  unfold nest
  by_cases hc : q.counts c = true
  · rw [if_pos hc, Quoting.bare_cons_of_counts hc, Quoting.bare_nil, List.count_singleton,
      List.count_singleton]
    by_cases ho : c = opening
    · subst ho
      rw [if_pos rfl, if_pos BEq.rfl, if_neg (by simpa using hne), Option.some.injEq]
      omega
    · have hopening : ¬(c == opening) = true := by simpa using ho
      rw [if_neg ho, if_neg hopening]
      by_cases hcl : c = closing
      · subst hcl
        rw [if_pos rfl, if_pos BEq.rfl]
        cases depth with
        | zero =>
          refine iff_of_false (by simp) ?_
          omega
        | succ depth =>
          dsimp only
          rw [Option.some.injEq]
          omega
      · have hclosing : ¬(c == closing) = true := by simpa using hcl
        rw [if_neg hcl, if_neg hclosing, Option.some.injEq]
        omega
  · rw [if_neg hc, Quoting.bare_cons_of_not_counts hc, Quoting.bare_nil, List.count_nil,
      List.count_nil, Option.some.injEq]
    omega

theorem nest_eq_none_iff (hne : opening ≠ closing) {c : Char} :
    nest opening closing q depth c = none ↔
      q.counts c = true ∧ c = closing ∧ depth = 0 := by
  unfold nest
  by_cases hc : q.counts c = true
  · rw [if_pos hc]
    by_cases ho : c = opening
    · simp [ho, hne]
    · rw [if_neg ho]
      by_cases hcl : c = closing
      · subst hcl
        rw [if_pos rfl]
        cases depth <;> simp [hc]
      · simp [hcl]
  · simp [hc]

/-- The characters read one after the other. -/
theorem encloses_cons_iff (hne : opening ≠ closing) {c : Char} {text : List Char} :
    Encloses opening closing q depth (c :: text) ↔
      ∃ later, nest opening closing q depth c = some later ∧
        Encloses opening closing (q.next c) later text := by
  have hbare (cs : List Char) : q.bare (c :: cs) = q.bare [c] ++ (q.next c).bare cs :=
    q.bare_append [c] cs
  constructor
  · rintro ⟨houtside, heven, hnested⟩
    have hfirst := hnested [c] ⟨text, rfl⟩
    refine ⟨(q.bare [c]).count opening + depth - (q.bare [c]).count closing,
      (nest_eq_some_iff hne).2 (by omega), houtside, ?_, ?_⟩
    · rw [hbare, List.count_append, List.count_append] at heven
      omega
    · intro part hpart
      have h := hnested (c :: part) (List.cons_prefix_cons.2 ⟨rfl, hpart⟩)
      rw [hbare, List.count_append, List.count_append] at h
      omega
  · rintro ⟨later, hnest, houtside, heven, hnested⟩
    rw [nest_eq_some_iff hne] at hnest
    refine ⟨houtside, ?_, ?_⟩
    · rw [hbare, List.count_append, List.count_append]
      omega
    · intro part hpart
      cases part with
      | nil => simp
      | cons a part =>
        obtain ⟨rfl, hprefix⟩ := List.cons_prefix_cons.1 hpart
        have h := hnested part hprefix
        rw [hbare, List.count_append, List.count_append]
        omega

theorem encloses_nil_iff : Encloses opening closing q depth [] ↔ q = .outside ∧ depth = 0 := by
  constructor
  · rintro ⟨houtside, heven, -⟩
    exact ⟨houtside, by simpa using heven⟩
  · rintro ⟨rfl, rfl⟩
    exact ⟨rfl, rfl, fun part hpart => by rw [List.prefix_nil.1 hpart]; simp⟩

/-- `balancedFrom` finds what stands before the delimiter that closes the outermost
one, and nothing else. -/
theorem balancedFrom_eq_some_iff (hne : opening ≠ closing) (hclosing : closing ≠ '\x22')
    {text inner rest : List Char} :
    balancedFrom opening closing q depth text = some (inner, rest) ↔
      text = inner ++ closing :: rest ∧ Encloses opening closing q depth inner := by
  induction text generalizing q depth inner with
  | nil => simp [balancedFrom]
  | cons c cs ih =>
    rw [balancedFrom_cons]
    cases inner with
    | nil =>
      rw [encloses_nil_iff, List.nil_append, List.cons.injEq]
      cases hnest : nest opening closing q depth c with
      | none =>
        obtain ⟨hc, rfl, rfl⟩ := (nest_eq_none_iff hne).1 hnest
        simp [(Quoting.counts_iff.1 hc).1]
      | some later =>
        refine iff_of_false (by simp) ?_
        rintro ⟨⟨rfl, -⟩, rfl, rfl⟩
        have hcounts : Quoting.outside.counts c = true := Quoting.counts_iff.2 ⟨rfl, hclosing⟩
        rw [(nest_eq_none_iff hne).2 ⟨hcounts, rfl, rfl⟩] at hnest
        cases hnest
    | cons a inner =>
      cases hnest : nest opening closing q depth c with
      | none =>
        refine iff_of_false (by simp) ?_
        rintro ⟨heq, hinner⟩
        obtain ⟨rfl, -⟩ := List.cons.inj heq
        obtain ⟨later, hlater, -⟩ := (encloses_cons_iff hne).1 hinner
        rw [hnest] at hlater
        cases hlater
      | some later =>
        dsimp only
        rw [map_cons_eq_some_iff, ih, List.cons_append, List.cons.injEq]
        constructor
        · rintro ⟨rfl, rfl, hinner⟩
          exact ⟨⟨rfl, rfl⟩, (encloses_cons_iff hne).2 ⟨later, hnest, hinner⟩⟩
        · rintro ⟨⟨rfl, rfl⟩, hinner⟩
          obtain ⟨later', hlater, hinner⟩ := (encloses_cons_iff hne).1 hinner
          obtain rfl : later = later' := Option.some.inj (hnest.symm.trans hlater)
          exact ⟨rfl, rfl, hinner⟩

/-- Where more delimiters close than are open, one of them closes the outermost. -/
theorem exists_encloses (hne : opening ≠ closing) {text : List Char}
    (h : (q.bare text).count opening + depth < (q.bare text).count closing) :
    ∃ inner rest, text = inner ++ closing :: rest ∧ Encloses opening closing q depth inner := by
  induction text generalizing q depth with
  | nil => simp at h
  | cons c cs ih =>
    cases hnest : nest opening closing q depth c with
    | none =>
      obtain ⟨hc, rfl, rfl⟩ := (nest_eq_none_iff hne).1 hnest
      exact ⟨[], cs, rfl, encloses_nil_iff.2 ⟨(Quoting.counts_iff.1 hc).1, rfl⟩⟩
    | some later =>
      have hfirst := (nest_eq_some_iff hne).1 hnest
      rw [show q.bare (c :: cs) = q.bare [c] ++ (q.next c).bare cs from q.bare_append [c] cs,
        List.count_append, List.count_append] at h
      obtain ⟨inner, rest, rfl, hinner⟩ := @ih (q.next c) later (by omega)
      exact ⟨c :: inner, rest, rfl, (encloses_cons_iff hne).2 ⟨later, hnest, hinner⟩⟩

/-! ## Texts put together -/

/-- A text that closes the delimiters above some others, and one that closes these. -/
theorem Encloses.append {later : Nat} {as bs : List Char}
    (ha : Encloses opening closing q depth as) (hb : Encloses opening closing .outside later bs) :
    Encloses opening closing q (depth + later) (as ++ bs) := by
  obtain ⟨houtside, heven, hnested⟩ := ha
  refine ⟨?_, ?_, ?_⟩
  · rw [Quoting.after_append, houtside]
    exact hb.outside
  · have hlater := hb.even
    rw [Quoting.bare_append, houtside, List.count_append, List.count_append]
    omega
  · rintro part ⟨rest, hpart⟩
    rcases List.append_eq_append_iff.1 hpart with ⟨more, rfl, -⟩ | ⟨more, rfl, hmore⟩
    · have hwithin := hnested part (List.prefix_append _ _)
      omega
    · have hbehind := hb.nested more ⟨rest, hmore.symm⟩
      rw [Quoting.bare_append, houtside, List.count_append, List.count_append]
      omega

/-- A text without delimiters outside strings. -/
theorem encloses_of_notMem {text : List Char} (houtside : q.after text = .outside)
    (hopening : opening ∉ q.bare text) (hclosing : closing ∉ q.bare text) :
    Encloses opening closing q 0 text := by
  refine ⟨houtside, ?_, ?_⟩
  · rw [List.count_eq_zero.2 hopening, List.count_eq_zero.2 hclosing]
  · rintro part ⟨rest, rfl⟩
    rw [Quoting.bare_append, List.mem_append, not_or] at hclosing
    rw [List.count_eq_zero.2 hclosing.1]
    exact Nat.zero_le _

/-- A text between delimiters. -/
theorem Encloses.between (hne : opening ≠ closing) (hopening : opening ≠ '\x22')
    (hclosing : closing ≠ '\x22') {text : List Char}
    (h : Encloses opening closing .outside 0 text) :
    Encloses opening closing .outside 0 (opening :: (text ++ [closing])) := by
  have hlast : Encloses opening closing .outside 1 [closing] := by
    have hcounts : Quoting.outside.counts closing = true := Quoting.counts_iff.2 ⟨rfl, hclosing⟩
    have hnest : nest opening closing .outside 1 closing = some 0 := by
      rw [nest_eq_some_iff hne, Quoting.bare_cons_of_counts hcounts, Quoting.bare_nil,
        List.count_singleton_self, List.count_singleton, if_neg (by simpa using hne.symm)]
    refine (encloses_cons_iff hne).2 ⟨0, hnest, ?_⟩
    rw [Quoting.next_of_counts hcounts, encloses_nil_iff]
    exact ⟨rfl, rfl⟩
  have hcounts : Quoting.outside.counts opening = true := Quoting.counts_iff.2 ⟨rfl, hopening⟩
  have hnest : nest opening closing .outside 0 opening = some 1 := by
    rw [nest_eq_some_iff hne, Quoting.bare_cons_of_counts hcounts, Quoting.bare_nil,
      List.count_singleton_self, List.count_singleton, if_neg (by simpa using hne)]
  refine (encloses_cons_iff hne).2 ⟨1, hnest, ?_⟩
  rw [Quoting.next_of_counts hcounts]
  exact h.append hlast

end Flipbook.Document
