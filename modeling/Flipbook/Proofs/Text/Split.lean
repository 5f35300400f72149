import Flipbook.Text.Split

/-!
# Texts put together

Cutting and trimming a text that has been put together takes it apart again, where
the parts hold neither the separators nor, at their ends, what is trimmed.

* `cut_append`, `splitOn_append`: at a separator that the first part does not hold.
* `breakOn_append`: at a word, behind a character that the word does not hold.
* `stripWhile_append`: between characters that are dropped; whatever is trimmed stands
  between such characters (`exists_eq_stripWhile`).
-/
namespace Flipbook.Text

/-! ## Deciding

What holds for the characters of a text is decided by going through that text, where
libraries offer to go through all characters there are. -/

instance decidableForallMem (p : Char → Prop) [DecidablePred p] (text : List Char) :
    Decidable (∀ c ∈ text, p c) :=
  List.decidableBAll p text

instance decidableForallMemOption (p : Char → Prop) [DecidablePred p] (found : Option Char) :
    Decidable (∀ c ∈ found, p c) :=
  Option.decidableForallMem found

variable {sep : Char} {p : Char → Bool} {word left right : List Char}

/-! ## Separators -/

theorem cut_append (h : sep ∉ left) (right : List Char) :
    cut sep (left ++ sep :: right) = some (left, right) := by
  induction left with
  | nil => exact if_pos rfl
  | cons c left ih =>
    rw [List.mem_cons, not_or] at h
    rw [List.cons_append, cut, if_neg (Ne.symm h.1), ih h.2]
    rfl

theorem cut_eq_none (h : sep ∉ left) : cut sep left = none := by
  cases hcut : cut sep left with
  | none => rfl
  | some parts =>
    obtain ⟨rfl, -⟩ := eq_of_cut hcut
    exact absurd (by simp) h

theorem cut_eq_some_iff {text right : List Char} :
    cut sep text = some (left, right) ↔ text = left ++ sep :: right ∧ sep ∉ left := by
  refine ⟨eq_of_cut, ?_⟩
  rintro ⟨rfl, hleft⟩
  exact cut_append hleft right

theorem cut_eq_none_iff : cut sep left = none ↔ sep ∉ left := by
  refine ⟨fun h hmem => ?_, cut_eq_none⟩
  obtain ⟨before, after, rfl, hbefore⟩ := List.eq_append_cons_of_mem hmem
  rw [cut_append hbefore] at h
  cases h

theorem splitOn_of_notMem (h : sep ∉ left) : splitOn sep left = [left] := by
  induction left with
  | nil => rfl
  | cons c left ih =>
    rw [List.mem_cons, not_or] at h
    rw [splitOn, if_neg (Ne.symm h.1), ih h.2]

/-- At a separator the pieces of one text end and those of the other begin. -/
theorem splitOn_append_cons (sep : Char) (left right : List Char) :
    splitOn sep (left ++ sep :: right) = splitOn sep left ++ splitOn sep right := by
  induction left with
  | nil => exact if_pos rfl
  | cons c left ih =>
    rw [List.cons_append, splitOn, splitOn, ih]
    by_cases hc : c = sep
    · rw [if_pos hc, if_pos hc, List.cons_append]
    · rw [if_neg hc, if_neg hc]
      cases hleft : splitOn sep left with
      | nil => exact absurd hleft (splitOn_ne_nil sep left)
      | cons piece pieces => rfl

theorem splitOn_append (h : sep ∉ left) (right : List Char) :
    splitOn sep (left ++ sep :: right) = left :: splitOn sep right := by
  rw [splitOn_append_cons, splitOn_of_notMem h, List.singleton_append]

theorem notMem_of_mem_splitOn {piece : List Char} (h : piece ∈ splitOn sep left) :
    sep ∉ piece := by
  induction left generalizing piece with
  | nil =>
    rw [List.mem_singleton.1 h]
    exact List.not_mem_nil
  | cons c left ih =>
    rw [splitOn] at h
    by_cases hc : c = sep
    · rw [if_pos hc, List.mem_cons] at h
      rcases h with rfl | h
      · exact List.not_mem_nil
      · exact ih h
    · rw [if_neg hc] at h
      cases hleft : splitOn sep left with
      | nil => exact absurd hleft (splitOn_ne_nil sep left)
      | cons first pieces =>
        rw [hleft] at h ih
        rcases List.mem_cons.1 h with rfl | h
        · simp [Ne.symm hc, ih List.mem_cons_self]
        · exact ih (List.mem_cons_of_mem _ h)

theorem notMem_before (sep : Char) (text : List Char) : sep ∉ before sep text := by
  intro h
  simpa using List.all_eq_true.1 List.all_takeWhile sep h

theorem before_of_notMem (h : sep ∉ left) : before sep left = left := by
  have hall : ∀ c ∈ left, (c != sep) = true := fun c hc => bne_iff_ne.2 fun heq => h (heq ▸ hc)
  rw [before, ← List.append_nil left, List.takeWhile_append_of_pos hall]
  rfl

theorem before_append (h : sep ∉ left) (right : List Char) :
    before sep (left ++ sep :: right) = left := by
  have hall : ∀ c ∈ left, (c != sep) = true := fun c hc => bne_iff_ne.2 fun heq => h (heq ▸ hc)
  simp [before, List.takeWhile_append_of_pos hall]

/-- The line that a word opens, where a word holds no separator. -/
theorem splitOn_word (h : sep ∉ word) (right : List Char) :
    ∃ line lines, splitOn sep (word ++ right) = (word ++ line) :: lines := by
  induction word with
  | nil =>
    cases hlines : splitOn sep right with
    | nil => exact absurd hlines (splitOn_ne_nil sep right)
    | cons line lines => exact ⟨line, lines, hlines⟩
  | cons c word ih =>
    rw [List.mem_cons, not_or] at h
    obtain ⟨line, lines, hlines⟩ := ih h.2
    refine ⟨line, lines, ?_⟩
    rw [List.cons_append, splitOn, if_neg (Ne.symm h.1), hlines]
    rfl

/-- What stands behind the first occurrence of a character reaches to any other. -/
theorem exists_eq_append_of_notMem {front back left right : List Char} (h : sep ∉ front)
    (htext : front ++ sep :: back = left ++ sep :: right) :
    ∃ more, left = front ++ more ∧ sep :: back = more ++ sep :: right := by
  rcases List.append_eq_append_iff.1 htext with ⟨more, hleft, hback⟩ | ⟨more, hfront, hright⟩
  · exact ⟨more, hleft, hback⟩
  · cases more with
    | nil => exact ⟨[], by simpa using hfront.symm, hright.symm⟩
    | cons c more =>
      obtain rfl : sep = c := (List.cons.inj hright).1
      exact absurd (by simp [hfront]) h

/-! ## Words -/

/-- A word is found where a text starts with it. -/
theorem breakOn_word (word right : List Char) :
    breakOn word (word ++ right) = some ([], word ++ right) :=
  breakOn_eq_some_iff.2 ⟨rfl, List.prefix_append _ _, fun _ _ => Nat.zero_le _⟩

/-- A word with a character that a text does not hold ends behind that text. -/
theorem length_lt_of_notMem {c : Char} (hword : c ∈ word) (hleft : c ∉ left) {part : List Char}
    (h : part ++ word <+: left ++ right) : left.length < (part ++ word).length := by
  refine Nat.lt_of_not_le fun hle => hleft ?_
  have hprefix : part ++ word <+: left :=
    List.prefix_of_prefix_length_le h (List.prefix_append _ _) hle
  exact hprefix.subset (List.mem_append_right part hword)

theorem breakOn_eq_none_of_notMem {c : Char} (hword : c ∈ word) (hleft : c ∉ left) :
    breakOn word left = none :=
  breakOn_eq_none_iff.2 fun part hpart => hleft (hpart.subset (List.mem_append_right part hword))

/-- A word that a part of the text does not hold, and that does not reach across the
character behind this part, is found behind them. -/
theorem breakOn_append (hleft : breakOn word left = none) (hsep : sep ∉ word)
    (right : List Char) :
    breakOn word (left ++ sep :: (word ++ right)) = some (left ++ [sep], word ++ right) := by
  rw [breakOn_eq_none_iff] at hleft
  refine breakOn_eq_some_iff.2 ⟨by simp, List.prefix_append _ _, ?_⟩
  rintro part ⟨rest, hpart⟩
  rw [List.length_append, List.length_singleton]
  refine Nat.lt_of_not_le fun hle => ?_
  -- an earlier occurrence ends in the first part or reaches across the separator
  rcases List.append_eq_append_iff.1 hpart with ⟨more, hmore, -⟩ | ⟨across, hword, hacross⟩
  · exact hleft part ⟨more, hmore.symm⟩
  cases across with
  | nil => exact hleft part ⟨[], by rw [List.append_nil, hword, List.append_nil]⟩
  | cons c across =>
    obtain ⟨rfl, -⟩ := List.cons.inj hacross
    rcases List.append_eq_append_iff.1 hword with ⟨more, -, hmem⟩ | ⟨more, hpart', hmem⟩
    · exact hsep (by simp [hmem])
    · rw [hpart', List.length_append] at hle
      obtain rfl : more = [] := List.length_eq_zero_iff.1 (by omega)
      rw [List.nil_append] at hmem
      exact hsep (hmem ▸ List.mem_cons_self)

/-! ## Ends -/

theorem dropWhile_eq_nil {text : List Char} (h : ∀ c ∈ text, p c = true) :
    text.dropWhile p = [] := by
  rw [← List.append_nil text, List.dropWhile_append_of_pos h]
  rfl

/-- What stands behind a text is left where it opens with a character of another class. -/
theorem takeWhile_append_of_head? (text : List Char) {after : List Char}
    (h : ∀ c ∈ after.head?, p c = false) :
    (text ++ after).takeWhile p = text.takeWhile p ∧
      (text ++ after).dropWhile p = text.dropWhile p ++ after := by
  induction text with
  | nil =>
    cases after with
    | nil => exact ⟨rfl, rfl⟩
    | cons c after =>
      have hc : ¬p c = true := by simp [h c rfl]
      rw [List.nil_append, List.takeWhile_cons_of_neg hc, List.dropWhile_cons_of_neg hc]
      exact ⟨rfl, rfl⟩
  | cons c text ih =>
    by_cases hc : p c = true
    · rw [List.cons_append, List.takeWhile_cons_of_pos hc, List.takeWhile_cons_of_pos hc,
        List.dropWhile_cons_of_pos hc, List.dropWhile_cons_of_pos hc, ih.1, ih.2]
      exact ⟨rfl, rfl⟩
    · rw [List.cons_append, List.takeWhile_cons_of_neg hc, List.takeWhile_cons_of_neg hc,
        List.dropWhile_cons_of_neg hc, List.dropWhile_cons_of_neg hc]
      exact ⟨rfl, rfl⟩

/-- Nothing is dropped from before a character that stays. -/
theorem dropEndWhile_append {c : Char} (h : p c = false) (left right : List Char) :
    dropEndWhile p (left ++ c :: right) = left ++ c :: dropEndWhile p right := by
  have hstop : ¬p c = true := by simp [h]
  rw [dropEndWhile, dropEndWhile, List.reverse_append, List.reverse_cons, List.append_assoc,
    List.dropWhile_append]
  split
  · next hempty =>
    rw [List.isEmpty_iff] at hempty
    rw [hempty, List.singleton_append, List.dropWhile_cons_of_neg hstop]
    simp
  · simp

/-- What is dropped behind a text that does not end with it. -/
theorem dropEndWhile_eq {core after : List Char} (hafter : ∀ c ∈ after, p c = true)
    (hlast : ∀ c ∈ core.getLast?, p c = false) : dropEndWhile p (core ++ after) = core := by
  have hnil : dropEndWhile p after = [] := by
    rw [dropEndWhile, dropWhile_eq_nil fun c hc => hafter c (List.mem_reverse.1 hc)]
    rfl
  rcases List.eq_nil_or_concat core with rfl | ⟨front, last, rfl⟩
  · exact hnil
  · have hend : p last = false := hlast last (by simp)
    rw [List.concat_eq_append, List.append_assoc, List.singleton_append,
      dropEndWhile_append hend, hnil]

/-- What is dropped at both ends of a text that neither starts nor ends with it. -/
theorem stripWhile_append {before core after : List Char} (hbefore : ∀ c ∈ before, p c = true)
    (hafter : ∀ c ∈ after, p c = true) (hfirst : ∀ c ∈ core.head?, p c = false)
    (hlast : ∀ c ∈ core.getLast?, p c = false) :
    stripWhile p (before ++ (core ++ after)) = core := by
  rw [stripWhile, List.dropWhile_append_of_pos hbefore]
  cases core with
  | nil =>
    rw [List.nil_append, dropWhile_eq_nil hafter]
    rfl
  | cons c core =>
    rw [List.cons_append, List.dropWhile_cons_of_neg (by simp [hfirst c rfl]), ← List.cons_append]
    exact dropEndWhile_eq hafter hlast

theorem length_dropEndWhile_le (text : List Char) : (dropEndWhile p text).length ≤ text.length := by
  rw [dropEndWhile, List.length_reverse, ← text.length_reverse]
  exact (List.dropWhile_suffix p).length_le

/-- A text is what it keeps, between what it drops. -/
theorem exists_eq_stripWhile (p : Char → Bool) (text : List Char) :
    ∃ before after, text = before ++ (stripWhile p text ++ after) ∧
      (∀ c ∈ before, p c = true) ∧ ∀ c ∈ after, p c = true := by
  have hstart : text = text.takeWhile p ++ text.dropWhile p := List.takeWhile_append_dropWhile.symm
  have hend (core : List Char) :
      core = dropEndWhile p core ++ (core.reverse.takeWhile p).reverse := by
    rw [dropEndWhile, ← List.reverse_append, List.takeWhile_append_dropWhile, List.reverse_reverse]
  have hall (cs : List Char) : ∀ c ∈ cs.takeWhile p, p c = true :=
    fun c hc => List.all_eq_true.1 List.all_takeWhile c hc
  refine ⟨text.takeWhile p, ((text.dropWhile p).reverse.takeWhile p).reverse, ?_, hall _, ?_⟩
  · rw [stripWhile, ← hend (text.dropWhile p)]
    exact hstart
  · intro c hc
    exact hall _ c (List.mem_reverse.1 hc)

theorem mem_stripWhile_of_mem {text : List Char} {c : Char} (hmem : c ∈ text)
    (hc : p c = false) : c ∈ stripWhile p text := by
  obtain ⟨before, after, htext, hbefore, hafter⟩ := exists_eq_stripWhile p text
  rw [htext, List.mem_append, List.mem_append] at hmem
  rcases hmem with hmem | hmem | hmem
  · exact absurd (hbefore c hmem) (by simp [hc])
  · exact hmem
  · exact absurd (hafter c hmem) (by simp [hc])

theorem mem_of_mem_dropEndWhile {text : List Char} {c : Char} (h : c ∈ dropEndWhile p text) :
    c ∈ text := by
  rw [dropEndWhile, List.mem_reverse] at h
  exact List.mem_reverse.1 ((List.dropWhile_suffix p).subset h)

theorem mem_of_mem_stripWhile {text : List Char} {c : Char} (h : c ∈ stripWhile p text) :
    c ∈ text :=
  (List.dropWhile_suffix p).subset (mem_of_mem_dropEndWhile h)

/-- Nothing else is dropped. -/
theorem countP_stripWhile (p : Char → Bool) (text : List Char) :
    (stripWhile p text).countP (!p ·) = text.countP (!p ·) := by
  obtain ⟨before, after, htext, hbefore, hafter⟩ := exists_eq_stripWhile p text
  have hnone {cs : List Char} (hcs : ∀ c ∈ cs, p c = true) : cs.countP (!p ·) = 0 :=
    List.countP_eq_zero.2 fun c hc => by simp [hcs c hc]
  have hcount := congrArg (List.countP (!p ·)) htext
  rw [List.countP_append, List.countP_append, hnone hbefore, hnone hafter] at hcount
  omega

theorem apply_head?_eq_false {text : List Char} (h : text.dropWhile p = text) :
    ∀ c ∈ text.head?, p c = false := by
  intro c hc
  have hhead := List.head?_dropWhile_not p text
  rw [h, Option.mem_def.1 hc] at hhead
  simpa using hhead

/-- Nothing is dropped from a text exactly if it neither starts nor ends with
something to drop. -/
theorem stripWhile_eq_self_iff {text : List Char} :
    stripWhile p text = text ↔
      (∀ c ∈ text.head?, p c = false) ∧ ∀ c ∈ text.getLast?, p c = false := by
  constructor
  · intro h
    have hstart : text.dropWhile p = text := by
      refine (List.dropWhile_suffix p).eq_of_length (Nat.le_antisymm ?_ ?_)
      · exact (List.dropWhile_suffix p).length_le
      · rw [← congrArg List.length h, stripWhile]
        exact length_dropEndWhile_le _
    have hend : text.reverse.dropWhile p = text.reverse := by
      rw [stripWhile, hstart, dropEndWhile] at h
      rw [← List.reverse_reverse (text.reverse.dropWhile p), h]
    refine ⟨apply_head?_eq_false hstart, ?_⟩
    rw [← List.head?_reverse]
    exact apply_head?_eq_false hend
  · rintro ⟨hfirst, hlast⟩
    have hstrip : stripWhile p ([] ++ (text ++ [])) = text :=
      stripWhile_append (by simp) (by simp) hfirst hlast
    rwa [List.nil_append, List.append_nil] at hstrip

theorem apply_getLast?_dropEndWhile {text : List Char} :
    ∀ c ∈ (dropEndWhile p text).getLast?, p c = false := by
  intro c hc
  have hhead := List.head?_dropWhile_not p text.reverse
  rw [dropEndWhile, List.getLast?_reverse] at hc
  rw [Option.mem_def.1 hc] at hhead
  simpa using hhead

/-- What is trimmed has nothing left to trim. -/
theorem stripWhile_stripWhile (p : Char → Bool) (text : List Char) :
    stripWhile p (stripWhile p text) = stripWhile p text := by
  refine stripWhile_eq_self_iff.2 ⟨?_, apply_getLast?_dropEndWhile⟩
  intro c hc
  have hhead := List.head?_dropWhile_not p text
  obtain ⟨rest, hrest⟩ : dropEndWhile p (text.dropWhile p) <+: text.dropWhile p := by
    rw [← List.reverse_suffix, dropEndWhile, List.reverse_reverse]
    exact List.dropWhile_suffix p
  rw [← hrest, List.head?_append, ← stripWhile, Option.mem_def.1 hc] at hhead
  exact hhead

/-- A text between two characters that stay keeps its ends. -/
theorem stripWhile_between {first last : Char} (hfirst : p first = false) (hlast : p last = false)
    (text : List Char) :
    stripWhile p (first :: (text ++ [last])) = first :: (text ++ [last]) := by
  refine stripWhile_eq_self_iff.2 ⟨?_, ?_⟩
  · intro c hc
    cases hc
    exact hfirst
  · intro c hc
    rw [← List.cons_append, List.getLast?_concat] at hc
    cases hc
    exact hlast

end Flipbook.Text
