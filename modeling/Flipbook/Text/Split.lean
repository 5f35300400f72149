import Flipbook.Text.Blank

/-!
# Cutting and trimming text

Texts are read as lists of characters. This module cuts them at separators and
trims their ends.

* `splitOn` cuts at every separator, `cut` at the first one, which is all that it
  loses (`eq_of_cut`).
* `breakOn` finds the first occurrence of a word (`breakOn_eq_some_iff`).
* `trim`, `trimStart` and `trimEnd` drop white space from the ends.
* `byteSize` measures a text in the bytes of its UTF-8 form, the unit of every
  position that is reported.
-/
namespace Flipbook.Text

/-! ## Separators -/

/-- The pieces between the separators, always at least one. -/
def splitOn (sep : Char) : List Char → List (List Char)
  | [] => [[]]
  | c :: cs =>
    if c = sep then [] :: splitOn sep cs
    else
      match splitOn sep cs with
      | [] => [[c]]
      | piece :: pieces => (c :: piece) :: pieces

theorem splitOn_ne_nil (sep : Char) (cs : List Char) : splitOn sep cs ≠ [] := by
  cases cs with
  | nil => simp [splitOn]
  | cons c cs =>
    unfold splitOn
    split
    · simp
    · split <;> simp

/-- The text before the first separator. -/
def before (sep : Char) (cs : List Char) : List Char := cs.takeWhile (· != sep)

/-- The texts before and after the first separator, if there is one. -/
def cut (sep : Char) : List Char → Option (List Char × List Char)
  | [] => none
  | c :: cs =>
    if c = sep then some ([], cs)
    else (cut sep cs).map fun (left, right) => (c :: left, right)

theorem eq_of_cut {sep : Char} {cs left right : List Char} (h : cut sep cs = some (left, right)) :
    cs = left ++ sep :: right ∧ sep ∉ left := by
  induction cs generalizing left with
  | nil => simp [cut] at h
  | cons c cs ih =>
    unfold cut at h
    by_cases hc : c = sep
    · rw [if_pos hc] at h
      obtain ⟨rfl, rfl⟩ : [] = left ∧ cs = right := by simpa using h
      simp [hc]
    · rw [if_neg hc] at h
      obtain ⟨⟨l, r⟩, hlr, heq⟩ := Option.map_eq_some_iff.1 h
      obtain ⟨rfl, rfl⟩ : c :: l = left ∧ r = right := by simpa using heq
      obtain ⟨rfl, hmem⟩ := ih hlr
      refine ⟨rfl, ?_⟩
      simp only [List.mem_cons, not_or]
      exact ⟨fun h => hc h.symm, hmem⟩

/-- The text before the first occurrence of a word, and the text from that
occurrence on. -/
def breakOn (word : List Char) : List Char → Option (List Char × List Char)
  | [] => if word.isEmpty then some ([], []) else none
  | c :: cs =>
    if word.isPrefixOf (c :: cs) then some ([], c :: cs)
    else (breakOn word cs).map fun (left, right) => (c :: left, right)

theorem eq_of_breakOn {word cs left right : List Char}
    (h : breakOn word cs = some (left, right)) : cs = left ++ right ∧ word <+: right := by
  induction cs generalizing left with
  | nil =>
    unfold breakOn at h
    cases word with
    | nil =>
      obtain ⟨rfl, rfl⟩ : [] = left ∧ [] = right := by simpa using h
      simp
    | cons a as => simp at h
  | cons c cs ih =>
    unfold breakOn at h
    by_cases hw : word.isPrefixOf (c :: cs) = true
    · rw [if_pos hw] at h
      obtain ⟨rfl, rfl⟩ : [] = left ∧ c :: cs = right := by simpa using h
      exact ⟨rfl, List.isPrefixOf_iff_prefix.1 hw⟩
    · rw [if_neg hw] at h
      obtain ⟨⟨l, r⟩, hlr, heq⟩ := Option.map_eq_some_iff.1 h
      obtain ⟨rfl, rfl⟩ : c :: l = left ∧ r = right := by simpa using heq
      obtain ⟨rfl, hpre⟩ := ih hlr
      exact ⟨rfl, hpre⟩

/-- `breakOn` finds the first occurrence. -/
theorem breakOn_eq_some_iff {word cs left right : List Char} :
    breakOn word cs = some (left, right) ↔
      cs = left ++ right ∧ word <+: right ∧
        ∀ part, part ++ word <+: cs → left.length ≤ part.length := by
  constructor
  · intro h
    obtain ⟨heq, hword⟩ := eq_of_breakOn h
    refine ⟨heq, hword, ?_⟩
    clear heq
    induction cs generalizing left with
    | nil =>
      unfold breakOn at h
      split at h
      · obtain ⟨rfl, rfl⟩ : [] = left ∧ [] = right := by simpa using h
        exact fun _ _ => Nat.zero_le _
      · cases h
    | cons c cs ih =>
      unfold breakOn at h
      by_cases hw : word.isPrefixOf (c :: cs) = true
      · rw [if_pos hw] at h
        obtain ⟨rfl, rfl⟩ : [] = left ∧ c :: cs = right := by simpa using h
        exact fun _ _ => Nat.zero_le _
      · rw [if_neg hw] at h
        obtain ⟨⟨l, r⟩, hlr, heq⟩ := Option.map_eq_some_iff.1 h
        obtain ⟨rfl, rfl⟩ : c :: l = left ∧ r = right := by simpa using heq
        intro part hpart
        cases part with
        | nil => exact absurd (List.isPrefixOf_iff_prefix.2 hpart) hw
        | cons a part =>
          exact Nat.succ_le_succ (ih hlr part (List.cons_prefix_cons.1 hpart).2)
  · rintro ⟨rfl, hword, hfirst⟩
    induction left with
    | nil =>
      cases right with
      | nil => simp [breakOn, List.prefix_nil.1 hword]
      | cons c cs => exact if_pos (List.isPrefixOf_iff_prefix.2 hword)
    | cons c left ih =>
      have hnot : ¬word.isPrefixOf (c :: (left ++ right)) = true := fun h =>
        absurd (hfirst [] (List.isPrefixOf_iff_prefix.1 h)) (by simp)
      rw [List.cons_append, breakOn, if_neg hnot, ih]
      · rfl
      · intro part hpart
        have h := hfirst (c :: part) (List.cons_prefix_cons.2 ⟨rfl, hpart⟩)
        exact Nat.le_of_succ_le_succ h

theorem breakOn_eq_none_iff {word cs : List Char} :
    breakOn word cs = none ↔ ∀ part, ¬part ++ word <+: cs := by
  constructor
  · intro h
    induction cs with
    | nil =>
      rintro part hpart
      obtain ⟨-, rfl⟩ := List.append_eq_nil_iff.1 (List.prefix_nil.1 hpart)
      simp [breakOn] at h
    | cons c cs ih =>
      unfold breakOn at h
      by_cases hw : word.isPrefixOf (c :: cs) = true
      · rw [if_pos hw] at h
        cases h
      · rw [if_neg hw] at h
        intro part hpart
        cases part with
        | nil => exact hw (List.isPrefixOf_iff_prefix.2 hpart)
        | cons a part =>
          exact ih (Option.map_eq_none_iff.1 h) part (List.cons_prefix_cons.1 hpart).2
  · intro h
    cases hb : breakOn word cs with
    | none => rfl
    | some found =>
      obtain ⟨rfl, ⟨rest, hrest⟩⟩ := eq_of_breakOn hb
      refine absurd ⟨rest, ?_⟩ (h found.1)
      rw [List.append_assoc, hrest]

/-- Whether a word occurs in a text. -/
def occursIn (word cs : List Char) : Bool := (breakOn word cs).isSome

/-! ## Trimming -/

/-- Drops the characters of a class from the end. -/
def dropEndWhile (p : Char → Bool) (cs : List Char) : List Char :=
  (cs.reverse.dropWhile p).reverse

/-- Drops the characters of a class from both ends. -/
def stripWhile (p : Char → Bool) (cs : List Char) : List Char :=
  dropEndWhile p (cs.dropWhile p)

/-- Drops white space from the start. -/
def trimStart (cs : List Char) : List Char := cs.dropWhile isBlank

/-- Drops white space from the end. -/
def trimEnd (cs : List Char) : List Char := dropEndWhile isBlank cs

/-- Drops white space from both ends. -/
def trim (cs : List Char) : List Char := stripWhile isBlank cs

/-- Drops a word from the end as often as it stands there; an empty word is
never dropped. -/
def dropEndWord (word cs : List Char) : List Char :=
  match word with
  | [] => cs
  | a :: as => (go (a :: as).reverse cs.length cs.reverse).reverse
where
  /-- Drops `back`, the word read backwards, at most `bound` times. -/
  go (back : List Char) : Nat → List Char → List Char
    | 0, rs => rs
    | bound + 1, rs => if back.isPrefixOf rs then go back bound (rs.drop back.length) else rs

/-! ## Bytes -/

/-- The size of a text in bytes. -/
def byteSize (cs : List Char) : Nat := cs.foldr (fun c size => c.utf8Size + size) 0

@[simp] theorem byteSize_nil : byteSize [] = 0 := rfl

@[simp] theorem byteSize_cons (c : Char) (cs : List Char) :
    byteSize (c :: cs) = c.utf8Size + byteSize cs := rfl

@[simp] theorem byteSize_append (as bs : List Char) :
    byteSize (as ++ bs) = byteSize as + byteSize bs := by
  induction as with
  | nil => exact (Nat.zero_add _).symm
  | cons c cs ih => rw [List.cons_append, byteSize_cons, byteSize_cons, ih, Nat.add_assoc]

/-- The text from a byte on, and the bytes of it that belong to a character which
starts before. There is none beyond the end. -/
def fromByte : Nat → List Char → Option (Nat × List Char)
  | 0, cs => some (0, cs)
  | _ + 1, [] => none
  | n + 1, c :: cs =>
    if n + 1 < c.utf8Size then some (c.utf8Size - (n + 1), cs)
    else fromByte (n + 1 - c.utf8Size) cs

end Flipbook.Text
