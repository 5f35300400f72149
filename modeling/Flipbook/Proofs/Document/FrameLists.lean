import Mathlib.Data.Set.Card
import Flipbook.Document.Frames
import Flipbook.Proofs.Text.Split

/-!
# What frame lists denote

Any text is a frame list: what cannot be read counts for zero or for nothing. So what a list
denotes is said of texts, part by part, and the list is refused only for the number of frames
that are denoted.

* `DenotesPlain`, `Denotes`: the frames of a part, before and behind its step.
* `Oversized`: the lists that hold more frames than allowed.
* `partFrames?_eq`, `listFrames?_eq`: parts and lists are refused for their size alone.
* `resolveFrames_denotes`: a list that is not oversized comes to the frames that it denotes, in
  ascending order.
-/
namespace Flipbook.Document

/-! ## Denotation -/

/-- Whether a frame is one of a part without a step: of a range, whose bounds stand before and
behind the first dash, or the number that the part is. -/
def DenotesPlain (part : List Char) (frame : Nat) : Prop :=
  (∃ left right, part = left ++ '-' :: right ∧ '-' ∉ left ∧
    rangeBound left ≤ frame ∧ frame ≤ rangeBound right) ∨
  ('-' ∉ part ∧ Decimal.frame? (Text.trim part) = some frame)

/-- Whether a frame is one of a part: with a step behind the first colon, the number of frames
of the range that come before it has to be a multiple of the step. -/
def Denotes (part : List Char) (frame : Nat) : Prop :=
  (∃ range step, part = range ++ ':' :: step ∧ ':' ∉ range ∧ DenotesPlain range frame ∧
    stepWidth step ∣ {other | DenotesPlain range other ∧ other < frame}.ncard) ∨
  (':' ∉ part ∧ DenotesPlain part frame)

/-- The parts of a list: the pieces between the commas of a list in brackets, or else the whole
text. -/
def listParts (spec : List Char) : List (List Char) :=
  match bracketed? spec with
  | some inner => (Text.splitOn ',' inner).map Text.trim
  | none => [spec]

/-- Whether a list holds more frames than allowed: a part of it before its step, or all parts of
a list in brackets together. -/
def Oversized (limit : Nat) (spec : List Char) : Prop :=
  (∃ part ∈ listParts spec, limit < {frame | DenotesPlain (Text.before ':' part) frame}.ncard) ∨
  ((∃ inner, spec = '[' :: (inner ++ [']'])) ∧
    limit < ((listParts spec).map fun part => {frame | Denotes part frame}.ncard).sum)

theorem bracketed?_eq_some_iff {spec inner : List Char} :
    bracketed? spec = some inner ↔ spec = '[' :: (inner ++ [']']) := by
  constructor
  · intro h
    unfold bracketed? at h
    split at h
    · next body =>
      split at h
      · next hlast =>
        obtain rfl := Option.some.inj h
        rw [List.dropLast_append_getLast? _ hlast]
      · cases h
    · cases h
  · rintro rfl
    simp [bracketed?]

/-! ## Lists in ascending order -/

/-- A list without repetition holds as many numbers as there are of the kind that it holds. -/
theorem ncard_eq_length {l : List Nat} {P : Nat → Prop} (hsorted : l.Pairwise (· < ·))
    (hmem : ∀ n, n ∈ l ↔ P n) : {n | P n}.ncard = l.length := by
  have hset : {n | P n} = (l.toFinset : Set Nat) := by
    ext n
    simp [hmem]
  rw [hset, Set.ncard_coe_finset, List.toFinset_card_of_nodup (hsorted.imp Nat.ne_of_lt)]

/-- The element at a place is the one that is `step` places further on for each before it. -/
theorem getElem?_everyNth {step : Nat} (hstep : 0 < step) (l : List Nat) (i : Nat) :
    (everyNth step l)[i]? = l[i * step]? := by
  induction l using everyNth.induct step generalizing i with
  | case1 => simp [everyNth]
  | case2 a as ih =>
    rw [everyNth]
    cases i with
    | zero => simp
    | succ i =>
      have hplace : (i + 1) * step = step - 1 + i * step + 1 := by
        rw [Nat.succ_mul]
        omega
      rw [List.getElem?_cons_succ, ih, List.getElem?_drop, hplace, List.getElem?_cons_succ]

theorem everyNth_sublist (step : Nat) (l : List Nat) : (everyNth step l).Sublist l := by
  induction l using everyNth.induct step with
  | case1 => rw [everyNth]
  | case2 a as ih =>
    rw [everyNth]
    exact (ih.trans (List.drop_sublist _ _)).cons_cons a

/-- In ascending order the place of a number is how many come before it. -/
theorem getElem?_eq_some_iff_filter {l : List Nat} (hsorted : l.Pairwise (· < ·)) {i n : Nat} :
    l[i]? = some n ↔ n ∈ l ∧ (l.filter (· < n)).length = i := by
  induction l generalizing i with
  | nil => simp
  | cons a l ih =>
    obtain ⟨hfirst, hrest⟩ := List.pairwise_cons.1 hsorted
    by_cases hn : n = a
    · subst hn
      have hnone : l.filter (· < n) = [] := by
        refine List.filter_eq_nil_iff.2 fun m hm => ?_
        simpa using Nat.le_of_lt (hfirst m hm)
      cases i with
      | zero => simp [hnone]
      | succ i =>
        have hnot : n ∉ l := fun hmem => Nat.lt_irrefl n (hfirst n hmem)
        simp [hnone, ih hrest, hnot]
    · have hmem : n ∈ a :: l ↔ n ∈ l := by simp [hn]
      rw [hmem]
      cases i with
      | zero =>
        have hne : ¬a = n := fun h => hn h.symm
        refine iff_of_false (by simp [hne]) ?_
        rintro ⟨hl, hlength⟩
        simp [hfirst n hl] at hlength
      | succ i =>
        rw [List.getElem?_cons_succ, ih hrest]
        refine and_congr_right fun hl => ?_
        simp [hfirst n hl]

/-- Without its repetitions a list in ascending order holds the same numbers, each once. -/
theorem eraseReps_sorted {l : List Nat} (h : l.Pairwise (· ≤ ·)) :
    l.eraseReps.Pairwise (· < ·) ∧ (∀ n, n ∈ l.eraseReps ↔ n ∈ l) ∧
      l.eraseReps.length ≤ l.length := by
  -- the scan has a number in hand, and behind it in reverse what it has kept
  have hloop (a : Nat) (as kept : List Nat) (h : (a :: as).Pairwise (· ≤ ·)) :
      ∃ more, List.eraseRepsBy.loop (· == ·) a as kept = kept.reverse ++ more ∧
        more.Pairwise (· < ·) ∧ (∀ n, n ∈ more ↔ n ∈ a :: as) ∧
        more.length ≤ (a :: as).length := by
    induction as generalizing a kept with
    | nil => exact ⟨[a], by simp [List.eraseRepsBy.loop], by simp, by simp, by simp⟩
    | cons b bs ih =>
      obtain ⟨hfirst, hrest⟩ := List.pairwise_cons.1 h
      by_cases hab : a = b
      · subst hab
        obtain ⟨more, heq, hsorted, hmem, hlength⟩ := ih a kept hrest
        refine ⟨more, ?_, hsorted, fun n => ?_, Nat.le_succ_of_le hlength⟩
        · simp [List.eraseRepsBy.loop, heq]
        · simp [hmem]
      · obtain ⟨more, heq, hsorted, hmem, hlength⟩ := ih b (a :: kept) hrest
        have hlt : a < b := Nat.lt_of_le_of_ne (hfirst b List.mem_cons_self) hab
        refine ⟨a :: more, ?_, List.pairwise_cons.2 ⟨fun n hn => ?_, hsorted⟩, fun n => ?_, ?_⟩
        · have hne : (a == b) = false := beq_eq_false_iff_ne.2 hab
          simp [List.eraseRepsBy.loop, hne, heq]
        · rcases List.mem_cons.1 ((hmem n).1 hn) with rfl | hbs
          · exact hlt
          · exact Nat.lt_of_lt_of_le hlt ((List.pairwise_cons.1 hrest).1 n hbs)
        · simp [hmem]
        · exact Nat.succ_le_succ hlength
  cases l with
  | nil => exact ⟨.nil, fun _ => Iff.rfl, Nat.le_refl _⟩
  | cons a as =>
    obtain ⟨more, heq, hmore⟩ := hloop a as [] h
    rw [List.reverse_nil, List.nil_append] at heq
    rw [List.eraseReps, List.eraseRepsBy, heq]
    exact hmore

/-! ## Parts -/

/-- The frames of a part without a step, however many they are. -/
def plainFrames (part : List Char) : List Nat :=
  match Text.cut '-' part with
  | some (left, right) => framesBetween (rangeBound left) (rangeBound right)
  | none => (Decimal.frame? (Text.trim part)).toList

/-- The frames of a part, however many they are. -/
def partFrames (part : List Char) : List Nat :=
  match Text.cut ':' part with
  | some (range, step) => everyNth (stepWidth step) (plainFrames range)
  | none => plainFrames part

theorem sorted_plainFrames (part : List Char) : (plainFrames part).Pairwise (· < ·) := by
  unfold plainFrames
  split
  · exact List.pairwise_lt_range' 1
  · cases Decimal.frame? (Text.trim part) <;> simp

theorem mem_plainFrames_iff {part : List Char} {frame : Nat} :
    frame ∈ plainFrames part ↔ DenotesPlain part frame := by
  unfold plainFrames DenotesPlain
  cases hcut : Text.cut '-' part with
  | some found =>
    obtain ⟨left, right⟩ := found
    dsimp only
    rw [framesBetween, List.mem_range'_1]
    constructor
    · rintro ⟨hfirst, hlast⟩
      obtain ⟨hpart, hleft⟩ := Text.eq_of_cut hcut
      exact .inl ⟨left, right, hpart, hleft, hfirst, by omega⟩
    · rintro (⟨left', right', hpart, hleft, hfirst, hlast⟩ | ⟨hnot, -⟩)
      · rw [Text.cut_eq_some_iff.2 ⟨hpart, hleft⟩] at hcut
        obtain ⟨rfl, rfl⟩ : left' = left ∧ right' = right := by simpa using hcut
        omega
      · rw [Text.cut_eq_none hnot] at hcut
        cases hcut
  | none =>
    have hdash := Text.cut_eq_none_iff.1 hcut
    dsimp only
    rw [Option.mem_toList]
    constructor
    · intro hframe
      exact .inr ⟨hdash, hframe⟩
    · rintro (⟨left, right, rfl, -⟩ | ⟨-, hframe⟩)
      · exact absurd (by simp) hdash
      · exact hframe

theorem ncard_denotesPlain (part : List Char) :
    {frame | DenotesPlain part frame}.ncard = (plainFrames part).length :=
  ncard_eq_length (sorted_plainFrames part) fun _ => mem_plainFrames_iff

/-- A part without a step is refused only for the number of its frames. -/
theorem plainFrames?_eq {limit : Nat} (hlimit : 1 ≤ limit) (part : List Char) :
    plainFrames? limit part =
      if (plainFrames part).length ≤ limit then some (plainFrames part) else none := by
  unfold plainFrames? plainFrames
  cases Text.cut '-' part with
  | some found =>
    obtain ⟨left, right⟩ := found
    dsimp only
    have hlength : (framesBetween (rangeBound left) (rangeBound right)).length =
        rangeBound right + 1 - rangeBound left :=
      List.length_range'
    rw [hlength]
    by_cases hinverted : rangeBound right < rangeBound left
    · have hnone : rangeBound right + 1 - rangeBound left = 0 := by omega
      rw [if_pos hinverted, if_pos (by omega), framesBetween, hnone]
      rfl
    · rw [if_neg hinverted]
      by_cases hlarge : limit ≤ rangeBound right - rangeBound left
      · rw [if_pos hlarge, if_neg (by omega)]
      · rw [if_neg hlarge, if_pos (by omega)]
  | none =>
    dsimp only
    rw [if_pos]
    cases Decimal.frame? (Text.trim part) with
    | some frame => exact hlimit
    | none => exact Nat.zero_le limit

theorem stepWidth_pos (step : List Char) : 0 < stepWidth step := by
  unfold stepWidth
  cases h : (Decimal.natural? Decimal.wordBound (Text.trim step)).filter (0 < ·) with
  | some width => simpa using (Option.filter_eq_some_iff.1 h).2
  | none => exact Nat.one_pos

/-- Every `step`-th number of a list in ascending order: those before which there is a multiple
of `step` of others. -/
theorem mem_everyNth_iff {step : Nat} (hstep : 0 < step) {l : List Nat}
    (hsorted : l.Pairwise (· < ·)) {n : Nat} :
    n ∈ everyNth step l ↔ n ∈ l ∧ step ∣ (l.filter (· < n)).length := by
  rw [List.mem_iff_getElem?]
  simp only [getElem?_everyNth hstep, getElem?_eq_some_iff_filter hsorted]
  constructor
  · rintro ⟨i, hmem, hlength⟩
    exact ⟨hmem, i, by rw [hlength, Nat.mul_comm]⟩
  · rintro ⟨hmem, i, hlength⟩
    exact ⟨i, hmem, by rw [hlength, Nat.mul_comm]⟩

theorem sorted_partFrames (part : List Char) : (partFrames part).Pairwise (· < ·) := by
  unfold partFrames
  split
  · exact (sorted_plainFrames _).sublist (everyNth_sublist _ _)
  · exact sorted_plainFrames part

theorem mem_partFrames_iff {part : List Char} {frame : Nat} :
    frame ∈ partFrames part ↔ Denotes part frame := by
  unfold partFrames Denotes
  cases hcut : Text.cut ':' part with
  | some found =>
    obtain ⟨range, step⟩ := found
    have hbefore : {other | DenotesPlain range other ∧ other < frame}.ncard =
        ((plainFrames range).filter (· < frame)).length := by
      refine ncard_eq_length ((sorted_plainFrames range).filter _) fun other => ?_
      simp [mem_plainFrames_iff]
    dsimp only
    rw [mem_everyNth_iff (stepWidth_pos step) (sorted_plainFrames range), mem_plainFrames_iff,
      ← hbefore]
    constructor
    · rintro ⟨hframe, hstep⟩
      obtain ⟨hpart, hrange⟩ := Text.eq_of_cut hcut
      exact .inl ⟨range, step, hpart, hrange, hframe, hstep⟩
    · rintro (⟨range', step', hpart, hrange, hframe, hstep⟩ | ⟨hnot, -⟩)
      · rw [Text.cut_eq_some_iff.2 ⟨hpart, hrange⟩] at hcut
        obtain ⟨rfl, rfl⟩ : range' = range ∧ step' = step := by simpa using hcut
        exact ⟨hframe, hstep⟩
      · rw [Text.cut_eq_none hnot] at hcut
        cases hcut
  | none =>
    have hcolon := Text.cut_eq_none_iff.1 hcut
    dsimp only
    rw [mem_plainFrames_iff]
    constructor
    · intro hframe
      exact .inr ⟨hcolon, hframe⟩
    · rintro (⟨range, step, rfl, -⟩ | ⟨-, hframe⟩)
      · exact absurd (by simp) hcolon
      · exact hframe

theorem ncard_denotes (part : List Char) :
    {frame | Denotes part frame}.ncard = (partFrames part).length :=
  ncard_eq_length (sorted_partFrames part) fun _ => mem_partFrames_iff

/-- A part is refused only for the number of its frames before the step. -/
theorem partFrames?_eq {limit : Nat} (hlimit : 1 ≤ limit) (part : List Char) :
    partFrames? limit part =
      if (plainFrames (Text.before ':' part)).length ≤ limit then some (partFrames part)
      else none := by
  unfold partFrames? partFrames
  cases hcut : Text.cut ':' part with
  | some found =>
    obtain ⟨range, step⟩ := found
    obtain ⟨rfl, hrange⟩ := Text.eq_of_cut hcut
    dsimp only
    rw [Text.before_append hrange, plainFrames?_eq hlimit]
    split <;> rfl
  | none =>
    rw [Text.before_of_notMem (Text.cut_eq_none_iff.1 hcut)]
    exact plainFrames?_eq hlimit part

theorem length_partFrames_le (part : List Char) :
    (partFrames part).length ≤ (plainFrames (Text.before ':' part)).length := by
  unfold partFrames
  cases hcut : Text.cut ':' part with
  | some found =>
    obtain ⟨range, step⟩ := found
    obtain ⟨rfl, hrange⟩ := Text.eq_of_cut hcut
    dsimp only
    rw [Text.before_append hrange]
    exact (everyNth_sublist _ _).length_le
  | none =>
    rw [Text.before_of_notMem (Text.cut_eq_none_iff.1 hcut)]

/-! ## Lists -/

/-- The frames of a list in the order in which they are written, however many they are. -/
def listFrames (spec : List Char) : List Nat := (listParts spec).flatMap partFrames

theorem length_listFrames (spec : List Char) : (listFrames spec).length =
    ((listParts spec).map fun part => {frame | Denotes part frame}.ncard).sum := by
  rw [listFrames, List.length_flatMap]
  simp only [ncard_denotes]

theorem mem_listFrames_iff {spec : List Char} {frame : Nat} :
    frame ∈ listFrames spec ↔ ∃ part ∈ listParts spec, Denotes part frame := by
  simp only [listFrames, List.mem_flatMap, mem_partFrames_iff]

/-- Parts are read one by one, unless the range of one is too large. -/
theorem mapM_partFrames? {limit : Nat} (hlimit : 1 ≤ limit) (parts : List (List Char)) :
    ((∃ part ∈ parts, limit < (plainFrames (Text.before ':' part)).length) →
      parts.mapM (partFrames? limit) = none) ∧
    ((∀ part ∈ parts, (plainFrames (Text.before ':' part)).length ≤ limit) →
      parts.mapM (partFrames? limit) = some (parts.map partFrames)) := by
  induction parts with
  | nil => simp
  | cons part parts ih =>
    rw [List.mapM_cons, partFrames?_eq hlimit]
    constructor
    · intro hlarge
      by_cases hpart : (plainFrames (Text.before ':' part)).length ≤ limit
      · obtain ⟨other, hother, hlarge⟩ := hlarge
        rcases List.mem_cons.1 hother with rfl | hrest
        · omega
        · rw [if_pos hpart, ih.1 ⟨other, hrest, hlarge⟩]
          rfl
      · rw [if_neg hpart]
        rfl
    · intro hall
      obtain ⟨hpart, hrest⟩ := List.forall_mem_cons.1 hall
      rw [if_pos hpart, ih.2 hrest]
      rfl

/-- Whether a list holds too many frames, as they are counted while it is read. -/
theorem oversized_iff {limit : Nat} {spec : List Char} :
    Oversized limit spec ↔
      (∃ part ∈ listParts spec, limit < (plainFrames (Text.before ':' part)).length) ∨
      ((bracketed? spec).isSome ∧ limit < (listFrames spec).length) := by
  simp only [Oversized, ncard_denotesPlain, length_listFrames, Option.isSome_iff_exists,
    bracketed?_eq_some_iff]

instance decidableOversized (limit : Nat) (spec : List Char) : Decidable (Oversized limit spec) :=
  decidable_of_iff _ oversized_iff.symm

/-- A list is refused only for the number of its frames. -/
theorem listFrames?_eq {limit : Nat} (hlimit : 1 ≤ limit) (spec : List Char) :
    (Oversized limit spec → listFrames? limit spec = none) ∧
    (¬Oversized limit spec →
      listFrames? limit spec = some (listFrames spec) ∧ (listFrames spec).length ≤ limit) := by
  rw [oversized_iff]
  cases hbracketed : bracketed? spec with
  | some inner =>
    have hread : listFrames? limit spec =
        (((listParts spec).mapM (partFrames? limit)).map List.flatten).filter
          (·.length ≤ limit) := by
      rw [listFrames?, listParts, hbracketed]
      dsimp only
      rw [List.mapM_map]
      rfl
    have hparts := mapM_partFrames? hlimit (listParts spec)
    rw [hread]
    by_cases hsmall : ∀ part ∈ listParts spec,
        (plainFrames (Text.before ':' part)).length ≤ limit
    · have hframes : (((listParts spec).mapM (partFrames? limit)).map List.flatten).filter
          (·.length ≤ limit) = if (listFrames spec).length ≤ limit then some (listFrames spec)
          else none := by
        rw [hparts.2 hsmall, Option.map_some, ← List.flatMap_def, Option.filter_some]
        rw [← listFrames]
        by_cases htotal : (listFrames spec).length ≤ limit <;> simp [htotal]
      rw [hframes]
      constructor
      · rintro (⟨part, hpart, hlarge⟩ | ⟨-, htotal⟩)
        · exact absurd (hsmall part hpart) (Nat.not_le.2 hlarge)
        · exact if_neg (Nat.not_le.2 htotal)
      · intro hnot
        have htotal : (listFrames spec).length ≤ limit :=
          Nat.not_lt.1 fun hlarge => hnot (.inr ⟨rfl, hlarge⟩)
        exact ⟨if_pos htotal, htotal⟩
    · have hlarge : ∃ part ∈ listParts spec,
          limit < (plainFrames (Text.before ':' part)).length := by
        simpa using hsmall
      rw [hparts.1 hlarge]
      exact ⟨fun _ => rfl, fun hnot => absurd (.inl hlarge) hnot⟩
  | none =>
    have hpart : listParts spec = [spec] := by rw [listParts, hbracketed]
    have hread : listFrames? limit spec = partFrames? limit spec := by rw [listFrames?, hbracketed]
    have hframes : listFrames spec = partFrames spec := by
      rw [listFrames, hpart, List.flatMap_singleton]
    rw [hread, partFrames?_eq hlimit, hpart, hframes]
    have hlength := length_partFrames_le spec
    by_cases hsmall : (plainFrames (Text.before ':' spec)).length ≤ limit
    · rw [if_pos hsmall]
      refine ⟨fun hlarge => ?_, fun _ => ⟨rfl, Nat.le_trans hlength hsmall⟩⟩
      have : ¬(plainFrames (Text.before ':' spec)).length ≤ limit := by simpa using hlarge
      exact absurd hsmall this
    · rw [if_neg hsmall]
      exact ⟨fun _ => rfl, fun hnot => absurd (by simpa using hsmall) hnot⟩

theorem outcome_resolveFrames_of_none (s : Substitutions) {limit : Nat} {spec : List Char}
    (h : listFrames? limit (Text.trim (s.expand spec).value) = none) :
    (resolveFrames s limit spec).outcome.value =
      .error (.tooManyFrames (String.ofList (Text.trim (s.expand spec).value)) limit) := by
  rw [resolveFrames, Reading.outcome_bind, Reading.outcome_ofNoted]
  dsimp only
  rw [h]
  rfl

theorem outcome_resolveFrames_of_some (s : Substitutions) {limit : Nat} {spec : List Char}
    {frames : List Nat} (h : listFrames? limit (Text.trim (s.expand spec).value) = some frames) :
    (resolveFrames s limit spec).outcome.value = .ok frames.mergeSort.eraseReps := by
  rw [resolveFrames, Reading.outcome_bind, Reading.outcome_ofNoted]
  dsimp only
  rw [h]
  rfl

/-- A text with its tokens replaced is refused as a frame list exactly if it holds more frames
than allowed. Else it comes to the frames that its parts denote, in ascending order and each
once, and they are not more than allowed. -/
theorem resolveFrames_denotes (s : Substitutions) {limit : Nat} (hlimit : 1 ≤ limit)
    (spec : List Char) :
    ((resolveFrames s limit spec).outcome.value =
        .error (.tooManyFrames (String.ofList (Text.trim (s.expand spec).value)) limit) ↔
      Oversized limit (Text.trim (s.expand spec).value)) ∧
    (¬Oversized limit (Text.trim (s.expand spec).value) →
      ∃ frames, (resolveFrames s limit spec).outcome.value = .ok frames ∧
        frames.Pairwise (· < ·) ∧
        (∀ frame, frame ∈ frames ↔
          ∃ part ∈ listParts (Text.trim (s.expand spec).value), Denotes part frame) ∧
        frames.length ≤ limit) := by
  obtain ⟨hrefused, hread⟩ := listFrames?_eq hlimit (Text.trim (s.expand spec).value)
  by_cases hlarge : Oversized limit (Text.trim (s.expand spec).value)
  · rw [outcome_resolveFrames_of_none s (hrefused hlarge)]
    exact ⟨iff_of_true rfl hlarge, fun hnot => absurd hlarge hnot⟩
  · obtain ⟨hframes, hlength⟩ := hread hlarge
    rw [outcome_resolveFrames_of_some s hframes]
    refine ⟨iff_of_false nofun hlarge, fun _ => ?_⟩
    have hsorted : (listFrames (Text.trim (s.expand spec).value)).mergeSort.Pairwise (· ≤ ·) :=
      (List.pairwise_mergeSort (fun _ _ _ => by simpa using Nat.le_trans)
        (by simpa using Nat.le_total) _).imp of_decide_eq_true
    obtain ⟨hascending, hmem, hshort⟩ := eraseReps_sorted hsorted
    refine ⟨_, rfl, hascending, fun frame => ?_, ?_⟩
    · rw [hmem, List.mem_mergeSort, mem_listFrames_iff]
    · rw [List.length_mergeSort] at hshort
      exact Nat.le_trans hshort hlength

/-- A table with one variable, for a range of three frames. -/
def strides : Substitutions := Substitutions.empty.defineVariable "walk" "0-2".toList

/-- A range from the table, a step without a range, a range that ends before it starts and one
whose frames are in the list already: six frames altogether. -/
def stridesList : List Char := " [$walk, 9:3, 8-3, x-2:2]".toList

theorem resolveFrames_denotes_strides :
    1 ≤ 6 ∧ ¬Oversized 6 (Text.trim (strides.expand stridesList).value) ∧
      Oversized 5 (Text.trim (strides.expand stridesList).value) ∧
      (∃ frames, (resolveFrames strides 6 stridesList).outcome.value = .ok frames ∧
        frames.Pairwise (· < ·) ∧
        (∀ frame, frame ∈ frames ↔
          ∃ part ∈ listParts (Text.trim (strides.expand stridesList).value),
            Denotes part frame) ∧
        frames.length ≤ 6) ∧
      (resolveFrames strides 5 stridesList).outcome.value =
        .error (.tooManyFrames
          (String.ofList (Text.trim (strides.expand stridesList).value)) 5) := by
  have hsmall : ¬Oversized 6 (Text.trim (strides.expand stridesList).value) := by decide +kernel
  have hlarge : Oversized 5 (Text.trim (strides.expand stridesList).value) := by decide +kernel
  exact ⟨by decide, hsmall, hlarge,
    (resolveFrames_denotes strides (by decide) stridesList).2 hsmall,
    (resolveFrames_denotes strides (by decide) stridesList).1.2 hlarge⟩

end Flipbook.Document
