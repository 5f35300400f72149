import Flipbook.Proofs.Json.Numbers
import Flipbook.Proofs.Json.Strings
import Mathlib.Data.List.Forall2

/-!
# Values in JSON

A value is read however it is spelled, as deep as its reader goes, and skipped however deep it
is. The members of an object change the state of its reader one after the other.

* `takes_arrayRest`, `ArrayOf.accepts`: the elements of an array.
* `Gathers`, `Gathers.takes_objectRest`: the members of an object.
* `IsPlain.exists_accepts`, `IsValue.accepts_skip`: values of any shape.
-/
namespace Flipbook.Json

variable {α β κ σ : Type} {text rest : List Char}

/-! ## Lists of texts -/

theorem length_le_of_mem_intercalate {part : List Char} {parts : List (List Char)}
    (h : part ∈ parts) : part.length ≤ ([','].intercalate parts).length := by
  induction parts with
  | nil => cases h
  | cons first parts ih =>
    cases parts with
    | nil =>
      obtain rfl : part = first := List.mem_singleton.1 h
      exact Nat.le_of_eq (congrArg List.length List.intercalate_singleton.symm)
    | cons second parts =>
      rw [List.intercalate_cons_cons, List.length_append, List.length_append]
      rcases List.mem_cons.1 h with rfl | h
      · omega
      · have hlater := ih h
        omega

theorem intercalate_cons_append (part second : List Char) (parts : List (List Char))
    (rest : List Char) : [','].intercalate (part :: second :: parts) ++ rest =
      part ++ ',' :: ([','].intercalate (second :: parts) ++ rest) := by
  rw [List.intercalate_cons_cons, List.append_assoc, List.append_assoc, List.singleton_append]

/-- Behind the first of some parts stands what may stand behind a value. -/
theorem exists_intercalate_append (part : List Char) (parts : List (List Char))
    (hrest : Ends rest) :
    ∃ more, [','].intercalate (part :: parts) ++ rest = part ++ more ∧ Ends more := by
  cases parts with
  | nil => exact ⟨rest, by rw [List.intercalate_singleton], hrest⟩
  | cons second parts =>
    exact ⟨_, intercalate_cons_append part second parts rest, ends_cons (by decide) _⟩

theorem Part.written_append (p : Part) (rest : List Char) :
    p.written ++ rest = p.before.text ++ (p.text ++ (p.after.text ++ rest)) := by
  rw [Part.written, List.append_assoc, List.append_assoc]

theorem Member.written_append (m : Member) (rest : List Char) :
    m.written ++ rest = m.before.text ++ '\x22' :: (m.body ++ (m.value.after.text ++ rest)) := by
  simp [Member.written]

theorem arrayText_append (gap : Gap) (parts : List Part) (rest : List Char) :
    arrayText gap parts ++ rest =
      '[' :: (gap.text ++ ([','].intercalate (parts.map Part.written) ++ ']' :: rest)) := by
  simp [arrayText]

theorem objectText_append (gap : Gap) (members : List Member) (rest : List Char) :
    objectText gap members ++ rest =
      '\x7b' :: (gap.text ++ ([','].intercalate (members.map Member.written) ++
        '\x7d' :: rest)) := by
  simp [objectText]

/-! ## Arrays -/

section

variable {item : Reader α} {a : α} {as : List α}

/-- What stands behind an element says how an array goes on. -/
theorem exists_elements_eq {gap : Gap} {c : Char} {cs : List Char}
    (h : Takes item text a (gap.text ++ c :: cs)) (hc : isGap c = false) :
    ∃ hle : cs.length ≤ text.length, elements item text =
      if c = ',' then
        (elements item cs).map fun (as, later) => (a :: as, ⟨later.1, Nat.le_trans later.2 hle⟩)
      else if c = ']' then .ok ([a], ⟨cs, hle⟩) else .error .malformed := by
  obtain ⟨later, hread, hlater⟩ := h
  have hskip : (skipGap later.1).1 = c :: cs := by
    rw [hlater]
    exact gap.skipGap_append_cons hc cs
  have hle : (c :: cs).length ≤ text.length :=
    hskip ▸ Nat.le_trans (skipGap later.1).2 later.2
  refine ⟨Nat.le_of_succ_le hle, ?_⟩
  rw [elements, hread]
  dsimp only
  split
  · next hnil => cases hnil.symm.trans hskip
  · next d more hcons =>
    obtain ⟨rfl, rfl⟩ := List.cons.inj (hskip.symm.trans hcons)
    cases elements item cs <;> rfl

theorem takes_elements_last {gap : Gap} (h : Takes item text a (gap.text ++ ']' :: rest)) :
    Takes (elements item) text [a] rest := by
  obtain ⟨hle, heq⟩ := exists_elements_eq h (by decide)
  exact ⟨⟨rest, hle⟩, heq, rfl⟩

theorem comes_elements_more {gap : Gap} {middle : List Char}
    (h : Takes item text a (gap.text ++ ',' :: middle)) {later : Option (List α)}
    (hmore : Comes (elements item) middle later rest) :
    Comes (elements item) text (later.map (a :: ·)) rest := by
  obtain ⟨hle, heq⟩ := exists_elements_eq h (by decide)
  rw [if_pos rfl] at heq
  cases later with
  | some as =>
    obtain ⟨last, hmore, rfl⟩ := hmore
    rw [hmore] at heq
    exact ⟨_, heq, rfl⟩
  | none =>
    obtain ⟨fault, hmore⟩ := hmore
    rw [hmore] at heq
    exact ⟨fault, heq⟩

/-- Whether texts are accepted for values, one after the other. -/
abbrev AcceptsAll (item : Reader α) (parts : List Part) (as : List α) : Prop :=
  List.Forall₂ (fun part a => Accepts item part.text a) parts as

/-- The elements of an array are read one after the other. -/
theorem takes_elements {part : Part} {parts : List Part} (h : AcceptsAll item (part :: parts) as)
    (rest : List Char) :
    Takes (elements item) ([','].intercalate ((part :: parts).map Part.written) ++ ']' :: rest) as
      rest := by
  induction parts generalizing part as with
  | nil =>
    obtain - | ⟨hpart, hparts⟩ := h
    cases hparts
    rw [List.map_singleton, List.intercalate_singleton, part.written_append]
    exact takes_elements_last (hpart _ _ (part.after.ends_append (ends_cons (by decide) rest)))
  | cons second parts ih =>
    obtain - | ⟨hpart, hparts⟩ := h
    rw [List.map_cons, List.map_cons, intercalate_cons_append, part.written_append]
    have hlater : Comes (elements item) _ (some _) rest := ih hparts
    exact comes_elements_more (hpart _ _ (part.after.ends_append (ends_cons (by decide) _)))
      hlater

/-- What opens an element of an array: neither a blank nor what closes the array. -/
def OpensElement (text : List Char) : Prop :=
  ∃ c cs, text = c :: cs ∧ isGap c = false ∧ c ≠ ']'

theorem OpensElement.append (h : OpensElement text) (more : List Char) :
    OpensElement (text ++ more) := by
  obtain ⟨c, cs, rfl, hgap, hc⟩ := h
  exact ⟨c, cs ++ more, rfl, hgap, hc⟩

/-- An array that is not closed at once is read from its first element on. -/
theorem OpensElement.takes_or_fails (h : OpensElement text) (gap : Gap) (item : Reader α) :
    (∀ as rest, Takes (elements item) text as rest →
        Takes (arrayRest item) (gap.text ++ text) as rest) ∧
      (Fails (elements item) text → Fails (arrayRest item) (gap.text ++ text)) := by
  obtain ⟨c, cs, rfl, hgap, hc⟩ := h
  have hopen : ¬some c = some ']' := fun hclose => hc (Option.some.inj hclose)
  rw [arrayRest_eq]
  refine ⟨fun as rest h => (takes_next gap hgap cs).bind ?_, fun h =>
    (takes_next gap hgap cs).bind_fails ?_⟩
  · exact (congrArg (Takes · (c :: cs) as rest) (if_neg hopen)).mpr h
  · exact (congrArg (Fails · (c :: cs)) (if_neg hopen)).mpr h

/-- A part without the blanks before it. -/
def Part.bare (p : Part) : Part := { p with before := .none }

/-- The blanks before the first part of an array stand behind its bracket. -/
theorem Part.intercalate_bare (p : Part) (parts : List Part) (gap : Gap) (rest : List Char) :
    gap.text ++ ([','].intercalate ((p :: parts).map Part.written) ++ rest) =
      (gap.append p.before).text ++
        ([','].intercalate ((p.bare :: parts).map Part.written) ++ rest) := by
  have hwritten : p.written = p.before.text ++ p.bare.written := rfl
  cases parts with
  | nil => simp [hwritten, Gap.append]
  | cons second parts => simp [hwritten, Gap.append]

/-- An array is read behind its opening bracket. -/
theorem takes_arrayRest {parts : List Part} (hopens : ∀ part ∈ parts, OpensElement part.text)
    (h : AcceptsAll item parts as) (gap : Gap) (rest : List Char) :
    Takes (arrayRest item)
      (gap.text ++ ([','].intercalate (parts.map Part.written) ++ ']' :: rest)) as rest := by
  cases h with
  | nil =>
    exact (takes_next gap (by decide) rest).bind
      ((takes_advance ']' rest).bind (takes_pure [] rest))
  | @cons part a parts as hpart hparts =>
    have hopens : OpensElement ([','].intercalate ((part.bare :: parts).map Part.written) ++
        ']' :: rest) := by
      have hend : Ends (']' :: rest) := ends_cons (by decide) rest
      obtain ⟨more, hmore, -⟩ :=
        exists_intercalate_append part.bare.written (parts.map Part.written) hend
      rw [List.map_cons, hmore]
      exact ((hopens part List.mem_cons_self).append _).append more
    have hbare : AcceptsAll item (part.bare :: parts) (a :: as) := .cons hpart hparts
    rw [part.intercalate_bare]
    exact (hopens.takes_or_fails _ item).1 _ _ (takes_elements hbare rest)

theorem accepts_array {gap : Gap} {parts : List Part}
    (hopens : ∀ part ∈ parts, OpensElement part.text) (h : AcceptsAll item parts as) :
    Accepts (array item) (arrayText gap parts) as := by
  intro before rest _
  rw [arrayText_append]
  exact (takes_next before (by decide) _).bind
    ((takes_advance '[' _).bind (takes_arrayRest hopens h gap rest))

/-- An array is read to the things that its elements describe. -/
theorem ArrayOf.accepts {describes : α → List Char → Prop} (h : ArrayOf describes as text)
    (hopens : ∀ a text, describes a text → OpensElement text)
    (haccepts : ∀ a ∈ as, ∀ text, describes a text → Accepts item text a) :
    Accepts (array item) text as := by
  obtain ⟨gap, items, rfl, rfl, hitems⟩ := h
  refine accepts_array (fun part hpart => ?_) ?_
  · obtain ⟨⟨a, part⟩, hitem, rfl⟩ := List.mem_map.1 hpart
    exact hopens a part.text (hitems _ hitem)
  · refine List.forall₂_map_left_iff.2 (List.forall₂_map_right_iff.2 (List.forall₂_same.2 ?_))
    exact fun item hitem =>
      haccepts item.1 (List.mem_map_of_mem hitem) item.2.text (hitems item hitem)

end

/-! ## Objects -/

/-- Reads a member from behind the opening quote of its key on. -/
def memberReader (key : Reader κ) (member : MemberReader κ σ) (state : σ) : Reader σ := do
  let value ← Reader.ofExcept (member (← key) state)
  Reader.mark ':'
  value

section

variable {key : Reader κ} {member : MemberReader κ σ} {state next last : σ}

/-- What stands behind a member says how an object goes on. -/
theorem exists_members_eq {gap : Gap} {c : Char} {cs : List Char}
    (h : Takes (memberReader key member state) text next (gap.text ++ c :: cs))
    (hc : isGap c = false) :
    ∃ hle : cs.length ≤ text.length, members key member state text =
      if c = ',' then
        match Reader.mark '\x22' cs with
        | .error fault => .error fault
        | .ok (_, quoted) =>
          (members key member next quoted.1).map fun (last, later) =>
            (last, ⟨later.1, Nat.le_trans later.2 (Nat.le_trans quoted.2 hle)⟩)
      else if c = '\x7d' then .ok (next, ⟨cs, hle⟩) else .error .malformed := by
  obtain ⟨later, hread, hlater⟩ := h
  have hskip : (skipGap later.1).1 = c :: cs := by
    rw [hlater]
    exact gap.skipGap_append_cons hc cs
  have hle : (c :: cs).length ≤ text.length :=
    hskip ▸ Nat.le_trans (skipGap later.1).2 later.2
  refine ⟨Nat.le_of_succ_le hle, ?_⟩
  unfold memberReader at hread
  rw [members]
  dsimp only
  rw [hread]
  dsimp only
  split
  · next hnil => cases hnil.symm.trans hskip
  · next d more hcons =>
    obtain ⟨rfl, rfl⟩ := List.cons.inj (hskip.symm.trans hcons)
    cases Reader.mark '\x22' cs with
    | error fault => rfl
    | ok quoted =>
      cases hmembers : members key member next quoted.2.1 <;> simp only [hmembers] <;> rfl

theorem takes_members_last {gap : Gap}
    (h : Takes (memberReader key member state) text last (gap.text ++ '\x7d' :: rest)) :
    Takes (members key member state) text last rest := by
  obtain ⟨hle, heq⟩ := exists_members_eq h (by decide)
  exact ⟨⟨rest, hle⟩, heq, rfl⟩

theorem comes_members_more {gap gap' : Gap} {middle : List Char}
    (h : Takes (memberReader key member state) text next
      (gap.text ++ ',' :: (gap'.text ++ '\x22' :: middle))) {last : Option σ}
    (hmore : Comes (members key member next) middle last rest) :
    Comes (members key member state) text last rest := by
  have hquote : isGap '\x22' = false := by decide
  obtain ⟨⟨left, hshorter⟩, hmark, hleft⟩ := takes_mark gap' hquote middle
  obtain rfl : left = middle := hleft
  obtain ⟨hle, heq⟩ := exists_members_eq h (by decide)
  rw [if_pos rfl, hmark] at heq
  cases last with
  | some last =>
    obtain ⟨later, hmore, rfl⟩ := hmore
    dsimp only at heq
    rw [hmore] at heq
    exact ⟨_, heq, rfl⟩
  | none =>
    obtain ⟨fault, hmore⟩ := hmore
    dsimp only at heq
    rw [hmore] at heq
    exact ⟨fault, heq⟩

/-- Whether a member takes one state of an object to another. -/
def Reads (key : Reader κ) (member : MemberReader κ σ) (state : σ) (m : Member) (next : σ) :
    Prop :=
  ∀ rest, Ends rest → Takes (memberReader key member state) (m.body ++ rest) next rest

theorem Member.body_append (m : Member) (rest : List Char) :
    m.body ++ rest = spelled m.key ++ '\x22' :: (m.behindKey.text ++
      ':' :: (m.value.before.text ++ (m.value.text ++ rest))) := by
  simp [Member.body]

theorem reads_of {k : κ} {value : Reader σ} {m : Member}
    (hkey : ∀ rest, Takes key (spelled m.key ++ '\x22' :: rest) k rest)
    (hmember : member k state = .ok value) (hvalue : Accepts value m.value.text next) :
    Reads key member state m next := by
  intro rest hrest
  rw [m.body_append]
  refine (hkey _).bind ?_
  rw [hmember]
  exact (takes_ofExcept value _).bind
    ((takes_mark m.behindKey (by decide) _).bind (hvalue m.value.before rest hrest))

/-- Whether members take one state of an object to another, one after the other. -/
inductive Gathers (key : Reader κ) (member : MemberReader κ σ) : σ → List Member → σ → Prop
  | nil (state : σ) : Gathers key member state [] state
  | cons {state next last : σ} {m : Member} {ms : List Member}
    (h : Reads key member state m next) (hs : Gathers key member next ms last) :
    Gathers key member state (m :: ms) last

/-- What stands before the members of an object, up to the key of the first one. -/
theorem exists_intercalate_written (m : Member) (ms : List Member) (rest : List Char) :
    ∃ more, [','].intercalate ((m :: ms).map Member.written) ++ rest =
      m.before.text ++ '\x22' :: more := by
  cases ms with
  | nil => exact ⟨_, by rw [List.map_singleton, List.intercalate_singleton, m.written_append]⟩
  | cons m' ms =>
    exact ⟨_, by rw [List.map_cons, List.map_cons, intercalate_cons_append, m.written_append]⟩

/-- The members of an object are read one after the other. -/
theorem Gathers.takes_members {m : Member} {ms : List Member}
    (h : Gathers key member state (m :: ms) last)
    (htext : [','].intercalate ((m :: ms).map Member.written) ++ '\x7d' :: rest =
      m.before.text ++ '\x22' :: text) :
    Takes (members key member state) text last rest := by
  induction ms generalizing m state text with
  | nil =>
    obtain - | ⟨hm, hms⟩ := h
    cases hms
    rw [List.map_singleton, List.intercalate_singleton, m.written_append] at htext
    rw [← (List.cons.inj (List.append_cancel_left htext)).2]
    exact takes_members_last (hm _ (m.value.after.ends_append (ends_cons (by decide) rest)))
  | cons m' ms ih =>
    obtain - | ⟨hm, hms⟩ := h
    obtain ⟨more, hmore⟩ := exists_intercalate_written m' ms ('\x7d' :: rest)
    rw [List.map_cons, List.map_cons, intercalate_cons_append, ← List.map_cons, hmore,
      m.written_append] at htext
    rw [← (List.cons.inj (List.append_cancel_left htext)).2]
    have hlater : Comes (members key member _) more (some last) rest := ih hms hmore
    exact comes_members_more (hm _ (m.value.after.ends_append (ends_cons (by decide) _))) hlater

/-- An object is read behind its opening brace. -/
theorem Gathers.takes_objectRest {ms : List Member} (h : Gathers key member state ms last)
    (gap : Gap) (rest : List Char) :
    Takes (objectRest key member state)
      (gap.text ++ ([','].intercalate (ms.map Member.written) ++ '\x7d' :: rest)) last rest := by
  cases ms with
  | nil =>
    cases h
    exact (takes_next gap (by decide) rest).bind
      ((takes_advance '\x7d' rest).bind (takes_pure _ rest))
  | cons m ms =>
    obtain ⟨more, hmore⟩ := exists_intercalate_written m ms ('\x7d' :: rest)
    have hnext := takes_next (gap.append m.before) (c := '\x22') (by decide) more
    rw [Gap.append, List.append_assoc] at hnext
    rw [hmore]
    exact hnext.bind ((takes_advance '\x22' more).bind (h.takes_members hmore))

/-- Members that are read in any state are gathered. -/
theorem exists_gathers {ms : List Member}
    (h : ∀ m ∈ ms, ∀ state, ∃ next, Reads key member state m next) (state : σ) :
    ∃ last, Gathers key member state ms last := by
  induction ms generalizing state with
  | nil => exact ⟨state, .nil state⟩
  | cons m ms ih =>
    obtain ⟨hm, hms⟩ := List.forall_mem_cons.1 h
    obtain ⟨next, hnext⟩ := hm state
    obtain ⟨last, hlast⟩ := ih hms next
    exact ⟨last, .cons hnext hlast⟩

end

/-! ## Values of any shape -/

variable {number : NumberText → Prop} {string : List Piece → Prop} {depth : Nat}

/-- A value opens neither with a blank nor with what closes an array. -/
theorem IsText.opensElement (h : IsText number string depth text) : OpensElement text := by
  cases h with
  | null => exact ⟨'n', _, rfl, by decide, by decide⟩
  | bool b => cases b <;> exact ⟨_, _, rfl, by decide, by decide⟩
  | @number _ n =>
    obtain ⟨c, cs, htext, hc⟩ := n.exists_text_eq_cons
    refine ⟨c, cs, htext, isGap_of_startsNumber hc, ?_⟩
    rintro rfl
    exact absurd hc (by decide)
  | string h => exact ⟨'\x22', _, rfl, by decide, by decide⟩
  | array h => exact ⟨'[', _, rfl, by decide, by decide⟩
  | object h => exact ⟨'\x7b', _, rfl, by decide, by decide⟩

theorem accepts_boolean (b : Bool) : Accepts boolean (Decimal.booleanText b) b := by
  cases b with
  | false =>
    exact accepts_next (by decide) fun rest _ =>
      (takes_word "false".toList rest).bind (takes_pure _ rest)
  | true =>
    exact accepts_next (by decide) fun rest _ =>
      (takes_word "true".toList rest).bind (takes_pure _ rest)

/-- A number opens with no letter. -/
theorem ne_of_startsNumber {c d : Char} (hc : startsNumber c = true) (hd : startsNumber d = false) :
    c ≠ d := by
  rintro rfl
  rw [hc] at hd
  cases hd

theorem exists_value_eq (depth : Nat) :
    ∃ elements members, value depth = valueWith elements members := by
  cases depth <;> exact ⟨_, _, rfl⟩

theorem accepts_value_null (depth : Nat) : Accepts (value depth) "null".toList .null := by
  obtain ⟨_, _, hvalue⟩ := exists_value_eq depth
  rw [hvalue]
  refine accepts_next (by decide) fun rest _ => ?_
  show Takes (if 'n' = 'n' then _ else _) _ _ _
  rw [if_pos rfl]
  exact (takes_word "null".toList rest).bind (takes_pure _ rest)

theorem accepts_value_bool (depth : Nat) (b : Bool) :
    Accepts (value depth) (Decimal.booleanText b) (.bool b) := by
  obtain ⟨_, _, hvalue⟩ := exists_value_eq depth
  have hread (rest : List Char) (hrest : Ends rest) :=
    ((accepts_boolean b).map Value.bool) .none rest hrest
  rw [hvalue]
  cases b with
  | false => exact accepts_next (by decide) hread
  | true => exact accepts_next (by decide) hread

/-- What opens with a digit or a sign is read as a number. -/
theorem valueWith_of_startsNumber {c : Char} (hc : startsNumber c = true) (cs : List Char)
    (elements members : Reader Value) (gap : Gap) :
    (∀ v rest, Takes (.number <$> Json.number) (c :: cs) v rest →
        Takes (valueWith elements members) (gap.text ++ c :: cs) v rest) ∧
      (Fails Json.number (c :: cs) → Fails (valueWith elements members) (gap.text ++ c :: cs)) := by
  have hletter : ¬(decide (c = 't') || decide (c = 'f')) = true := by
    rw [Bool.or_eq_true, decide_eq_true_eq, decide_eq_true_eq, not_or]
    exact ⟨ne_of_startsNumber hc (by decide), ne_of_startsNumber hc (by decide)⟩
  have hnext := takes_next gap (isGap_of_startsNumber hc) cs
  refine ⟨fun v rest h => hnext.bind ?_, fun h => hnext.bind_fails ?_⟩
  · show Takes (if c = 'n' then _ else _) _ _ _
    rw [if_neg (ne_of_startsNumber hc (by decide)), if_neg hletter, if_pos hc]
    exact h
  · show Fails (if c = 'n' then _ else _) _
    rw [if_neg (ne_of_startsNumber hc (by decide)), if_neg hletter, if_pos hc]
    exact h.map _

theorem accepts_value_number {n : NumberText} (hn : n.numeral.isFinite = true) (depth : Nat) :
    Accepts (value depth) n.text (.number n.numeral) := by
  obtain ⟨_, _, hvalue⟩ := exists_value_eq depth
  obtain ⟨c, cs, htext, hc⟩ := n.exists_text_eq_cons
  intro gap rest hrest
  have hread := (takes_number hn hrest).map Value.number
  rw [hvalue, htext]
  rw [htext] at hread
  exact (valueWith_of_startsNumber hc _ _ _ gap).1 _ _ hread

theorem accepts_value_string {s : String} (h : Spells s text) (depth : Nat) :
    Accepts (value depth) text (.text s) := by
  obtain ⟨_, _, hvalue⟩ := exists_value_eq depth
  have hread := (accepts_string h).map Value.text
  obtain ⟨pieces, rfl, -⟩ := h
  rw [hvalue]
  exact accepts_next (by decide) fun rest hrest => hread .none rest hrest

theorem exists_forall₂ {p : α → β → Prop} {as : List α} (h : ∀ a ∈ as, ∃ b, p a b) :
    ∃ bs, List.Forall₂ p as bs := by
  induction as with
  | nil => exact ⟨[], .nil⟩
  | cons a as ih =>
    obtain ⟨⟨b, hb⟩, has⟩ := List.forall_mem_cons.1 h
    obtain ⟨bs, hbs⟩ := ih has
    exact ⟨b :: bs, .cons hb hbs⟩

/-- Reads a member of an object of any shape. -/
abbrev keptMember (depth : Nat) : MemberReader String (List (String × Value)) :=
  fun key earlier => .ok ((fun v => earlier ++ [(key, v)]) <$> value depth)

/-- A member of an object of any shape is kept, if its key stands for a name. -/
theorem exists_reads_kept {m : Member} (hkey : (decode? m.key).isSome = true)
    (hvalue : ∃ v, Accepts (value depth) m.value.text v) (earlier : List (String × Value)) :
    ∃ next, Reads quotedRest (keptMember depth) earlier m next := by
  obtain ⟨cs, hcs⟩ := Option.isSome_iff_exists.1 hkey
  obtain ⟨v, hv⟩ := hvalue
  exact ⟨_, reads_of (takes_quotedRest hcs) rfl (hv.map _)⟩

/-- A value is read, if its numbers are finite, its surrogates come in pairs and it is not nested
too deep. -/
theorem IsPlain.exists_accepts (h : IsPlain depth text) : ∃ v, Accepts (value depth) text v := by
  induction h with
  | null => exact ⟨_, accepts_value_null _⟩
  | bool b => exact ⟨_, accepts_value_bool _ b⟩
  | number hn => exact ⟨_, accepts_value_number hn _⟩
  | string hdecode =>
    obtain ⟨cs, hcs⟩ := Option.isSome_iff_exists.1 hdecode
    exact ⟨_, accepts_value_string ⟨_, rfl, hcs.trans (by rw [String.toList_ofList])⟩ _⟩
  | @array depth gap parts h ih =>
    obtain ⟨vs, hvs⟩ := exists_forall₂ ih
    refine ⟨.array vs, fun before rest _ => ?_⟩
    have hread := takes_arrayRest (fun part hpart => (h part hpart).opensElement) hvs gap rest
    rw [arrayText_append]
    exact (takes_next before (by decide) _).bind ((takes_advance '[' _).bind (hread.map _))
  | @object depth gap members hkeys h ih =>
    obtain ⟨last, hlast⟩ := exists_gathers
      (fun m hm => exists_reads_kept (hkeys m hm) (ih m hm)) []
    refine ⟨.object last, fun before rest _ => ?_⟩
    have hread := hlast.takes_objectRest gap rest
    rw [objectText_append]
    exact (takes_next before (by decide) _).bind ((takes_advance '\x7b' _).bind (hread.map _))

/-! ## Skipping -/

theorem Part.length_text_le (p : Part) : p.text.length ≤ p.written.length := by
  rw [Part.written, List.length_append, List.length_append]
  omega

theorem Member.length_text_le (m : Member) : m.value.text.length ≤ m.written.length := by
  simp only [Member.written, Member.body, List.length_append, List.length_cons]
  omega

theorem length_lt_arrayText (gap : Gap) {parts : List Part} {part : Part} (h : part ∈ parts) :
    part.text.length < (arrayText gap parts).length := by
  have hle := length_le_of_mem_intercalate (List.mem_map_of_mem (f := Part.written) h)
  have htext := part.length_text_le
  simp only [arrayText, List.length_cons, List.length_append]
  omega

theorem length_lt_objectText (gap : Gap) {members : List Member} {m : Member} (h : m ∈ members) :
    m.value.text.length < (objectText gap members).length := by
  have hle := length_le_of_mem_intercalate (List.mem_map_of_mem (f := Member.written) h)
  have htext := m.length_text_le
  simp only [objectText, List.length_cons, List.length_append]
  omega

/-- A value is skipped, whatever its numbers and its strings are, as long as there are more levels
than it has characters. -/
theorem IsText.accepts_skipNested (h : IsText number string depth text) :
    ∀ levels, text.length ≤ levels → Accepts (skipNested (levels + 1)) text () := by
  induction h with
  | null =>
    intro levels _
    refine accepts_next (by decide) fun rest _ => ?_
    show Takes (if 'n' = 'n' then _ else _) _ _ _
    rw [if_pos rfl]
    exact takes_word "null".toList rest
  | bool b =>
    intro levels _
    cases b with
    | false => exact accepts_next (by decide) fun rest _ => takes_word "false".toList rest
    | true => exact accepts_next (by decide) fun rest _ => takes_word "true".toList rest
  | @number depth n hn =>
    intro levels _
    obtain ⟨c, cs, htext, hc⟩ := n.exists_text_eq_cons
    rw [htext]
    refine accepts_next (isGap_of_startsNumber hc) fun rest hrest => ?_
    have hread := takes_skipNumber n hrest
    rw [htext] at hread
    show Takes (if c = 'n' then _ else _) _ _ _
    rw [if_neg (ne_of_startsNumber hc (by decide)), if_neg (ne_of_startsNumber hc (by decide)),
      if_neg (ne_of_startsNumber hc (by decide)), if_pos hc]
    exact hread
  | @string depth pieces hpieces =>
    intro levels _
    refine accepts_next (by decide) fun rest _ => (takes_advance '\x22' _).bind ?_
    rw [List.append_assoc]
    exact takes_skipQuotedRest pieces rest
  | @array depth gap parts h ih =>
    intro levels hlevels before rest _
    have hitems : ∀ part ∈ parts, ∃ u, Accepts (skipNested levels) part.text u := by
      intro part hpart
      have hlt := length_lt_arrayText gap hpart
      obtain ⟨less, rfl⟩ := Nat.exists_eq_add_one.2 (by omega : 0 < levels)
      exact ⟨(), ih part hpart less (by omega)⟩
    obtain ⟨us, hus⟩ := exists_forall₂ hitems
    have hread := takes_arrayRest (fun part hpart => (h part hpart).opensElement) hus gap rest
    rw [arrayText_append]
    exact (takes_next before (by decide) _).bind
      ((takes_advance '[' _).bind (hread.bind (takes_pure () rest)))
  | @object depth gap members hkeys h ih =>
    intro levels hlevels before rest _
    have hreads : ∀ m ∈ members, ∀ state, ∃ next, Reads skipQuotedRest
        (fun _ _ => .ok (skipNested levels)) state m next := by
      intro m hm state
      have hlt := length_lt_objectText gap hm
      obtain ⟨less, rfl⟩ := Nat.exists_eq_add_one.2 (by omega : 0 < levels)
      exact ⟨(), reads_of (takes_skipQuotedRest m.key) rfl (ih m hm less (by omega))⟩
    obtain ⟨last, hlast⟩ := exists_gathers hreads ()
    rw [objectText_append]
    exact (takes_next before (by decide) _).bind
      ((takes_advance '\x7b' _).bind (hlast.takes_objectRest gap rest))

/-- A value is skipped, whatever its numbers and its strings are and however deep it is nested. -/
theorem IsValue.accepts_skip (h : IsValue text) : Accepts skip text () := by
  obtain ⟨depth, htext⟩ := h
  intro gap rest hrest
  have hlength : text.length ≤ (gap.text ++ (text ++ rest)).length := by
    rw [List.length_append, List.length_append]
    omega
  exact htext.accepts_skipNested _ hlength gap rest hrest

end Flipbook.Json
