import Flipbook.Proofs.Json.Refusals

/-!
# Members in any order

An object may have the members that are asked for in any order, and others among them
whose names nobody asks for. A reader that takes each member for what it is makes the
same of all such objects.

* `Extends`, `ObjectOf`: the members of such an object, and its text.
* `Extends.filter_eq`: what is asked for stands in it once.
* `Extends.gathers`: what its members make of a state.
-/
namespace Flipbook.Json

variable {α κ σ : Type}

/-- A member that is asked for: its name, and which texts spell its value. -/
structure Field where
  name : String
  value : List Char → Prop

/-- Whether a member is one that is asked for. -/
structure Field.MetBy (field : Field) (m : Member) : Prop where
  name : m.name? = some field.name
  value : field.value m.value.text

/-- Whether members are those that are asked for, in any order and among others that have
names of their own and values that are allowed. -/
def Extends (known : List Field) (allowed : List Char → Prop) (members : List Member) : Prop :=
  ∃ found others, members.Perm (found ++ others) ∧ List.Forall₂ Field.MetBy known found ∧
    ∀ m ∈ others, ∃ name, m.name? = some name ∧ name ∉ known.map Field.name ∧
      allowed m.value.text

/-- Whether a text spells an object with such members. -/
def ObjectOf (known : List Field) (allowed : List Char → Prop) (text : List Char) : Prop :=
  ∃ gap members, text = objectText gap members ∧ Extends known allowed members

theorem ObjectOf.opensElement {known : List Field} {allowed : List Char → Prop}
    {text : List Char} (h : ObjectOf known allowed text) : OpensElement text := by
  obtain ⟨gap, members, rfl, -⟩ := h
  exact ⟨'\x7b', _, rfl, by decide, by decide⟩

/-! ## What is asked for -/

section

variable {known : List Field} {found : List Member} {field : Field}

theorem exists_metBy (h : List.Forall₂ Field.MetBy known found) (hfield : field ∈ known) :
    ∃ m ∈ found, field.MetBy m := by
  induction h with
  | nil => cases hfield
  | @cons first m known found hm _ ih =>
    rcases List.mem_cons.1 hfield with rfl | hfield
    · exact ⟨m, List.mem_cons_self, hm⟩
    · obtain ⟨m, hmem, hm⟩ := ih hfield
      exact ⟨m, List.mem_cons_of_mem _ hmem, hm⟩

theorem exists_field {m : Member} (h : List.Forall₂ Field.MetBy known found) (hm : m ∈ found) :
    ∃ field ∈ known, field.MetBy m := by
  induction h with
  | nil => cases hm
  | @cons first m' known found hfirst _ ih =>
    rcases List.mem_cons.1 hm with rfl | hm
    · exact ⟨first, List.mem_cons_self, hfirst⟩
    · obtain ⟨field, hmem, hfield⟩ := ih hm
      exact ⟨field, List.mem_cons_of_mem _ hmem, hfield⟩

/-- Of distinct names each is found once. -/
theorem filter_eq_singleton (h : List.Forall₂ Field.MetBy known found)
    (hnodup : (known.map Field.name).Nodup) (hfield : field ∈ known) :
    ∃ m, field.MetBy m ∧ found.filter (·.name? == some field.name) = [m] := by
  induction h with
  | nil => cases hfield
  | @cons first m known found hm hrest ih =>
    rw [List.map_cons, List.nodup_cons] at hnodup
    rcases List.mem_cons.1 hfield with rfl | hfield
    · have hnone : found.filter (·.name? == some field.name) = [] := by
        refine List.filter_eq_nil_iff.2 fun m' hm' hname => hnodup.1 ?_
        obtain ⟨other, hother, hmet⟩ := exists_field hrest hm'
        have hsame : other.name = field.name :=
          Option.some.inj (hmet.name.symm.trans (beq_iff_eq.1 hname))
        exact hsame ▸ List.mem_map_of_mem hother
      refine ⟨m, hm, ?_⟩
      rw [List.filter_cons, if_pos (beq_iff_eq.2 hm.name), hnone]
    · obtain ⟨m', hmet, hfilter⟩ := ih hnodup.2 hfield
      have hne : ¬(m.name? == some field.name) = true := by
        rw [hm.name, beq_iff_eq, Option.some.injEq]
        exact fun hname => hnodup.1 (hname ▸ List.mem_map_of_mem hfield)
      refine ⟨m', hmet, ?_⟩
      rw [List.filter_cons, if_neg hne, hfilter]

end

namespace Extends

variable {known : List Field} {members : List Member} {allowed : List Char → Prop} {m : Member}
  {field : Field}

theorem mem_or (h : Extends known allowed members) (hm : m ∈ members) :
    (∃ field ∈ known, field.MetBy m) ∨
      ∃ name, m.name? = some name ∧ name ∉ known.map Field.name ∧ allowed m.value.text := by
  obtain ⟨found, others, hperm, hfound, hothers⟩ := h
  rcases List.mem_append.1 (hperm.mem_iff.1 hm) with hm | hm
  · exact .inl (exists_field hfound hm)
  · exact .inr (hothers m hm)

/-- What else stands among the members has its own names, so that it is known which
values have to be allowed. -/
theorem of_forall (h : Extends known allowed members) {p : List Char → Prop}
    (hall : ∀ m ∈ members, (∀ name ∈ m.name?, name ∉ known.map Field.name) → p m.value.text) :
    Extends known p members := by
  obtain ⟨found, others, hperm, hfound, hothers⟩ := h
  refine ⟨found, others, hperm, hfound, fun m hm => ?_⟩
  obtain ⟨name, hname, hnew, -⟩ := hothers m hm
  refine ⟨name, hname, hnew, hall m (hperm.mem_iff.2 (List.mem_append_right found hm)) ?_⟩
  rw [hname]
  rintro _ ⟨⟩
  exact hnew

/-- What is asked for stands among the members once. -/
theorem filter_eq (h : Extends known allowed members) (hnodup : (known.map Field.name).Nodup)
    (hfield : field ∈ known) :
    ∃ m, field.MetBy m ∧ members.filter (·.name? == some field.name) = [m] := by
  obtain ⟨found, others, hperm, hfound, hothers⟩ := h
  have hnone : others.filter (·.name? == some field.name) = [] := by
    refine List.filter_eq_nil_iff.2 fun m hm hname => ?_
    obtain ⟨name, hm, hnew, -⟩ := hothers m hm
    obtain rfl := Option.some.inj (hm.symm.trans (beq_iff_eq.1 hname))
    exact hnew (List.mem_map_of_mem hfield)
  obtain ⟨m, hmet, hfilter⟩ := filter_eq_singleton hfound hnodup hfield
  have hmembers := hperm.filter (·.name? == some field.name)
  rw [List.filter_append, hfilter, hnone, List.append_nil] at hmembers
  exact ⟨m, hmet, List.perm_singleton.1 hmembers⟩

/-- It stands among the members. -/
theorem exists_mem (h : Extends known allowed members) (hfield : field ∈ known) :
    ∃ m ∈ members, field.MetBy m := by
  obtain ⟨found, others, hperm, hfound, -⟩ := h
  obtain ⟨m, hm, hmet⟩ := exists_metBy hfound hfield
  exact ⟨m, hperm.mem_iff.2 (List.mem_append_left others hm), hmet⟩

/-- It does not stand before the place where it stands. -/
theorem notMem_before (h : Extends known allowed members) (hnodup : (known.map Field.name).Nodup)
    (hfield : field ∈ known) (hm : m.name? = some field.name) {before after : List Member}
    (hmembers : members = before ++ m :: after) :
    some field.name ∉ before.map Member.name? := by
  obtain ⟨m', -, hfilter⟩ := h.filter_eq hnodup hfield
  rw [hmembers, List.filter_append, List.filter_cons, if_pos (beq_iff_eq.2 hm)] at hfilter
  have hlength := congrArg List.length hfilter
  rw [List.length_append, List.length_cons, List.length_singleton] at hlength
  have hnone : before.filter (·.name? == some field.name) = [] :=
    List.length_eq_zero_iff.1 (by omega)
  intro hmem
  obtain ⟨m', hm', hname⟩ := List.mem_map.1 hmem
  exact List.filter_eq_nil_iff.1 hnone m' hm' (beq_iff_eq.2 hname)

/-- A reader that takes each member for what it is gathers them, up to any one of them.
What it has gathered so far depends only on the members so far. -/
theorem gathers {key : Reader κ} {member : MemberReader κ σ}
    (h : Extends known allowed members) (hnodup : (known.map Field.name).Nodup)
    (state : List Member → σ) {first rest : List Member} (hmembers : members = first ++ rest)
    (hknown : ∀ before, ∀ field ∈ known, ∀ m ∈ first, field.MetBy m →
      some field.name ∉ before.map Member.name? →
        Reads key member (state before) m (state (before ++ [m])))
    (hother : ∀ before, ∀ m ∈ first, ∀ name, m.name? = some name →
      name ∉ known.map Field.name → allowed m.value.text →
        Reads key member (state before) m (state (before ++ [m]))) :
    Gathers key member (state []) first (state first) := by
  have hfrom : ∀ after before, first = before ++ after →
      Gathers key member (state before) after (state first) := by
    intro after
    induction after with
    | nil =>
      intro before hfirst
      rw [hfirst, List.append_nil]
      exact .nil _
    | cons m after ih =>
      intro before hfirst
      refine .cons ?_ (ih (before ++ [m]) (by rw [hfirst, List.append_cons]))
      have hmem : m ∈ first := hfirst ▸ List.mem_append_right before List.mem_cons_self
      rcases h.mem_or (hmembers ▸ List.mem_append_left rest hmem) with
        ⟨field, hfield, hmet⟩ | ⟨name, hname, hnew, hallowed⟩
      · have hplace : members = before ++ m :: (after ++ rest) := by
          rw [hmembers, hfirst, List.append_assoc, List.cons_append]
        exact hknown before field hfield m hmem hmet
          (h.notMem_before hnodup hfield hmet.name hplace)
      · exact hother before m hmem name hname hnew hallowed
  exact hfrom first [] rfl

end Extends

/-! ## Fields -/

/-- A field, once its member has been met. -/
def met (before : List Member) (key : String) (a : α) : Option α :=
  if some key ∈ before.map Member.name? then some a else none

section

variable {before : List Member} {key : String}

theorem met_of_notMem (h : some key ∉ before.map Member.name?) (a : α) : met before key a = none :=
  if_neg h

/-- In the end all fields have been met that are asked for. -/
theorem Extends.met_eq {known : List Field} {allowed : List Char → Prop} {members : List Member}
    (h : Extends known allowed members) :
    ∀ field ∈ known, ∀ {α : Type} (a : α), met members field.name a = some a := by
  intro field hfield α a
  obtain ⟨m, hm, hmet⟩ := h.exists_mem hfield
  exact if_pos (hmet.name ▸ List.mem_map_of_mem hm)

theorem met_append_self {m : Member} (h : m.name? = some key) (a : α) :
    met (before ++ [m]) key a = some a :=
  if_pos (by simp [h])

theorem met_append_of_ne {m : Member} {name : String} (h : m.name? = some name) (hne : name ≠ key)
    (a : α) : met (before ++ [m]) key a = met before key a := by
  have hiff : some key ∈ (before ++ [m]).map Member.name? ↔
      some key ∈ before.map Member.name? := by
    rw [List.map_append, List.mem_append]
    refine or_iff_left fun hmem => hne ?_
    exact Option.some.inj (h.symm.trans (List.mem_singleton.1 hmem).symm)
  unfold met
  simp only [hiff]

end

/-! ## Objects -/

section

variable {member : MemberReader String σ} {state next last : σ} {m : Member} {name : String}

theorem Member.takes_key (h : m.name? = some name) (rest : List Char) :
    Takes quotedRest (spelled m.key ++ '\x22' :: rest) name rest := by
  obtain ⟨cs, hcs, rfl⟩ := Option.map_eq_some_iff.1 h
  exact takes_quotedRest hcs rest

/-- The value of a field that has not been met is read into its place. -/
theorem reads_fill (hname : m.name? = some name) {before : Option α} {field : Reader α}
    {put : α → σ} (hmember : member name state = fill before field put) (hbefore : before = none)
    {a : α} (hfield : Accepts field m.value.text a) (hnext : put a = next) :
    Reads quotedRest member state m next := by
  subst hbefore hnext
  exact reads_of (m.takes_key hname) hmember (hfield.map put)

/-- A member that nobody asks for is skipped. -/
theorem reads_skip (hname : m.name? = some name)
    (hmember : member name state = .ok ((fun _ => state) <$> skip)) (hvalue : IsValue m.value.text)
    (hnext : state = next) : Reads quotedRest member state m next := by
  subst hnext
  exact reads_of (m.takes_key hname) hmember (hvalue.accepts_skip.map fun _ => state)

theorem accepts_object (gap : Gap) {members : List Member}
    (h : Gathers quotedRest member state members last) :
    Accepts (object member state) (objectText gap members) last := by
  intro blanks rest _
  rw [objectText_append]
  exact (takes_next blanks (by decide) _).bind
    ((takes_advance '\x7b' _).bind (h.takes_objectRest gap rest))

/-- A record is read from the members of an object. -/
theorem accepts_record (gap : Gap) {members : List Member}
    (h : Gathers quotedRest member state members last)
    {finish : σ → Option α} {a : α} (hfinish : finish last = some a) (fields : Reader α) :
    Accepts (record member state finish fields) (objectText gap members) a := by
  intro blanks rest hrest
  have hread := accepts_object gap h .none rest hrest
  rw [objectText_append] at hread ⊢
  refine (takes_next blanks (by decide) _).bind (hread.bind ?_)
  rw [hfinish]
  exact takes_pure a rest

end

end Flipbook.Json
