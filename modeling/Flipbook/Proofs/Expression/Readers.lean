import Flipbook.Proofs.Expression.Rules

/-!
# Rules and what follows

What a rule makes of some tokens may depend on the tokens that follow on them, but only in
a few ways: the tokens may decide it, or end before it is decided, or be nested so deep
that nothing helps. One rule makes an exception: when tokens end behind the sign of a
pattern, it takes the sign for the token that stands in place of the number. Rules are looked
at here as readers of tokens, without the proofs that they carry, and put together.

* `outcome`, `Reader`, `Reader.andThen`: what becomes of tokens, one reader after the other.
* `Settled`, `Ended`, `Hopeless`, `Cut`: the ways in which tokens take part, together
  `Decides`.
* `Plain`: readers for which what follows matters only if the tokens end.
* `Decides.andThen`, `Plain.andThen`: the same for one reader after the other.
-/
namespace Flipbook.Expression

variable {α β : Type} {ts us rest : List Lexeme}

/-! ## Outcomes -/

/-- What becomes of some tokens: what is read or why nothing is, and the tokens that are left, or
those at the place of the failure. -/
abbrev Outcome (α : Type) := Except (Option Expectation) α × List Lexeme

/-- The outcome of a rule. -/
def outcome : Except Failure (Parsed α ts) → Outcome α
  | .ok p => (.ok p.value, p.rest)
  | .error f => (.error f.expected, f.rest)

/-- What a rule makes of tokens, whichever they are. -/
abbrev Reader (α : Type) := List Lexeme → Outcome α

/-- A rule as a reader. -/
def Rule.reader (rule : Rule α) : Reader α := fun ts => outcome (rule ts)

namespace Reader

/-- Reads one thing and then another. -/
def andThen (m : Reader α) (k : α → Reader β) : Reader β := fun ts =>
  match m ts with
  | (.ok a, rest) => k a rest
  | (.error e, rest) => (.error e, rest)

/-- Reads nothing. -/
def done (a : α) : Reader α := fun ts => (.ok a, ts)

/-- Makes something of what is read. -/
def map (f : α → β) (m : Reader α) : Reader β := m.andThen fun a => done (f a)

/-- Passes over a token. -/
def skip (m : Reader α) : Reader α := fun ts => m ts.tail

theorem andThen_of_ok {m : Reader α} {k : α → Reader β} {a : α} (h : m ts = (.ok a, rest)) :
    m.andThen k ts = k a rest := by
  rw [andThen, h]

theorem andThen_of_error {m : Reader α} {k : α → Reader β} {e : Option Expectation}
    (h : m ts = (.error e, rest)) : m.andThen k ts = (.error e, rest) := by
  rw [andThen, h]

theorem map_of_ok {m : Reader α} {f : α → β} {a : α} (h : m ts = (.ok a, rest)) :
    m.map f ts = (.ok (f a), rest) :=
  andThen_of_ok h

theorem map_of_error {m : Reader α} {f : α → β} {e : Option Expectation}
    (h : m ts = (.error e, rest)) : m.map f ts = (.error e, rest) :=
  andThen_of_error h

theorem fst_andThen_of_error {m : Reader α} {k : α → Reader β} {e : Option Expectation}
    (h : (m ts).1 = .error e) : (m.andThen k ts).1 = .error e := by
  rcases hresult : m ts with ⟨e' | a, rest⟩
  · rw [hresult] at h
    rw [andThen_of_error hresult]
    exact congrArg Except.error (Except.error.inj h)
  · rw [hresult] at h
    cases h

theorem exists_of_andThen_eq_ok {m : Reader α} {k : α → Reader β} {b : β}
    (h : m.andThen k ts = (.ok b, rest)) :
    ∃ a us, m ts = (.ok a, us) ∧ k a us = (.ok b, rest) := by
  rcases hresult : m ts with ⟨e | a, us⟩
  · rw [andThen_of_error hresult] at h
    cases h
  · rw [andThen_of_ok hresult] at h
    exact ⟨a, us, rfl, h⟩

theorem snd_map (f : α → β) (m : Reader α) (ts : List Lexeme) : (m.map f ts).2 = (m ts).2 := by
  rcases hresult : m ts with ⟨e | a, rest⟩
  · rw [map_of_error hresult]
  · rw [map_of_ok hresult]

end Reader

theorem reader_of_error {rule : Rule α} {f : Failure} (h : rule ts = .error f) :
    rule.reader ts = (.error f.expected, f.rest) :=
  congrArg outcome h

theorem reader_of_ok {rule : Rule α} {p : Parsed α ts} (h : rule ts = .ok p) :
    rule.reader ts = (.ok p.value, p.rest) :=
  congrArg outcome h

theorem outcome_widen {vs : List Lexeme} (h : us.length < vs.length)
    (x : Except Failure (Parsed α us)) :
    outcome (x >>= fun p => pure (p.widen h)) = outcome x := by
  cases x <;> rfl

/-- What has been read, whatever that was, and the tokens behind it. -/
def readBefore (a : α) (ts : List Lexeme) : Parsed α (⟨.symbol .comma, 0⟩ :: ts) :=
  ⟨a, ts, length_lt_symbol .comma 0 ts⟩

/-- What follows on a reading is read from the tokens that are left. -/
theorem outcome_bind {vs : List Lexeme} (x : Except Failure (Parsed α ts))
    {f : Parsed α ts → Except Failure (Parsed β vs)} (m : Reader α) (k : α → Reader β)
    (hx : outcome x = m us) (hf : ∀ p, x = .ok p → outcome (f p) = k p.value p.rest) :
    outcome (x >>= f) = m.andThen k us := by
  cases x with
  | error e => exact (Reader.andThen_of_error hx.symm).symm
  | ok p => exact (hf p rfl).trans (Reader.andThen_of_ok hx.symm).symm

theorem length_lt_of_reader {rule : Rule α} {a : α} (h : rule.reader ts = (.ok a, rest)) :
    rest.length < ts.length := by
  unfold Rule.reader at h
  cases hrule : rule ts with
  | error f =>
    rw [hrule] at h
    cases h
  | ok p =>
    rw [hrule] at h
    cases h
    exact p.shorter

theorem reader_closedBy (s : Symbol) (rule : Rule α) :
    Rule.reader (closedBy s rule) =
      rule.reader.andThen fun a => (Rule.reader (symbol s)).andThen fun _ => .done a := by
  funext ts
  refine outcome_bind (rule ts) _ _ rfl fun p _ => ?_
  exact outcome_bind (symbol s p.rest) _ _ rfl fun _ _ => rfl

/-! ## What follows -/

/-- Whether a reader goes on from the tokens and never back. -/
def Forward (m : Reader α) : Prop := ∀ ts, (m ts).2 <:+ ts

/-- Whether the tokens decide what becomes of them, so that all that follows is left. A number
that is missed is missed behind a sign. -/
structure Settled (m : Reader α) (ts : List Lexeme) : Prop where
  append : ∀ us, m (ts ++ us) = ((m ts).1, (m ts).2 ++ us)
  sign : (m ts).1 = .error (some .numberAfterMinus) →
    ∃ front t, t.token = .symbol .minus ∧ ts = front ++ t :: (m ts).2

/-- Whether the tokens end before it is decided what becomes of them. -/
structure Ended (m : Reader α) (ts : List Lexeme) : Prop where
  rest : (m ts).2 = []
  later : ∀ us, (m (ts ++ us)).2 <:+ us

/-- Whether the nesting is too deep whatever follows. -/
def Hopeless (m : Reader α) (ts : List Lexeme) : Prop := ∀ us, (m (ts ++ us)).1 = .error none

/-- Whether the tokens end behind a sign, which is taken for the token in place of the number that
is missed. The sign stands behind none, and the tokens can be completed. -/
structure Cut (m : Reader α) (before ts : List Lexeme) : Prop where
  sign : ∃ front t, t.token = .symbol .minus ∧ ts = front ++ [t] ∧
    m ts = (.error (some .numberAfterMinus), [t]) ∧
      ∀ t' ∈ (before ++ front).getLast?, t'.token ≠ .symbol .minus
  later : ∀ us, us ≠ [] → (m (ts ++ us)).2 <:+ us
  completed : ∃ ws a, ∀ us, startsWithWord "else" us = false → m (ts ++ (ws ++ us)) = (.ok a, us)

/-- How some tokens behind others take part in what is read. -/
inductive Decides (m : Reader α) (before ts : List Lexeme) : Prop where
  | settled (h : Settled m ts)
  | ended (h : Ended m ts)
  | hopeless (h : Hopeless m ts)
  | cut (h : Cut m before ts)

/-- A reader to which it only matters what follows if the tokens end too early. -/
structure Plain (m : Reader α) : Prop where
  forward : Forward m
  decides : ∀ ts, Settled m ts ∨ Ended m ts

/-- Whether some tokens are all that is needed from here. -/
def Closes (m : Reader α) : Prop :=
  ∃ ws a, ∀ us, startsWithWord "else" us = false →
    startsWithWord "else" (ws ++ us) = false ∧ m (ws ++ us) = (.ok a, us)

section

variable {m m' : Reader α} {k : α → Reader β} {before : List Lexeme} {a : α} {t : Lexeme}

theorem Forward.ended_nil (h : Forward m) : Ended m [] :=
  ⟨List.suffix_nil.1 (h []), fun us => h us⟩

/-! ### One after the other -/

theorem suffix_of_eq {result : Outcome α} {x : Except (Option Expectation) α}
    (h : result = (x, ts)) : result.2 <:+ ts :=
  h ▸ List.suffix_rfl

theorem suffix_andThen (hm : (m ts).2 <:+ us)
    (hk : ∀ a rest, m ts = (.ok a, rest) → (k a rest).2 <:+ rest) :
    (m.andThen k ts).2 <:+ us := by
  rcases hresult : m ts with ⟨_ | a, rest⟩
  · rw [hresult] at hm
    rwa [Reader.andThen_of_error hresult]
  · rw [hresult] at hm
    rw [Reader.andThen_of_ok hresult]
    exact (hk a rest hresult).trans hm

theorem Forward.andThen (hm : Forward m) (hk : ∀ a, Forward (k a)) : Forward (m.andThen k) :=
  fun ts => suffix_andThen (hm ts) fun a rest _ => hk a rest

theorem Ended.andThen (h : Ended m ts) (hk : ∀ a, Forward (k a)) : Ended (m.andThen k) ts := by
  have hnil : (m ts).2 <:+ [] := List.suffix_nil.2 h.rest
  exact ⟨List.suffix_nil.1 (suffix_andThen hnil fun a rest _ => hk a rest),
    fun us => suffix_andThen (h.later us) fun a rest _ => hk a rest⟩

/-- A failure that is settled settles all that comes of it. -/
theorem Settled.andThen_of_error (h : Settled m ts) {e : Option Expectation}
    (hresult : m ts = (.error e, rest)) : Settled (m.andThen k) ts := by
  have hsame := Reader.andThen_of_error (k := k) hresult
  refine ⟨fun us => ?_, fun hsign => ?_⟩
  · rw [hsame]
    exact Reader.andThen_of_error ((h.append us).trans (by rw [hresult]))
  · rw [hsame] at hsign ⊢
    have hfront := h.sign (by rw [hresult]; exact congrArg Except.error (Except.error.inj hsign))
    rwa [hresult] at hfront

/-- What follows on what is settled is up to the next reader. -/
theorem Settled.andThen_append (h : Settled m ts) (hresult : m ts = (.ok a, rest))
    (us : List Lexeme) : m.andThen k (ts ++ us) = k a (rest ++ us) :=
  Reader.andThen_of_ok ((h.append us).trans (by rw [hresult]))

theorem Settled.andThen (h : Settled m ts) (hm : Forward m) (hresult : m ts = (.ok a, rest))
    (hk : Settled (k a) rest) : Settled (m.andThen k) ts := by
  have hsame := Reader.andThen_of_ok (k := k) hresult
  refine ⟨fun us => ?_, fun hsign => ?_⟩
  · rw [h.andThen_append hresult, hk.append, hsame]
  · rw [hsame] at hsign ⊢
    obtain ⟨front, t, ht, hrest⟩ := hk.sign hsign
    obtain ⟨read, hread⟩ := hm ts
    rw [hresult] at hread
    refine ⟨read ++ front, t, ht, ?_⟩
    rw [List.append_assoc, ← hrest, hread]

theorem Settled.andThen_ended (h : Settled m ts) (hresult : m ts = (.ok a, rest))
    (hk : Ended (k a) rest) : Ended (m.andThen k) ts := by
  refine ⟨?_, fun us => ?_⟩
  · rw [Reader.andThen_of_ok hresult]
    exact hk.rest
  · rw [h.andThen_append hresult]
    exact hk.later us

theorem Settled.andThen_cut (h : Settled m ts) {front : List Lexeme}
    (hresult : m (front ++ rest) = (.ok a, rest)) (hts : ts = front ++ rest)
    (hk : Cut (k a) (before ++ front) rest) : Cut (m.andThen k) before ts := by
  subst hts
  obtain ⟨⟨behind, t, ht, hrest, hfails, hlast⟩, hlater, ws, b, hdone⟩ := hk
  refine ⟨⟨front ++ behind, t, ht, ?_, ?_, ?_⟩, fun us hus => ?_, ws, b, fun us hus => ?_⟩
  · rw [hrest, List.append_assoc]
  · exact (Reader.andThen_of_ok hresult).trans hfails
  · rwa [← List.append_assoc]
  · rw [h.andThen_append hresult]
    exact hlater us hus
  · rw [h.andThen_append hresult]
    exact hdone us hus

theorem Cut.andThen (h : Cut m before ts) (hk : ∀ a, Forward (k a) ∧ Closes (k a)) :
    Cut (m.andThen k) before ts := by
  obtain ⟨⟨front, t, ht, hts, hfails, hlast⟩, hlater, ws, a, hdone⟩ := h
  obtain ⟨more, b, hmore⟩ := (hk a).2
  refine ⟨⟨front, t, ht, hts, Reader.andThen_of_error hfails, hlast⟩, fun us hus => ?_,
    ws ++ more, b, fun us hus => ?_⟩
  · exact suffix_andThen (hlater us hus) fun a rest _ => (hk a).1 rest
  · obtain ⟨helse, hread⟩ := hmore us hus
    rw [List.append_assoc]
    exact (Reader.andThen_of_ok (hdone _ helse)).trans hread

/-- If one reader and what follows on it are sure of the tokens unless they end too early, both
are. -/
theorem settled_or_ended_andThen (h : Settled m ts ∨ Ended m ts) (hm : Forward m)
    (hk : ∀ a, Forward (k a))
    (hnext : ∀ a rest, m ts = (.ok a, rest) → Settled (k a) rest ∨ Ended (k a) rest) :
    Settled (m.andThen k) ts ∨ Ended (m.andThen k) ts := by
  rcases h with h | h
  · rcases hresult : m ts with ⟨_ | a, rest⟩
    · exact .inl (h.andThen_of_error hresult)
    · rcases hnext a rest hresult with hafter | hafter
      · exact .inl (h.andThen hm hresult hafter)
      · exact .inr (h.andThen_ended hresult hafter)
  · exact .inr (h.andThen hk)

theorem Plain.andThen (hm : Plain m) (hk : ∀ a, Plain (k a)) : Plain (m.andThen k) where
  forward := hm.forward.andThen fun a => (hk a).forward
  decides ts := settled_or_ended_andThen (hm.decides ts) hm.forward (fun a => (hk a).forward)
    fun a rest _ => (hk a).decides rest

theorem Decides.andThen (h : Decides m before ts) (hm : Forward m) (hk : ∀ a, Forward (k a))
    (hclose : Cut m before ts → ∀ a, Closes (k a))
    (hnext : ∀ front a rest, ts = front ++ rest → m ts = (.ok a, rest) →
      Decides (k a) (before ++ front) rest) : Decides (m.andThen k) before ts := by
  cases h with
  | settled h =>
    rcases hresult : m ts with ⟨_ | a, rest⟩
    · exact .settled (h.andThen_of_error hresult)
    · obtain ⟨front, hfront⟩ := hm ts
      rw [hresult] at hfront
      cases hnext front a rest hfront.symm hresult with
      | settled hafter => exact .settled (h.andThen hm hresult hafter)
      | ended hafter => exact .ended (h.andThen_ended hresult hafter)
      | hopeless hafter =>
        refine .hopeless fun us => ?_
        rw [h.andThen_append hresult]
        exact hafter us
      | cut hafter => exact .cut (h.andThen_cut (hfront ▸ hresult) hfront.symm hafter)
  | ended h => exact .ended (h.andThen hk)
  | hopeless h => exact .hopeless fun us => Reader.fst_andThen_of_error (h us)
  | cut h => exact .cut (h.andThen fun a => ⟨hk a, hclose h a⟩)

/-- A plain reader never stops at a sign that could be completed. -/
theorem Plain.not_cut (h : Plain m) : ¬Cut m before ts := by
  rintro ⟨⟨front, t, -, -, hfails, -⟩, -, ws, a, hdone⟩
  rcases h.decides ts with h | h
  · have hread := hdone [] rfl
    rw [h.append, hfails] at hread
    cases hread
  · have hrest := h.rest
    rw [hfails] at hrest
    cases hrest

theorem Plain.decides_andThen (hm : Plain m) (hk : ∀ a, Forward (k a))
    (hnext : ∀ front a rest, ts = front ++ rest → m ts = (.ok a, rest) →
      Decides (k a) (before ++ front) rest) : Decides (m.andThen k) before ts := by
  refine Decides.andThen ?_ hm.forward hk (fun hcut => absurd hcut hm.not_cut) hnext
  rcases hm.decides ts with h | h
  · exact .settled h
  · exact .ended h

/-! ### Readers that agree -/

theorem Settled.congr (hsame : ∀ us, m (ts ++ us) = m' (ts ++ us)) (h : Settled m' ts) :
    Settled m ts := by
  have hts := hsame []
  rw [List.append_nil] at hts
  refine ⟨fun us => ?_, fun hsign => ?_⟩
  · rw [hsame, hts, h.append]
  · rw [hts] at hsign ⊢
    exact h.sign hsign

theorem Ended.congr (hsame : ∀ us, m (ts ++ us) = m' (ts ++ us)) (h : Ended m' ts) :
    Ended m ts := by
  have hts := hsame []
  rw [List.append_nil] at hts
  refine ⟨?_, fun us => ?_⟩
  · rw [hts]
    exact h.rest
  · rw [hsame]
    exact h.later us

theorem Decides.congr (hsame : ∀ us, m (ts ++ us) = m' (ts ++ us)) (h : Decides m' before ts) :
    Decides m before ts := by
  cases h with
  | settled h => exact .settled (h.congr hsame)
  | ended h => exact .ended (h.congr hsame)
  | hopeless h =>
    refine .hopeless fun us => ?_
    rw [hsame]
    exact h us
  | cut h =>
    have hts := hsame []
    rw [List.append_nil] at hts
    obtain ⟨⟨front, t, ht, hfront, hfails, hlast⟩, hlater, ws, a, hdone⟩ := h
    refine .cut ⟨⟨front, t, ht, hfront, hts.trans hfails, hlast⟩, fun us hus => ?_, ws, a,
      fun us hus => (hsame _).trans (hdone us hus)⟩
    rw [hsame]
    exact hlater us hus

/-! ### Behind a token -/

theorem Settled.cons (hsame : ∀ us, m (t :: (ts ++ us)) = m' (ts ++ us)) (h : Settled m' ts) :
    Settled m (t :: ts) := by
  have hts := hsame []
  rw [List.append_nil] at hts
  refine ⟨fun us => ?_, fun hsign => ?_⟩
  · rw [List.cons_append, hsame, hts, h.append]
  · rw [hts] at hsign ⊢
    obtain ⟨front, sign, ht, hfront⟩ := h.sign hsign
    exact ⟨t :: front, sign, ht, congrArg (t :: ·) hfront⟩

theorem Ended.cons (hsame : ∀ us, m (t :: (ts ++ us)) = m' (ts ++ us)) (h : Ended m' ts) :
    Ended m (t :: ts) := by
  have hts := hsame []
  rw [List.append_nil] at hts
  refine ⟨?_, fun us => ?_⟩
  · rw [hts]
    exact h.rest
  · rw [List.cons_append, hsame]
    exact h.later us

theorem settled_or_ended_cons (hsame : ∀ us, m (t :: us) = m' us)
    (h : Settled m' ts ∨ Ended m' ts) : Settled m (t :: ts) ∨ Ended m (t :: ts) :=
  h.imp (·.cons fun _ => hsame _) (·.cons fun _ => hsame _)

theorem Decides.cons (hsame : ∀ us, m (t :: (ts ++ us)) = m' (ts ++ us))
    (h : Decides m' (before ++ [t]) ts) : Decides m before (t :: ts) := by
  cases h with
  | settled h => exact .settled (h.cons hsame)
  | ended h => exact .ended (h.cons hsame)
  | hopeless h =>
    refine .hopeless fun us => ?_
    rw [List.cons_append, hsame]
    exact h us
  | cut h =>
    have hts := hsame []
    rw [List.append_nil] at hts
    obtain ⟨⟨front, sign, ht, hfront, hfails, hlast⟩, hlater, ws, a, hdone⟩ := h
    refine .cut ⟨⟨t :: front, sign, ht, congrArg (t :: ·) hfront, hts.trans hfails, ?_⟩,
      fun us hus => ?_, ws, a, fun us hus => (hsame _).trans (hdone us hus)⟩
    · rwa [List.append_assoc, List.singleton_append] at hlast
    · rw [List.cons_append, hsame]
      exact hlater us hus

theorem Decides.skip (h : Decides m (before ++ [t]) ts) : Decides m.skip before (t :: ts) :=
  h.cons fun _ => rfl

/-! ### Nothing more -/

theorem settled_done (a : α) (ts : List Lexeme) : Settled (.done a) ts := ⟨fun _ => rfl, nofun⟩

theorem plain_done (a : α) : Plain (.done a) :=
  ⟨fun _ => List.suffix_rfl, fun ts => .inl (settled_done a ts)⟩

theorem Plain.map (h : Plain m) (f : α → β) : Plain (m.map f) :=
  h.andThen fun a => plain_done (f a)

theorem closes_done (a : α) : Closes (.done a) := ⟨[], a, fun _ hus => ⟨hus, rfl⟩⟩

theorem Decides.map (h : Decides m before ts) (hm : Forward m) (f : α → β) :
    Decides (m.map f) before ts :=
  h.andThen hm (fun a => (plain_done (f a)).forward) (fun _ a => closes_done (f a))
    fun _ a rest _ _ => .settled (settled_done (f a) rest)

end

end Flipbook.Expression
