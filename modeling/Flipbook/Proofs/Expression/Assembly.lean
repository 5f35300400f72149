import Flipbook.Proofs.Expression.Acceptance

/-!
# What statements are put together from

The rules of statements put a statement together from the expressions and the blocks
that the nested rules read, and from nothing else. So a property of statements holds of
all that is read once it is passed on by each form of statement.

* `Yields`: a rule whose readings have a property.
* `Assembles`: a property of statements that each form of statement passes on.
* `Assembles.statement`, `Assembles.block`: what is read has the property.
-/
namespace Flipbook.Expression

variable {α : Type} {ts us : List Lexeme}

/-- Whether all that a rule reads has a property. -/
def Yields (rule : Rule α) (P : α → Prop) : Prop := ∀ ts p, rule ts = .ok p → P p.value

/-- Whether the body of an arm is a block with the property `B`, or one statement with the
property `S` that stands for a block. -/
def IsArmBody (B : List Statement → Prop) (S : Statement → Prop) (body : List Statement) : Prop :=
  B body ∨ ∃ s, S s ∧ body = [s]

/-- Whether `S` holds of the statements that are put together from expressions with the
property `E` and blocks with the property `B`. -/
structure Assembles (E : Expr → Prop) (B : List Statement → Prop) (S : Statement → Prop) :
    Prop where
  declare : ∀ mutable name {e}, E e → S (.declare mutable name e)
  assign : ∀ name {e}, E e → S (.assign name e)
  branch : ∀ {branches otherwise}, (∀ b ∈ branches, E b.1 ∧ B b.2) →
    (∀ body ∈ otherwise, B body) → S (.branch branches otherwise)
  choose : ∀ subject {arms : List (Pattern × List Statement)},
    (∀ arm ∈ arms, IsArmBody B S arm.2) → S (.choose subject arms)
  result : ∀ {e}, E e → S (.result e)
  effect : ∀ {e}, E e → S (.effect e)
  /-- An expression at the end of a block, or as the body of an arm, is its result. -/
  last : ∀ {e}, S (.effect e) → S (.result e)

namespace Assembles

variable {rules : Rules} {E : Expr → Prop} {B : List Statement → Prop} {S : Statement → Prop}

theorem asArm (hS : Assembles E B S) {s : Statement} (hs : S s) :
    IsArmBody B S s.asArm := by
  cases s with
  | effect e => exact .inr ⟨_, hS.last hs, rfl⟩
  | _ => exact .inr ⟨_, hs, rfl⟩

theorem inBlock (hS : Assembles E B S) {s : Statement} (hs : S s) (last : Bool) :
    S (s.inBlock last) := by
  cases s with
  | effect e =>
    cases last
    · exact hs
    · exact hS.last hs
  | _ => exact hs

section

variable (hexpression : Yields rules.expression E) (hblock : Yields rules.block B)
include hexpression

theorem assigned : Yields (assigned rules) E := by
  intro ts p h
  obtain ⟨sign, _, h⟩ := bind_ok h
  obtain ⟨value, hvalue, h⟩ := bind_ok h
  cases h
  exact hexpression _ value hvalue

include hblock

theorem guarded : Yields (guarded rules) fun branch => E branch.1 ∧ B branch.2 := by
  intro ts p h
  obtain ⟨condition, hcondition, h⟩ := bind_ok h
  obtain ⟨body, hbody, h⟩ := bind_ok h
  cases h
  exact ⟨hexpression _ condition hcondition, hblock _ body hbody⟩

variable (hS : Assembles E B S)
include hS

theorem elseParts {sofar : Parsed (List (Expr × List Statement)) ts}
    (hsofar : ∀ branch ∈ sofar.value, E branch.1 ∧ B branch.2) {p : Parsed Statement ts}
    (h : elseParts rules sofar = .ok p) : S p.value := by
  have complete : S (.branch sofar.value none) := hS.branch hsofar nofun
  induction hlength : sofar.rest.length using Nat.strongRecOn generalizing sofar with
  | _ length ih =>
    unfold Expression.elseParts at h
    split at h
    · split at h
      · cases h
        exact complete
      · next us hrest =>
        split at h
        · split at h
          · cases h
            exact complete
          · next vs hus =>
            split at h
            · cases h
            · next later hlater =>
              have hbranches : ∀ branch ∈ sofar.value ++ [later.value], E branch.1 ∧ B branch.2 :=
                List.forall_mem_append.2 ⟨hsofar,
                  List.forall_mem_singleton.2 (guarded hexpression hblock _ later hlater)⟩
              refine ih later.rest.length ?_ hbranches h (hS.branch hbranches nofun) rfl
              have := later.shorter
              rw [← hlength, hrest, List.length_cons, List.length_cons]
              omega
        · split at h
          · cases h
          · next last hlast =>
            cases h
            refine hS.branch hsofar ?_
            rintro body ⟨⟩
            exact hblock _ last hlast
    · cases h
      exact complete

/-- A statement, where each arm in it is a block or one statement. -/
theorem statement_of_armsFrom
    (harmsFrom : ∀ us p, us.length < ts.length → Expression.armsFrom rules [] us = .ok p →
      ∀ arm ∈ p.value, IsArmBody B S arm.2)
    {p : Parsed Statement ts} (h : Expression.statement rules ts = .ok p) : S p.value := by
  unfold Expression.statement at h
  split at h
  · next word position us =>
    split at h
    · obtain ⟨name, _, h⟩ := bind_ok h
      obtain ⟨value, hvalue, h⟩ := bind_ok h
      cases h
      exact hS.declare _ _ (assigned hexpression _ value hvalue)
    · split at h
      · obtain ⟨first, hfirst, h⟩ := bind_ok h
        obtain ⟨branches, hbranches, h⟩ := bind_ok h
        cases h
        have hsofar : ∀ branch ∈ [first.value], E branch.1 ∧ B branch.2 :=
          List.forall_mem_singleton.2 (guarded hexpression hblock _ first hfirst)
        have hread : S branches.value := elseParts hexpression hblock hS hsofar hbranches
        exact hread
      · split at h
        · obtain ⟨subject, _, h⟩ := bind_ok h
          obtain ⟨opening, _, h⟩ := bind_ok h
          obtain ⟨arms, harms, h⟩ := bind_ok h
          cases h
          exact hS.choose _ (harmsFrom _ arms
            (Nat.lt_succ_of_lt (Nat.lt_trans opening.shorter subject.shorter)) harms)
        · split at h
          · obtain ⟨opening, _, h⟩ := bind_ok h
            obtain ⟨value, hvalue, h⟩ := bind_ok h
            cases h
            obtain ⟨_, _, hread⟩ := closedBy_ok hvalue
            have he := hexpression _ _ hread
            exact hS.result he
          · split at h
            · obtain ⟨value, hvalue, h⟩ := bind_ok h
              cases h
              exact hS.assign _ (assigned hexpression _ value hvalue)
            · obtain ⟨value, hvalue, h⟩ := bind_ok h
              cases h
              exact hS.effect (hexpression _ value hvalue)
  · obtain ⟨value, hvalue, h⟩ := bind_ok h
    cases h
    exact hS.effect (hexpression _ value hvalue)

theorem armsFrom {before : List (Pattern × List Statement)}
    (hbefore : ∀ arm ∈ before, IsArmBody B S arm.2)
    {p : Parsed (List (Pattern × List Statement)) ts}
    (h : Expression.armsFrom rules before ts = .ok p) :
    ∀ arm ∈ p.value, IsArmBody B S arm.2 := by
  induction hlength : ts.length using Nat.strongRecOn generalizing ts before with
  | _ length ih =>
    unfold Expression.armsFrom at h
    split at h
    · obtain ⟨arms, harms, h⟩ := bind_ok h
      cases h
      have hread := ih _ (by rw [← hlength]; simp) hbefore harms rfl
      exact hread
    · cases h
      exact hbefore
    · obtain ⟨head, _, h⟩ := bind_ok h
      obtain ⟨arrow, _, h⟩ := bind_ok h
      have hshorter := Nat.lt_trans arrow.shorter head.shorter
      have further {body : Parsed (List Statement) arrow.rest} {more : Prop} [Decidable more]
          {hlt : body.rest.length < ts.length} (hbody : IsArmBody B S body.value)
          (h : (if more then do
              return (← Expression.armsFrom rules (before ++ [(head.value, body.value)])
                body.rest).widen hlt
            else fail .armSeparator body.rest) = .ok p) :
          ∀ arm ∈ p.value, IsArmBody B S arm.2 := by
        split at h
        · obtain ⟨later, hlater, h⟩ := bind_ok h
          cases h
          have harms : ∀ arm ∈ before ++ [(head.value, body.value)], IsArmBody B S arm.2 :=
            List.forall_mem_append.2 ⟨hbefore, List.forall_mem_singleton.2 hbody⟩
          have hread := ih _ (hlength ▸ hlt) harms hlater rfl
          exact hread
        · cases h
      dsimp only at h
      split at h
      · obtain ⟨body, hbody, h⟩ := bind_ok h
        exact further (.inl (hblock _ body hbody)) h
      · obtain ⟨body, hbody, h⟩ := bind_ok h
        obtain ⟨s, hs, rfl⟩ := map_ok hbody
        refine further (hS.asArm ?_) h
        refine statement_of_armsFrom hexpression hblock hS (fun us p hlt harms => ?_) hs
        exact ih us.length (by omega) (List.forall_mem_nil _) harms rfl

theorem statement : Yields (Expression.statement rules) S := fun _ _ h =>
  statement_of_armsFrom hexpression hblock hS
    (fun _ _ _ harms => armsFrom hexpression hblock hS (List.forall_mem_nil _) harms) h

theorem statementsFrom {before : List Statement} (hbefore : ∀ s ∈ before, S s)
    {p : Parsed (List Statement) ts} (h : Expression.statementsFrom rules before ts = .ok p) :
    ∀ s ∈ p.value, S s := by
  induction hlength : ts.length using Nat.strongRecOn generalizing ts before with
  | _ length ih =>
    unfold Expression.statementsFrom at h
    split at h
    · obtain ⟨body, hbody, h⟩ := bind_ok h
      cases h
      have hread := ih _ (by rw [← hlength]; simp) hbefore hbody rfl
      exact hread
    · cases h
      exact hbefore
    · cases h
    · obtain ⟨next, hnext, h⟩ := bind_ok h
      dsimp only at h
      split at h
      · obtain ⟨body, hbody, h⟩ := bind_ok h
        cases h
        have hs := hS.inBlock (statement hexpression hblock hS _ next hnext)
          (startsWith .closeBrace next.rest)
        have hread := ih _ (hlength ▸ next.shorter)
          (List.forall_mem_append.2 ⟨hbefore, List.forall_mem_singleton.2 hs⟩) hbody rfl
        exact hread
      · cases h

theorem block : Yields (Expression.block rules) fun body => ∀ s ∈ body, S s := by
  intro ts p h
  obtain ⟨opening, _, h⟩ := bind_ok h
  obtain ⟨body, hbody, h⟩ := bind_ok h
  cases h
  have hread := statementsFrom hexpression hblock hS (List.forall_mem_nil _) hbody
  exact hread

end

end Assembles

end Flipbook.Expression
