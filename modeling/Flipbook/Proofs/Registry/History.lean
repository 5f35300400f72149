import Flipbook.Animation.Registry

/-!
# Histories of a registry

What can be done to a registry is an `Operation`; a `history` is a list of them,
oldest first, and `Registry.run` is the registry that it leaves. The ticks of a
history may each have a game of their own, and any of these may crash.

* `Registry.get?_apply`: where an animation comes from that a registry holds after
  an operation.
* `Registry.run_induction`: what holds of every animation at its start and is kept
  by its ticks holds of all animations after any history.
-/
namespace Flipbook

open Document (Config)

/-- What can be done to a registry. -/
inductive Operation where
  | register (m : Metadata)
  | load (config : Config) (texture : Texture) (content : List Char)
  | remove (texture : Texture)
  | clear
  | tick {σ : Type} (player : Player) (game : Game σ) (s : σ)

/-- The description of the animation that an operation puts in, if it puts one in. -/
def Operation.registers? : Operation → Option Metadata
  | .register m => some m
  | .load config texture content => (Document.read config texture content).outcome.value.toOption
  | _ => none

namespace Registry

/-- The registry after an operation. A document that is refused changes nothing. -/
def apply (r : Registry) : Operation → Registry
  | .register m => (r.register m).value
  | .load config texture content =>
    match (r.load config texture content).outcome.value with
    | .ok later => later
    | .error _ => r
  | .remove texture => (r.remove texture).value.2
  | .clear => r.clear.value
  | .tick player game s => (r.tick player game s).value.1

/-- The registry after a history. -/
def run (history : List Operation) : Registry := history.foldl apply empty

/-! ## What an operation does to an animation -/

theorem outcome_load (r : Registry) (config : Config) (texture : Texture) (content : List Char) :
    (r.load config texture content).outcome.value =
      (Document.read config texture content).outcome.value.map fun m => (r.register m).value := by
  unfold load
  rw [Document.Reading.outcome_bind]
  cases (Document.read config texture content).outcome.value <;> rfl

theorem apply_load (r : Registry) (config : Config) (texture : Texture) (content : List Char) :
    r.apply (.load config texture content) =
      match (Operation.load config texture content).registers? with
      | some m => (r.register m).value
      | none => r := by
  simp only [apply, outcome_load, Operation.registers?]
  cases (Document.read config texture content).outcome.value <;> rfl

theorem get?_register (r : Registry) (m : Metadata) (texture : Texture) :
    (r.register m).value.animations.get? texture =
      if texture = m.header.texture then some (.start m) else r.animations.get? texture := by
  simp only [register, Table.get?_insert, Std.compare_eq_iff_eq]

theorem get?_register_cases {r : Registry} {m : Metadata} {texture : Texture} {a : Animation}
    (h : (r.register m).value.animations.get? texture = some a) :
    (m.header.texture = texture ∧ a = .start m) ∨ r.animations.get? texture = some a := by
  rw [get?_register] at h
  split at h
  · next heq => exact .inl ⟨heq.symm, (Option.some.inj h).symm⟩
  · exact .inr h

theorem get?_remove {r : Registry} {removed texture : Texture} {a : Animation}
    (h : (r.remove removed).value.2.animations.get? texture = some a) :
    r.animations.get? texture = some a := by
  unfold remove at h
  split at h
  · rw [Table.get?_erase] at h
    split at h
    · cases h
    · exact h
  · exact h

/-- A tick plays every animation, in some state of the memo and the game behind it: one of
which all holds that the plays keep. -/
theorem get?_tick {σ : Type} (r : Registry) (player : Player) (game : Game σ) {s : σ}
    {I : Cached σ → Prop} (hI : ∀ (a : Animation) c, I c → I (a.play player game.cached c).game)
    (hs : I (.fresh s)) (texture : Texture) :
    ∃ c, I c ∧ (r.tick player game s).value.1.animations.get? texture =
      (r.animations.get? texture).map fun a => (a.play player game.cached c).now := by
  obtain ⟨c, hc, h⟩ := Table.get?_mapFold (f := playOne player game.cached) (I := fun c => I c.1)
    (fun _ a c hc => hI a c.1 hc) r.animations (s := (.fresh s, [])) hs texture
  exact ⟨c.1, hc, h⟩

/-- An animation that a registry holds after an operation was put in by it, was there
before, or has been played. -/
theorem get?_apply {r : Registry} {op : Operation} {texture : Texture} {a : Animation}
    (h : (r.apply op).animations.get? texture = some a) :
    (∃ m ∈ op.registers?, m.header.texture = texture ∧ a = .start m) ∨
      r.animations.get? texture = some a ∨
      ∃ (σ : Type) (player : Player) (game : Game σ) (s : σ) (b : Animation),
        r.animations.get? texture = some b ∧ a = (b.play player game s).now := by
  cases op with
  | register m => exact (get?_register_cases h).imp (fun hm => ⟨m, rfl, hm⟩) .inl
  | load config loaded content =>
    rw [apply_load] at h
    cases hm : (Operation.load config loaded content).registers? with
    | none =>
      rw [hm] at h
      exact .inr (.inl h)
    | some m =>
      rw [hm] at h
      exact (get?_register_cases h).imp (fun ha => ⟨m, rfl, ha⟩) .inl
  | remove removed => exact .inr (.inl (get?_remove h))
  | clear => cases h
  | tick player game s =>
    obtain ⟨c, -, htick⟩ := r.get?_tick player game (s := s) (I := fun _ => True)
      (fun _ _ h => h) trivial texture
    obtain ⟨b, hb, rfl⟩ := Option.map_eq_some_iff.1 (htick.symm.trans h)
    exact .inr (.inr ⟨_, player, game.cached, c, b, hb, rfl⟩)

/-! ## Whole histories -/

/-- What holds of every animation at its start and is kept by every tick of an
animation holds of all animations after a history. -/
theorem run_induction {P : Texture → Animation → Prop} {history : List Operation}
    (start : ∀ op ∈ history, ∀ m ∈ op.registers?, P m.header.texture (.start m))
    (play : ∀ texture a, P texture a → ∀ {σ : Type} (player : Player) (game : Game σ) (s : σ),
      P texture (a.play player game s).now)
    {texture : Texture} {a : Animation}
    (h : (run history).animations.get? texture = some a) : P texture a := by
  -- the induction adds an operation at the end of the history
  suffices ∀ (later : List Operation), (∀ op ∈ later, op ∈ history) → ∀ (r : Registry),
      (∀ texture a, r.animations.get? texture = some a → P texture a) →
      ∀ texture a, (later.foldl apply r).animations.get? texture = some a → P texture a from
    this history (fun _ hop => hop) empty nofun texture a h
  intro later
  induction later with
  | nil => exact fun _ r hr => hr
  | cons op later ih =>
    intro hsub r hr
    refine ih (fun o ho => hsub o (List.mem_cons_of_mem _ ho)) (r.apply op) ?_
    intro texture a ha
    obtain ⟨m, hm, rfl, rfl⟩ | ha | ⟨σ, player, game, s, b, hb, rfl⟩ := get?_apply ha
    · exact start op (hsub op List.mem_cons_self) m hm
    · exact hr texture a ha
    · exact play texture b (hr texture b hb) player game s

end Registry
end Flipbook
