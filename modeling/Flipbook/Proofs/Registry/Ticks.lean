import Flipbook.Proofs.Document.WellFormed
import Flipbook.Proofs.Game.Calm
import Flipbook.Proofs.Registry.Consistency
import Flipbook.Proofs.Registry.Independence

/-!
# Each texture by itself

What an operation makes of the animation of a texture depends on that animation alone:
`Operation.effect`. For a tick this asks for a game that keeps to its answers. In a game
that merely does not crash a tick still plays every animation to the end, in some state
of the game.

* `Registry.get?_foldl_apply`: what becomes of a texture over a history of operations.
* `Operation.exists_foldl_effect`: what a tick keeps of two animations, a history of ticks
  keeps.
* `Registry.get?_apply_of_calm`: a tick in a calm game plays an animation to the end.
* `Registry.exists_plays_foldl`: ticks leave an animation that plays the same description.
-/
namespace Flipbook

namespace Operation

/-- Whether an operation is a tick. -/
def isTick : Operation → Bool
  | .tick .. => true
  | _ => false

/-- Whether the game of an operation keeps to its answers, if it is a tick. -/
def Steady : Operation → Prop
  | .tick _ game s => game.Steady s
  | _ => True

/-- Whether the game of an operation does not crash, if it is a tick. -/
def Calm : Operation → Prop
  | .tick _ game s => game.Calm s
  | _ => True

/-- Whether an operation is a tick or deals with other textures only. -/
def Spares (texture : Texture) : Operation → Prop
  | .register m => m.header.texture ≠ texture
  | .load _ loaded _ => loaded ≠ texture
  | .remove removed => removed ≠ texture
  | .clear => False
  | .tick .. => True

/-- What a steady operation makes of the animation of a texture, if there is one. -/
def effect (texture : Texture) (current : Option Animation) : Operation → Option Animation
  | .register m => if texture = m.header.texture then some (.start m) else current
  | .load config loaded content =>
    match (load config loaded content).registers? with
    | some m => if texture = m.header.texture then some (.start m) else current
    | none => current
  | .remove removed => if texture = removed then none else current
  | .clear => none
  | .tick player game s => current.map fun a => a.after player (game.answers s).folded

/-- A tick in a staged game in which some events are active. -/
def staged (events : List String) : Operation :=
  .tick .standard (Stage.game ⟨events, [], [], [], [], 0, 0⟩) []

theorem steady_staged (events : List String) : (staged events).Steady := Stage.steady _ _

theorem calm_staged (events : List String) : (staged events).Calm := Stage.calm rfl []

/-- What a document puts in is the animation of the texture that it is read for. -/
theorem texture_of_load {config : Document.Config} {texture : Texture} {content : List Char}
    {m : Metadata} (h : (load config texture content).registers? = some m) :
    m.header.texture = texture := by
  simp only [registers?] at h
  cases hread : (Document.read config texture content).outcome.value with
  | ok m' =>
    rw [hread] at h
    exact Option.some.inj h ▸ Document.texture_of_read hread
  | error e =>
    rw [hread] at h
    cases h

theorem effect_of_spares {texture : Texture} {op : Operation} (h : op.Spares texture)
    (htick : op.isTick = false) (current : Option Animation) :
    op.effect texture current = current := by
  cases op with
  | register m => exact if_neg (Ne.symm h)
  | load config loaded content =>
    simp only [effect]
    split
    · next m hm => exact if_neg (texture_of_load hm ▸ Ne.symm h)
    · rfl
  | remove removed => exact if_neg (Ne.symm h)
  | clear => exact h.elim
  | tick player game s => cases htick

/-- What a steady tick keeps of two animations, it keeps over a history of ticks. -/
theorem exists_foldl_effect {R : Animation → Animation → Prop} {ticks : List Operation}
    (h : ∀ op ∈ ticks, op.isTick = true)
    (step : ∀ {σ : Type} (player : Player) (game : Game σ) (s : σ), .tick player game s ∈ ticks →
      ∀ a b, R a b →
        R (a.after player (game.answers s).folded) (b.after player (game.answers s).folded))
    {a b : Animation} (hab : R a b) (texture texture' : Texture) :
    ∃ a' b', ticks.foldl (effect texture) (some a) = some a' ∧
      ticks.foldl (effect texture') (some b) = some b' ∧ R a' b' := by
  induction ticks generalizing a b with
  | nil => exact ⟨a, b, rfl, rfl, hab⟩
  | cons op ticks ih =>
    obtain ⟨hop, hticks⟩ := List.forall_mem_cons.1 h
    cases op with
    | tick player game s =>
      exact ih hticks (fun player game s hmem => step player game s (List.mem_cons_of_mem _ hmem))
        (step player game s List.mem_cons_self a b hab)
    | _ => cases hop

end Operation

namespace Registry

/-! ## Steady operations -/

theorem get?_tick_of_steady {σ : Type} {game : Game σ} {s : σ} (hs : game.Steady s) (r : Registry)
    (player : Player) (texture : Texture) :
    (r.tick player game s).value.1.animations.get? texture =
      (r.animations.get? texture).map fun a => a.after player (game.answers s).folded := by
  have hmatch (a : Animation) (c : Cached σ) (hc : game.Remembers s c) :
      Played.Match (fun c (_ : Unit) => game.Remembers s c) (a.play player game.cached c)
        (a.play player (game.answers s).folded.game ()) :=
    hs.agree_cached.playAnimation hc a player
  obtain ⟨c, hc, heq⟩ := r.get?_tick player game (fun a c hc => (hmatch a c hc).game)
    (game.remembers_fresh s) texture
  rw [heq]
  exact congrArg (Option.map · _) (funext fun a => (hmatch a c hc).now)

theorem get?_apply_of_steady {op : Operation} (h : op.Steady) (r : Registry) (texture : Texture) :
    (r.apply op).animations.get? texture = op.effect texture (r.animations.get? texture) := by
  cases op with
  | register m => exact r.get?_register m texture
  | load config loaded content =>
    simp only [apply_load, Operation.effect]
    cases (Operation.load config loaded content).registers? with
    | some m => exact r.get?_register m texture
    | none => rfl
  | remove removed =>
    simp only [apply, remove, Operation.effect]
    split
    · simp only [Table.get?_erase, Std.compare_eq_iff_eq]
    · next habsent =>
      split
      · next heq =>
        rw [heq]
        exact Option.not_isSome_iff_eq_none.1 habsent
      · rfl
  | clear => rfl
  | tick player game s => exact get?_tick_of_steady h r player texture

/-- Over a history of steady operations each texture goes its own way. -/
theorem get?_foldl_apply {ops : List Operation} (h : ∀ op ∈ ops, op.Steady) (r : Registry)
    (texture : Texture) :
    (ops.foldl apply r).animations.get? texture =
      ops.foldl (Operation.effect texture) (r.animations.get? texture) := by
  induction ops generalizing r with
  | nil => rfl
  | cons op ops ih =>
    rw [List.foldl_cons, List.foldl_cons, ih (fun o ho => h o (List.mem_cons_of_mem _ ho)),
      get?_apply_of_steady (h op List.mem_cons_self)]

/-! ## Calm ticks -/

/-- In a calm game a tick plays the animation of each texture to the end. -/
theorem get?_apply_of_calm {op : Operation} (htick : op.isTick = true) (h : op.Calm) (r : Registry)
    (texture : Texture) :
    ∃ (σ : Type) (player : Player) (game : Game σ) (s : σ), game.Calm s ∧
      (r.apply op).animations.get? texture =
        (r.animations.get? texture).map fun a => (a.play player game s).now := by
  cases op with
  | tick player game s =>
    have hkept (a : Animation) (c : Cached _) (hc : game.cached.Calm c) :
        game.cached.Calm (a.play player game.cached c).game :=
      hc.of_leads (game.cached.leads_playAnimation c a player)
    obtain ⟨c, hc, heq⟩ := r.get?_tick player game hkept (Game.Calm.cached h) texture
    exact ⟨_, player, game.cached, c, hc, heq⟩
  | _ => cases htick

/-- Ticks leave an animation that still plays what its description declares. -/
theorem exists_plays_foldl {ticks : List Operation} (h : ∀ op ∈ ticks, op.isTick = true ∧ op.Calm)
    {m : Metadata} {r : Registry} {texture : Texture} {a : Animation}
    (ha : r.animations.get? texture = some a) (hplays : a.Plays m) :
    ∃ b, (ticks.foldl apply r).animations.get? texture = some b ∧ b.Plays m := by
  induction ticks generalizing r a with
  | nil => exact ⟨a, ha, hplays⟩
  | cons op ticks ih =>
    obtain ⟨htick, hcalm⟩ := h op List.mem_cons_self
    obtain ⟨σ, player, game, s, -, heq⟩ := get?_apply_of_calm htick hcalm r texture
    rw [ha] at heq
    exact ih (fun o ho => h o (List.mem_cons_of_mem _ ho)) heq
      (Animation.plays_play hplays player game s)

end Registry
end Flipbook
