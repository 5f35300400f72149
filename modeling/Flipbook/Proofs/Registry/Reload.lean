import Flipbook.Proofs.Playback.Seeds
import Flipbook.Proofs.Registry.Ticks

/-!
# Loading a texture again

A document that is loaded for a texture starts the animation of that texture afresh, and
nothing of what was played before shows in it: `Registry.load_keeps_no_history`. It plays
as it would in a registry that had never held anything else, and the other textures play
as they would without it. The random numbers of the conditions are new in each loading, so
the two are compared up to the random numbers (`Registry.EqButSeeds`).
-/
namespace Flipbook

namespace Operation

/-- What becomes of a texture is up to the ticks as long as it is spared otherwise. -/
theorem foldl_effect_filter {texture : Texture} {later : List Operation}
    (h : ∀ op ∈ later, op.Spares texture) (current : Option Animation) :
    later.foldl (effect texture) current =
      (later.filter isTick).foldl (effect texture) current := by
  induction later generalizing current with
  | nil => rfl
  | cons op later ih =>
    obtain ⟨hop, hlater⟩ := List.forall_mem_cons.1 h
    cases htick : op.isTick with
    | true =>
      rw [List.filter_cons_of_pos htick]
      exact ih hlater _
    | false =>
      rw [List.filter_cons_of_neg (htick ▸ Bool.false_ne_true), List.foldl_cons,
        effect_of_spares hop htick]
      exact ih hlater current

end Operation

namespace Animation

/-- Two animations that draw no random numbers and differ in nothing but those that they are
given. -/
structure EqButSeeds (a b : Animation) : Prop where
  left : a.NeverDraws
  right : b.NeverDraws
  seeded : a.seeded .zeros = b.seeded .zeros

namespace EqButSeeds

variable {a b : Animation}

theorem states (h : a.EqButSeeds b) : a.states = b.states := by
  rw [← a.states_seeded .zeros, h.seeded, b.states_seeded]

theorem currentFrame (h : a.EqButSeeds b) : a.currentFrame = b.currentFrame := by
  rw [← a.currentFrame_seeded .zeros, h.seeded, b.currentFrame_seeded]

theorem after (h : a.EqButSeeds b) (player : Player) (answers : Answers) :
    (a.after player answers).EqButSeeds (b.after player answers) where
  left := neverDraws_play player answers.game () h.left
  right := neverDraws_play player answers.game () h.right
  seeded :=
    calc (a.after player answers).seeded .zeros
      _ = ((a.seeded .zeros).play player answers.game ()).now := by
        rw [play_seeded .zeros player answers.game () h.left]
        rfl
      _ = ((b.seeded .zeros).play player answers.game ()).now := by rw [h.seeded]
      _ = (b.after player answers).seeded .zeros := by
        rw [play_seeded .zeros player answers.game () h.right]
        rfl

end EqButSeeds
end Animation

namespace Registry

/-- Whether two registries differ in nothing but the random numbers of their conditions. -/
def EqButSeeds (r r' : Registry) : Prop :=
  ∀ texture, (r.animations.get? texture).map (·.seeded .zeros) =
    (r'.animations.get? texture).map (·.seeded .zeros)

/-- A document that is refused leaves the registry as it is. One that is accepted starts the
animation that it describes; whatever happens to other textures later, and whatever ticks
come, in games that keep to their answers within a tick, the other textures are as if it had
not been loaded, and its own animation is as if it had been loaded into an empty registry and
nothing but the ticks had happened since. The latter is said of animations that draw no
random numbers, whatever numbers they are given. -/
theorem load_keeps_no_history (r : Registry) (config : Document.Config) (texture : Texture)
    (content : List Char) :
    (∀ e, (r.load config texture content).outcome.value = .error e →
      r.apply (.load config texture content) = r) ∧
    ∀ loaded, (r.load config texture content).outcome.value = .ok loaded →
      r.apply (.load config texture content) = loaded ∧
      ∃ m, (Document.read config texture content).outcome.value = .ok m ∧
        ∀ later : List Operation, (∀ op ∈ later, op.Steady ∧ op.Spares texture) →
          (∀ other, other ≠ texture →
            (later.foldl apply loaded).animations.get? other =
              (later.foldl apply r).animations.get? other) ∧
          (m.NeverDraws →
            ∀ fresh : Registry, fresh.EqButSeeds (run [.load config texture content]) →
              ∃ a b, (later.foldl apply loaded).animations.get? texture = some a ∧
                ((later.filter Operation.isTick).foldl apply fresh).animations.get? texture =
                  some b ∧
                a.seeded .zeros = b.seeded .zeros ∧ a.states = b.states ∧
                a.currentFrame = b.currentFrame) := by
  constructor
  · intro e he
    simp only [apply, he]
  · intro loaded hloaded
    refine ⟨by simp only [apply, hloaded], ?_⟩
    rw [outcome_load] at hloaded
    cases hread : (Document.read config texture content).outcome.value with
    | error e =>
      rw [hread] at hloaded
      cases hloaded
    | ok m =>
      rw [hread] at hloaded
      obtain rfl : (r.register m).value = loaded := Except.ok.inj hloaded
      obtain rfl : m.header.texture = texture := Document.texture_of_read hread
      have hrun : run [.load config m.header.texture content] = (empty.register m).value := by
        rw [run, List.foldl_cons, List.foldl_nil, apply_load, Operation.registers?, hread]
        rfl
      refine ⟨m, rfl, fun later hlater => ?_⟩
      have hsteady : ∀ op ∈ later, op.Steady := fun op hop => (hlater op hop).1
      have hticks : ∀ op ∈ later.filter Operation.isTick, op.isTick = true :=
        fun op hop => (List.mem_filter.1 hop).2
      refine ⟨fun other hother => ?_, fun hdraws fresh hfresh => ?_⟩
      · rw [get?_foldl_apply hsteady, get?_foldl_apply hsteady, get?_register, if_neg hother]
      · have hfirst := hfresh m.header.texture
        rw [hrun, get?_register, if_pos rfl] at hfirst
        obtain ⟨first, hfirst, hseeds⟩ := Option.map_eq_some_iff.1 hfirst
        have hstart : (Animation.start m).NeverDraws := Animation.neverDraws_start hdraws
        have hfirstdraws : first.NeverDraws := by
          rw [← Animation.neverDraws_seeded_iff .zeros, hseeds, Animation.neverDraws_seeded_iff]
          exact hstart
        obtain ⟨a, b, ha, hb, hab⟩ := Operation.exists_foldl_effect hticks
          (fun player game s _ _ _ h => h.after player (game.answers s).folded)
          (Animation.EqButSeeds.mk hstart hfirstdraws hseeds.symm) m.header.texture
          m.header.texture
        refine ⟨a, b, ?_, ?_, hab.seeded, hab.states, hab.currentFrame⟩
        · rw [get?_foldl_apply hsteady, get?_register, if_pos rfl,
            Operation.foldl_effect_filter fun op hop => (hlater op hop).2]
          exact ha
        · rw [get?_foldl_apply fun op hop => hsteady op (List.mem_filter.1 hop).1, hfirst]
          exact hb

/-- A clock that shows another frame when lightning flashes. -/
def flashDocument : List Char :=
  "[fallback]\nframe: 9\n[segment:flash]\ntype: single\nframe: 4\nwhen: event(flash)\n".toList

/-- The clock is loaded again after it has spun for a tick; the lamp beside it is taken out. -/
theorem load_keeps_no_history_flashDocument :
    ∃ m loaded a b,
      (Document.read .standard ⟨"game", "clock"⟩ flashDocument).outcome.value = .ok m ∧
      m.NeverDraws ∧
      ((stormyRegistry.apply (.staged [])).load .standard ⟨"game", "clock"⟩
        flashDocument).outcome.value = .ok loaded ∧
      ([.staged ["flash"], .remove ⟨"game", "lamp"⟩].foldl apply loaded).animations.get?
        ⟨"game", "clock"⟩ = some a ∧
      ([.staged ["flash"]].foldl apply
        (run [.load .standard ⟨"game", "clock"⟩ flashDocument])).animations.get?
        ⟨"game", "clock"⟩ = some b ∧
      a.states = b.states ∧ a.currentFrame = b.currentFrame ∧
      a.states = [⟨9, true, 0, false, 0⟩, ⟨4, true, 0, false, 0⟩] := by
  have hreads : (match (Document.read .standard ⟨"game", "clock"⟩ flashDocument).outcome.value with
      | .ok m => decide m.NeverDraws
      | .error _ => false) = true := by
    decide +kernel
  have hstates : (([.staged ["flash"], .remove ⟨"game", "lamp"⟩].foldl apply
      ((stormyRegistry.apply (.staged [])).apply
        (.load .standard ⟨"game", "clock"⟩ flashDocument))).animations.get?
      ⟨"game", "clock"⟩).map Animation.states =
      some [⟨9, true, 0, false, 0⟩, ⟨4, true, 0, false, 0⟩] := by
    decide +kernel
  cases hread : (Document.read .standard ⟨"game", "clock"⟩ flashDocument).outcome.value with
  | error e =>
    rw [hread] at hreads
    cases hreads
  | ok m =>
    rw [hread] at hreads
    have hload := outcome_load (stormyRegistry.apply (.staged [])) .standard ⟨"game", "clock"⟩
      flashDocument
    rw [hread] at hload
    have hlamp : (⟨"game", "lamp"⟩ : Texture) ≠ ⟨"game", "clock"⟩ := by decide
    have hlater : ∀ op ∈ [Operation.staged ["flash"], .remove ⟨"game", "lamp"⟩],
        op.Steady ∧ op.Spares ⟨"game", "clock"⟩ :=
      List.forall_mem_cons.2 ⟨⟨Operation.steady_staged _, trivial⟩,
        List.forall_mem_singleton.2 ⟨trivial, hlamp⟩⟩
    obtain ⟨happly, m', hm', hall⟩ := (load_keeps_no_history _ _ _ _).2 _ hload
    obtain rfl : m = m' := Except.ok.inj (hread.symm.trans hm')
    obtain ⟨a, b, ha, hb, -, hab, hframe⟩ :=
      (hall _ hlater).2 (of_decide_eq_true hreads) _ fun _ => rfl
    rw [happly, ha] at hstates
    exact ⟨m, _, a, b, rfl, of_decide_eq_true hreads, hload, ha, hb, hab, hframe,
      Option.some.inj hstates⟩

end Registry
end Flipbook
