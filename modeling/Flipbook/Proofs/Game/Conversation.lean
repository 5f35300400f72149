import Mathlib.Data.List.Dedup
import Mathlib.Data.List.Induction
import Flipbook.Animation.Registry
import Flipbook.Game.Staged
import Flipbook.Proofs.Playback.Agreement

/-!
# What a memo tells and what it asks

All that passes between a game and whoever plays in it is a conversation: a list of
questions, each with its reply. A memo stands between two of them. The game behind it
need not be steady: it may change its answers from one question to the next, and it may
crash over a question that it answers later.

* `Game.converse`: a conversation with a game. `Game.recorded` keeps the record of one.
* `Game.Memoizes`: what holds of the two conversations of a memo at any time, kept by
  every question (`Game.memoizes_ask`).
* `Registry.exists_converse_tick`: in a tick all animations together have one conversation
  with the memo.
* `Game.one_answer_per_event`: all questions about an event get one answer, the first one
  that the game gave.
-/
namespace Flipbook

/-! ## Conversations -/

/-- A question and what was replied to it. -/
structure Exchange where
  question : Question
  reply : Reply

/-- The event that an exchange settles, and its answer. -/
def Exchange.answer? : Exchange → Option (String × Bool)
  | ⟨.event name, .event (some active)⟩ => some (name, active)
  | _ => none

/-- The events that a conversation settles, each with its answer, in their order. -/
def answersIn (exchanges : List Exchange) : List (String × Bool) :=
  exchanges.filterMap Exchange.answer?

theorem answersIn_append (before after : List Exchange) :
    answersIn (before ++ after) = answersIn before ++ answersIn after :=
  List.filterMap_append

namespace Game

variable {σ τ : Type}

/-- Puts questions to a game, one after the other. -/
def converse (game : Game σ) : List Question → σ → List Exchange × σ
  | [], s => ([], s)
  | question :: later, s =>
    let (reply, s) := game.ask question s
    let (exchanges, s) := converse game later s
    (⟨question, reply⟩ :: exchanges, s)

theorem converse_append_singleton (game : Game σ) (asked : List Question) (question : Question)
    (s : σ) :
    game.converse (asked ++ [question]) s =
      ((game.converse asked s).1 ++
        [⟨question, (game.ask question (game.converse asked s).2).1⟩],
        (game.ask question (game.converse asked s).2).2) := by
  induction asked generalizing s with
  | nil => rfl
  | cons first asked ih =>
    have hlater := ih (game.ask first s).2
    rw [List.cons_append, converse, converse]
    dsimp only
    rw [hlater]
    rfl

/-- The game with a record of all that was asked and replied, oldest first. -/
def recorded (game : Game σ) : Game (σ × List Exchange) where
  event name s :=
    let (answer, t) := game.event name s.1
    (answer, t, s.2 ++ [⟨.event name, .event answer⟩])
  probe kind name s :=
    let (found, t) := game.probe kind name s.1
    (found, t, s.2 ++ [⟨.probe kind name, .probe found⟩])
  gauge kind s :=
    let (value, t) := game.gauge kind s.1
    (value, t, s.2 ++ [⟨.gauge kind, .gauge value⟩])

theorem event_recorded {game : Game σ} {name : String} {s t : σ} {answer : Option Bool}
    (h : game.event name s = (answer, t)) (exchanges : List Exchange) :
    game.recorded.event name (s, exchanges) =
      (answer, t, exchanges ++ [⟨.event name, .event answer⟩]) := by
  show ((game.event name s).1, (game.event name s).2,
    exchanges ++ [⟨.event name, .event (game.event name s).1⟩]) = _
  rw [h]

/-- Games that agree have the same conversations. -/
theorem Agree.converse {J : σ → τ → Prop} {g : Game σ} {h : Game τ} (hJ : Agree J g h)
    (asked : List Question) {s : σ} {t : τ} (hst : J s t) :
    (g.converse asked s).1 = (h.converse asked t).1 ∧
      J (g.converse asked s).2 (h.converse asked t).2 := by
  have hask (question : Question) {s : σ} {t : τ} (hst : J s t) :
      (g.ask question s).1 = (h.ask question t).1 ∧
        J (g.ask question s).2 (h.ask question t).2 := by
    cases question with
    | event name => exact (hJ.event name s t hst).imp_left (congrArg Reply.event)
    | probe kind name => exact (hJ.probe kind name s t hst).imp_left (congrArg Reply.probe)
    | gauge kind => exact (hJ.gauge kind s t hst).imp_left (congrArg Reply.gauge)
  induction asked generalizing s t with
  | nil => exact ⟨rfl, hst⟩
  | cons question asked ih =>
    obtain ⟨hreply, hnext⟩ := hask question hst
    obtain ⟨hlater, hend⟩ := ih hnext
    refine ⟨?_, hend⟩
    rw [Game.converse, Game.converse]
    dsimp only
    rw [hreply, hlater]

/-! ## What a memo does -/

section

variable {game : Game σ} {name : String} {c : Cached σ} {t : σ}

/-- What the memo holds is told. -/
theorem event_cached_of_known {active : Bool}
    (h : c.answers.get? (Text.toLower name) = some active) :
    game.cached.event name c = (some active, c) := by
  unfold cached
  dsimp only
  rw [h]

/-- What the memo does not hold is asked for, and an answer is kept. -/
theorem event_cached_of_answered {active : Bool}
    (h : c.answers.get? (Text.toLower name) = none)
    (hgame : game.event (Text.toLower name) c.source = (some active, t)) :
    game.cached.event name c =
      (some active, ⟨c.answers.insert (Text.toLower name) active, t⟩) := by
  unfold cached
  dsimp only
  rw [h, hgame]

/-- A crash is not kept. -/
theorem event_cached_of_crashed (h : c.answers.get? (Text.toLower name) = none)
    (hgame : game.event (Text.toLower name) c.source = (none, t)) :
    game.cached.event name c = (none, ⟨c.answers, t⟩) := by
  unfold cached
  dsimp only
  rw [h, hgame]

/-- A question over which the game crashes leaves the memo as it was. -/
theorem answers_event_cached_of_none (h : (game.cached.event name c).1 = none) :
    (game.cached.event name c).2.answers = c.answers := by
  cases hget : c.answers.get? (Text.toLower name) with
  | some active => rw [event_cached_of_known hget]
  | none =>
    cases hgame : game.event (Text.toLower name) c.source with
    | mk answer t =>
      cases answer with
      | some active =>
        rw [event_cached_of_answered hget hgame] at h
        cases h
      | none => rw [event_cached_of_crashed hget hgame]

end

/-- To be recorded changes nothing in a conversation with the memo. -/
theorem agree_recorded (game : Game σ) :
    Agree (fun (c : Cached σ) (d : Cached (σ × List Exchange)) =>
      c.answers = d.answers ∧ c.source = d.source.1) game.cached game.recorded.cached where
  event name c d h := by
    obtain ⟨answers, source⟩ := c
    obtain ⟨answers', source', exchanges⟩ := d
    obtain ⟨rfl, rfl⟩ := h
    cases hget : answers.get? (Text.toLower name) with
    | some active =>
      rw [event_cached_of_known hget, event_cached_of_known hget]
      exact ⟨rfl, rfl, rfl⟩
    | none =>
      cases hgame : game.event (Text.toLower name) source with
      | mk answer t =>
        have hrecord := event_recorded hgame exchanges
        cases answer with
        | some active =>
          rw [event_cached_of_answered hget hgame, event_cached_of_answered hget hrecord]
          exact ⟨rfl, rfl, rfl⟩
        | none =>
          rw [event_cached_of_crashed hget hgame, event_cached_of_crashed hget hrecord]
          exact ⟨rfl, rfl, rfl⟩
  probe kind name c d h := by
    obtain ⟨answers, source⟩ := c
    obtain ⟨answers', source', exchanges⟩ := d
    obtain ⟨rfl, rfl⟩ := h
    exact ⟨rfl, rfl, rfl⟩
  gauge kind c d h := by
    obtain ⟨answers, source⟩ := c
    obtain ⟨answers', source', exchanges⟩ := d
    obtain ⟨rfl, rfl⟩ := h
    exact ⟨rfl, rfl, rfl⟩

/-! ## The two conversations of a memo -/

/-- What holds of a memo that was asked some questions, of its exchanges, and of the record
that the game behind it kept. -/
structure Memoizes (asked : List Question) (exchanges : List Exchange)
    (c : Cached (σ × List Exchange)) : Prop where
  /-- The memo holds the first answer of the game about each event, and no other. -/
  held : ∀ key, c.answers.get? key = (answersIn c.source.2).lookup key
  /-- What the memo has told it holds. -/
  told : ∀ name active, (name, active) ∈ answersIn exchanges →
    c.answers.get? (Text.toLower name) = some active
  /-- What the memo holds it has told. -/
  known : ∀ key active, c.answers.get? key = some active →
    ∃ name, (name, active) ∈ answersIn exchanges ∧ Text.toLower name = key
  /-- The game is asked in small letters. -/
  small : ∀ key reply, ⟨.event key, reply⟩ ∈ c.source.2 →
    ∃ name, .event name ∈ asked ∧ Text.toLower name = key
  /-- The game answers about no event twice. -/
  once : ((answersIn c.source.2).map Prod.fst).Nodup

theorem memoizes_fresh (s : σ) : Memoizes [] [] (.fresh (s, [])) where
  held _ := rfl
  told _ _ h := by cases h
  known _ _ h := by cases h
  small _ _ h := by cases h
  once := List.nodup_nil

namespace Memoizes

variable {asked : List Question} {exchanges : List Exchange} {answers : Table String Bool}
  {s t : σ} {heard : List Exchange}

/-- The game is still asked in small letters when a question makes it answer some more. -/
theorem small_append (h : Memoizes asked exchanges ⟨answers, s, heard⟩) {question : Question}
    {more : List Exchange} (hasked : ∀ key reply, ⟨.event key, reply⟩ ∈ more →
      ∃ name, question = .event name ∧ Text.toLower name = key)
    (key : String) (reply : Reply) (hmem : ⟨.event key, reply⟩ ∈ heard ++ more) :
    ∃ name, .event name ∈ asked ++ [question] ∧ Text.toLower name = key := by
  rcases List.mem_append.1 hmem with hbefore | hnow
  · obtain ⟨name, hname, hkey⟩ := h.small key reply hbefore
    exact ⟨name, List.mem_append_left _ hname, hkey⟩
  · obtain ⟨name, rfl, hkey⟩ := hasked key reply hnow
    exact ⟨name, List.mem_append_right _ (List.mem_singleton_self _), hkey⟩

/-- An exchange that settles no event and asks the game about none changes nothing. -/
theorem pass (h : Memoizes asked exchanges ⟨answers, s, heard⟩) {question : Question}
    {reply : Reply} {more : List Exchange}
    (hreply : Exchange.answer? ⟨question, reply⟩ = none) (hmore : answersIn more = [])
    (hasked : ∀ key reply, ⟨.event key, reply⟩ ∈ more →
      ∃ name, question = .event name ∧ Text.toLower name = key) :
    Memoizes (asked ++ [question]) (exchanges ++ [⟨question, reply⟩])
      ⟨answers, t, heard ++ more⟩ := by
  have htold : answersIn (exchanges ++ [⟨question, reply⟩]) = answersIn exchanges := by
    rw [answersIn_append, answersIn, answersIn, List.filterMap_cons_none hreply]
    exact List.append_nil _
  have hheard : answersIn (heard ++ more) = answersIn heard := by
    rw [answersIn_append, hmore, List.append_nil]
  refine ⟨?held, ?told, ?known, h.small_append hasked, ?once⟩
  case held =>
    intro key
    rw [hheard]
    exact h.held key
  case told =>
    rw [htold]
    exact h.told
  case known =>
    rw [htold]
    exact h.known
  case once =>
    rw [hheard]
    exact h.once

/-- A question that the memo answers itself. -/
theorem hit (h : Memoizes asked exchanges ⟨answers, s, heard⟩) {name : String} {active : Bool}
    (hknown : answers.get? (Text.toLower name) = some active) :
    Memoizes (asked ++ [.event name]) (exchanges ++ [⟨.event name, .event (some active)⟩])
      ⟨answers, s, heard⟩ := by
  have htold : answersIn (exchanges ++ [⟨.event name, .event (some active)⟩]) =
      answersIn exchanges ++ [(name, active)] := answersIn_append _ _
  refine ⟨h.held, ?told, ?known, ?small, h.once⟩
  case told =>
    intro name' active' hmem
    rw [htold] at hmem
    rcases List.mem_append.1 hmem with hbefore | hnow
    · exact h.told name' active' hbefore
    · obtain ⟨rfl, rfl⟩ := Prod.mk.inj (List.mem_singleton.1 hnow)
      exact hknown
  case known =>
    intro key active' hkey
    obtain ⟨name', hmem, hname'⟩ := h.known key active' hkey
    rw [htold]
    exact ⟨name', List.mem_append_left _ hmem, hname'⟩
  case small =>
    intro key reply hmem
    exact h.small_append (fun _ _ hnone => absurd hnone List.not_mem_nil) key reply
      (List.mem_append_left [] hmem)

/-- A question that the game answers, as the memo does not know the answer. -/
theorem miss (h : Memoizes asked exchanges ⟨answers, s, heard⟩) {name : String} {active : Bool}
    (hunknown : answers.get? (Text.toLower name) = none) :
    Memoizes (asked ++ [.event name]) (exchanges ++ [⟨.event name, .event (some active)⟩])
      ⟨answers.insert (Text.toLower name) active, t,
        heard ++ [⟨.event (Text.toLower name), .event (some active)⟩]⟩ := by
  have htold : answersIn (exchanges ++ [⟨.event name, .event (some active)⟩]) =
      answersIn exchanges ++ [(name, active)] := answersIn_append _ _
  have hheard : answersIn (heard ++ [⟨.event (Text.toLower name), .event (some active)⟩]) =
      answersIn heard ++ [(Text.toLower name, active)] := answersIn_append _ _
  have hget (key : String) : (answers.insert (Text.toLower name) active).get? key =
      if key = Text.toLower name then some active else answers.get? key := by
    rw [Table.get?_insert]
    simp
  have hfirst : (answersIn heard).lookup (Text.toLower name) = none :=
    (h.held (Text.toLower name)).symm.trans hunknown
  refine ⟨?held, ?told, ?known, h.small_append ?small, ?once⟩
  case held =>
    intro key
    dsimp only
    rw [hget, hheard, List.lookup_append, ← h.held key]
    by_cases hkey : key = Text.toLower name
    · subst hkey
      dsimp only
      simp [hunknown]
    · have hbeq : (key == Text.toLower name) = false := beq_eq_false_iff_ne.2 hkey
      rw [if_neg hkey, List.lookup_cons, hbeq, List.lookup_nil, Option.or_none]
  case told =>
    intro name' active' hmem
    dsimp only
    rw [hget]
    rw [htold] at hmem
    rcases List.mem_append.1 hmem with hbefore | hnow
    · have hknown := h.told name' active' hbefore
      have hne : Text.toLower name' ≠ Text.toLower name := by
        intro heq
        rw [heq] at hknown
        cases hunknown.symm.trans hknown
      rw [if_neg hne]
      exact hknown
    · obtain ⟨rfl, rfl⟩ := Prod.mk.inj (List.mem_singleton.1 hnow)
      rw [if_pos rfl]
  case known =>
    intro key active' hkey
    dsimp only at hkey
    rw [hget] at hkey
    rw [htold]
    by_cases heq : key = Text.toLower name
    · rw [if_pos heq] at hkey
      obtain rfl := Option.some.inj hkey
      exact ⟨name, by simp, heq.symm⟩
    · rw [if_neg heq] at hkey
      obtain ⟨name', hmem, hname'⟩ := h.known key active' hkey
      exact ⟨name', List.mem_append_left _ hmem, hname'⟩
  case small =>
    intro key reply hmem
    have heq : key = Text.toLower name := by
      simpa using congrArg Exchange.question (List.mem_singleton.1 hmem)
    exact ⟨name, rfl, heq.symm⟩
  case once =>
    dsimp only
    rw [hheard, List.map_append, List.nodup_append]
    refine ⟨h.once, List.nodup_singleton _, ?_⟩
    intro key hkey key' hkey' heq
    obtain ⟨⟨_, active'⟩, hmem, rfl⟩ := List.mem_map.1 hkey
    obtain rfl := List.mem_singleton.1 hkey'
    rw [List.lookup_eq_none_iff] at hfirst
    exact absurd heq.symm (by simpa using hfirst _ hmem)

end Memoizes

/-- Whatever a memo is asked, it goes on to memoize. -/
theorem memoizes_ask (game : Game σ) {asked : List Question} {exchanges : List Exchange}
    {c : Cached (σ × List Exchange)} (h : Memoizes asked exchanges c) (question : Question) :
    Memoizes (asked ++ [question])
      (exchanges ++ [⟨question, (game.recorded.cached.ask question c).1⟩])
      (game.recorded.cached.ask question c).2 := by
  obtain ⟨answers, s, heard⟩ := c
  cases question with
  | probe kind name =>
    exact h.pass rfl rfl fun key reply hmem => nomatch List.mem_singleton.1 hmem
  | gauge kind =>
    exact h.pass rfl rfl fun key reply hmem => nomatch List.mem_singleton.1 hmem
  | event name =>
    unfold ask
    dsimp only
    cases hget : answers.get? (Text.toLower name) with
    | some active =>
      rw [event_cached_of_known hget]
      exact h.hit hget
    | none =>
      cases hgame : game.event (Text.toLower name) s with
      | mk answer t =>
        have hrecord := event_recorded hgame heard
        cases answer with
        | some active =>
          rw [event_cached_of_answered hget hrecord]
          exact h.miss hget
        | none =>
          rw [event_cached_of_crashed hget hrecord]
          refine h.pass rfl rfl fun key reply hmem => ⟨name, rfl, ?_⟩
          simpa using (congrArg Exchange.question (List.mem_singleton.1 hmem)).symm

theorem memoizes_converse (game : Game σ) (s : σ) (asked : List Question) :
    Memoizes asked (game.recorded.cached.converse asked (.fresh (s, []))).1
      (game.recorded.cached.converse asked (.fresh (s, []))).2 := by
  induction asked using List.reverseRecOn with
  | nil => exact memoizes_fresh s
  | append_singleton asked question ih =>
    rw [converse_append_singleton]
    exact game.memoizes_ask ih question

/-- The memo holds as many answers as there are events among those that it has told. -/
theorem Memoizes.lookups_eq {asked : List Question} {exchanges : List Exchange}
    {c : Cached (σ × List Exchange)} (h : Memoizes asked exchanges c) :
    c.lookups = ((answersIn exchanges).map fun e => Text.toLower e.1).dedup.length := by
  have hkeys : c.answers.keys.Perm ((answersIn exchanges).map fun e => Text.toLower e.1).dedup := by
    refine (List.perm_ext_iff_of_nodup (Table.nodup_keys _) (List.nodup_dedup _)).2 fun key => ?_
    rw [Table.mem_keys_iff, List.mem_dedup, Table.contains, Option.isSome_iff_exists, List.mem_map]
    constructor
    · rintro ⟨active, hactive⟩
      obtain ⟨name, hmem, hname⟩ := h.known key active hactive
      exact ⟨(name, active), hmem, hname⟩
    · rintro ⟨⟨name, active⟩, hmem, rfl⟩
      exact ⟨active, h.told name active hmem⟩
  rw [← hkeys.length_eq, Cached.lookups, Table.size, Table.keys, List.length_map]

/-- What a memo tells that is asked some questions. -/
def told (game : Game σ) (asked : List Question) (s : σ) : List Exchange :=
  (game.cached.converse asked (.fresh s)).1

/-- What the game behind a memo hears meanwhile. -/
def heard (game : Game σ) (asked : List Question) (s : σ) : List Exchange :=
  (game.recorded.cached.converse asked (.fresh (s, []))).2.source.2

/-! ## Ticks -/

/-- A record holds a conversation with the game that is recorded. -/
theorem agree_record (game : Game σ) (s : σ) :
    Agree (fun t (u : σ × List Exchange) => t = u.1 ∧
      ∃ asked, game.converse asked s = (u.2, u.1)) game game.recorded where
  event name t u h := by
    obtain ⟨t, exchanges⟩ := u
    obtain ⟨rfl, asked, hasked⟩ := h
    refine ⟨rfl, rfl, asked ++ [.event name], ?_⟩
    rw [converse_append_singleton, hasked]
    rfl
  probe kind name t u h := by
    obtain ⟨t, exchanges⟩ := u
    obtain ⟨rfl, asked, hasked⟩ := h
    refine ⟨rfl, rfl, asked ++ [.probe kind name], ?_⟩
    rw [converse_append_singleton, hasked]
    rfl
  gauge kind t u h := by
    obtain ⟨t, exchanges⟩ := u
    obtain ⟨rfl, asked, hasked⟩ := h
    refine ⟨rfl, rfl, asked ++ [.gauge kind], ?_⟩
    rw [converse_append_singleton, hasked]
    rfl

end Game

namespace Registry

variable {σ τ : Type}

/-- All that the animations of a registry ask and are told in a tick, the first animation
first. -/
def exchanges (r : Registry) (player : Player) (game : Game σ) (s : σ) : List Exchange :=
  (r.animations.mapFold (playOne player game.cached.recorded) ((.fresh s, []), [])).2.1.2

/-- Animations that are played in games that agree leave them in related states. -/
theorem related_mapFoldEntries {J : σ → τ → Prop} {g : Game σ} {h : Game τ}
    (hJ : Game.Agree J g h) (player : Player) (animations : List (Texture × Animation)) {s : σ}
    {t : τ} (hst : J s t) (before after : List Notice) :
    J (Table.mapFoldEntries (playOne player g) animations (s, before)).2.1
      (Table.mapFoldEntries (playOne player h) animations (t, after)).2.1 := by
  induction animations generalizing s t before after with
  | nil => exact hst
  | cons e animations ih =>
    exact ih (hJ.playAnimation hst e.2 player).game _ _

/-- In a tick all animations together have one conversation with the memo, and the game is
left as it is behind it. -/
theorem exists_converse_tick (r : Registry) (player : Player) (game : Game σ) (s : σ) :
    ∃ asked, game.told asked s = r.exchanges player game s ∧
      (game.cached.converse asked (.fresh s)).2.source = (r.tick player game s).value.2 := by
  obtain ⟨hend, asked, hasked⟩ := related_mapFoldEntries (game.cached.agree_record (.fresh s))
    player r.animations.entries (t := (.fresh s, [])) ⟨rfl, [], rfl⟩ [] []
  refine ⟨asked, ?_, ?_⟩
  · rw [Game.told, hasked]
    rfl
  · rw [hasked]
    exact congrArg Cached.source hend.symm

end Registry

/-! ## One answer -/

namespace Game

variable {σ : Type}

/-- Whatever a memo is asked, all questions about an event that it answers get one answer,
however the event is written: the first one that the game gave. The game is asked in small
letters, and it answers about each event once at most. The memo counts the events that it
has answered. A question over which the game crashes leaves it as it was. And in a tick all
that the animations of a registry ask is one conversation with a memo. -/
theorem one_answer_per_event (game : Game σ) (s : σ) :
    (∀ asked : List Question,
      (∀ name active, (name, active) ∈ answersIn (game.told asked s) →
        (answersIn (game.heard asked s)).lookup (Text.toLower name) = some active) ∧
      (∀ name active name' active', (name, active) ∈ answersIn (game.told asked s) →
        (name', active') ∈ answersIn (game.told asked s) →
        Text.toLower name = Text.toLower name' → active = active') ∧
      (∀ key reply, ⟨.event key, reply⟩ ∈ game.heard asked s →
        ∃ name, .event name ∈ asked ∧ Text.toLower name = key) ∧
      ((answersIn (game.heard asked s)).map Prod.fst).Nodup ∧
      (game.cached.converse asked (.fresh s)).2.lookups =
        ((answersIn (game.told asked s)).map fun e => Text.toLower e.1).dedup.length) ∧
    (∀ name (c : Cached σ), (game.cached.event name c).1 = none →
      (game.cached.event name c).2.answers = c.answers) ∧
    ∀ (r : Registry) (player : Player),
      ∃ asked, game.told asked s = r.exchanges player game s ∧
        (game.cached.converse asked (.fresh s)).2.source = (r.tick player game s).value.2 := by
  refine ⟨fun asked => ?_, fun name c => answers_event_cached_of_none,
    fun r player => r.exists_converse_tick player game s⟩
  obtain ⟨htold, hend⟩ := game.agree_recorded.converse asked
    (s := .fresh s) (t := .fresh (s, [])) ⟨rfl, rfl⟩
  have hmemo := game.memoizes_converse s asked
  rw [← htold] at hmemo
  have hfirst (name : String) (active : Bool)
      (hmem : (name, active) ∈ answersIn (game.told asked s)) :
      (answersIn (game.heard asked s)).lookup (Text.toLower name) = some active :=
    (hmemo.held _).symm.trans (hmemo.told name active hmem)
  refine ⟨hfirst, ?_, hmemo.small, hmemo.once, ?_⟩
  · intro name active name' active' hmem hmem' hname
    have h := hfirst name active hmem
    rw [hname, hfirst name' active' hmem'] at h
    exact (Option.some.inj h).symm
  · have hlookups := hmemo.lookups_eq
    rw [Cached.lookups, ← hend.1] at hlookups
    exact hlookups

/-- A game that answers every question about events otherwise than the one before, and
crashes over the first. -/
def fickleGame : Game Nat where
  event _ n := (if n = 0 then none else some (n % 2 = 1), n + 1)
  probe _ _ n := (some false, n)
  gauge _ n := (some 0, n)

/-- Questions about a storm and about rain, with a probe among them. -/
def fickleQuestions : List Question :=
  [.event "Storm", .event "STORM", .event "storm", .probe .biome "sea", .event "Rain",
    .event "rain"]

theorem one_answer_per_event_fickleGame :
    answersIn (fickleGame.told fickleQuestions 0) =
      [("STORM", true), ("storm", true), ("Rain", false), ("rain", false)] ∧
    (fickleGame.heard fickleQuestions 0).map Exchange.question =
      [.event "storm", .event "storm", .probe .biome "sea", .event "rain"] ∧
    (answersIn (fickleGame.heard fickleQuestions 0)).lookup (Text.toLower "STORM") = some true ∧
    ((answersIn (fickleGame.heard fickleQuestions 0)).map Prod.fst).Nodup ∧
    (fickleGame.cached.converse fickleQuestions (.fresh 0)).2.lookups = 2 ∧
    (fickleGame.cached.event "Storm" (.fresh 0)).2.answers = (Cached.fresh 0).answers := by
  have htold : answersIn (fickleGame.told fickleQuestions 0) =
      [("STORM", true), ("storm", true), ("Rain", false), ("rain", false)] := by
    decide +kernel
  have hheard : (fickleGame.heard fickleQuestions 0).map Exchange.question =
      [.event "storm", .event "storm", .probe .biome "sea", .event "rain"] := by
    decide +kernel
  have hkeys : ([("STORM", true), ("storm", true), ("Rain", false), ("rain", false)].map
      fun e => Text.toLower e.1).dedup.length = 2 := by
    decide +kernel
  obtain ⟨hconversation, hcrash, -⟩ := fickleGame.one_answer_per_event 0
  obtain ⟨hfirst, -, -, honce, hlookups⟩ := hconversation fickleQuestions
  refine ⟨htold, hheard, hfirst "STORM" true (by rw [htold]; simp), honce, ?_, ?_⟩
  · rw [hlookups, htold, hkeys]
  · exact hcrash "Storm" (.fresh 0) rfl

end Game
end Flipbook
