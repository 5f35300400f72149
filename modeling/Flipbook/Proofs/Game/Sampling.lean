import Mathlib.Data.List.Induction
import Flipbook.Game.EventTable

/-!
# What a table of events answers

A table of events is used over a history: conditions come and go, the world that they
look at changes, and now and then all of them are sampled. What the table answers can be
read off the history alone.

* `Since`: something happened, and a condition has held of every step since.
* `EventTable.get?_conditions_run`: the condition under a name is the one that was
  registered last, unless the name was removed since.
* `EventTable.contains_active_run`: a name is active when its condition held at the last
  refresh, unless the name was removed since.
* `EventTable.answers_run`: all that a table answers after a history.
-/
namespace Flipbook

/-! ## Histories -/

/-- Whether something happened in a history, given what was before it, and a condition
has held of every step since. -/
def Since {α : Type} (happened : List α → α → Prop) (kept : α → Prop) (history : List α) : Prop :=
  ∃ before step after, history = before ++ step :: after ∧ happened before step ∧
    ∀ later ∈ after, kept later

theorem not_since_nil {α : Type} (happened : List α → α → Prop) (kept : α → Prop) :
    ¬Since happened kept [] := by
  rintro ⟨before, step, after, h, -⟩
  cases before <;> cases h

/-- One more step is what happened, or it is kept to behind what happened before. -/
theorem since_append_singleton {α : Type} {happened : List α → α → Prop} {kept : α → Prop}
    {history : List α} {step : α} :
    Since happened kept (history ++ [step]) ↔
      happened history step ∨ (Since happened kept history ∧ kept step) := by
  constructor
  · rintro ⟨before, first, after, h, hfirst, hafter⟩
    obtain rfl | ⟨earlier, last, rfl⟩ := after.eq_nil_or_concat
    · obtain ⟨rfl, rfl⟩ := List.append_singleton_inj.1 h
      exact .inl hfirst
    · rw [List.concat_eq_append] at h hafter
      rw [← List.cons_append, ← List.append_assoc] at h
      obtain ⟨rfl, rfl⟩ := List.append_singleton_inj.1 h
      refine .inr ⟨⟨before, first, earlier, rfl, hfirst, ?_⟩, hafter step (by simp)⟩
      exact fun later hlater => hafter later (List.mem_append_left _ hlater)
  · rintro (hstep | ⟨⟨before, first, after, rfl, hfirst, hafter⟩, hstep⟩)
    · exact ⟨history, step, [], rfl, hstep, nofun⟩
    · refine ⟨before, first, after ++ [step], by simp, hfirst, fun later hlater => ?_⟩
      obtain hlater | hlater := List.mem_append.1 hlater
      · exact hafter later hlater
      · rw [List.mem_singleton.1 hlater]
        exact hstep

namespace EventTable

variable {ω : Type}

/-- What can happen to a table of events and to the world around it. -/
inductive Step (ω : Type) where
  | register (name : String) (condition : ω → Bool)
  | unregister (name : String)
  | refresh
  | change (world : ω)

namespace Step

/-- The name that a step registers or removes, in small letters. -/
def key? : Step ω → Option String
  | register name _ => some (Text.toLower name)
  | unregister name => some (Text.toLower name)
  | _ => none

/-- Whether a step registers a condition. -/
def isRegister : Step ω → Bool
  | register .. => true
  | _ => false

end Step

/-- A table of events and the world that its conditions look at. -/
structure Scene (ω : Type) where
  table : EventTable ω
  world : ω

/-- The table and the world after a step. -/
def Scene.apply (s : Scene ω) : Step ω → Scene ω
  | .register name condition => { s with table := (s.table.register name condition).value }
  | .unregister name => { s with table := (s.table.unregister name).2 }
  | .refresh => { s with table := (s.table.refresh s.world).value }
  | .change world => { s with world }

/-- The table and the world after a history, oldest step first. -/
def run (start : ω) (history : List (Step ω)) : Scene ω :=
  history.foldl Scene.apply ⟨empty, start⟩

theorem run_append_singleton (start : ω) (history : List (Step ω)) (step : Step ω) :
    run start (history ++ [step]) = (run start history).apply step := by
  rw [run, List.foldl_append]
  rfl

/-! ## What a history says -/

/-- Whether a condition is the one that was registered last under a key, which has not
been removed since. -/
def Registers (key : String) (condition : ω → Bool) (history : List (Step ω)) : Prop :=
  Since (fun _ step => ∃ name, step = .register name condition ∧ Text.toLower name = key)
    (fun step => step.key? ≠ some key) history

/-- Whether some condition is registered under a key. -/
def Registered (key : String) (history : List (Step ω)) : Prop :=
  ∃ condition, Registers key condition history

/-- Whether the condition under a key held at the last refresh, and the key has not been
removed since. -/
def Sampled (start : ω) (key : String) (history : List (Step ω)) : Prop :=
  Since
    (fun before step => step = .refresh ∧
      ∃ condition, Registers key condition before ∧ condition (run start before).world = true)
    (fun step => step ≠ .refresh ∧ ∀ name, step = .unregister name → Text.toLower name ≠ key)
    history

/-! ## What a table holds -/

/-- What a step does to the condition under a key. -/
theorem get?_conditions_apply (s : Scene ω) (step : Step ω) (key : String) :
    (s.apply step).table.conditions.get? key =
      match step with
      | .register name condition =>
        if key = Text.toLower name then some condition else s.table.conditions.get? key
      | .unregister name =>
        if key = Text.toLower name then none else s.table.conditions.get? key
      | _ => s.table.conditions.get? key := by
  cases step with
  | register name condition => simp [Scene.apply, register, Table.get?_insert]
  | unregister name => simp [Scene.apply, unregister, Table.get?_erase]
  | refresh => rfl
  | change world => rfl

/-- What a step does to the activity of a key. -/
theorem contains_active_apply (s : Scene ω) (step : Step ω) (key : String) :
    (s.apply step).table.active.contains key =
      match step with
      | .refresh => (s.table.conditions.get? key).any fun condition => condition s.world
      | .unregister name => s.table.active.contains key && key != Text.toLower name
      | _ => s.table.active.contains key := by
  cases step with
  | register name condition => rfl
  | unregister name =>
    by_cases h : key = Text.toLower name <;>
      simp [Scene.apply, unregister, Table.contains, Table.get?_erase, h]
  | refresh =>
    simp only [Scene.apply, refresh, Table.contains, Table.get?_mapValues, Table.get?_filter]
    cases s.table.conditions.get? key <;> simp [Option.filter]
    split <;> simp [*]
  | change world => rfl

/-- Through a whole history a table holds just the conditions that the history registers. -/
theorem get?_conditions_run (start : ω) (history : List (Step ω)) (key : String)
    (condition : ω → Bool) :
    (run start history).table.conditions.get? key = some condition ↔
      Registers key condition history := by
  induction history using List.reverseRecOn with
  | nil => exact iff_of_false nofun (not_since_nil _ _)
  | append_singleton history step ih =>
    rw [run_append_singleton, get?_conditions_apply, Registers, since_append_singleton,
      ← Registers, ← ih]
    cases step with
    | register name registered =>
      by_cases h : key = Text.toLower name
      · simp [Step.key?, h]
      · simp [Step.key?, h, Ne.symm h]
    | unregister name =>
      by_cases h : key = Text.toLower name
      · simp [Step.key?, h]
      · simp [Step.key?, h, Ne.symm h]
    | refresh => simp [Step.key?]
    | change world => simp [Step.key?]

theorem contains_conditions_run (start : ω) (history : List (Step ω)) (key : String) :
    (run start history).table.conditions.contains key = true ↔ Registered key history := by
  rw [Table.contains, Option.isSome_iff_exists]
  exact exists_congr fun condition => get?_conditions_run start history key condition

/-- Through a whole history just the sampled keys are active. -/
theorem contains_active_run (start : ω) (history : List (Step ω)) (key : String) :
    (run start history).table.active.contains key = true ↔ Sampled start key history := by
  induction history using List.reverseRecOn with
  | nil => exact iff_of_false nofun (not_since_nil _ _)
  | append_singleton history step ih =>
    rw [run_append_singleton, contains_active_apply, Sampled, since_append_singleton,
      ← Sampled, ← ih]
    cases step with
    | register name condition => simp
    | unregister name => simp [@eq_comm _ key]
    | refresh => simp [Option.any_eq_true, get?_conditions_run]
    | change world => simp

/-- What is sampled is registered. -/
theorem Sampled.registered {start : ω} {key : String} {history : List (Step ω)}
    (h : Sampled start key history) : Registered key history := by
  induction history using List.reverseRecOn with
  | nil => exact absurd h (not_since_nil _ _)
  | append_singleton history step ih =>
    obtain ⟨rfl, condition, hregisters, -⟩ | ⟨hsampled, hkept⟩ := since_append_singleton.1 h
    · exact ⟨condition, since_append_singleton.2 (.inr ⟨hregisters, nofun⟩)⟩
    · obtain ⟨condition, hregisters⟩ := ih hsampled
      by_cases hkey : step.key? = some key
      · -- the step cannot remove the key, so it registers a condition in place of the old one
        cases step with
        | register name later =>
          exact ⟨later, since_append_singleton.2 (.inl ⟨name, rfl, Option.some.inj hkey⟩)⟩
        | unregister name => exact absurd (Option.some.inj hkey) (hkept.2 name rfl)
        | refresh => cases hkey
        | change world => cases hkey
      · exact ⟨condition, since_append_singleton.2 (.inr ⟨hregisters, hkey⟩)⟩

/-- As long as nothing is sampled, it makes no difference to the active keys what is
registered. -/
theorem active_run_append (start : ω) (history : List (Step ω)) {later : List (Step ω)}
    (h : .refresh ∉ later) :
    (run start (history ++ later)).table.active =
      (run start (history ++ later.filter fun step => !step.isRegister)).table.active := by
  induction later using List.reverseRecOn with
  | nil => rfl
  | append_singleton later step ih =>
    rw [List.mem_append, not_or, List.mem_singleton] at h
    rw [List.filter_append, ← List.append_assoc, ← List.append_assoc, run_append_singleton]
    cases step with
    | register name condition =>
      rw [List.filter_cons_of_neg (by simp [Step.isRegister]), List.filter_nil, List.append_nil]
      exact ih h.1
    | unregister name =>
      rw [List.filter_cons_of_pos rfl, List.filter_nil, run_append_singleton]
      exact congrArg (·.erase (Text.toLower name)) (ih h.1)
    | refresh => exact absurd rfl h.2
    | change world =>
      rw [List.filter_cons_of_pos rfl, List.filter_nil, run_append_singleton]
      exact ih h.1

/-! ## What a table answers -/

/-- After any history an event is active exactly when there was a refresh, the condition
that was registered last under its name held at the last one, and the name has not been
removed since. What is registered changes no answer before the next refresh. The active
events are listed in strictly ascending order, and all of them are registered; and the
table counts every registered name once. -/
theorem answers_run (start : ω) (history : List (Step ω)) :
    (∀ name, (run start history).table.isActive name = true ↔
      Sampled start (Text.toLower name) history) ∧
    (∀ later : List (Step ω), .refresh ∉ later → ∀ name,
      (run start (history ++ later)).table.isActive name =
        (run start (history ++ later.filter fun step => !step.isRegister)).table.isActive name) ∧
    (run start history).table.activeEvents.Pairwise (· < ·) ∧
    (∀ key, key ∈ (run start history).table.activeEvents ↔ Sampled start key history) ∧
    (∀ key ∈ (run start history).table.activeEvents, Registered key history) ∧
    ∃ names : List String, names.Nodup ∧ (∀ key, key ∈ names ↔ Registered key history) ∧
      (run start history).table.size = names.length := by
  have hlisted (key : String) : key ∈ (run start history).table.activeEvents ↔
      Sampled start key history :=
    Table.mem_keys_iff.trans (contains_active_run start history key)
  refine ⟨fun name => contains_active_run start history _, ?_, ?_, hlisted, ?_, ?_⟩
  · intro later hlater name
    rw [isActive, active_run_append start history hlater]
    rfl
  · refine List.pairwise_map.2 ((run start history).table.active.ascending.imp ?_)
    exact fun hlt => compareOfLessAndEq_eq_lt.1 hlt
  · exact fun key hkey => ((hlisted key).1 hkey).registered
  · refine ⟨(run start history).table.conditions.keys, Table.nodup_keys _, fun key => ?_, ?_⟩
    · exact Table.mem_keys_iff.trans (contains_conditions_run start history key)
    · rw [size, Table.size, Table.keys, List.length_map]

/-- It rains at the first refresh and not at the second, when snow has come in; then snow is
removed and rain is replaced. -/
def rainyHistory : List (Step Bool) :=
  [.register "Rain" id, .refresh, .register "SNOW" (!·), .change false, .refresh,
    .unregister "Snow", .change true]

theorem answers_run_rainyHistory :
    (run true rainyHistory).table.isActive "RAIN" = false ∧
    ¬Sampled true (Text.toLower "RAIN") rainyHistory ∧
    (run true (rainyHistory ++ [.register "rain" fun _ => true])).table.isActive "Rain" =
      (run true (rainyHistory ++ [])).table.isActive "Rain" ∧
    (run true (rainyHistory ++ [.refresh])).table.isActive "RAIN" = true ∧
    Sampled true (Text.toLower "RAIN") (rainyHistory ++ [.refresh]) ∧
    (run true (rainyHistory ++ [.refresh])).table.activeEvents = ["rain"] ∧
    Registered "rain" (rainyHistory ++ [.refresh]) := by
  have hdry : (run true rainyHistory).table.isActive "RAIN" = false := by decide +kernel
  have hwet : (run true (rainyHistory ++ [.refresh])).table.isActive "RAIN" = true := by
    decide +kernel
  have hlisted : (run true (rainyHistory ++ [.refresh])).table.activeEvents = ["rain"] := by
    decide +kernel
  obtain ⟨hactive, hregister, -⟩ := answers_run true rainyHistory
  obtain ⟨hresampled, -, -, -, hregistered, -⟩ := answers_run true (rainyHistory ++ [.refresh])
  refine ⟨hdry, fun h => ?_, ?_, hwet, (hresampled "RAIN").1 hwet, hlisted, ?_⟩
  · exact Bool.false_ne_true (hdry.symm.trans ((hactive "RAIN").2 h))
  · exact hregister [.register "rain" fun _ => true] (by simp) "Rain"
  · exact hregistered "rain" (hlisted ▸ List.mem_cons_self)

end EventTable
end Flipbook
