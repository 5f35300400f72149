import Flipbook.Proofs.Expression.Marks

/-!
# When events start and end

A condition remembers one answer for each event, and every call of `event_start` or
`event_end` compares the new answer with it and puts it in its place. So the calls of both
functions about one event, in whatever evaluations they are made, come in turn: each tells the
change since the call before.

* `Condition.edgeCalls`: the calls about an event that are made in some evaluations.
* `InTurn`: calls each of which comes to what is due after the answer to the one before.
* `Condition.edges_in_turn`: the calls about an event are such.
-/
namespace Flipbook.Expression

/-- The call about an event that has left a mark. -/
def Mark.callOn? (name : String) : Mark → Option EdgeCall
  | .watched event call => if event = name then some call else none
  | _ => none

theorem Mark.eq_of_callOn? {mark : Mark} {name : String} {call : EdgeCall}
    (h : mark.callOn? name = some call) : mark = .watched name call := by
  cases mark with
  | watched event done =>
    obtain ⟨rfl, hdone⟩ := Option.ite_none_right_eq_some.1 h
    exact congrArg _ (Option.some.inj hdone)
  | drew => cases h
  | met problem notice => cases h

/-- Whether calls come to what is due, each after the answer to the one before. -/
def InTurn (before : Bool) : List EdgeCall → Prop
  | [] => True
  | call :: calls => call.result = call.due before ∧ InTurn call.answer calls

theorem sawActive_see (m : Memory) (event name : String) (active : Bool) :
    (m.see event active).sawActive name = if event = name then active else m.sawActive name := by
  unfold Memory.see Memory.sawActive Table.getD
  rw [Table.get?_insert]
  by_cases h : event = name
  · rw [if_pos h, if_pos (Std.LawfulEqCmp.compare_eq_iff_eq.2 h.symm), Option.getD_some]
  · rw [if_neg h, if_neg fun heq => h (Std.LawfulEqCmp.eq_of_compare heq).symm]

/-- A mark changes what is remembered of an event only if it is a call about it. -/
theorem sawActive_note (m : Memory) (mark : Mark) (name : String) :
    (m.note mark).sawActive name =
      match mark.callOn? name with
      | some call => call.answer
      | none => m.sawActive name := by
  cases mark with
  | watched event call =>
    rw [Memory.note, sawActive_see, Mark.callOn?]
    split <;> rfl
  | drew =>
    -- the parts are named so that the states of the random numbers need not be compared
    obtain ⟨lastSeen, random, reported⟩ := m
    have hseen : (Memory.note ⟨lastSeen, random, reported⟩ .drew).lastSeen = lastSeen := rfl
    exact congrArg (fun seen => seen.getD name false) hseen
  | met problem notice =>
    rw [Memory.note]
    split <;> rfl

/-- Where all calls came to what was due, those about one event came in turn. -/
theorem AllDue.inTurn {m : Memory} {marks : List Mark} (h : AllDue m marks) (name : String) :
    InTurn (m.sawActive name) (marks.filterMap (Mark.callOn? name)) := by
  induction marks generalizing m with
  | nil => trivial
  | cons mark marks ih =>
    have hlater := ih h.2
    rw [sawActive_note] at hlater
    cases hcall : mark.callOn? name with
    | none =>
      rw [List.filterMap_cons_none hcall]
      rw [hcall] at hlater
      exact hlater
    | some call =>
      rw [List.filterMap_cons_some hcall]
      rw [hcall] at hlater
      obtain rfl := Mark.eq_of_callOn? hcall
      exact ⟨h.1, hlater⟩

/-- After some marks an event is remembered as the last call about it saw it. -/
theorem getLast?_answers (m : Memory) (marks : List Mark) (name : String) :
    (m.sawActive name :: (marks.filterMap (Mark.callOn? name)).map (·.answer)).getLast? =
      some ((marks.foldl Memory.note m).sawActive name) := by
  induction marks generalizing m with
  | nil => rfl
  | cons mark marks ih =>
    have hlater := ih (m.note mark)
    rw [sawActive_note] at hlater
    rw [List.foldl_cons, ← hlater]
    cases hcall : mark.callOn? name with
    | none => rw [List.filterMap_cons_none hcall]
    | some call => rw [List.filterMap_cons_some hcall, List.map_cons, List.getLast?_cons_cons]

/-- Each of some calls in turn comes to what is due after the answer to the one before. -/
theorem InTurn.exists_before {before : Bool} {calls : List EdgeCall} (h : InTurn before calls)
    {j : Nat} {call : EdgeCall} (hj : calls[j]? = some call) :
    ∃ last, (before :: calls.map (·.answer))[j]? = some last ∧ call.result = call.due last := by
  induction calls generalizing before j with
  | nil => exact absurd hj (by simp)
  | cons first calls ih =>
    cases j with
    | zero => exact ⟨before, rfl, Option.some.inj hj ▸ h.1⟩
    | succ j => exact ih h.2 hj

theorem EdgeCall.of_due_rising {call : EdgeCall} {before : Bool}
    (hdue : call.result = call.due before) (hrising : call.rising = true)
    (hresult : call.result = true) : call.answer = true ∧ before = false := by
  rw [hresult, due, if_pos hrising] at hdue
  simpa using hdue.symm

/-- Between two starts of an event it was seen inactive. -/
theorem InTurn.exists_inactive {before : Bool} {calls : List EdgeCall} (h : InTurn before calls)
    {i j : Nat} {first second : EdgeCall} (hij : i < j) (hi : calls[i]? = some first)
    (hj : calls[j]? = some second) (hfirst : first.rising = true ∧ first.result = true)
    (hsecond : second.rising = true ∧ second.result = true) :
    ∃ k between, i < k ∧ k < j ∧ calls[k]? = some between ∧ between.answer = false := by
  obtain ⟨_, -, hdue⟩ := h.exists_before hi
  obtain ⟨last, hlast, hdue'⟩ := h.exists_before hj
  have hactive := (EdgeCall.of_due_rising hdue hfirst.1 hfirst.2).1
  obtain rfl : last = false := (EdgeCall.of_due_rising hdue' hsecond.1 hsecond.2).2
  -- the call right before the second start saw the event inactive, so it is not the first start
  obtain ⟨k, rfl⟩ := Nat.exists_eq_add_of_lt hij
  rw [List.getElem?_cons_succ, List.getElem?_map] at hlast
  obtain ⟨between, hbetween, hinactive⟩ := Option.map_eq_some_iff.1 hlast
  refine ⟨i + k, between, ?_, Nat.lt_succ_self _, hbetween, hinactive⟩
  cases k with
  | zero =>
    obtain rfl := Option.some.inj (hi.symm.trans hbetween)
    exact absurd (hactive.symm.trans hinactive) (by decide)
  | succ k => exact Nat.lt_add_of_pos_right k.succ_pos

/-! ## Evaluations -/

namespace Condition

variable {σ : Type}

/-- The calls of `event_start` and `event_end` about an event in some evaluations, in the order
in which they are made. -/
def edgeCalls (c : Condition) (name : String) (settings : List (Setting σ)) : List EdgeCall :=
  (c.marksIn settings).filterMap (Mark.callOn? name)

/-- All calls of `event_start` and `event_end` about one event, in whatever evaluations since a
condition began they are made, come in turn: a call of `event_start` holds if the game says
that the event is active and said to the call before that it is not, and a call of `event_end`
holds the other way around; before the first call the event counts as inactive, and the last
answer is what is remembered. So between two calls of `event_start` that hold there is one that
saw the event inactive. -/
theorem edges_in_turn {c : Condition} (h : c.Begins) (name : String)
    (settings : List (Setting σ)) :
    (∀ (j : Nat) (call : EdgeCall), (c.edgeCalls name settings)[j]? = some call →
      ∃ before, (false :: (c.edgeCalls name settings).map (·.answer))[j]? = some before ∧
        call.result = if call.rising then call.answer && !before else !call.answer && before) ∧
    (false :: (c.edgeCalls name settings).map (·.answer)).getLast? =
      some ((c.after settings).memory.sawActive name) ∧
    ∀ (i j : Nat) (first second : EdgeCall), i < j →
      (c.edgeCalls name settings)[i]? = some first →
      (c.edgeCalls name settings)[j]? = some second →
      first.rising = true ∧ first.result = true → second.rising = true ∧ second.result = true →
      ∃ (k : Nat) (between : EdgeCall), i < k ∧ k < j ∧
        (c.edgeCalls name settings)[k]? = some between ∧ between.answer = false := by
  have hbegin : c.memory.sawActive name = false := by
    rw [Memory.sawActive, h.forgotten.1]
    rfl
  obtain ⟨hmemory, hdue⟩ := c.tells_after settings
  have hturn : InTurn false (c.edgeCalls name settings) := hbegin ▸ hdue.inTurn name
  have hlast := getLast?_answers c.memory (c.marksIn settings) name
  rw [hbegin, ← hmemory] at hlast
  exact ⟨fun _ _ hcall => hturn.exists_before hcall, hlast,
    fun _ _ _ _ hij hi hj hfirst hsecond => hturn.exists_inactive hij hi hj hfirst hsecond⟩

/-- A program that asks whether rain has started and whether it has ended, and that fails in
snow in between. -/
def rainProgram : Program :=
  .block [.effect (.call "event_start" [.variable "rain"]),
    .branch [(.call "event" [.variable "snow"], [.assign "cold" (.bool true)])] none,
    .result (.binary .and (.call "event_end" [.text " rain "])
      (.call "event_start" [.variable "rain"]))]

/-- A condition with this program that was never evaluated. -/
def rainWatch : Condition := .build "rain" (some rainProgram) .zeros

/-- Rain, rain and snow, dry weather, a crash and rain again. -/
def showers : List (Setting (List Question)) :=
  [.staged ["rain"] [], .staged ["rain", "snow"] [], .staged [] [], .staged [] [.event "rain"],
    .staged ["rain"] []]

theorem edges_in_turn_showers :
    rainWatch.Begins ∧
    rainWatch.edgeCalls "rain" showers =
      [⟨true, true, true⟩, ⟨false, true, false⟩, ⟨true, true, false⟩, ⟨true, false, false⟩,
        ⟨false, false, false⟩, ⟨true, true, true⟩, ⟨false, true, false⟩] ∧
    ∃ (k : Nat) (between : EdgeCall), 0 < k ∧ k < 5 ∧
      (rainWatch.edgeCalls "rain" showers)[k]? = some between ∧ between.answer = false := by
  have hbegins : rainWatch.Begins := .build _ _ _
  have hcalls : rainWatch.edgeCalls "rain" showers =
      [⟨true, true, true⟩, ⟨false, true, false⟩, ⟨true, true, false⟩, ⟨true, false, false⟩,
        ⟨false, false, false⟩, ⟨true, true, true⟩, ⟨false, true, false⟩] := by decide +kernel
  have hfirst : (rainWatch.edgeCalls "rain" showers)[0]? = some ⟨true, true, true⟩ :=
    hcalls ▸ rfl
  have hsecond : (rainWatch.edgeCalls "rain" showers)[5]? = some ⟨true, true, true⟩ :=
    hcalls ▸ rfl
  exact ⟨hbegins, hcalls, (edges_in_turn hbegins "rain" showers).2.2 0 5 _ _ (by decide) hfirst
    hsecond ⟨rfl, rfl⟩ ⟨rfl, rfl⟩⟩

end Condition
end Flipbook.Expression
