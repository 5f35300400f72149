import Flipbook.Json.Numeral
import Flipbook.Json.Quoted

/-!
# Values of a given shape

Readers for values whose shape is known. A value of another shape is mismatched,
as far as it is a value at all.

* `array` reads a list of values of one shape.
* `object` reads the members of an object one by one into a state.
* `record` reads a value that is written as an object or as an array of its
  fields.
-/
namespace Flipbook.Json

open Text (Rest)

/-! ## Scalars -/

/-- Whether a character starts a number. -/
def startsNumber (c : Char) : Bool := c = '-' || c.isDigit

/-- Reads a value of the wrong shape. -/
def wrongShape {α : Type} : Reader α := do
  match ← Reader.next with
  | none => Reader.fail .truncated
  | some c => do
    if c = 'n' then Reader.word "null".toList
    else if c = 't' then Reader.word "true".toList
    else if c = 'f' then Reader.word "false".toList
    else if startsNumber c then let _ ← number
    else if c = '\x22' then
      Reader.advance
      let _ ← quotedRest
    else if c ≠ '[' && c ≠ '\x7b' then Reader.fail .malformed
    Reader.fail .mismatched

/-- Reads a truth value. -/
def boolean : Reader Bool := do
  match ← Reader.next with
  | some 't' => do
    Reader.word "true".toList
    return true
  | some 'f' => do
    Reader.word "false".toList
    return false
  | _ => wrongShape

/-- Reads a string. -/
def string : Reader String := do
  match ← Reader.next with
  | some '\x22' => do
    Reader.advance
    quotedRest
  | _ => wrongShape

/-- Reads a whole number that is at least `low` and less than `high`. -/
def integer (low high : Int) : Reader Int := do
  match ← Reader.next with
  | none => Reader.fail .truncated
  | some c =>
    if startsNumber c then do
      match (← number).integer? with
      | some n => if low ≤ n && n < high then return n else Reader.fail .mismatched
      | none => Reader.fail .mismatched
    else wrongShape

/-- Reads a natural number less than `bound`. -/
def natural (bound : Nat) : Reader Nat := do
  return (← integer 0 bound).toNat

/-- Reads a value, for which `null` may stand. -/
def optional {α : Type} (item : Reader α) : Reader (Option α) := do
  match ← Reader.next with
  | some 'n' => do
    Reader.word "null".toList
    return none
  | _ => some <$> item

/-! ## Arrays -/

/-- Reads the elements of an array from the first one on, up to the closing
bracket. -/
def elements {α : Type} (item : Reader α) (text : List Char) :
    Except Fault (List α × Rest text) :=
  match item text with
  | .error fault => .error fault
  | .ok (a, rest) =>
    match _h : (skipGap rest.1).1 with
    | [] => .error .truncated
    | c :: more =>
      have _shorter : more.length < text.length := by
        have hgap := (skipGap rest.1).2
        rw [_h, List.length_cons] at hgap
        exact Nat.lt_of_lt_of_le hgap rest.2
      if c = ',' then
        match elements item more with
        | .error fault => .error fault
        | .ok (as, later) => .ok (a :: as, ⟨later.1, Nat.le_trans later.2 (Nat.le_of_lt _shorter)⟩)
      else if c = ']' then .ok ([a], ⟨more, Nat.le_of_lt _shorter⟩)
      else .error .malformed
termination_by text.length

/-- Reads an array behind its opening bracket. -/
def arrayRest {α : Type} (item : Reader α) : Reader (List α) := do
  match ← Reader.next with
  | some ']' => do
    Reader.advance
    return []
  | _ => elements item

/-- Only a bracket that stands there at once closes an array before its first element. -/
theorem arrayRest_eq {α : Type} (item : Reader α) : arrayRest item = Reader.next >>= fun c =>
    if c = some ']' then Reader.advance >>= fun _ => pure [] else elements item := by
  have hmatch (c : Option Char) (closed more : Reader (List α)) :
      (match c with
        | some ']' => closed
        | _ => more) = if c = some ']' then closed else more := by
    split
    · exact (if_pos rfl).symm
    · next hopen => exact (if_neg hopen).symm
  exact congrArg (Reader.next >>= ·) (funext fun c => hmatch c _ _)

/-- Reads an array. -/
def array {α : Type} (item : Reader α) : Reader (List α) := do
  match ← Reader.next with
  | some '[' => do
    Reader.advance
    arrayRest item
  | _ => wrongShape

/-! ## Objects -/

/-- What to do with a member: its key may be refused at once; otherwise its value
is read into the state. -/
abbrev MemberReader (κ σ : Type) := κ → σ → Except Fault (Reader σ)

/-- Reads the members of an object from behind the opening quote of a key on, up
to the closing brace. -/
def members {κ σ : Type} (key : Reader κ) (member : MemberReader κ σ) (state : σ)
    (text : List Char) : Except Fault (σ × Rest text) :=
  let first : Reader σ := do
    let value ← Reader.ofExcept (member (← key) state)
    Reader.mark ':'
    value
  match first text with
  | .error fault => .error fault
  | .ok (state, rest) =>
    match _h : (skipGap rest.1).1 with
    | [] => .error .truncated
    | c :: more =>
      have _shorter : more.length < text.length := by
        have hgap := (skipGap rest.1).2
        rw [_h, List.length_cons] at hgap
        exact Nat.lt_of_lt_of_le hgap rest.2
      if c = ',' then
        match Reader.mark '\x22' more with
        | .error fault => .error fault
        | .ok (_, quoted) =>
          match members key member state quoted.1 with
          | .error fault => .error fault
          | .ok (state, later) =>
            .ok (state, ⟨later.1,
              Nat.le_trans later.2 (Nat.le_trans quoted.2 (Nat.le_of_lt _shorter))⟩)
      else if c = '\x7d' then .ok (state, ⟨more, Nat.le_of_lt _shorter⟩)
      else .error .malformed
termination_by text.length
decreasing_by exact Nat.lt_of_le_of_lt quoted.2 _shorter

/-- Reads an object behind its opening brace. -/
def objectRest {κ σ : Type} (key : Reader κ) (member : MemberReader κ σ) (state : σ) :
    Reader σ := do
  match ← Reader.next with
  | none => Reader.fail .truncated
  | some '\x7d' => do
    Reader.advance
    return state
  | some '\x22' => do
    Reader.advance
    members key member state
  | _ => Reader.fail .malformed

/-- Reads an object. -/
def object {σ : Type} (member : MemberReader String σ) (state : σ) : Reader σ := do
  match ← Reader.next with
  | some '\x7b' => do
    Reader.advance
    objectRest quotedRest member state
  | _ => wrongShape

/-! ## Records -/

/-- Reads the first field of a record that is written as an array. -/
def firstField {α : Type} (field : Reader α) : Reader α := do
  match ← Reader.next with
  | some ']' => Reader.fail .mismatched
  | _ => field

/-- Reads another field of a record that is written as an array. -/
def nextField {α : Type} (field : Reader α) : Reader α := do
  match ← Reader.next with
  | none => Reader.fail .truncated
  | some ']' => Reader.fail .mismatched
  | some ',' => do
    Reader.advance
    field
  | _ => Reader.fail .malformed

/-- Reads a record: an object whose members make up a state, or an array of all
fields. -/
def record {σ α : Type} (member : MemberReader String σ) (state : σ) (finish : σ → Option α)
    (fields : Reader α) : Reader α := do
  match ← Reader.next with
  | some '[' => do
    Reader.advance
    let value ← fields
    Reader.mark ']'
    return value
  | _ => do
    match finish (← object member state) with
    | some value => return value
    | none => Reader.fail .mismatched

/-- Reads the value of a field into its place, unless the field was read before. -/
def fill {σ α : Type} (before : Option α) (field : Reader α) (put : α → σ) :
    Except Fault (Reader σ) :=
  if before.isSome then .error .mismatched else .ok (put <$> field)

end Flipbook.Json
