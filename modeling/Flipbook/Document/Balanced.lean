/-!
# Delimiters outside strings

Block documents hold texts between double quotes, in which a backslash escapes
the next character. What separates or delimits counts only outside of them. A
`Quoting` says where in such a text a reader stands.

* `findOutside` and `splitOutside` look for a character outside strings.
* `balanced` finds the delimiter that closes one already opened; it loses nothing
  (`eq_of_balanced`).
-/
namespace Flipbook.Document

/-- Where a reader stands. -/
inductive Quoting where
  | outside
  | inside
  /-- In a string, behind a backslash. -/
  | escaped
deriving DecidableEq, Repr

/-- Where the reader stands after a character. -/
def Quoting.next (q : Quoting) (c : Char) : Quoting :=
  match q with
  | .outside => if c = '\x22' then .inside else .outside
  | .inside => if c = '\\' then .escaped else if c = '\x22' then .outside else .inside
  | .escaped => .inside

/-- Whether a character read from here may separate or delimit. -/
def Quoting.counts (q : Quoting) (c : Char) : Bool := q = .outside && c != '\x22'

/-- The texts before and after the first occurrence of a character outside
strings. -/
def findOutside (needle : Char) (q : Quoting) : List Char → Option (List Char × List Char)
  | [] => none
  | c :: cs =>
    if q.counts c && c = needle then some ([], cs)
    else (findOutside needle (q.next c) cs).map fun (left, right) => (c :: left, right)

/-- The pieces between separators outside strings, always at least one. -/
def splitOutside (sep : Char → Bool) (q : Quoting) : List Char → List (List Char)
  | [] => [[]]
  | c :: cs =>
    if q.counts c && sep c then [] :: splitOutside sep (q.next c) cs
    else
      match splitOutside sep (q.next c) cs with
      | [] => [[c]]
      | piece :: pieces => (c :: piece) :: pieces

/-- The texts before and after the delimiter that closes the outermost of
`depth + 1` open ones. -/
def balancedFrom (opening closing : Char) (q : Quoting) (depth : Nat) :
    List Char → Option (List Char × List Char)
  | [] => none
  | c :: cs =>
    let more (depth : Nat) : Option (List Char × List Char) :=
      (balancedFrom opening closing (q.next c) depth cs).map fun (left, right) =>
        (c :: left, right)
    if q.counts c then
      if c = opening then more (depth + 1)
      else if c = closing then
        match depth with
        | 0 => some ([], cs)
        | depth + 1 => more depth
      else more depth
    else more depth

/-- The texts before and after the delimiter that closes one already opened. -/
def balanced (opening closing : Char) (cs : List Char) : Option (List Char × List Char) :=
  balancedFrom opening closing .outside 0 cs

theorem eq_of_balancedFrom {opening closing : Char} {q : Quoting} {depth : Nat}
    {cs inner rest : List Char}
    (h : balancedFrom opening closing q depth cs = some (inner, rest)) :
    cs = inner ++ closing :: rest := by
  induction cs generalizing q depth inner with
  | nil => simp [balancedFrom] at h
  | cons c cs ih =>
    have more {d : Nat}
        (h : (balancedFrom opening closing (q.next c) d cs).map
          (fun (left, right) => (c :: left, right)) = some (inner, rest)) :
        c :: cs = inner ++ closing :: rest := by
      obtain ⟨⟨l, r⟩, hlr, heq⟩ := Option.map_eq_some_iff.1 h
      obtain ⟨rfl, rfl⟩ : c :: l = inner ∧ r = rest := by simpa using heq
      rw [ih hlr]
      rfl
    simp only [balancedFrom] at h
    split at h
    · split at h
      · exact more h
      · split at h
        · next hc =>
          split at h
          · obtain ⟨rfl, rfl⟩ : [] = inner ∧ cs = rest := by simpa using h
            rw [hc]
            rfl
          · exact more h
        · exact more h
    · exact more h

theorem eq_of_balanced {opening closing : Char} {cs inner rest : List Char}
    (h : balanced opening closing cs = some (inner, rest)) : cs = inner ++ closing :: rest :=
  eq_of_balancedFrom h

end Flipbook.Document
