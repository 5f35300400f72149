import Flipbook.Json.Value
import Flipbook.Proofs.Json.Grammar
import Flipbook.Proofs.Text.Split

/-!
# What readers take

A reader takes a value from the front of a text and leaves what stands behind it. What
the parts of a reader take, the reader takes.

* `Takes`: what a reader takes and leaves.
* `Takes.bind`: one reader after the other.
* `Fails`: a reader that stops at a fault.
* `Accepts`, `Rejects`: what a reader makes of a text wherever it stands as a value.
-/
namespace Flipbook.Json

open Text (Rest)

variable {α β : Type} {text rest : List Char}

/-! ## Readers -/

/-- Whether a reader takes a value from a text and leaves the rest. -/
def Takes (reader : Reader α) (text : List Char) (a : α) (rest : List Char) : Prop :=
  ∃ later, reader text = .ok (a, later) ∧ later.1 = rest

theorem takes_pure (a : α) (text : List Char) : Takes (pure a) text a text := ⟨_, rfl, rfl⟩

theorem Takes.bind {x : Reader α} {f : α → Reader β} {a : α} {b : β} {middle : List Char}
    (hx : Takes x text a middle) (hf : Takes (f a) middle b rest) :
    Takes (x >>= f) text b rest := by
  obtain ⟨later, hx, rfl⟩ := hx
  obtain ⟨last, hf, rfl⟩ := hf
  refine ⟨later.andThen last, ?_, rfl⟩
  simp only [bind, hx, hf]

theorem Takes.map {x : Reader α} {a : α} (h : Takes x text a rest) (f : α → β) :
    Takes (f <$> x) text (f a) rest := by
  have hbind : Takes (x >>= pure ∘ f) text (f a) rest := h.bind (takes_pure (f a) rest)
  exact hbind

theorem takes_ofExcept (a : α) (text : List Char) :
    Takes (Reader.ofExcept (.ok a)) text a text :=
  ⟨_, rfl, rfl⟩

theorem takes_peek (text : List Char) : Takes Reader.peek text text.head? text := ⟨_, rfl, rfl⟩

theorem takes_advance (c : Char) (rest : List Char) :
    Takes Reader.advance (c :: rest) () rest :=
  ⟨_, rfl, rfl⟩

theorem takes_takeWhile {p : Char → Bool} {taken : List Char} (htaken : ∀ c ∈ taken, p c = true)
    (hrest : ∀ c ∈ rest.head?, p c = false) :
    Takes (Reader.takeWhile p) (taken ++ rest) taken rest := by
  obtain ⟨htake, hdrop⟩ := Text.takeWhile_append_of_head? taken hrest
  refine ⟨.dropWhile p (taken ++ rest), ?_, ?_⟩
  · have hall : taken.takeWhile p ++ taken.dropWhile p = taken := List.takeWhile_append_dropWhile
    rw [Text.dropWhile_eq_nil htaken, List.append_nil] at hall
    rw [Reader.takeWhile, htake, hall]
  · show (taken ++ rest).dropWhile p = rest
    rw [hdrop, Text.dropWhile_eq_nil htaken, List.nil_append]

theorem Gap.skipGap_append (gap : Gap) (text : List Char) :
    (skipGap (gap.text ++ text)).1 = (skipGap text).1 := by
  show (gap.text ++ text).dropWhile isGap = text.dropWhile isGap
  rw [List.dropWhile_append_of_pos gap.blank]

theorem Gap.skipGap_append_cons (gap : Gap) {c : Char} (h : isGap c = false) (cs : List Char) :
    (skipGap (gap.text ++ c :: cs)).1 = c :: cs :=
  (gap.skipGap_append _).trans (List.dropWhile_cons_of_neg (by simp [h]))

theorem takes_next (gap : Gap) {c : Char} (h : isGap c = false) (rest : List Char) :
    Takes Reader.next (gap.text ++ c :: rest) (some c) (c :: rest) := by
  have hskip := gap.skipGap_append_cons h rest
  refine ⟨skipGap (gap.text ++ c :: rest), ?_, hskip⟩
  rw [Reader.next, hskip]
  rfl

theorem takes_char (c : Char) (rest : List Char) : Takes (Reader.char c) (c :: rest) () rest :=
  ⟨.behind c (.whole rest), if_pos rfl, rfl⟩

theorem takes_word (word rest : List Char) : Takes (Reader.word word) (word ++ rest) () rest := by
  induction word with
  | nil => exact takes_pure () rest
  | cons c word ih => exact (takes_char c (word ++ rest)).bind ih

theorem takes_mark (gap : Gap) {c : Char} (h : isGap c = false) (rest : List Char) :
    Takes (Reader.mark c) (gap.text ++ c :: rest) () rest :=
  (takes_next gap h rest).bind (takes_char c rest)

/-- What a reader takes from a text up to blanks at its end is what it comes to. -/
theorem Takes.run {reader : Reader α} {a : α} {gap : Gap} (h : Takes reader text a gap.text) :
    reader.run text = .ok a := by
  obtain ⟨later, hread, hrest⟩ := h
  have hskip := gap.skipGap_append []
  rw [List.append_nil] at hskip
  rw [Reader.run, hread]
  dsimp only
  rw [hrest, hskip]
  rfl

/-! ## Faults -/

/-- Whether a reader stops at a fault. -/
def Fails (reader : Reader α) (text : List Char) : Prop := ∃ fault, reader text = .error fault

theorem fails_fail (fault : Fault) (text : List Char) :
    Fails (Reader.fail fault : Reader α) text :=
  ⟨fault, rfl⟩

theorem Fails.bind {x : Reader α} (h : Fails x text) (f : α → Reader β) : Fails (x >>= f) text := by
  obtain ⟨fault, h⟩ := h
  refine ⟨fault, ?_⟩
  simp only [Bind.bind, h]

theorem Fails.map {x : Reader α} (h : Fails x text) (f : α → β) : Fails (f <$> x) text := by
  have hbind : Fails (x >>= pure ∘ f) text := h.bind _
  exact hbind

/-- A reader fails where the second part of it fails. -/
theorem Takes.bind_fails {x : Reader α} {f : α → Reader β} {a : α} (hx : Takes x text a rest)
    (hf : Fails (f a) rest) : Fails (x >>= f) text := by
  obtain ⟨later, hx, rfl⟩ := hx
  obtain ⟨fault, hf⟩ := hf
  refine ⟨fault, ?_⟩
  simp only [Bind.bind, hx, hf]

theorem Fails.run {reader : Reader α} (h : Fails reader text) :
    ∃ fault, reader.run text = .error fault := by
  obtain ⟨fault, h⟩ := h
  refine ⟨fault, ?_⟩
  rw [Reader.run, h]

/-- Whether a reader takes a value, or stops at a fault where there is none. -/
def Comes (reader : Reader α) (text : List Char) (outcome : Option α) (rest : List Char) : Prop :=
  match outcome with
  | some a => Takes reader text a rest
  | none => Fails reader text

/-! ## Values among others -/

/-- Whether a text opens with what may stand behind a value: a blank, or a mark of an array or
an object. -/
def Ends (text : List Char) : Prop :=
  ∀ c ∈ text.head?, c ∈ [',', ']', '\x7d', ' ', '\n', '\t', '\r']

theorem ends_nil : Ends [] := nofun

theorem ends_cons {c : Char} (h : c ∈ [',', ']', '\x7d', ' ', '\n', '\t', '\r'])
    (text : List Char) : Ends (c :: text) := by
  rintro d ⟨⟩
  exact h

theorem Gap.ends_append (gap : Gap) (h : Ends rest) : Ends (gap.text ++ rest) := by
  obtain ⟨blanks, hblank⟩ := gap
  cases blanks with
  | nil => exact h
  | cons c blanks =>
    refine ends_cons ?_ _
    have hc : isGap c = true := hblank c List.mem_cons_self
    simp only [isGap, Bool.or_eq_true, decide_eq_true_eq] at hc
    rcases hc with ((rfl | rfl) | rfl) | rfl <;> decide

theorem Ends.head?_ne (h : Ends rest) {c : Char}
    (hc : c ∉ [',', ']', '\x7d', ' ', '\n', '\t', '\r']) : rest.head? ≠ some c :=
  fun hhead => hc (h c hhead)

theorem Ends.apply_eq_false (h : Ends rest) {p : Char → Bool}
    (hp : ∀ c ∈ [',', ']', '\x7d', ' ', '\n', '\t', '\r'], p c = false) :
    ∀ c ∈ rest.head?, p c = false :=
  fun c hc => hp c (h c hc)

/-- Whether a reader takes a text for a value, whatever blanks stand before it and whatever may
stand behind it. -/
def Accepts (reader : Reader α) (text : List Char) (a : α) : Prop :=
  ∀ (gap : Gap) (rest : List Char), Ends rest → Takes reader (gap.text ++ (text ++ rest)) a rest

/-- Whether a reader stops at a fault in a text, whatever stands around it. -/
def Rejects (reader : Reader α) (text : List Char) : Prop :=
  ∀ (gap : Gap) (rest : List Char), Ends rest → Fails reader (gap.text ++ (text ++ rest))

section

variable {reader : Reader α} {a : α}

theorem Accepts.of_eq (h : Accepts reader text a) {other : List Char} (heq : other = text) :
    Accepts reader other a :=
  heq ▸ h

theorem Rejects.of_eq (h : Rejects reader text) {other : List Char} (heq : other = text) :
    Rejects reader other :=
  heq ▸ h

theorem Accepts.map (h : Accepts reader text a) (f : α → β) : Accepts (f <$> reader) text (f a) :=
  fun gap rest hrest => (h gap rest hrest).map f

theorem Rejects.map (h : Rejects reader text) (f : α → β) : Rejects (f <$> reader) text :=
  fun gap rest hrest => (h gap rest hrest).map f

theorem Rejects.bind (h : Rejects reader text) (f : α → Reader β) : Rejects (reader >>= f) text :=
  fun gap rest hrest => (h gap rest hrest).bind f

/-- A reader that looks at the character behind the blanks accepts what it takes from there
on. -/
theorem accepts_next {c : Char} {cs : List Char} (hc : isGap c = false)
    {f : Option Char → Reader α}
    (h : ∀ rest, Ends rest → Takes (f (some c)) (c :: (cs ++ rest)) a rest) :
    Accepts (Reader.next >>= f) (c :: cs) a :=
  fun gap rest hrest => (takes_next gap hc (cs ++ rest)).bind (h rest hrest)

/-- A whole text with blanks around it comes to the value that it is accepted for. -/
theorem Accepts.run {p : Part} (h : Accepts reader p.text a) : reader.run p.written = .ok a := by
  have hends := p.after.ends_append ends_nil
  rw [List.append_nil] at hends
  exact (h p.before _ hends).run

theorem Rejects.run {p : Part} (h : Rejects reader p.text) :
    ∃ fault, reader.run p.written = .error fault := by
  have hends := p.after.ends_append ends_nil
  rw [List.append_nil] at hends
  exact (h p.before _ hends).run

end

end Flipbook.Json
