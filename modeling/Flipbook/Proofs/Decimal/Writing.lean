import Flipbook.Decimal.Numeral

/-!
# Writing numerals

Numbers and truth values as they are written in properties, which are read back as
what they were written for.
-/
namespace Flipbook.Decimal

/-- The numeral of a natural number. -/
def naturalText (n : Nat) : List Char := Nat.toDigits 10 n

/-- The numeral of an integer. -/
def integerText : Int → List Char
  | .ofNat n => naturalText n
  | .negSucc n => '-' :: naturalText (n + 1)

/-- The word for a truth value. -/
def booleanText (b : Bool) : List Char := if b then "true".toList else "false".toList

theorem isDigit_of_mem_naturalText {n : Nat} {c : Char} (h : c ∈ naturalText n) :
    c.isDigit = true :=
  Nat.isDigit_of_mem_toDigits (by decide) (by decide) h

theorem digits?_naturalText (n : Nat) : digits? (naturalText n) = some n := by
  have hempty : (naturalText n).isEmpty = false := List.isEmpty_eq_false_iff.2 Nat.toDigits_ne_nil
  have hall : (naturalText n).all Char.isDigit = true :=
    List.all_eq_true.2 fun c hc => isDigit_of_mem_naturalText hc
  have hvalue : digitsValue 0 (naturalText n) = n :=
    Nat.ofDigitChars_toDigits (by decide) (by decide)
  rw [digits?, hempty, hall, hvalue]
  rfl

/-- A numeral opens with a digit, not with a sign. -/
theorem naturalText_ne_cons {c : Char} (hc : c.isDigit = false) (n : Nat) (cs : List Char) :
    naturalText n ≠ c :: cs := by
  intro h
  have hdigit : c.isDigit = true := isDigit_of_mem_naturalText (h ▸ List.mem_cons_self)
  rw [hc] at hdigit
  cases hdigit

theorem natural?_naturalText {n bound : Nat} (h : n < bound) :
    natural? bound (naturalText n) = some n := by
  unfold natural?
  split
  · next ds hds => exact absurd hds (naturalText_ne_cons (by decide) n ds)
  · dsimp only
    rw [digits?_naturalText, Option.filter_some, if_pos (decide_eq_true h)]

theorem frame?_naturalText {n : Nat} (h : n < frameBound) : frame? (naturalText n) = some n :=
  natural?_naturalText h

theorem integer?_integerText {n : Int} (h : -signedBound ≤ n) (h' : n < signedBound) :
    integer? (integerText n) = some n := by
  have hfilter : (some n).filter (fun n => -signedBound ≤ n && n < signedBound) = some n := by
    rw [Option.filter_some, if_pos (by simp [h, h'])]
  cases n with
  | ofNat n =>
    unfold integer? integerText
    dsimp only
    split
    · next ds hds => exact absurd hds (naturalText_ne_cons (by decide) n ds)
    · next ds hds => exact absurd hds (naturalText_ne_cons (by decide) n ds)
    · rw [digits?_naturalText, Option.map_some, hfilter]
  | negSucc n =>
    unfold integer? integerText
    simp only [digits?_naturalText]
    exact hfilter

theorem boolean?_booleanText (b : Bool) : boolean? (booleanText b) = some b := by
  cases b <;> decide

/-! ## Characters -/

/-- Whether a character may stand in a number or a word. -/
def isWordChar (c : Char) : Bool := c.isAlphanum || c = '-'

/-- Whether a text is made up of characters of numbers and words. -/
def IsWord (text : List Char) : Prop := ∀ c ∈ text, isWordChar c = true

theorem isWord_naturalText (n : Nat) : IsWord (naturalText n) := by
  intro c hc
  rw [isWordChar, Char.isAlphanum, isDigit_of_mem_naturalText hc, Bool.or_true, Bool.true_or]

theorem isWord_integerText : ∀ n : Int, IsWord (integerText n)
  | .ofNat n => isWord_naturalText n
  | .negSucc n => List.forall_mem_cons.2 ⟨by decide, isWord_naturalText (n + 1)⟩

theorem isWord_booleanText : ∀ b : Bool, IsWord (booleanText b)
  | false => List.all_eq_true.1 (by decide)
  | true => List.all_eq_true.1 (by decide)

theorem toNat_of_isWordChar {c : Char} (h : isWordChar c = true) :
    45 ≤ c.toNat ∧ c.toNat ≤ 122 := by
  rw [isWordChar, Bool.or_eq_true, decide_eq_true_eq] at h
  rcases h with h | rfl
  · change ((decide (c.val ≥ 65 ∧ c.val ≤ 90) || (c.val ≥ 97 && c.val ≤ 122)) ||
      (c.val ≥ 48 && c.val ≤ 57)) = true at h
    simp only [Bool.or_eq_true, Bool.and_eq_true, decide_eq_true_eq, UInt32.le_iff_toNat_le,
      ge_iff_le] at h
    change ((65 ≤ c.toNat ∧ c.toNat ≤ 90) ∨ (97 ≤ c.toNat ∧ c.toNat ≤ 122)) ∨
      (48 ≤ c.toNat ∧ c.toNat ≤ 57) at h
    omega
  · decide

end Flipbook.Decimal
