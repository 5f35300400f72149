import Flipbook.Json.Shape
import Flipbook.Proofs.Json.Readers

/-!
# Numbers in JSON

A number is read as it is spelled, whichever of its parts it has, up to what may stand
behind a value.

* `takes_numeral`: a number is read to its parts.
* `accepts_integer`, `accepts_natural`: whole numbers, in their range.
* `NumberText.ofInt`: whole numbers as they are written.
-/
namespace Flipbook.Json

open Decimal (naturalText integerText isDigit_of_mem_naturalText)

variable {α β : Type} {rest : List Char}

/-! ## Digits -/

theorem Digits.exists_text_eq_cons (ds : Digits) :
    ∃ d more, ds.text = d :: more ∧ d.isDigit = true := by
  obtain ⟨d, more, htext⟩ := List.exists_cons_of_ne_nil ds.nonempty
  exact ⟨d, more, htext, ds.digit d (htext ▸ List.mem_cons_self)⟩

theorem Digits.takes_digits (ds : Digits) (hrest : ∀ c ∈ rest.head?, c.isDigit = false)
    (atEnd : Fault) : Takes (digits atEnd) (ds.text ++ rest) ds.text rest := by
  obtain ⟨d, more, htext, hd⟩ := ds.exists_text_eq_cons
  have hread := takes_takeWhile ds.digit hrest
  rw [htext] at hread ⊢
  refine (takes_peek _).bind ?_
  show Takes (if d.isDigit = true then Reader.takeWhile Char.isDigit else Reader.fail .malformed)
    _ _ _
  rw [if_pos hd]
  exact hread

theorem ne_of_isDigit {c d : Char} (hc : c.isDigit = true) (hd : d.isDigit = false) : c ≠ d := by
  rintro rfl
  rw [hc] at hd
  cases hd

theorem Exponent.takes_signedDigits (e : Exponent) (hrest : ∀ c ∈ rest.head?, c.isDigit = false)
    (atEnd : Fault) :
    Takes (signedDigits atEnd) (e.sign.toList ++ e.digits.text ++ rest) e.value rest := by
  obtain ⟨letter, hletter, sign, hsign, ds⟩ := e
  have hread := ds.takes_digits hrest atEnd
  refine (takes_peek _).bind ?_
  cases sign with
  | none =>
    obtain ⟨d, more, htext, hd⟩ := ds.exists_text_eq_cons
    have hhead : (Option.none.toList ++ ds.text ++ rest).head? = some d := by
      rw [htext]
      rfl
    dsimp only
    rw [hhead]
    split
    · next hminus => exact absurd (Option.some.inj hminus) (ne_of_isDigit hd (by decide))
    · next hplus => exact absurd (Option.some.inj hplus) (ne_of_isDigit hd (by decide))
    · exact hread.map fun ds => (Decimal.digitsValue 0 ds : Int)
  | some c =>
    rcases hsign c rfl with rfl | rfl
    · exact (takes_advance '+' _).bind (hread.map fun ds => (Decimal.digitsValue 0 ds : Int))
    · exact (takes_advance '-' _).bind (hread.map fun ds => -(Decimal.digitsValue 0 ds : Int))

/-! ## Parts of numbers -/

section

variable {written : α → List Char} {found : Option α} {behind : List Char}

/-- What a part that may be missing opens with, or what stands behind it. -/
theorem apply_head?_elim {p : Char → Bool}
    (hpart : ∀ a ∈ found, ∃ c cs, written a = c :: cs ∧ p c = false)
    (hbehind : ∀ c ∈ behind.head?, p c = false) :
    ∀ c ∈ (found.elim [] written ++ behind).head?, p c = false := by
  cases found with
  | none => exact hbehind
  | some a =>
    obtain ⟨c, cs, hwritten, hc⟩ := hpart a rfl
    rw [Option.elim_some, hwritten]
    rintro _ ⟨⟩
    exact hc

/-- A part that is announced by a character is read if it is there. -/
theorem takes_part {part : Reader β} {value : α → β} {opens : Option Char → Bool}
    {later : Option β → Reader Numeral} {n : Numeral} (hbehind : opens behind.head? = false)
    (hpart : ∀ a ∈ found, ∃ c cs, written a = c :: cs ∧ opens (some c) = true ∧
      Takes part (cs ++ behind) (value a) behind)
    (h : Takes (later (found.map value)) behind n rest) :
    Takes (do
      let c ← Reader.peek
      if opens c = true then do
        Reader.advance
        let a ← some <$> part
        later a
      else do
        let a ← pure none
        later a) (found.elim [] written ++ behind) n rest := by
  cases found with
  | none =>
    refine (takes_peek _).bind ?_
    show Takes (if opens behind.head? = true then _ else _) behind n rest
    rw [if_neg (by simp [hbehind])]
    exact (takes_pure none behind).bind h
  | some a =>
    obtain ⟨c, cs, hwritten, hopens, hread⟩ := hpart a rfl
    rw [Option.elim_some, hwritten]
    refine (takes_peek _).bind ?_
    show Takes (if opens (some c) = true then _ else _) (c :: (cs ++ behind)) n rest
    rw [if_pos hopens]
    exact (takes_advance c _).bind ((hread.map some).bind h)

end

/-! ## Whole numbers and others -/

theorem takes_sign {negative : Bool} {later : Unit → Reader Numeral} {n : Numeral}
    {behind : List Char} (h : Takes (later ()) behind n rest) :
    Takes (if negative = true then do
        let r ← Reader.advance
        later r
      else later ()) (signText negative ++ behind) n rest := by
  cases negative with
  | false => exact h
  | true => exact (takes_advance '-' behind).bind h

theorem head?_signText {negative : Bool} {behind : List Char} (hbehind : behind.head? ≠ some '-') :
    ((signText negative ++ behind).head? == some '-') = negative := by
  cases negative with
  | false => simpa [signText] using hbehind
  | true => rfl

/-- A number is read as it is spelled. -/
theorem takes_numeral (n : NumberText) (hrest : Ends rest) (atEnd : Fault) :
    Takes (numeral atEnd) (n.text ++ rest) n.numeral rest := by
  obtain ⟨negative, whole, hleading, fraction, exponent⟩ := n
  obtain ⟨d, ds, hwhole, hd⟩ := whole.exists_text_eq_cons
  have hminus : (whole.text ++ (fraction.elim [] (fun digits => '.' :: digits.text) ++
      (exponent.elim [] Exponent.text ++ rest))).head? ≠ some '-' := by
    rw [hwhole]
    exact fun hhead => ne_of_isDigit hd (by decide) (Option.some.inj hhead)
  have hsize : ¬(decide (whole.text.head? = some '0') && decide (1 < whole.text.length)) =
      true := by
    rw [Bool.and_eq_true, decide_eq_true_eq, decide_eq_true_eq]
    exact fun hlong => absurd hlong.2 (Nat.not_lt.2 (hleading hlong.1))
  -- none of the parts goes on with what may stand behind it
  have hend : ∀ c ∈ rest.head?, c.isDigit = false := hrest.apply_eq_false (by decide)
  have hmark : (rest.head? == some 'e' || rest.head? == some 'E') = false := by
    rw [Bool.or_eq_false_iff, beq_eq_false_iff_ne, beq_eq_false_iff_ne]
    exact ⟨hrest.head?_ne (by decide), hrest.head?_ne (by decide)⟩
  have hletter {p : Char → Bool} (he : p 'e' = false) (hE : p 'E' = false) :
      ∀ e ∈ exponent, ∃ c cs, e.text = c :: cs ∧ p c = false := by
    intro e _
    refine ⟨e.letter, _, rfl, ?_⟩
    rcases e.isLetter with hc | hc <;> rw [hc] <;> assumption
  have hfractionEnd : ∀ c ∈ (exponent.elim [] Exponent.text ++ rest).head?, c.isDigit = false :=
    apply_head?_elim (hletter rfl rfl) hend
  have hpoint : ((exponent.elim [] Exponent.text ++ rest).head? == some '.') = false := by
    have hnone : ∀ c ∈ (exponent.elim [] Exponent.text ++ rest).head?, (c == '.') = false :=
      apply_head?_elim (hletter rfl rfl) (hrest.apply_eq_false (by decide))
    rw [beq_eq_false_iff_ne]
    exact fun hhead => nomatch hnone '.' hhead
  have hwholeEnd : ∀ c ∈ (fraction.elim [] (fun digits => '.' :: digits.text) ++
      (exponent.elim [] Exponent.text ++ rest)).head?, c.isDigit = false :=
    apply_head?_elim (fun _ _ => ⟨'.', _, rfl, rfl⟩) hfractionEnd
  rw [NumberText.text, List.append_assoc, List.append_assoc, List.append_assoc]
  unfold numeral
  dsimp only
  refine (takes_peek _).bind ?_
  rw [head?_signText hminus]
  refine takes_sign ((whole.takes_digits hwholeEnd atEnd).bind ?_)
  rw [if_neg hsize]
  refine takes_part hpoint
    (fun digits _ => ⟨'.', _, rfl, rfl, digits.takes_digits hfractionEnd atEnd⟩)
    (takes_part hmark (fun e _ => ⟨e.letter, _, rfl, ?_, e.takes_signedDigits hend atEnd⟩) ?_)
  · rcases e.isLetter with hc | hc <;> rw [hc] <;> rfl
  · exact takes_pure _ rest

/-- A number opens with a digit or a sign. -/
theorem NumberText.exists_text_eq_cons (n : NumberText) :
    ∃ c cs, n.text = c :: cs ∧ startsNumber c = true := by
  obtain ⟨negative, ⟨digits, hne, hdigit⟩, hleading, fraction, exponent⟩ := n
  obtain ⟨d, ds, rfl⟩ := List.exists_cons_of_ne_nil hne
  have hd : d.isDigit = true := hdigit d List.mem_cons_self
  cases negative with
  | false => exact ⟨d, _, rfl, by rw [startsNumber, hd, Bool.or_true]⟩
  | true => exact ⟨'-', _, rfl, rfl⟩

theorem isGap_of_startsNumber {c : Char} (h : startsNumber c = true) : isGap c = false := by
  have hgaps : ∀ d ∈ [' ', '\n', '\t', '\r'], startsNumber d = false := by decide
  rw [← Bool.not_eq_true]
  intro hgap
  have hmem : c ∈ [' ', '\n', '\t', '\r'] := by
    simpa [isGap, or_assoc] using hgap
  rw [hgaps c hmem] at h
  cases h

theorem takes_number {n : NumberText} (h : n.numeral.isFinite = true) (hrest : Ends rest) :
    Takes number (n.text ++ rest) n.numeral rest := by
  refine (takes_numeral n hrest .truncated).bind ?_
  rw [if_pos h]
  exact takes_pure n.numeral rest

theorem takes_skipNumber (n : NumberText) (hrest : Ends rest) :
    Takes skipNumber (n.text ++ rest) () rest :=
  (takes_numeral n hrest .malformed).map fun _ => ()

/-! ## Integers -/

theorem digitsValue_naturalText (n : Nat) : Decimal.digitsValue 0 (naturalText n) = n :=
  Nat.ofDigitChars_toDigits (by decide) (by decide)

theorem head?_naturalText_ne_zero {n : Nat} (h : 0 < n) : (naturalText n).head? ≠ some '0' := by
  induction n using Nat.strongRecOn with
  | _ n ih =>
    by_cases hn : n < 10
    · have hdigit : ∀ n < 10, 0 < n → Nat.digitChar n ≠ '0' := by decide
      rw [naturalText, Nat.toDigits_of_lt_base hn]
      simpa using hdigit n hn h
    · have htext : naturalText n = naturalText (n / 10) ++ [Nat.digitChar (n % 10)] :=
        Nat.toDigits_of_base_le (by decide) (Nat.le_of_not_lt hn)
      have hlater := ih (n / 10) (by omega) (by omega)
      have hne : naturalText (n / 10) ≠ [] := Nat.toDigits_ne_nil
      obtain ⟨d, ds, hds⟩ := List.exists_cons_of_ne_nil hne
      rw [hds] at htext hlater
      rw [htext]
      exact hlater

theorem le_digitsValue (value : Nat) (ds : List Char) : value ≤ Decimal.digitsValue value ds := by
  induction ds generalizing value with
  | nil => exact Nat.le_refl value
  | cons d ds ih =>
    have hlater := ih (10 * value + (d.toNat - '0'.toNat))
    exact Nat.le_trans (by omega) hlater

/-- All digits fit that make up a value below the bound. -/
theorem leadingDigits_of_lt {bound value : Nat} {ds : List Char}
    (h : Decimal.digitsValue value ds < bound) :
    leadingDigits bound value ds = (Decimal.digitsValue value ds, []) := by
  induction ds generalizing value with
  | nil => rfl
  | cons d ds ih =>
    have hlonger : Decimal.digitsValue value [d] < bound :=
      Nat.lt_of_le_of_lt (le_digitsValue _ ds) h
    rw [leadingDigits, if_pos hlonger]
    exact ih h

/-- The digits of a natural number. -/
def Digits.ofNat (n : Nat) : Digits :=
  ⟨naturalText n, Nat.toDigits_ne_nil, fun _ hc => isDigit_of_mem_naturalText hc⟩

namespace NumberText

/-- A natural number with a sign, as it is written. -/
def signed (negative : Bool) (n : Nat) : NumberText where
  negative
  whole := .ofNat n
  leading := by
    intro hzero
    rcases Nat.eq_zero_or_pos n with rfl | hpos
    · exact Nat.le_refl 1
    · exact absurd hzero (head?_naturalText_ne_zero hpos)
  fraction := none
  exponent := none

/-- A whole number as it is written. -/
def ofInt : Int → NumberText
  | .ofNat n => signed false n
  | .negSucc n => signed true (n + 1)

theorem text_ofInt (n : Int) : (ofInt n).text = integerText n := by
  cases n <;> simp [ofInt, signed, text, signText, integerText, Digits.ofNat]

theorem integer?_ofInt (n : Int) : (ofInt n).numeral.integer? = some n := by
  cases n with
  | ofNat n =>
    simp [ofInt, signed, numeral, Numeral.integer?, Digits.ofNat, digitsValue_naturalText]
  | negSucc n =>
    simp [ofInt, signed, numeral, Numeral.integer?, Digits.ofNat, digitsValue_naturalText,
      Int.negSucc_eq]

/-- A whole number whose digits make a word is finite. -/
theorem isFinite_ofInt {n : Int} (h : n.natAbs < Decimal.wordBound) :
    (ofInt n).numeral.isFinite = true := by
  have hnatural {n : Nat} (h : n < Decimal.wordBound) (negative : Bool) :
      (signed negative n).numeral.isFinite = true := by
    have hleading : leadingDigits Decimal.wordBound 0 (naturalText n) = (n, []) := by
      rw [leadingDigits_of_lt, digitsValue_naturalText]
      rwa [digitsValue_naturalText]
    have hscale : (signed negative n).numeral.scale = 0 := by
      simp [signed, numeral, Digits.ofNat, Numeral.scale, Numeral.leading, Numeral.leadingWhole,
        Numeral.fractionDigits, hleading, leadingDigits]
    simp [Numeral.isFinite, hscale]
  cases n with
  | ofNat n => exact hnatural h false
  | negSucc n => exact hnatural h true

end NumberText

theorem accepts_integer {n low high : Int} (hlow : low ≤ n) (hhigh : n < high)
    (hword : n.natAbs < Decimal.wordBound) :
    Accepts (integer low high) (integerText n) n := by
  obtain ⟨c, cs, htext, hc⟩ := (NumberText.ofInt n).exists_text_eq_cons
  rw [← NumberText.text_ofInt, htext]
  refine accepts_next (isGap_of_startsNumber hc) fun rest hrest => ?_
  have hread := takes_number (NumberText.isFinite_ofInt hword) hrest
  rw [htext] at hread
  show Takes (if startsNumber c = true then _ else _) _ _ _
  rw [if_pos hc]
  refine hread.bind ?_
  rw [NumberText.integer?_ofInt]
  show Takes (if (decide (low ≤ n) && decide (n < high)) = true then _ else _) _ _ _
  rw [if_pos (by simp [hlow, hhigh])]
  exact takes_pure n rest

theorem accepts_natural {n bound : Nat} (h : n < bound) (hword : n < Decimal.wordBound) :
    Accepts (natural bound) (naturalText n) n :=
  (accepts_integer (Int.natCast_nonneg n) (Int.ofNat_lt.2 h) hword).map Int.toNat

end Flipbook.Json
