import Flipbook.Json.Skip
import Flipbook.Proofs.Json.Readers

/-!
# Strings in JSON

A string is read to the characters that its pieces stand for, and refused if these stand for
none because a surrogate has no partner. It is skipped in any case.

* `comes_quotedWith`: strings that are read or refused.
* `takes_skipQuotedRest`: strings that are skipped.
* `piecesOf`, `spells_encode`: strings as they are written.
-/
namespace Flipbook.Json

variable {text rest : List Char}

theorem spelled_cons (piece : Piece) (pieces : List Piece) (rest : List Char) :
    spelled (piece :: pieces) ++ rest = piece.text ++ (spelled pieces ++ rest) := by
  rw [spelled, List.flatMap_cons, List.append_assoc]
  rfl

theorem CodeUnit.takes_hexDigits (u : CodeUnit) (rest : List Char) :
    Takes hexDigits (u.text ++ rest) u.value rest := by
  refine ⟨⟨rest, by simp only [CodeUnit.text, List.length_append]; omega⟩, ?_, rfl⟩
  simp only [CodeUnit.text, List.cons_append, List.nil_append, hexDigits, u.first.reads,
    u.second.reads, u.third.reads, u.fourth.reads]
  rfl

section

variable {point : Reader Char} {c : Char} {cs taken : List Char}

theorem takes_escape_short {letter : Char} (h : shortEscape? letter = some c)
    (rest : List Char) : Takes (escape point) (letter :: rest) c rest := by
  have hletter : letter ≠ 'u' := by
    rintro rfl
    cases h
  refine (takes_peek (letter :: rest)).bind ((takes_advance letter rest).bind ?_)
  rw [if_neg hletter, h]
  exact takes_pure c rest

theorem takes_escape_point (h : Takes point cs c rest) :
    Takes (escape point) ('u' :: cs) c rest :=
  (takes_peek _).bind ((takes_advance 'u' _).bind h)

theorem fails_escape_point (h : Fails point cs) : Fails (escape point) ('u' :: cs) :=
  (takes_peek _).bind_fails ((takes_advance 'u' _).bind_fails h)

theorem takes_quotedWith_quote (point : Reader Char) (rest : List Char) :
    Takes (quotedWith point) ('\x22' :: rest) [] rest := by
  unfold Takes quotedWith
  exact ⟨_, if_pos rfl, rfl⟩

theorem takes_quotedWith_escape {middle : List Char} (hescape : Takes (escape point) cs c middle)
    (h : Takes (quotedWith point) middle taken rest) :
    Takes (quotedWith point) ('\\' :: cs) (c :: taken) rest := by
  obtain ⟨later, hescape, rfl⟩ := hescape
  obtain ⟨last, h, rfl⟩ := h
  refine ⟨.behind '\\' (later.andThen last), ?_, rfl⟩
  unfold quotedWith
  rw [if_neg (by decide), if_pos rfl, hescape]
  dsimp only
  rw [h]

theorem takes_quotedWith_plain (hquote : c ≠ '\x22') (hbackslash : c ≠ '\\') (hcontrol : ¬c < ' ')
    (h : Takes (quotedWith point) cs taken rest) :
    Takes (quotedWith point) (c :: cs) (c :: taken) rest := by
  obtain ⟨later, h, rfl⟩ := h
  refine ⟨.behind c later, ?_, rfl⟩
  unfold quotedWith
  rw [if_neg hquote, if_neg hbackslash, if_neg hcontrol, h]

theorem fails_quotedWith_escape (h : Fails (escape point) cs) :
    Fails (quotedWith point) ('\\' :: cs) := by
  obtain ⟨fault, h⟩ := h
  refine ⟨fault, ?_⟩
  unfold quotedWith
  rw [if_neg (by decide), if_pos rfl, h]

/-- A string is read behind an escape if it is read there, and refused if it is refused. -/
theorem comes_quotedWith_escape {middle : List Char} (hescape : Takes (escape point) cs c middle)
    {later : Option (List Char)} (h : Comes (quotedWith point) middle later rest) :
    Comes (quotedWith point) ('\\' :: cs) (later.map (c :: ·)) rest := by
  cases later with
  | some taken => exact takes_quotedWith_escape hescape h
  | none =>
    obtain ⟨later, hescape, rfl⟩ := hescape
    obtain ⟨fault, h⟩ := h
    refine ⟨fault, ?_⟩
    unfold quotedWith
    rw [if_neg (by decide), if_pos rfl, hescape]
    dsimp only
    rw [h]

theorem comes_quotedWith_plain (hquote : c ≠ '\x22') (hbackslash : c ≠ '\\') (hcontrol : ¬c < ' ')
    {later : Option (List Char)} (h : Comes (quotedWith point) cs later rest) :
    Comes (quotedWith point) (c :: cs) (later.map (c :: ·)) rest := by
  cases later with
  | some taken => exact takes_quotedWith_plain hquote hbackslash hcontrol h
  | none =>
    obtain ⟨fault, h⟩ := h
    refine ⟨fault, ?_⟩
    unfold quotedWith
    rw [if_neg hquote, if_neg hbackslash, if_neg hcontrol, h]

end

/-! ## Code points -/

theorem takes_codePoint {u : CodeUnit} (hlow : isLowSurrogate u.value = false)
    (hhigh : isHighSurrogate u.value = false) (rest : List Char) :
    Takes codePoint (u.text ++ rest) (Char.ofNat u.value) rest := by
  refine (u.takes_hexDigits rest).bind ?_
  rw [hlow, hhigh]
  exact takes_pure _ rest

theorem takes_codePoint_pair {u v : CodeUnit} (hlow : isLowSurrogate u.value = false)
    (hhigh : isHighSurrogate u.value = true) (hsecond : isLowSurrogate v.value = true)
    (rest : List Char) :
    Takes codePoint (u.text ++ '\\' :: 'u' :: (v.text ++ rest))
      (Char.ofNat ((u.value - 0xD800) * 0x400 + (v.value - 0xDC00) + 0x10000)) rest := by
  refine (u.takes_hexDigits _).bind ?_
  rw [hlow, hhigh]
  refine (takes_word ['\\', 'u'] _).bind ((v.takes_hexDigits rest).bind ?_)
  rw [hsecond]
  exact takes_pure _ rest

/-- The second unit of a pair does not come first. -/
theorem fails_codePoint_low {u : CodeUnit} (hlow : isLowSurrogate u.value = true)
    (rest : List Char) : Fails codePoint (u.text ++ rest) := by
  refine (u.takes_hexDigits rest).bind_fails ?_
  rw [hlow]
  exact fails_fail _ _

theorem fails_codePoint_second {u v : CodeUnit} (hlow : isLowSurrogate u.value = false)
    (hhigh : isHighSurrogate u.value = true) (hsecond : isLowSurrogate v.value = false)
    (rest : List Char) : Fails codePoint (u.text ++ '\\' :: 'u' :: (v.text ++ rest)) := by
  refine (u.takes_hexDigits _).bind_fails ?_
  rw [hlow, hhigh]
  refine (takes_word ['\\', 'u'] _).bind_fails ((v.takes_hexDigits rest).bind_fails ?_)
  rw [hsecond]
  exact fails_fail _ _

/-- The first unit of a pair does not come alone. -/
theorem fails_codePoint_alone {u : CodeUnit} (hlow : isLowSurrogate u.value = false)
    (hhigh : isHighSurrogate u.value = true) (h : Fails (Reader.word ['\\', 'u']) rest) :
    Fails codePoint (u.text ++ rest) := by
  refine (u.takes_hexDigits _).bind_fails ?_
  rw [hlow, hhigh]
  exact h.bind _

theorem fails_char {c d : Char} (h : d ≠ c) (rest : List Char) :
    Fails (Reader.char c) (d :: rest) :=
  ⟨.malformed, if_neg h⟩

/-- Only a code unit opens with a backslash and its letter. -/
theorem fails_word_of_not_unit {pieces : List Piece}
    (h : ∀ v later, pieces ≠ Piece.unit v :: later) (rest : List Char) :
    Fails (Reader.word ['\\', 'u']) (spelled pieces ++ '\x22' :: rest) := by
  cases pieces with
  | nil => exact (fails_char (by decide) rest).bind _
  | cons piece pieces =>
    rw [spelled_cons]
    cases piece with
    | plain c quote backslash control => exact (fails_char backslash _).bind _
    | short letter c hshort =>
      have hletter : letter ≠ 'u' := by
        rintro rfl
        cases hshort
      exact (takes_char '\\' _).bind_fails ((fails_char hletter _).bind _)
    | unit v => exact absurd rfl (h v pieces)

/-! ## Strings -/

theorem spelled_unit (u : CodeUnit) (pieces : List Piece) (rest : List Char) :
    spelled (.unit u :: pieces) ++ rest = '\\' :: 'u' :: (u.text ++ (spelled pieces ++ rest)) := by
  rw [spelled_cons]
  rfl

/-- A string is read to the characters that it stands for, or refused if it stands for none. -/
theorem comes_quotedWith (pieces : List Piece) (rest : List Char) :
    Comes (quotedWith codePoint) (spelled pieces ++ '\x22' :: rest) (decode? pieces) rest := by
  fun_induction decode? pieces with
  | case1 => exact takes_quotedWith_quote codePoint rest
  | case2 c quote backslash control pieces ih =>
    exact comes_quotedWith_plain quote backslash control ih
  | case3 letter c hshort pieces ih =>
    exact comes_quotedWith_escape (takes_escape_short hshort _) ih
  | case4 u pieces hlow =>
    rw [spelled_unit]
    exact fails_quotedWith_escape (fails_escape_point (fails_codePoint_low hlow _))
  | case5 u hlow hhigh v pieces hsecond ih =>
    rw [spelled_unit, spelled_unit]
    exact comes_quotedWith_escape (takes_escape_point
      (takes_codePoint_pair (Bool.eq_false_iff.2 hlow) hhigh hsecond _)) ih
  | case6 u hlow hhigh v pieces hsecond =>
    rw [spelled_unit, spelled_unit]
    exact fails_quotedWith_escape (fails_escape_point
      (fails_codePoint_second (Bool.eq_false_iff.2 hlow) hhigh (Bool.eq_false_iff.2 hsecond) _))
  | case7 u pieces hlow hhigh hunit =>
    rw [spelled_unit]
    exact fails_quotedWith_escape (fails_escape_point
      (fails_codePoint_alone (Bool.eq_false_iff.2 hlow) hhigh (fails_word_of_not_unit hunit rest)))
  | case8 u pieces hlow hhigh ih =>
    rw [spelled_unit]
    exact comes_quotedWith_escape (takes_escape_point
      (takes_codePoint (Bool.eq_false_iff.2 hlow) (Bool.eq_false_iff.2 hhigh) _)) ih

theorem takes_quotedRest {pieces : List Piece} {cs : List Char} (h : decode? pieces = some cs)
    (rest : List Char) :
    Takes quotedRest (spelled pieces ++ '\x22' :: rest) (String.ofList cs) rest := by
  have hread := comes_quotedWith pieces rest
  rw [h] at hread
  exact hread.map String.ofList

/-- A string is skipped, whatever its surrogates are. -/
theorem takes_skipQuotedRest (pieces : List Piece) (rest : List Char) :
    Takes skipQuotedRest (spelled pieces ++ '\x22' :: rest) () rest := by
  have hread : ∃ cs, Takes (quotedWith (do return Char.ofNat (← hexDigits)))
      (spelled pieces ++ '\x22' :: rest) cs rest := by
    induction pieces with
    | nil => exact ⟨[], takes_quotedWith_quote _ rest⟩
    | cons piece pieces ih =>
      obtain ⟨cs, hcs⟩ := ih
      rw [spelled_cons]
      cases piece with
      | plain c quote backslash control =>
        exact ⟨_, takes_quotedWith_plain quote backslash control hcs⟩
      | short letter c hshort =>
        exact ⟨_, takes_quotedWith_escape (takes_escape_short hshort _) hcs⟩
      | unit u =>
        exact ⟨_, takes_quotedWith_escape
          (takes_escape_point ((u.takes_hexDigits _).map Char.ofNat)) hcs⟩
  obtain ⟨cs, hcs⟩ := hread
  exact hcs.map fun _ => ()

theorem accepts_string {s : String} {text : List Char} (h : Spells s text) :
    Accepts string text s := by
  obtain ⟨pieces, rfl, hdecode⟩ := h
  refine accepts_next (by decide) fun rest _ => (takes_advance '\x22' _).bind ?_
  rw [List.append_assoc]
  have hread := takes_quotedRest hdecode rest
  rwa [String.ofList_toList] at hread

/-! ## Writing -/

/-- The hexadecimal digits that controls are written with. -/
theorem hexDigit?_digitChar : ∀ n < 16, hexDigit? (Nat.digitChar n) = some n := by decide

theorem toNat_lt_of_control {c : Char} (h : c < ' ') : c.toNat < 32 := by
  have hlt : c.val < ' '.val := h
  exact UInt32.lt_iff_toNat_lt.1 hlt

/-- The code unit that a control is written as. -/
def controlUnit (c : Char) (h : c < ' ') : CodeUnit where
  first := .zero
  second := .zero
  third := ⟨_, c.toNat / 16, hexDigit?_digitChar _ (by have := toNat_lt_of_control h; omega)⟩
  fourth := ⟨_, c.toNat % 16, hexDigit?_digitChar _ (by omega)⟩

theorem value_controlUnit {c : Char} (h : c < ' ') : (controlUnit c h).value = c.toNat := by
  show ((0 * 16 + 0) * 16 + c.toNat / 16) * 16 + c.toNat % 16 = c.toNat
  omega

/-- The letter that a control is written with, if it has one. -/
def controlLetter? : Char → Option Char
  | '\x08' => some 'b'
  | '\t' => some 't'
  | '\n' => some 'n'
  | '\x0c' => some 'f'
  | '\r' => some 'r'
  | _ => none

theorem shortEscape?_of_controlLetter? {c letter : Char} (h : controlLetter? c = some letter) :
    shortEscape? letter = some c := by
  unfold controlLetter? at h
  split at h <;> cases h <;> rfl

/-- The piece that a character is written as. -/
def pieceOf (c : Char) : Piece :=
  if hquote : c = '\x22' then .short '\x22' c (by rw [hquote]; rfl)
  else if hbackslash : c = '\\' then .short '\\' c (by rw [hbackslash]; rfl)
  else if hcontrol : c < ' ' then
    match hletter : controlLetter? c with
    | some letter => .short letter c (shortEscape?_of_controlLetter? hletter)
    | none => .unit (controlUnit c hcontrol)
  else .plain c hquote hbackslash hcontrol

/-- The piece of a character stands for it. -/
theorem decode?_pieceOf_cons (c : Char) (pieces : List Piece) :
    decode? (pieceOf c :: pieces) = (decode? pieces).map (c :: ·) := by
  unfold pieceOf
  split
  · rfl
  · split
    · rfl
    · split
      · next hcontrol =>
        split
        · rfl
        · have hlt := toNat_lt_of_control hcontrol
          have hlow : ¬isLowSurrogate c.toNat = true := by
            simp only [isLowSurrogate, Bool.and_eq_true, decide_eq_true_eq]
            omega
          have hhigh : ¬isHighSurrogate c.toNat = true := by
            simp only [isHighSurrogate, Bool.and_eq_true, decide_eq_true_eq]
            omega
          rw [decode?.eq_def]
          dsimp only
          rw [value_controlUnit, if_neg hlow, if_neg hhigh, Char.ofNat_toNat]
      · rfl

/-- The pieces that a string is written as. -/
def piecesOf (s : String) : List Piece := s.toList.map pieceOf

theorem decode?_piecesOf (s : String) : decode? (piecesOf s) = some s.toList := by
  have hcons (cs : List Char) : decode? (cs.map pieceOf) = some cs := by
    induction cs with
    | nil => rfl
    | cons c cs ih => rw [List.map_cons, decode?_pieceOf_cons, ih, Option.map_some]
  exact hcons s.toList

end Flipbook.Json
