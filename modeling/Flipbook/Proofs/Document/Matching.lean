import Flipbook.Proofs.Document.Scanning

/-!
# Matching delimiters, byte by byte

What `balanced` finds, said in two other ways. One is a description of the text alone: its strings
are taken out of it, and what is left opens and closes its delimiters in turn. The other is a scan
of the UTF-8 form of a document from one of its bytes on, which keeps a depth and two flags and
knows nothing of characters; what it finds it cuts out of the document, and the cut can fail.

* `Stripped`: a text and what is left of it without its strings.
* `Matched`, `Delimiters.Delimits`: what stands before the delimiter that closes one opened earlier.
* `encloses_iff_matched`: a reader that keeps track of strings sees the same.
* `ByteScan`: the scan of bytes, one step a byte.
* `ByteScan.closing?_utf8`: the scan ends where `balancedFrom` does, never within a character.
* `balanced_iff_delimits`: the matching delimiter is found wherever there is one, it is the only
  one, and the bytes of the document lead to it.
-/
namespace Flipbook.Document

open Text (byteSize)

/-! ## Texts without their strings -/

/-- What stands between the quotes of a string. A backslash escapes the next character. -/
inductive StringBody : List Char → Prop
  | nil : StringBody []
  | plain {c : Char} {body : List Char} (hquote : c ≠ '\x22') (hbackslash : c ≠ '\\')
      (hbody : StringBody body) : StringBody (c :: body)
  | escape {c : Char} {body : List Char} (hbody : StringBody body) : StringBody ('\\' :: c :: body)

/-- A text that closes its strings, and what is left of it without them. -/
inductive Stripped : List Char → List Char → Prop
  | nil : Stripped [] []
  | bare {c : Char} {text left : List Char} (hquote : c ≠ '\x22') (htext : Stripped text left) :
      Stripped (c :: text) (c :: left)
  | string {body text left : List Char} (hbody : StringBody body) (htext : Stripped text left) :
      Stripped ('\x22' :: (body ++ '\x22' :: text)) left

namespace Quoting

/-- A reader in a string leaves it at the quote behind the body. -/
theorem after_body {body : List Char} (h : StringBody body) : inside.after body = inside := by
  induction h with
  | nil => rfl
  | plain hquote hbackslash _ ih =>
    rw [after_cons, next, if_neg hbackslash, if_neg hquote, ih]
  | escape _ ih => exact ih

theorem bare_body {body : List Char} (h : StringBody body) : inside.bare body = [] := by
  induction h with
  | nil => rfl
  | plain hquote hbackslash _ ih =>
    rw [bare_cons_of_not_counts (by simp [counts]), next, if_neg hbackslash, if_neg hquote, ih]
  | escape _ ih => exact ih

/-- A reader stands behind a string where it stood before. -/
theorem after_string {body : List Char} (h : StringBody body) (text : List Char) :
    outside.after ('\x22' :: (body ++ '\x22' :: text)) = outside.after text := by
  rw [after_cons, after_append]
  exact congrArg (after · ('\x22' :: text)) (after_body h)

theorem bare_string {body : List Char} (h : StringBody body) (text : List Char) :
    outside.bare ('\x22' :: (body ++ '\x22' :: text)) = outside.bare text := by
  have hopen : outside.bare ('\x22' :: (body ++ '\x22' :: text)) =
      inside.bare (body ++ '\x22' :: text) := rfl
  rw [hopen, bare_append, bare_body h, after_body h]
  rfl

/-- What can follow where a reader stands: a text that closes the string it begins in and all of
its own, and what is left of it without them. -/
def Leaves : Quoting → List Char → List Char → Prop
  | outside, text, left => Stripped text left
  | inside, text, left => ∃ body rest, text = body ++ '\x22' :: rest ∧ StringBody body ∧
      Stripped rest left
  | escaped, text, left => ∃ c body rest, text = c :: (body ++ '\x22' :: rest) ∧
      StringBody body ∧ Stripped rest left

theorem leaves_of_after {q : Quoting} {text : List Char} (h : q.after text = outside) :
    q.Leaves text (q.bare text) := by
  induction text generalizing q with
  | nil =>
    obtain rfl : q = outside := h
    exact .nil
  | cons c cs ih =>
    have hlater : (q.next c).Leaves cs ((q.next c).bare cs) := ih h
    cases q with
    | outside =>
      by_cases hquote : c = '\x22'
      · subst hquote
        obtain ⟨body, rest, rfl, hbody, hrest⟩ := hlater
        exact .string hbody hrest
      · have hcounts : outside.counts c = true := counts_iff.2 ⟨rfl, hquote⟩
        rw [next_of_counts hcounts] at hlater
        rw [bare_cons_of_counts hcounts, next_of_counts hcounts]
        exact .bare hquote hlater
    | inside =>
      rw [bare_cons_of_not_counts (by simp [counts])]
      by_cases hbackslash : c = '\\'
      · subst hbackslash
        obtain ⟨d, body, rest, rfl, hbody, hrest⟩ := hlater
        exact ⟨'\\' :: d :: body, rest, rfl, .escape hbody, hrest⟩
      · by_cases hquote : c = '\x22'
        · subst hquote
          exact ⟨[], cs, rfl, .nil, hlater⟩
        · rw [next, if_neg hbackslash, if_neg hquote] at hlater ⊢
          obtain ⟨body, rest, rfl, hbody, hrest⟩ := hlater
          exact ⟨c :: body, rest, rfl, .plain hquote hbackslash hbody, hrest⟩
    | escaped =>
      obtain ⟨body, rest, rfl, hbody, hrest⟩ := hlater
      exact ⟨c, body, rest, rfl, hbody, hrest⟩

/-- A part of what stands outside strings is what stands outside strings in a part. -/
theorem exists_prefix_bare {q : Quoting} {text part : List Char} (h : part <+: q.bare text) :
    ∃ front, front <+: text ∧ q.bare front = part := by
  induction text generalizing q part with
  | nil => exact ⟨[], List.nil_prefix, (List.prefix_nil.1 h).symm⟩
  | cons c cs ih =>
    by_cases hc : q.counts c = true
    · rw [bare_cons_of_counts hc] at h
      cases part with
      | nil => exact ⟨[], List.nil_prefix, rfl⟩
      | cons a part =>
        obtain ⟨rfl, hpart⟩ := List.cons_prefix_cons.1 h
        obtain ⟨front, hfront, rfl⟩ := ih hpart
        exact ⟨a :: front, List.cons_prefix_cons.2 ⟨rfl, hfront⟩, bare_cons_of_counts hc front⟩
    · rw [bare_cons_of_not_counts hc] at h
      obtain ⟨front, hfront, rfl⟩ := ih h
      exact ⟨c :: front, List.cons_prefix_cons.2 ⟨rfl, hfront⟩, bare_cons_of_not_counts hc front⟩

end Quoting

/-- A reader that keeps track of strings strips a text of them. -/
theorem stripped_iff {text left : List Char} :
    Stripped text left ↔
      Quoting.outside.after text = .outside ∧ Quoting.outside.bare text = left := by
  constructor
  · intro h
    induction h with
    | nil => exact ⟨rfl, rfl⟩
    | bare hquote _ ih =>
      have hcounts := Quoting.counts_iff.2 ⟨rfl, hquote⟩
      rw [Quoting.after_cons, Quoting.bare_cons_of_counts hcounts, Quoting.next_of_counts hcounts]
      exact ⟨ih.1, congrArg (_ :: ·) ih.2⟩
    | string hbody _ ih =>
      rw [Quoting.after_string hbody, Quoting.bare_string hbody]
      exact ih
  · rintro ⟨hafter, rfl⟩
    exact Quoting.leaves_of_after hafter

/-! ## Matching delimiters -/

/-- Whether a text opens as many delimiters as it closes, and no part from its front closes more
than it opens. -/
structure Matched (opening closing : Char) (text : List Char) : Prop where
  even : text.count opening = text.count closing
  nested : ∀ part, part <+: text → part.count closing ≤ part.count opening

theorem encloses_iff_matched {opening closing : Char} {text : List Char} :
    Encloses opening closing .outside 0 text ↔
      ∃ left, Stripped text left ∧ Matched opening closing left := by
  constructor
  · rintro ⟨houtside, heven, hnested⟩
    refine ⟨_, stripped_iff.2 ⟨houtside, rfl⟩, heven, fun part hpart => ?_⟩
    obtain ⟨front, hfront, rfl⟩ := Quoting.exists_prefix_bare hpart
    exact hnested front hfront
  · rintro ⟨left, hstripped, heven, hnested⟩
    obtain ⟨houtside, rfl⟩ := stripped_iff.1 hstripped
    refine ⟨houtside, heven, ?_⟩
    rintro part ⟨rest, rfl⟩
    rw [Quoting.bare_append] at hnested
    exact hnested _ (List.prefix_append _ _)

/-- Two delimiters of one byte each. They are not the same, and the closing one is no quote. -/
structure Delimiters where
  opening : Char
  closing : Char
  opening_size : opening.utf8Size = 1
  closing_size : closing.utf8Size = 1
  distinct : opening ≠ closing
  closing_ne_quote : closing ≠ '\x22'

namespace Delimiters

/-- The delimiters of a corrector's argument. -/
def parentheses : Delimiters := ⟨'(', ')', rfl, rfl, by decide, by decide⟩

/-- A text that stands behind an opening delimiter, parted at the closing one that matches it:
without its strings, what stands before that is matched. -/
def Delimits (d : Delimiters) (text inner rest : List Char) : Prop :=
  text = inner ++ d.closing :: rest ∧ ∃ left, Stripped inner left ∧ Matched d.opening d.closing left

variable {d : Delimiters}

theorem balanced_eq_some_iff {text inner rest : List Char} :
    balanced d.opening d.closing text = some (inner, rest) ↔ d.Delimits text inner rest := by
  rw [balanced, balancedFrom_eq_some_iff d.distinct d.closing_ne_quote, encloses_iff_matched]
  rfl

theorem balanced_eq_none_iff {text : List Char} :
    balanced d.opening d.closing text = none ↔ ∀ inner rest, ¬d.Delimits text inner rest := by
  simp only [Option.eq_none_iff_forall_ne_some, Prod.forall, ne_eq, balanced_eq_some_iff]

end Delimiters

/-- A character that is no delimiter closes and opens nothing. -/
theorem nest_of_ne {opening closing c : Char} (hopening : c ≠ opening) (hclosing : c ≠ closing)
    (q : Quoting) (depth : Nat) : nest opening closing q depth c = some depth := by
  unfold nest
  rw [if_neg hopening, if_neg hclosing, ite_self]

/-! ## Bytes -/

/-- The bytes of a text in its UTF-8 form. -/
def utf8 (text : List Char) : List UInt8 := text.flatMap String.utf8EncodeChar

theorem utf8_cons (c : Char) (cs : List Char) :
    utf8 (c :: cs) = String.utf8EncodeChar c ++ utf8 cs :=
  List.flatMap_cons

theorem utf8_append (as bs : List Char) : utf8 (as ++ bs) = utf8 as ++ utf8 bs :=
  List.flatMap_append

theorem length_utf8 (text : List Char) : (utf8 text).length = byteSize text := by
  induction text with
  | nil => rfl
  | cons c cs ih =>
    rw [utf8_cons, List.length_append, String.length_utf8EncodeChar, ih, Text.byteSize_cons]

/-- The bytes behind a part of a document. -/
theorem drop_utf8 (before text : List Char) :
    (utf8 (before ++ text)).drop (byteSize before) = utf8 text := by
  rw [utf8_append, ← length_utf8, List.drop_left]

/-- The byte of a character of one byte is below those of all other characters. -/
theorem toNat_toUInt8_lt {c : Char} (h : c.utf8Size = 1) : c.toUInt8.toNat < 128 := by
  rw [Char.utf8Size_eq_one_iff, UInt32.le_iff_toNat_le] at h
  rw [Char.toUInt8, UInt32.toNat_toUInt8]
  exact Nat.lt_of_le_of_lt (Nat.mod_le _ _) (Nat.lt_succ_of_le h)

theorem le_of_mem_utf8EncodeChar {c : Char} (h : c.utf8Size ≠ 1) {b : UInt8}
    (hb : b ∈ String.utf8EncodeChar c) : 128 ≤ b.toNat := by
  have hval : 127 < c.val.toNat := by
    rw [ne_eq, Char.utf8Size_eq_one_iff, UInt32.le_iff_toNat_le] at h
    exact Nat.lt_of_not_le h
  -- each byte holds a part of the character's number, on top of a mark of at least 128
  have hbyte (n m mark : Nat) (hm : 0 < m) (hmark : 128 ≤ mark) (hsum : m + mark ≤ 256) :
      128 ≤ (UInt8.ofNat (n % m + mark)).toNat := by
    have hmod := Nat.mod_lt n hm
    rw [UInt8.toNat_ofNat', Nat.mod_eq_of_lt (by omega)]
    exact Nat.le_add_left_of_le hmark
  unfold String.utf8EncodeChar at hb
  rw [if_neg (Nat.not_le.2 hval)] at hb
  split at hb
  · simp only [List.mem_cons, List.not_mem_nil, or_false] at hb
    rcases hb with rfl | rfl <;> exact hbyte _ _ _ (by decide) (by decide) (by decide)
  · split at hb
    · simp only [List.mem_cons, List.not_mem_nil, or_false] at hb
      rcases hb with rfl | rfl | rfl <;> exact hbyte _ _ _ (by decide) (by decide) (by decide)
    · simp only [List.mem_cons, List.not_mem_nil, or_false] at hb
      rcases hb with rfl | rfl | rfl | rfl <;>
        exact hbyte _ _ _ (by decide) (by decide) (by decide)

/-- Characters of one byte are told apart by it. -/
theorem toUInt8_inj {a b : Char} (ha : a.utf8Size = 1) (hb : b.utf8Size = 1) :
    a.toUInt8 = b.toUInt8 ↔ a = b := by
  refine ⟨fun h => ?_, congrArg _⟩
  rw [Char.utf8Size_eq_one_iff, UInt32.le_iff_toNat_le] at ha hb
  have hbytes := congrArg UInt8.toNat h
  have hbound : (127 : UInt32).toNat = 127 := rfl
  rw [Char.toUInt8, Char.toUInt8, UInt32.toNat_toUInt8, UInt32.toNat_toUInt8] at hbytes
  rw [Char.ext_iff, ← UInt32.toNat_inj]
  omega

/-! ## The scan -/

/-- What a scan of bytes keeps: how many delimiters are open, whether it is in a string, and
whether it is there behind a backslash. -/
structure ByteScan where
  depth : Nat
  inString : Bool
  escaped : Bool

namespace ByteScan

/-- The scan behind a byte. -/
def step (d : Delimiters) (s : ByteScan) (b : UInt8) : ByteScan :=
  if s.escaped then { s with escaped := false }
  else if b = '\\'.toUInt8 ∧ s.inString then { s with escaped := true }
  else if b = '\x22'.toUInt8 then { s with inString := !s.inString }
  else if s.inString then s
  else if b = d.opening.toUInt8 then { s with depth := s.depth + 1 }
  else if b = d.closing.toUInt8 then { s with depth := s.depth - 1 }
  else s

/-- How many bytes stand before the one behind which no delimiter is open any more. -/
def closing? (d : Delimiters) (s : ByteScan) : List UInt8 → Option Nat
  | [] => none
  | b :: bs =>
    if (s.step d b).depth = 0 then some 0 else (closing? d (s.step d b) bs).map (· + 1)

/-- The scan where a reader of characters stands, with `depth + 1` delimiters open. -/
def standing (q : Quoting) (depth : Nat) : ByteScan := ⟨depth + 1, q ≠ .outside, q = .escaped⟩

variable {d : Delimiters} {q : Quoting} {depth : Nat}

theorem closing?_cons {s : ByteScan} {b : UInt8} (h : s.step d b = standing q depth)
    (bs : List UInt8) :
    s.closing? d (b :: bs) = ((standing q depth).closing? d bs).map (· + 1) := by
  rw [closing?, h, if_neg]
  exact Nat.succ_ne_zero depth

/-! ### Characters of one byte -/

/-- The byte of a character is looked at as the character. -/
theorem step_toUInt8 {c : Char} (hc : c.utf8Size = 1) (s : ByteScan) :
    s.step d c.toUInt8 =
      if s.escaped then { s with escaped := false }
      else if c = '\\' ∧ s.inString then { s with escaped := true }
      else if c = '\x22' then { s with inString := !s.inString }
      else if s.inString then s
      else if c = d.opening then { s with depth := s.depth + 1 }
      else if c = d.closing then { s with depth := s.depth - 1 }
      else s := by
  have hbackslash : c.toUInt8 = '\\'.toUInt8 ↔ c = '\\' := toUInt8_inj hc rfl
  have hquote : c.toUInt8 = '\x22'.toUInt8 ↔ c = '\x22' := toUInt8_inj hc rfl
  have hopening := toUInt8_inj hc d.opening_size
  have hclosing := toUInt8_inj hc d.closing_size
  simp only [step, hbackslash, hquote, hopening, hclosing]

/-- The scan goes where a reader of characters does, until the outermost delimiter is closed. -/
theorem step_standing {c : Char} (hc : c.utf8Size = 1) :
    (standing q depth).step d c.toUInt8 =
      match nest d.opening d.closing q depth c with
      | some later => standing (q.next c) later
      | none => ⟨0, false, false⟩ := by
  rw [step_toUInt8 hc]
  cases q with
  | outside =>
    by_cases hquote : c = '\x22'
    · subst hquote
      rfl
    · have hcounts : Quoting.outside.counts c = true := Quoting.counts_iff.2 ⟨rfl, hquote⟩
      unfold nest
      rw [if_pos hcounts, Quoting.next_of_counts hcounts]
      by_cases hopening : c = d.opening
      · subst hopening
        simp [standing, hquote]
      · by_cases hclosing : c = d.closing
        · subst hclosing
          cases depth <;> simp [standing, hquote, hopening]
        · simp [standing, hquote, hopening, hclosing]
  | inside =>
    by_cases hbackslash : c = '\\'
    · subst hbackslash
      rfl
    · by_cases hquote : c = '\x22'
      · subst hquote
        rfl
      · simp [standing, nest, Quoting.next, Quoting.counts, hbackslash, hquote]
  | escaped => rfl

/-! ### Characters of more bytes -/

/-- A byte that is no character of its own only ends an escape. -/
theorem step_of_le {b : UInt8} (hb : 128 ≤ b.toNat) (s : ByteScan) :
    s.step d b = { s with escaped := false } := by
  have hne {c : Char} (hc : c.utf8Size = 1) : b ≠ c.toUInt8 := by
    rintro rfl
    exact absurd (toNat_toUInt8_lt hc) (Nat.not_lt.2 hb)
  have hbackslash : b ≠ '\\'.toUInt8 := hne rfl
  have hquote : b ≠ '\x22'.toUInt8 := hne rfl
  obtain ⟨depth, inString, escaped⟩ := s
  cases escaped <;> simp [step, hbackslash, hquote, hne d.opening_size, hne d.closing_size]

/-- Bytes that are no characters of their own are passed over outside of escapes. -/
theorem closing?_of_le (hq : q ≠ .escaped) {bytes : List UInt8}
    (hbytes : ∀ b ∈ bytes, 128 ≤ b.toNat) (bs : List UInt8) :
    (standing q depth).closing? d (bytes ++ bs) =
      ((standing q depth).closing? d bs).map (· + bytes.length) := by
  induction bytes with
  | nil => simp
  | cons b bytes ih =>
    obtain ⟨hb, hbytes⟩ := List.forall_mem_cons.1 hbytes
    have hstep : (standing q depth).step d b = standing q depth := by
      rw [step_of_le hb]
      simp [standing, hq]
    rw [List.cons_append, closing?_cons hstep, ih hbytes, Option.map_map]
    rfl

/-- The bytes of a character leave the scan where the character leaves a reader. -/
theorem closing?_utf8EncodeChar {c : Char} (hc : c.utf8Size ≠ 1) (bs : List UInt8) :
    (standing q depth).closing? d (String.utf8EncodeChar c ++ bs) =
      ((standing (q.next c) depth).closing? d bs).map (· + c.utf8Size) := by
  have hbytes : ∀ b ∈ String.utf8EncodeChar c, 128 ≤ b.toNat :=
    fun _ => le_of_mem_utf8EncodeChar hc
  have hquote : c ≠ '\x22' := by
    rintro rfl
    exact hc rfl
  have hbackslash : c ≠ '\\' := by
    rintro rfl
    exact hc rfl
  rw [← String.length_utf8EncodeChar]
  cases q with
  | outside =>
    rw [Quoting.next, if_neg hquote]
    exact closing?_of_le (by decide) hbytes bs
  | inside =>
    rw [Quoting.next, if_neg hbackslash, if_neg hquote]
    exact closing?_of_le (by decide) hbytes bs
  | escaped =>
    -- the escape ends with the first byte
    cases hencoded : String.utf8EncodeChar c with
    | nil => exact absurd hencoded (String.utf8EncodeChar_ne_nil)
    | cons b bytes =>
      rw [hencoded] at hbytes
      obtain ⟨hb, hbytes⟩ := List.forall_mem_cons.1 hbytes
      have hstep : (standing .escaped depth).step d b = standing .inside depth := step_of_le hb _
      rw [List.cons_append, closing?_cons hstep, closing?_of_le (by decide) hbytes, Option.map_map]
      rfl

/-! ### Texts -/

/-- The scan of a text ends where a reader of its characters does. -/
theorem closing?_utf8 (text : List Char) :
    (standing q depth).closing? d (utf8 text) =
      (balancedFrom d.opening d.closing q depth text).map fun (inner, _) => byteSize inner := by
  induction text generalizing q depth with
  | nil => rfl
  | cons c cs ih =>
    have hcons (found : Option (List Char × List Char)) :
        (found.map fun (inner, _) => byteSize inner).map (· + c.utf8Size) =
          (found.map fun (left, right) => (c :: left, right)).map
            fun (inner, _) => byteSize inner := by
      cases found <;> simp [Nat.add_comm]
    rw [utf8_cons, balancedFrom_cons]
    by_cases hc : c.utf8Size = 1
    · rw [String.utf8EncodeChar_eq_singleton hc, Char.toUInt8_val, List.singleton_append]
      have hstep : (standing q depth).step d c.toUInt8 = _ := step_standing hc
      cases hnest : nest d.opening d.closing q depth c with
      | none =>
        rw [hnest] at hstep
        rw [closing?, hstep]
        rfl
      | some later =>
        rw [hnest] at hstep
        rw [closing?_cons hstep, ih, ← hc]
        exact hcons _
    · have hopening : c ≠ d.opening := fun h => hc (h ▸ d.opening_size)
      have hclosing : c ≠ d.closing := fun h => hc (h ▸ d.closing_size)
      rw [closing?_utf8EncodeChar hc, ih, nest_of_ne hopening hclosing]
      exact hcons _

end ByteScan

/-- The text between a byte of a document and the delimiter that closes one opened before it, and
the position behind that delimiter, found byte by byte. It breaks off where the text cannot be cut
out of the document. -/
def Delimiters.extract (d : Delimiters) (document : List Char) (start : Nat) :
    Option (Option (List Char × Nat)) :=
  match ByteScan.closing? d ⟨1, false, false⟩ ((utf8 document).drop start) with
  | some size =>
    (slice? start (start + size) document).map fun inner => some (inner, start + size + 1)
  | none => some none

theorem Delimiters.extract_append (d : Delimiters) (before text : List Char) :
    d.extract (before ++ text) (byteSize before) =
      some ((balanced d.opening d.closing text).map fun (inner, _) =>
        (inner, byteSize (before ++ inner ++ [d.closing]))) := by
  have hscan : ByteScan.closing? d ⟨1, false, false⟩ (utf8 text) =
      (balanced d.opening d.closing text).map fun (inner, _) => byteSize inner := by
    rw [balanced, ← ByteScan.closing?_utf8]
    rfl
  rw [extract, drop_utf8, hscan]
  cases hfound : balanced d.opening d.closing text with
  | none => rfl
  | some found =>
    obtain ⟨inner, rest⟩ := found
    obtain rfl := eq_of_balanced hfound
    simp only [Option.map_some, slice?_append, Text.byteSize_append, Text.byteSize_cons,
      Text.byteSize_nil, d.closing_size]

/-- The delimiter that matches one opened before a text is found wherever there is one, and there
is no other; where there is none, none is found. A scan of the bytes of a document, from one
between two characters on, cuts the document only where it can be cut, and comes to the same: the
text before the delimiter and the position behind it. -/
theorem balanced_iff_delimits (d : Delimiters) (before text : List Char) :
    (∀ inner rest, balanced d.opening d.closing text = some (inner, rest) ↔
      d.Delimits text inner rest) ∧
    (balanced d.opening d.closing text = none ↔ ∀ inner rest, ¬d.Delimits text inner rest) ∧
    (∀ inner rest inner' rest', d.Delimits text inner rest → d.Delimits text inner' rest' →
      inner' = inner ∧ rest' = rest) ∧
    (∀ inner next, d.extract (before ++ text) (byteSize before) = some (some (inner, next)) ↔
      ∃ rest, d.Delimits text inner rest ∧ next = byteSize (before ++ inner ++ [d.closing])) ∧
    (d.extract (before ++ text) (byteSize before) = some none ↔
      ∀ inner rest, ¬d.Delimits text inner rest) := by
  refine ⟨fun inner rest => d.balanced_eq_some_iff, d.balanced_eq_none_iff, ?_, ?_, ?_⟩
  · intro inner rest inner' rest' h h'
    rw [← Delimiters.balanced_eq_some_iff] at h h'
    exact Prod.mk.inj (Option.some.inj (h'.symm.trans h))
  · intro inner next
    rw [d.extract_append, Option.some.injEq, Option.map_eq_some_iff]
    constructor
    · rintro ⟨⟨found, rest⟩, hfound, heq⟩
      obtain ⟨rfl, rfl⟩ := Prod.mk.inj heq
      exact ⟨rest, d.balanced_eq_some_iff.1 hfound, rfl⟩
    · rintro ⟨rest, hdelimits, rfl⟩
      exact ⟨(inner, rest), d.balanced_eq_some_iff.2 hdelimits, rfl⟩
  · rw [d.extract_append, Option.some.injEq, Option.map_eq_none_iff, d.balanced_eq_none_iff]

theorem balanced_iff_delimits_escaped :
    Delimiters.parentheses.Delimits "\"\\é)\") x".toList "\"\\é)\"".toList " x".toList ∧
      Delimiters.parentheses.extract ("f(".toList ++ "\"\\é)\") x".toList) 2 =
        some (some ("\"\\é)\"".toList, 9)) := by
  obtain ⟨hfound, -, -, hbytes, -⟩ :=
    balanced_iff_delimits .parentheses "f(".toList "\"\\é)\") x".toList
  have hdelimits := (hfound "\"\\é)\"".toList " x".toList).1 (by decide)
  exact ⟨hdelimits, (hbytes _ _).2 ⟨_, hdelimits, by decide⟩⟩

end Flipbook.Document
