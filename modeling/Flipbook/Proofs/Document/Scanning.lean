import Flipbook.Proofs.Document.Placement

/-!
# Scanning a document for its segments

`readSegments` reads the text of the segment list and knows nothing around it. Here the same
declarations are looked for in the whole document, with a position for where the scan is and one
for where the list stops: white space is skipped and characters are looked at wherever they are,
everything else is cut out of the document first. Each cut can fail, and the search could go on
without end.

* `Scan`: computations that may break off.
* `scanDeclaration`, `scanSegment`: what a marker comes to.
* `Scans`: the search for markers, one after the other.
* `Inside.scanDeclaration_eq`, `Inside.scanSegment_eq`: on a text inside the list nothing breaks
  off, and the text alone counts.
* `exists_placed`: so it is for all segments of a list, one marker after the other.
* `scans_inside`: the segments of a list do not depend on what stands around it.
-/
namespace Flipbook.Document

open Text (Remainder byteSize)

/-! ## Cutting a document -/

/-- The text from a byte on, which must not be in the middle of a character or beyond the end. -/
def after? (start : Nat) (text : List Char) : Option (List Char) :=
  match Text.fromByte start text with
  | some (0, rest) => some rest
  | _ => none

/-- The text up to a byte, which must not be in the middle of a character or beyond the end. -/
def upTo? (stop : Nat) (text : List Char) : Option (List Char) :=
  (after? stop text).map fun rest => text.take (text.length - rest.length)

/-- The text between two bytes, in this order. -/
def slice? (start stop : Nat) (text : List Char) : Option (List Char) :=
  (upTo? stop text).bind (after? start)

theorem after?_append (left right : List Char) :
    after? (byteSize left) (left ++ right) = some right := by
  have hfrom : Text.fromByte (byteSize left) (left ++ right) = some (0, right) := by
    induction left with
    | nil =>
      rw [Text.byteSize_nil, List.nil_append]
      unfold Text.fromByte
      rfl
    | cons c left ih =>
      have hpos := c.utf8Size_pos
      obtain ⟨n, hn⟩ : ∃ n, byteSize (c :: left) = n + 1 :=
        Nat.exists_eq_succ_of_ne_zero (by rw [Text.byteSize_cons]; omega)
      have hsize := Text.byteSize_cons c left
      rw [hn, List.cons_append, Text.fromByte, if_neg (by omega)]
      rw [show n + 1 - c.utf8Size = byteSize left by omega]
      exact ih
  rw [after?, hfrom]
  rfl

theorem upTo?_append (left right : List Char) :
    upTo? (byteSize left) (left ++ right) = some left := by
  rw [upTo?, after?_append]
  simp

theorem slice?_append (before text behind : List Char) :
    slice? (byteSize before) (byteSize before + byteSize text) (before ++ (text ++ behind)) =
      some text := by
  rw [slice?, ← Text.byteSize_append, ← List.append_assoc, upTo?_append]
  exact after?_append before text

/-! ## The scan -/

/-- A computation that scans a document. It breaks off where it cuts the document at a byte
where it cannot be cut, and else it comes to a value or an error. -/
abbrev Scan := ExceptT Error Option

namespace Scan

variable {α β γ δ : Type}

/-- What a computation comes to, unless it breaks off. -/
def result (x : Scan α) : Option (Except Error α) := x

/-- A computation that only may break off. -/
def ofOption (x : Option α) : Scan α := ExceptT.lift x

/-- A computation that only may come to an error. -/
def ofExcept (x : Except Error α) : Scan α := ExceptT.mk (some x)

/-- The part of a document between two positions. -/
def slice (start stop : Nat) (document : List Char) : Scan (List Char) :=
  ofOption (slice? start stop document)

theorem result_pure (a : α) : (pure a : Scan α).result = some (.ok a) := rfl

theorem result_ofExcept (x : Except Error α) : (ofExcept x).result = some (x.map id) := by
  cases x <;> rfl

/-- A computation goes on with what it has come to. -/
theorem result_bind_of_ok {x : Scan α} {a : α} (h : x.result = some (.ok a)) (f : α → Scan β) :
    (x >>= f).result = (f a).result := by
  show (Option.bind x.result (ExceptT.bindCont f) : Option _) = _
  rw [h]
  rfl

/-- A computation does not go on behind an error. -/
theorem result_bind_of_error {x : Scan α} {e : Error} (h : x.result = some (.error e))
    (f : α → Scan β) : (x >>= f).result = some (.error e) := by
  show (Option.bind x.result (ExceptT.bindCont f) : Option _) = _
  rw [h]
  rfl

/-- Where every step comes to what a step of another computation does, the whole does. -/
theorem result_bind {x : Scan α} {y : Except Error γ} {r : γ → α}
    (hx : x.result = some (y.map r)) {f : α → Scan β} {g : γ → Except Error δ} {s : δ → β}
    (hf : ∀ c, y = .ok c → (f (r c)).result = some ((g c).map s)) :
    (x >>= f).result = some ((y >>= g).map s) := by
  show (Option.bind x.result (ExceptT.bindCont f) : Option _) = _
  rw [hx]
  cases y with
  | error e => rfl
  | ok c => exact hf c rfl

end Scan

/-- The position of what follows the white space at a position. -/
def skipBlanks (document : List Char) (position : Nat) : Scan Nat := do
  let rest ← Scan.ofOption (after? position document)
  return position + byteSize (rest.takeWhile Text.isBlank)

/-- Whether a character stands at a position. -/
def standsAt (c : Char) (document : List Char) (position : Nat) : Scan Bool := do
  let rest ← Scan.ofOption (after? position document)
  return rest.head? = some c

/-- The text up to the delimiter that closes one opened before a position, and the position
behind it. -/
def scanEnclosed (opening closing : Char) (document : List Char) (stop start : Nat)
    (missing : Error) : Scan (List Char × Nat) := do
  match balanced opening closing (← Scan.slice start stop document) with
  | some (inner, _) =>
    let last := start + byteSize inner
    return (← Scan.slice start last document, last + 1)
  | none => throw missing

/-- The properties in braces at a position. -/
def scanProperties (document : List Char) (stop position : Nat) : Scan (List Char × Nat) := do
  if ← standsAt '\x7b' document position then
    scanEnclosed '\x7b' '\x7d' document stop (position + 1)
      (.illFormed position .unterminatedBrace)
  else throw (.illFormed position .noProperties)

/-- The corrector at a position, if there is one. -/
def scanCorrector (document : List Char) (stop position : Nat) :
    Scan (Option Corrector × Nat) := do
  if ← standsAt '@' document position then
    let start := position + 1
    match Text.cut '(' (← Scan.slice start stop document) with
    | some (left, _) =>
      let paren := start + byteSize left
      let (argument, close) ← scanEnclosed '(' ')' document stop (paren + 1)
        (.illFormed paren .unterminatedParen)
      let name ← Scan.slice start paren document
      return (some ⟨Text.trim name, argument⟩, ← skipBlanks document close)
    | none => throw (.illFormed start .noArgument)
  else return (none, position)

/-- The declaration behind a marker that ends at a position. -/
def scanDeclaration (document : List Char) (stop position : Nat) : Scan (Declaration × Nat) := do
  let behind ← Scan.slice position stop document
  let wordEnd := position + byteSize (behind.takeWhile (!endsKind ·))
  let word ← Scan.slice position wordEnd document
  let kind ← Scan.ofExcept (BlockKind.ofName (String.ofList (Text.trim word)))
  let (found, next) ← scanCorrector document stop (← skipBlanks document wordEnd)
  let (properties, close) ← scanProperties document stop next
  return (⟨kind, found, properties⟩, close)

/-- The size of a text between delimiters of one byte. -/
theorem byteSize_between {opening closing : Char} (hopening : opening.utf8Size = 1)
    (hclosing : closing.utf8Size = 1) (inner : List Char) :
    byteSize (opening :: (inner ++ [closing])) = 1 + byteSize inner + 1 := by
  rw [Text.byteSize_cons, Text.byteSize_append, Text.byteSize_cons, Text.byteSize_nil, hopening,
    hclosing, Nat.add_assoc]

/-- The name of a kind holds no white space. -/
theorem trim_kind (text : List Char) :
    Text.trim (text.takeWhile (!endsKind ·)) = text.takeWhile (!endsKind ·) := by
  have hall : ∀ c ∈ text.takeWhile (!endsKind ·), Text.isBlank c = false := by
    intro c hc
    have hnot := List.all_eq_true.1 List.all_takeWhile c hc
    simp only [endsKind, Bool.not_eq_true', Bool.or_eq_false_iff] at hnot
    exact hnot.2
  exact Text.stripWhile_eq_self_iff.2 ⟨fun c hc => hall c (List.mem_of_mem_head? hc),
    fun c hc => hall c (List.mem_of_mem_getLast? hc)⟩

/-! ## The segments -/

/-- A segment, with the bytes of the document on which it is declared. -/
structure Placed where
  start : Nat
  stop : Nat
  segment : Segment

/-- The same segment further on. -/
def Placed.moved (distance : Nat) (p : Placed) : Placed :=
  ⟨distance + p.start, distance + p.stop, p.segment⟩

theorem Placed.moved_moved (distance more : Nat) :
    Placed.moved distance ∘ Placed.moved more = Placed.moved (distance + more) := by
  funext p
  simp only [Function.comp_apply, Placed.moved, Nat.add_assoc]

theorem Placed.segment_moved (distance : Nat) :
    Placed.segment ∘ Placed.moved distance = Placed.segment :=
  rfl

/-- Segments one after the other, on the bytes of a text of the given size. -/
def InOrder (size : Nat) (placed : List Placed) : Prop :=
  (∀ p ∈ placed, p.start < p.stop ∧ p.stop ≤ size) ∧ placed.Pairwise fun p q => p.stop ≤ q.start

/-- Segments stay in order behind a text that holds one segment or none. -/
theorem InOrder.append_moved {done size : Nat} {first : Option Placed} {later : List Placed}
    (h : InOrder size later) (hfirst : ∀ p ∈ first, p.start < p.stop ∧ p.stop ≤ done) :
    InOrder (done + size) (first.toList ++ later.map (.moved done)) := by
  obtain ⟨hspans, hordered⟩ := h
  refine ⟨fun p hp => ?_, List.pairwise_append.2 ⟨?_, ?_, fun p hp q hq => ?_⟩⟩
  · rcases List.mem_append.1 hp with hp | hp
    · obtain ⟨hspan, hstop⟩ := hfirst p (Option.mem_toList.1 hp)
      exact ⟨hspan, by omega⟩
    · obtain ⟨q, hq, rfl⟩ := List.mem_map.1 hp
      obtain ⟨hspan, hstop⟩ := hspans q hq
      exact ⟨Nat.add_lt_add_left hspan done, Nat.add_le_add_left hstop done⟩
  · cases first <;> simp
  · exact List.pairwise_map.2 (hordered.imp fun hpq => Nat.add_le_add_left hpq done)
  · obtain ⟨q, -, rfl⟩ := List.mem_map.1 hq
    exact Nat.le_trans (hfirst p (Option.mem_toList.1 hp)).2 (Nat.le_add_right done q.start)

/-- What comes of a marker: a segment, unless it is skipped, and the position where the search
goes on. -/
def scanSegment (config : Config) (texture : Texture) (document : List Char)
    (stop index marker : Nat) : Option (Noted (Option Placed × Nat)) :=
  (scanDeclaration document stop (behindMarker marker)).result.map fun found =>
    let read : Reading (Segment × Nat) := do
      let (declared, close) ← Reading.ofExcept found
      return (← declared.segment config index, close)
    read.outcome >>= fun
      | .ok (segment, close) =>
        ⟨(some ⟨marker, close, segment⟩, close),
          [.segmentRead segment.kind.name segment.name texture]⟩
      | .error e => ⟨(none, behindMarker marker), [.segmentSkipped marker texture e]⟩

/-- What the search for segments comes to, from a position on and up to where the list stops. It
comes to nothing where it breaks off or does not end. -/
inductive Scans (config : Config) (texture : Texture) (document : List Char) (stop : Nat) :
    Nat → Nat → Noted (List Placed) → Prop
  | last {index position : Nat} {text : List Char}
      (htext : slice? position stop document = some text)
      (hnone : Text.breakOn segmentMarker text = none) :
      Scans config texture document stop index position ⟨[], []⟩
  | marker {index position : Nat} {text left right : List Char}
      {step : Noted (Option Placed × Nat)} {later : Noted (List Placed)}
      (htext : slice? position stop document = some text)
      (hmarker : Text.breakOn segmentMarker text = some (left, right))
      (hstep : scanSegment config texture document stop index (position + byteSize left) =
        some step)
      (hlater : Scans config texture document stop (index + 1) step.value.2 later) :
      Scans config texture document stop index position
        ⟨step.value.1.toList ++ later.value, step.notices ++ later.notices⟩

/-- The search comes to one result at most. -/
theorem Scans.unique {config : Config} {texture : Texture} {document : List Char}
    {stop index position : Nat} {r r' : Noted (List Placed)}
    (h : Scans config texture document stop index position r)
    (h' : Scans config texture document stop index position r') : r' = r := by
  induction h generalizing r' with
  | last htext hnone =>
    cases h' with
    | last htext' hnone' => rfl
    | marker htext' hmarker' =>
      obtain rfl := Option.some.inj (htext.symm.trans htext')
      rw [hnone] at hmarker'
      cases hmarker'
  | marker htext hmarker hstep hlater ih =>
    cases h' with
    | last htext' hnone' =>
      obtain rfl := Option.some.inj (htext.symm.trans htext')
      rw [hmarker] at hnone'
      cases hnone'
    | marker htext' hmarker' hstep' hlater' =>
      obtain rfl := Option.some.inj (htext.symm.trans htext')
      obtain ⟨rfl, rfl⟩ := Prod.mk.inj (Option.some.inj (hmarker.symm.trans hmarker'))
      obtain rfl := Option.some.inj (hstep.symm.trans hstep')
      rw [ih hlater']

theorem Scans.iff_eq {config : Config} {texture : Texture} {document : List Char}
    {stop index position : Nat} {r : Noted (List Placed)}
    (h : Scans config texture document stop index position r) (r' : Noted (List Placed)) :
    Scans config texture document stop index position r' ↔ r' = r :=
  ⟨h.unique, fun heq => heq ▸ h⟩

/-! ## Texts inside the list -/

/-- A text that starts at a position of a document and reaches to where the list stops: to the
end of the document or before a closing brace. -/
def Inside (document : List Char) (stop position : Nat) (text : List Char) : Prop :=
  ∃ before behind, document = before ++ (text ++ behind) ∧ position = byteSize before ∧
    stop = position + byteSize text ∧ ∀ c ∈ behind.head?, c = '\x7d'

namespace Inside

variable {document text part rest : List Char} {stop position : Nat}

/-- A look at the document goes past the end of the text, but sees no more than a brace there. -/
theorem result_after (h : Inside document stop position text) :
    ∃ behind, (Scan.ofOption (after? position document)).result = some (.ok (text ++ behind)) ∧
      ∀ c ∈ behind.head?, c = '\x7d' := by
  obtain ⟨before, behind, rfl, rfl, -, hbehind⟩ := h
  refine ⟨behind, ?_, hbehind⟩
  rw [after?_append]
  rfl

theorem slice?_eq (h : Inside document stop position text) :
    slice? position stop document = some text := by
  obtain ⟨before, behind, rfl, rfl, rfl, -⟩ := h
  exact slice?_append before text behind

theorem slice?_part (h : Inside document stop position (part ++ rest)) :
    slice? position (position + byteSize part) document = some part := by
  obtain ⟨before, behind, rfl, rfl, -⟩ := h
  rw [List.append_assoc]
  exact slice?_append before part (rest ++ behind)

/-- What is left of the text behind a part of it. -/
theorem behind (h : Inside document stop position (part ++ rest)) :
    Inside document stop (position + byteSize part) rest := by
  obtain ⟨before, behind, rfl, rfl, rfl, hbehind⟩ := h
  refine ⟨before ++ part, behind, by simp, by simp, ?_, hbehind⟩
  rw [Text.byteSize_append, Nat.add_assoc]

/-- What is left behind a character of one byte. -/
theorem tail {c : Char} (h : Inside document stop position (c :: text)) (hc : c.utf8Size = 1) :
    Inside document stop (position + 1) text := by
  have htail : Inside document stop (position + byteSize [c]) text := h.behind
  rwa [Text.byteSize_cons, hc] at htail

/-- What a reader leaves of the text is inside if it is the end of it. -/
theorem remainder (h : Inside document stop position text) (r : Remainder position text)
    (hsuffix : r.rest.1 <:+ text) : Inside document stop r.position r.rest.1 := by
  obtain ⟨part, hpart⟩ := hsuffix
  rw [r.position_eq hpart.symm]
  rw [← hpart] at h
  exact h.behind

theorem standsAt_eq (h : Inside document stop position text) {c : Char} (hc : c ≠ '\x7d') :
    (standsAt c document position).result = some (.ok (decide (text.head? = some c))) := by
  obtain ⟨behind, hafter, hbehind⟩ := h.result_after
  have hhead : (text ++ behind).head? = some c ↔ text.head? = some c := by
    cases text with
    | nil => exact iff_of_false (fun hhead => hc (hbehind c hhead)) nofun
    | cons d text => exact Iff.rfl
  rw [standsAt, Scan.result_bind_of_ok hafter, Scan.result_pure]
  simp only [hhead]

theorem result_slice (h : Inside document stop position text) :
    (Scan.slice position stop document).result = some (.ok text) := by
  rw [Scan.slice, h.slice?_eq]
  rfl

theorem result_slice_part (h : Inside document stop position (part ++ rest)) :
    (Scan.slice position (position + byteSize part) document).result = some (.ok part) := by
  rw [Scan.slice, h.slice?_part]
  rfl

theorem skipBlanks_eq (h : Inside document stop position text) :
    (skipBlanks document position).result =
      some (.ok (Remainder.dropWhile Text.isBlank position text).position) := by
  obtain ⟨behind, hafter, hbehind⟩ := h.result_after
  have hblank : ∀ c ∈ behind.head?, Text.isBlank c = false := by
    intro c hc
    rw [hbehind c hc]
    decide
  rw [skipBlanks, Scan.result_bind_of_ok hafter, Scan.result_pure,
    (Text.takeWhile_append_of_head? text hblank).1]
  rfl

theorem scanEnclosed_eq (h : Inside document stop position text) {opening closing : Char}
    {missing : Error} :
    (scanEnclosed opening closing document stop position missing).result =
      match balanced opening closing text with
      | some (inner, _) => some (.ok (inner, position + byteSize inner + 1))
      | none => some (.error missing) := by
  rw [scanEnclosed, Scan.result_bind_of_ok h.result_slice]
  cases hb : balanced opening closing text with
  | some found =>
    obtain ⟨inner, rest⟩ := found
    rw [eq_of_balanced hb] at h
    exact Scan.result_bind_of_ok h.result_slice_part _
  | none => rfl

theorem scanProperties_eq (h : Inside document stop position text) :
    (scanProperties document stop position).result =
      some ((propertyBraces position text).map fun (inner, r) => (inner, r.position)) := by
  rw [scanProperties, Scan.result_bind_of_ok (h.standsAt_eq (by decide))]
  by_cases hopen : text.head? = some '\x7b'
  · obtain ⟨body, rfl⟩ := List.head?_eq_some_iff.1 hopen
    have hbody : Inside document stop (position + 1) body := h.tail rfl
    rw [if_pos (decide_eq_true hopen), hbody.scanEnclosed_eq]
    cases hbalanced : balanced '\x7b' '\x7d' body with
    | none =>
      rw [propertyBraces_of_unbalanced rfl hbalanced]
      rfl
    | some found =>
      obtain ⟨inner, rest⟩ := found
      obtain ⟨rfl, hinner⟩ := balanced_eq_some_iff.1 hbalanced
      obtain ⟨r, hr, hrest⟩ :
          ∃ r, propertyBraces position ('\x7b' :: (inner ++ '\x7d' :: rest)) = .ok (inner, r) ∧
            r.rest.1 = rest := propertyBraces_eq hinner rfl position
      have htaken : '\x7b' :: (inner ++ '\x7d' :: rest) =
          ('\x7b' :: (inner ++ ['\x7d'])) ++ r.rest.1 := by
        rw [hrest]
        simp
      have hposition : r.position = position + 1 + byteSize inner + 1 := by
        rw [r.position_eq htaken, byteSize_between rfl rfl]
        omega
      rw [hr]
      dsimp only
      rw [← hposition]
      rfl
  · rw [if_neg (by simpa using hopen), propertyBraces_of_not_opening hopen]
    rfl

theorem scanCorrector_eq (h : Inside document stop position text) :
    (scanCorrector document stop position).result =
      some ((optionalCorrector position text).map fun (found, r) => (found, r.position)) := by
  rw [scanCorrector, Scan.result_bind_of_ok (h.standsAt_eq (by decide))]
  by_cases hsign : text.head? = some '@'
  · obtain ⟨body, rfl⟩ := List.head?_eq_some_iff.1 hsign
    have hbody : Inside document stop (position + 1) body := h.tail rfl
    rw [if_pos (decide_eq_true hsign)]
    dsimp only
    rw [Scan.result_bind_of_ok hbody.result_slice, optionalCorrector_sign]
    cases hcut : Text.cut '(' body with
    | none =>
      rw [corrector_of_cut_none hcut]
      rfl
    | some found =>
      obtain ⟨name, inside⟩ := found
      obtain ⟨rfl, -⟩ := Text.eq_of_cut hcut
      have hinside : Inside document stop (position + 1 + byteSize name + 1) inside :=
        hbody.behind.tail rfl
      cases hbalanced : balanced '(' ')' inside with
      | none =>
        rw [corrector_of_unbalanced hcut hbalanced]
        refine Scan.result_bind_of_error ?_ _
        rw [hinside.scanEnclosed_eq, hbalanced]
      | some found =>
        obtain ⟨argument, rest⟩ := found
        obtain ⟨r, hr, hrest⟩ := corrector_of_balanced hcut hbalanced (position + 1)
        obtain rfl := eq_of_balanced hbalanced
        have htaken : name ++ '(' :: (argument ++ ')' :: rest) =
            (name ++ '(' :: (argument ++ [')'])) ++ r.rest.1 := by
          rw [hrest]
          simp
        have hposition : r.position = position + 1 + byteSize name + 1 + byteSize argument + 1 := by
          rw [r.position_eq htaken, Text.byteSize_append, byteSize_between rfl rfl]
          omega
        have henclosed : (scanEnclosed '(' ')' document stop (position + 1 + byteSize name + 1)
            (.illFormed (position + 1 + byteSize name) .unterminatedParen)).result =
              some (.ok (argument, r.position)) := by
          rw [hinside.scanEnclosed_eq, hbalanced, hposition]
        have hbehind := hbody.remainder r ⟨_, htaken.symm⟩
        rw [hr]
        dsimp only
        rw [Scan.result_bind_of_ok henclosed, Scan.result_bind_of_ok hbody.result_slice_part,
          Scan.result_bind_of_ok hbehind.skipBlanks_eq]
        rfl
  · rw [if_neg (by simpa using hsign), optionalCorrector_of_not_sign hsign]
    rfl

/-- A declaration in the list is read from the text of the list alone. -/
theorem scanDeclaration_eq (h : Inside document stop position text) :
    (scanDeclaration document stop position).result =
      some ((declaration position text).map fun (d, r) => (d, r.position)) := by
  have hparts : text = text.takeWhile (!endsKind ·) ++ text.dropWhile (!endsKind ·) :=
    List.takeWhile_append_dropWhile.symm
  have hword : Inside document stop position
      (text.takeWhile (!endsKind ·) ++ text.dropWhile (!endsKind ·)) := by
    rwa [← hparts]
  rw [scanDeclaration, Scan.result_bind_of_ok h.result_slice,
    Scan.result_bind_of_ok hword.result_slice_part, trim_kind]
  refine Scan.result_bind (r := id) (Scan.result_ofExcept _) fun kind _ => ?_
  rw [Scan.result_bind_of_ok hword.behind.skipBlanks_eq]
  have hhead := hword.behind.remainder (.dropWhile Text.isBlank _ _) (List.dropWhile_suffix _)
  refine Scan.result_bind hhead.scanCorrector_eq fun ⟨found, r⟩ hfound => ?_
  have hbraces := hhead.remainder r (optionalCorrector_ok hfound).1
  refine Scan.result_bind hbraces.scanProperties_eq fun ⟨properties, r⟩ _ => ?_
  rfl

/-- What comes of a marker in the list comes from the text of the list alone. -/
theorem scanSegment_eq {marker : Nat} (h : Inside document stop (behindMarker marker) text)
    (config : Config) (texture : Texture) (index : Nat) :
    scanSegment config texture document stop index marker =
      let step := readSegment config texture index marker text
      some ⟨(step.value.segment.map (⟨marker, step.value.remainder.position, ·⟩),
        step.value.remainder.position), step.notices⟩ := by
  unfold scanSegment readSegment
  rw [h.scanDeclaration_eq, Option.map_some]
  cases declaration (behindMarker marker) text with
  | error e => rfl
  | ok found =>
    obtain ⟨d, r⟩ := found
    simp only [Except.map, ofExcept_ok_bind]
    generalize d.segment config index = read
    cases read with
    | mk outcome notices => cases outcome <;> rfl

end Inside

/-- The segments declared in the rest of a list, whatever the document is that it stands in: the
scan finds those that are read from the text alone, where they are in it and one after the
other. -/
theorem exists_placed (config : Config) (texture : Texture) (index : Nat) (text : List Char) :
    ∃ placed : List Placed,
      (∀ document stop position, Inside document stop position text →
        Scans config texture document stop index position
            ⟨placed.map (.moved position),
              (readSegments config texture index position text).notices⟩ ∧
          (readSegments config texture index position text).value = placed.map Placed.segment) ∧
      InOrder (byteSize text) placed := by
  -- what a marker leaves of the text is shorter, and is the same wherever the text stands
  induction hlength : text.length using Nat.strongRecOn generalizing index text with
  | _ length ih =>
    cases hbreak : Text.breakOn segmentMarker text with
    | none =>
      refine ⟨[], fun document stop position h => ?_, by simp, .nil⟩
      rw [readSegments_none hbreak]
      exact ⟨.last h.slice?_eq hbreak, rfl⟩
    | some found =>
      obtain ⟨left, right⟩ := found
      obtain ⟨htext, tail, rfl⟩ := Text.eq_of_breakOn hbreak
      obtain ⟨segment, part, rest, rfl, hstep⟩ := exists_part config texture index tail
      have htaken : text = (left ++ (segmentMarker ++ part)) ++ rest := by
        rw [htext]
        simp only [List.append_assoc]
      have hshorter : rest.length < length := by
        have hpos : 0 < segmentMarker.length := by decide
        rw [← hlength, htaken]
        simp only [List.length_append]
        omega
      obtain ⟨later, hlater, horder⟩ := ih rest.length hshorter (index + 1) rest rfl
      generalize hdone : byteSize (left ++ (segmentMarker ++ part)) = done at *
      have hmarker : byteSize left < done := by
        have hpos : 0 < byteSize segmentMarker := by decide
        rw [← hdone]
        simp only [Text.byteSize_append]
        omega
      refine ⟨(segment.map (⟨byteSize left, done, ·⟩)).toList ++ later.map (.moved done), ?_, ?_⟩
      · intro document stop position h
        obtain ⟨hsegment, hrest, hposition⟩ := hstep (position + byteSize left)
        have hnext : behindMarker (position + byteSize left) + byteSize part = position + done := by
          rw [← hdone, behindMarker]
          simp only [Text.byteSize_append]
          omega
        have hinside : Inside document stop (position + done) rest := by
          rw [htaken] at h
          rw [← hdone]
          exact h.behind
        obtain ⟨hscan, hread⟩ := hlater document stop _ hinside
        have hmarks : Inside document stop (behindMarker (position + byteSize left))
            (part ++ rest) := by
          rw [htext] at h
          exact h.behind.behind
        have hfound := hmarks.scanSegment_eq config texture index
        dsimp only at hfound
        rw [hsegment, hposition, hnext] at hfound
        have hscans := Scans.marker h.slice?_eq hbreak hfound hscan
        rw [readSegments_of_breakOn hbreak config texture index position]
        dsimp only
        rw [hsegment, hposition, hnext, hrest, hread, List.map_append, List.map_append,
          List.map_map, List.map_map, Placed.moved_moved, Placed.segment_moved]
        cases segment with
        | none => exact ⟨hscans, rfl⟩
        | some s => exact ⟨hscans, rfl⟩
      · rw [htaken, Text.byteSize_append, hdone]
        refine horder.append_moved fun p hp => ?_
        obtain ⟨s, -, rfl⟩ := Option.map_eq_some_iff.1 hp
        exact ⟨hmarker, Nat.le_refl done⟩

/-! ## Segment lists -/

/-- The position where a segment list stops. -/
def Layout.stop (layout : Layout) : Nat := layout.start + byteSize layout.list

theorem Layout.inside_of {document : List Char} {layout : Layout}
    (h : Layout.of document = .ok layout) :
    Inside document layout.stop layout.start layout.list := by
  obtain ⟨before, behind, hparts, hstart, hbehind⟩ := Layout.exists_around h
  exact ⟨before, behind, hparts, hstart, rfl, hbehind⟩

theorem inside_alone (text : List Char) : Inside text (byteSize text) 0 text :=
  ⟨[], [], by simp, rfl, (Nat.zero_add _).symm, by simp⟩

/-- The search for the segments of a list cuts the document only where it can be cut, and comes to
an end. It finds what is read from the list alone, in the list, one behind the other. A search of
the list alone finds the same, and so does any search of this list in its place: what stands
around it makes no difference. -/
theorem scans_inside (config : Config) (texture : Texture) {document : List Char}
    {layout : Layout} (h : Layout.of document = .ok layout) :
    ∃ placed : List Placed,
      (∀ r, Scans config texture document layout.stop 0 layout.start r ↔
        r = ⟨placed, (readSegments config texture 0 layout.start layout.list).notices⟩) ∧
      placed.map Placed.segment =
        (readSegments config texture 0 layout.start layout.list).value ∧
      (∀ p ∈ placed, layout.start ≤ p.start ∧ p.start < p.stop ∧ p.stop ≤ layout.stop) ∧
      placed.Pairwise (fun p q => p.stop ≤ q.start) ∧
      (∃ alone, (∀ r, Scans config texture layout.list (byteSize layout.list) 0 0 r ↔ r = alone) ∧
        placed = alone.value.map (.moved layout.start)) ∧
      Inside document layout.stop layout.start layout.list ∧
      ∀ other, Inside other layout.stop layout.start layout.list → ∀ r,
        Scans config texture other layout.stop 0 layout.start r ↔
          Scans config texture document layout.stop 0 layout.start r := by
  have hinside := Layout.inside_of h
  obtain ⟨placed, hscan, hspans, hordered⟩ := exists_placed config texture 0 layout.list
  obtain ⟨hdocument, hread⟩ := hscan document layout.stop layout.start hinside
  obtain ⟨halone, -⟩ := hscan layout.list _ 0 (inside_alone layout.list)
  refine ⟨_, hdocument.iff_eq, ?_, fun p hp => ?_, ?_, ⟨_, halone.iff_eq, ?_⟩, hinside,
    fun other hother r => ?_⟩
  · rw [hread, List.map_map, Placed.segment_moved]
  · obtain ⟨q, hq, rfl⟩ := List.mem_map.1 hp
    obtain ⟨hspan, hstop⟩ := hspans q hq
    exact ⟨Nat.le_add_right _ _, Nat.add_lt_add_left hspan _, Nat.add_le_add_left hstop _⟩
  · exact List.pairwise_map.2 (hordered.imp fun hpq => Nat.add_le_add_left hpq layout.start)
  · rw [List.map_map, Placed.moved_moved, Nat.add_zero]
  · rw [hdocument.iff_eq, (hscan other layout.stop layout.start hother).1.iff_eq]

/-- The argument of the first corrector is closed only behind the list. -/
def unclosedDocument : List Char :=
  ("\"animation\" \x7b segments \x7b segment!SEQUENCE @event(x \x7b \x7d " ++
    "segment!SINGLE_FRAME @event(y) \x7b frame_index = 2 \x7d \x7d ) \x7d").toList

/-- Its layout. -/
def unclosedLayout : Layout where
  header := " ; ) ".toList
  start := 24
  list := (" segment!SEQUENCE @event(x \x7b \x7d " ++
    "segment!SINGLE_FRAME @event(y) \x7b frame_index = 2 \x7d ").toList

theorem scans_inside_unclosed :
    Layout.of unclosedDocument = .ok unclosedLayout ∧
      ∃ placed : List Placed,
        Scans .standard ⟨"minecraft", "item/clock"⟩ unclosedDocument unclosedLayout.stop 0 24
          ⟨placed, (readSegments .standard ⟨"minecraft", "item/clock"⟩ 0 24
            unclosedLayout.list).notices⟩ ∧
        placed.map (·.segment.name) = ["segment_1"] ∧
        ∀ p ∈ placed, 24 ≤ p.start ∧ p.start < p.stop ∧ p.stop ≤ unclosedLayout.stop := by
  have hlayout : Layout.of unclosedDocument = .ok unclosedLayout := by
    have hsome : (Layout.of unclosedDocument).toOption = some unclosedLayout := by decide +kernel
    cases hof : Layout.of unclosedDocument with
    | error e =>
      rw [hof] at hsome
      cases hsome
    | ok layout =>
      rw [hof] at hsome
      rw [Option.some.inj hsome]
  obtain ⟨placed, hscan, hread, hspans, -⟩ :=
    scans_inside .standard ⟨"minecraft", "item/clock"⟩ hlayout
  have hnames : (readSegments .standard ⟨"minecraft", "item/clock"⟩ 0 24
      unclosedLayout.list).value.map (·.name) = ["segment_1"] := by
    decide +kernel
  refine ⟨hlayout, placed, (hscan _).2 rfl, ?_, hspans⟩
  have hsegments := congrArg (List.map (·.name)) hread
  rw [List.map_map] at hsegments
  exact hsegments.trans hnames

end Flipbook.Document
