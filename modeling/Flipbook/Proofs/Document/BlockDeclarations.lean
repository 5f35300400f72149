import Flipbook.Proofs.Document.BlockWriting
import Flipbook.Proofs.Document.Overrun

/-!
# Declarations are read as they are written

The declaration of a segment is read as that segment, whatever stands in its name, its
event or its condition.

* `get?_blockProperties`: properties.
* `declaration_body`: the parts of a declaration.
* `outcome_segment_declaration`: the segment that comes of them.
-/
namespace Flipbook.Document

open Decimal (IsWord isWordChar frame?_naturalText integer?_integerText boolean?_booleanText
  isWord_naturalText isWord_integerText isWord_booleanText)

variable {text rest : List Char} {key : String} {value : List Char}
  {entries : List (String × List Char)}

/-! ## Values -/

/-- Whether a text can stand as the value of a property. -/
structure IsValue (value : List Char) : Prop where
  closed : Quoting.outside.after value = .outside
  bare : ∀ c ∈ Quoting.outside.bare value, isWordChar c = true
  trimmed : Text.trim value = value

theorem isValue_of_isWord (h : IsWord value) : IsValue value := by
  have hquote : '\x22' ∉ value := fun hc => absurd (h _ hc) (by decide)
  refine ⟨Quoting.after_outside hquote, ?_, h.trim⟩
  rw [Quoting.bare_outside hquote]
  exact h

/-! ### Texts in quotes -/

theorem Quotable.after_inQuotes (h : Quotable text) :
    Quoting.outside.after (inQuotes text) = .outside := by
  show Quoting.inside.after (text ++ ['\x22']) = .outside
  rw [Quoting.after_append, Quoting.after_inside h.quote h.backslash]
  rfl

theorem Quotable.bare_inQuotes (h : Quotable text) : Quoting.outside.bare (inQuotes text) = [] := by
  show Quoting.inside.bare (text ++ ['\x22']) = []
  rw [Quoting.bare_append, Quoting.after_inside h.quote h.backslash,
    Quoting.bare_inside h.quote h.backslash]
  rfl

theorem trim_inQuotes (text : List Char) : Text.trim (inQuotes text) = inQuotes text :=
  Text.stripWhile_between (by decide) (by decide) text

theorem Quotable.isValue (h : Quotable text) : IsValue (inQuotes text) where
  closed := h.after_inQuotes
  bare := by
    rw [h.bare_inQuotes]
    nofun
  trimmed := trim_inQuotes text

/-- Quotes are dropped, and nothing else. -/
theorem Quotable.unquote_inQuotes (h : Quotable text) : unquote (inQuotes text) = text := by
  have hstrip : Text.stripWhile (· ∈ margins) (['\x22'] ++ (text ++ ['\x22'])) = text :=
    Text.stripWhile_append (by decide) (by decide)
      (fun c hc => decide_eq_false (h.first c hc)) (fun c hc => decide_eq_false (h.last c hc))
  exact hstrip

theorem unquote_of_isWord (h : IsWord value) : unquote value = value := by
  have hmargins : ∀ c ∈ margins, isWordChar c = false := by decide
  refine h.stripWhile fun c hc => decide_eq_false fun hmem => ?_
  rw [hmargins c hmem] at hc
  cases hc

/-! ## Properties -/

/-- Whether a property can be written. -/
structure IsEntry (entry : String × List Char) : Prop where
  key : IsKey entry.1.toList
  value : IsValue entry.2

/-- What ends a property. -/
def endsEntry (c : Char) : Bool := c = ';' || c = ','

/-- The property in a text up to what ends it, if there is one. -/
def entry? (text : List Char) : Option (String × List Char) :=
  (Text.cut '=' text).map fun (key, value) => (String.ofList (unquote key), Text.trim value)

theorem blockProperties_eq (text : List Char) :
    blockProperties text = .ofList ((splitOutside endsEntry .outside text).filterMap entry?) := rfl

/-- A text is split at a separator behind a part that holds none outside its strings. -/
theorem splitOutside_append {sep : Char → Bool} {c : Char} (hc : sep c = true) (hquote : c ≠ '\x22')
    {q : Quoting} {piece : List Char} (hclosed : q.after piece = .outside)
    (hbare : ∀ c ∈ q.bare piece, sep c = false) (rest : List Char) :
    splitOutside sep q (piece ++ c :: rest) = piece :: splitOutside sep .outside rest := by
  induction piece generalizing q with
  | nil =>
    obtain rfl : q = .outside := hclosed
    have hcounts : Quoting.outside.counts c = true := Quoting.counts_iff.2 ⟨rfl, hquote⟩
    rw [List.nil_append, splitOutside, if_pos (by simp [hcounts, hc]),
      Quoting.next_of_counts hcounts]
  | cons a piece ih =>
    have hsep : ¬(q.counts a && sep a) = true := by
      intro h
      rw [Bool.and_eq_true] at h
      rw [Quoting.bare_cons_of_counts h.1] at hbare
      rw [hbare a List.mem_cons_self] at h
      cases h.2
    have hlater : ∀ c ∈ (q.next a).bare piece, sep c = false := by
      intro c hc
      refine hbare c ?_
      by_cases ha : q.counts a = true
      · rw [Quoting.bare_cons_of_counts ha]
        exact List.mem_cons_of_mem _ hc
      · rwa [Quoting.bare_cons_of_not_counts ha]
    rw [List.cons_append, splitOutside, if_neg hsep, ih hclosed hlater]

/-- The characters that stand outside strings in a property. -/
def isEntryChar (c : Char) : Bool := isWordChar c || c ∈ ['_', ' ', '=']

theorem endsEntry_of_isEntryChar {c : Char} (h : isEntryChar c = true) : endsEntry c = false := by
  rw [endsEntry, ← Bool.not_eq_true, Bool.or_eq_true, decide_eq_true_eq, decide_eq_true_eq]
  rintro (rfl | rfl) <;> exact absurd h (by decide)

namespace IsEntry

variable {entry : String × List Char}

theorem isEntryChar_head (h : IsEntry entry) : ∀ c ∈ entryHead entry, isEntryChar c = true := by
  intro c hc
  rw [entryHead, List.mem_cons, List.mem_append] at hc
  rcases hc with rfl | hc | hc
  · decide
  · rcases h.key c hc with hc | rfl
    · simp [isEntryChar, isWordChar, Char.isAlphanum, hc]
    · decide
  · have hall : ∀ c ∈ [' ', '=', ' '], isEntryChar c = true := by decide
    exact hall c hc

theorem quote_notMem_head (h : IsEntry entry) : '\x22' ∉ entryHead entry :=
  fun hc => absurd (h.isEntryChar_head _ hc) (by decide)

theorem closed (h : IsEntry entry) :
    Quoting.outside.after (entryHead entry ++ entry.2) = .outside := by
  rw [Quoting.after_append, Quoting.after_outside h.quote_notMem_head]
  exact h.value.closed

theorem bare (h : IsEntry entry) :
    ∀ c ∈ Quoting.outside.bare (entryHead entry ++ entry.2), isEntryChar c = true := by
  rw [Quoting.bare_append, Quoting.after_outside h.quote_notMem_head,
    Quoting.bare_outside h.quote_notMem_head]
  intro c hc
  rcases List.mem_append.1 hc with hc | hc
  · exact h.isEntryChar_head c hc
  · rw [isEntryChar, h.value.bare c hc, Bool.true_or]

/-- A property is read as it is written. -/
theorem reads_eq (h : IsEntry entry) : entry? (entryHead entry ++ entry.2) = some entry := by
  obtain ⟨key, value⟩ := entry
  have hcut : Text.cut '=' (entryHead (key, value) ++ value) =
      some ([' '] ++ (key.toList ++ [' ']), [' '] ++ (value ++ [])) := by
    have hkey : '=' ∉ [' '] ++ (key.toList ++ [' ']) := by
      simp [h.key.notMem (c := '=') (by decide) (by decide)]
    have hcut := Text.cut_append hkey ([' '] ++ (value ++ []))
    simpa [entryHead] using hcut
  have hmargin : ∀ c ∈ margins, c ∉ key.toList := by
    have hmargins : ∀ c ∈ margins, c.isAlpha = false ∧ c ≠ '_' := by decide
    exact fun c hc => h.key.notMem (hmargins c hc).1 (hmargins c hc).2
  have hstrip : unquote ([' '] ++ (key.toList ++ [' '])) = key.toList :=
    Text.stripWhile_append (by decide) (by decide)
      (fun c hc => decide_eq_false fun hmem => hmargin c hmem (List.mem_of_mem_head? hc))
      (fun c hc => decide_eq_false fun hmem => hmargin c hmem (List.mem_of_mem_getLast? hc))
  obtain ⟨hfirst, hlast⟩ := Text.stripWhile_eq_self_iff.1 h.value.trimmed
  have htrim : Text.trim ([' '] ++ (value ++ [])) = value :=
    Text.stripWhile_append (by decide) (by simp) hfirst hlast
  unfold entry?
  rw [hcut, Option.map_some]
  dsimp only
  rw [hstrip, htrim, String.ofList_toList]

end IsEntry

/-- Properties are read as they are written. -/
theorem filterMap_splitOutside_entriesText (h : ∀ entry ∈ entries, IsEntry entry)
    (hrest : (splitOutside endsEntry .outside rest).filterMap entry? = []) :
    (splitOutside endsEntry .outside (entriesText entries ++ rest)).filterMap entry? = entries := by
  induction entries with
  | nil => exact hrest
  | cons entry entries ih =>
    obtain ⟨hentry, hentries⟩ := List.forall_mem_cons.1 h
    have hsplit := splitOutside_append (c := ';') (by decide) (by decide) hentry.closed
      (fun c hc => endsEntry_of_isEntryChar (hentry.bare c hc)) (entriesText entries ++ rest)
    have htext : entriesText (entry :: entries) ++ rest =
        entryHead entry ++ entry.2 ++ ';' :: (entriesText entries ++ rest) := by
      simp [entriesText, entryText]
    rw [htext, hsplit, List.filterMap_cons_some hentry.reads_eq, ih hentries]

theorem get?_blockProperties (h : ∀ entry ∈ entries, IsEntry entry)
    (hkeys : (entries.map Prod.fst).Nodup)
    (hrest : (splitOutside endsEntry .outside rest).filterMap entry? = []) (key : String) :
    (blockProperties (entriesText entries ++ rest)).get? key = entries.lookup key := by
  rw [blockProperties_eq, filterMap_splitOutside_entriesText h hrest, Table.get?_ofList hkeys]

theorem blockValue_of_isWord {α : Type} {p : Table String (List Char)}
    (h : p.get? key = some value) (hvalue : IsWord value) (reader : List Char → Option α) :
    blockValue p reader key = reader value := by
  rw [blockValue, h, Option.bind_some, unquote_of_isWord hvalue]

theorem blockValue_of_none {α : Type} {p : Table String (List Char)} (h : p.get? key = none)
    (reader : List Char → Option α) : blockValue p reader key = none := by
  rw [blockValue, h, Option.bind_none]

/-! ## Declarations -/

/-- Whether a corrector can be written: its name is a word, and the delimiters in its
argument are balanced. -/
structure Corrector.Embeddable (c : Corrector) : Prop where
  name : IsWord c.name
  parentheses : Encloses '(' ')' .outside 0 c.argument
  braces : Encloses '\x7b' '\x7d' .outside 0 c.argument

/-- Whether a corrector is read as it is written: its name is a word, and its argument
ends with its parentheses. -/
structure Corrector.Readable (c : Corrector) : Prop where
  name : IsWord c.name
  parentheses : Encloses '(' ')' .outside 0 c.argument

theorem Corrector.Embeddable.readable {c : Corrector} (h : c.Embeddable) : c.Readable :=
  ⟨h.name, h.parentheses⟩

/-- Whether a declaration can be written. -/
structure Declaration.Embeddable (d : Declaration) : Prop where
  corrector : ∀ c ∈ d.corrector, c.Embeddable
  braces : Encloses '\x7b' '\x7d' .outside 0 d.properties

theorem BlockKind.ofName_capitals (kind : BlockKind) :
    ofName (String.ofList kind.capitals) = .ok kind := by
  have hcapitals : ofCapitals? (Text.capitals (String.ofList kind.capitals)) = some kind := by
    cases kind <;> decide +kernel
  rw [ofName, hcapitals]

theorem BlockKind.not_endsKind_capitals (kind : BlockKind) :
    ∀ c ∈ kind.capitals, (!endsKind c) = true := by
  cases kind <;> decide

theorem balanced_parentheses {text inner rest : List Char} :
    balanced '(' ')' text = some (inner, rest) ↔
      text = inner ++ ')' :: rest ∧ Encloses '(' ')' .outside 0 inner :=
  balancedFrom_eq_some_iff (by decide) (by decide)

theorem propertyBraces_eq {inner : List Char} (h : Encloses '\x7b' '\x7d' .outside 0 inner)
    (htext : text = '\x7b' :: (inner ++ '\x7d' :: rest)) (position : Nat) :
    ∃ r, propertyBraces position text = .ok (inner, r) ∧ r.rest.1 = rest := by
  have hbalanced : balanced '\x7b' '\x7d' (inner ++ '\x7d' :: rest) = some (inner, rest) :=
    balanced_eq_some_iff.2 ⟨rfl, h⟩
  unfold propertyBraces
  split
  · next body =>
    obtain rfl : body = inner ++ '\x7d' :: rest := (List.cons.inj htext).2
    split
    · next inner' rest' hfound =>
      rw [hbalanced] at hfound
      cases hfound
      exact ⟨_, rfl, rfl⟩
    · next hfound =>
      rw [hbalanced] at hfound
      cases hfound
  · next hbrace => exact absurd htext (hbrace _)

theorem corrector_eq {c : Corrector} (h : c.Readable)
    (htext : text = c.name ++ '(' :: (c.argument ++ ')' :: rest)) (position : Nat) :
    ∃ r, corrector position text = .ok (c, r) ∧ r.rest.1 = rest := by
  subst htext
  have hparen : '(' ∉ c.name := fun hc => absurd (h.name _ hc) (by decide)
  have hcut := Text.cut_append hparen (c.argument ++ ')' :: rest)
  have hbalanced : balanced '(' ')' (c.argument ++ ')' :: rest) = some (c.argument, rest) :=
    balanced_parentheses.2 ⟨rfl, h.parentheses⟩
  unfold corrector
  split
  · next name body hfound =>
    rw [hcut] at hfound
    cases hfound
    split
    · next argument rest' hfound' =>
      rw [hbalanced] at hfound'
      cases hfound'
      rw [h.name.trim]
      exact ⟨_, rfl, rfl⟩
    · next hfound' =>
      rw [hbalanced] at hfound'
      cases hfound'
  · next hfound =>
    rw [hcut] at hfound
    cases hfound

/-- A corrector is read with the blanks behind it; without one nothing is read. -/
theorem optionalCorrector_eq {found : Option Corrector} (h : ∀ c ∈ found, c.Readable)
    (htext : text = Text.trimStart (found.elim [] Corrector.text ++ ' ' :: '\x7b' :: rest))
    (position : Nat) :
    ∃ r, optionalCorrector position text = .ok (found, r) ∧ r.rest.1 = '\x7b' :: rest := by
  cases found with
  | none =>
    obtain rfl : text = '\x7b' :: rest := htext
    exact ⟨_, rfl, rfl⟩
  | some c =>
    have hsign : text = '@' :: (c.name ++ '(' :: (c.argument ++ ')' :: ' ' :: '\x7b' :: rest)) := by
      rw [htext, Option.elim_some, Corrector.text]
      simp only [List.cons_append, List.append_assoc, List.nil_append]
      rfl
    unfold optionalCorrector
    split
    · next body =>
      obtain ⟨r, hr, hrest⟩ := corrector_eq (h c rfl) (List.cons.inj hsign).2
        (Text.Remainder.behind position ['@'] body rfl).position
      dsimp only
      rw [hr]
      refine ⟨_, rfl, ?_⟩
      show List.dropWhile Text.isBlank r.rest.1 = _
      rw [hrest]
      rfl
    · next hnot => exact absurd hsign (hnot _)

/-- What is left of a declaration behind its kind. -/
def behindKind (position : Nat) (text : List Char) : Text.Remainder position text :=
  let word := Text.Remainder.dropWhile (!endsKind ·) position text
  word.andThen (.dropWhile Text.isBlank word.position word.rest.1)

/-- A declaration is read by reading its parts one after the other. -/
theorem declaration_eq {position : Nat} {kind : BlockKind} {found : Option Corrector}
    {properties : List Char}
    (hkind : BlockKind.ofName (String.ofList (text.takeWhile (!endsKind ·))) = .ok kind)
    {r : Text.Remainder (behindKind position text).position (behindKind position text).rest.1}
    (hcorrector : optionalCorrector (behindKind position text).position
      (behindKind position text).rest.1 = .ok (found, r))
    {r' : Text.Remainder r.position r.rest.1}
    (hproperties : propertyBraces r.position r.rest.1 = .ok (properties, r')) :
    declaration position text =
      .ok (⟨kind, found, properties⟩, ((behindKind position text).andThen r).andThen r') := by
  unfold declaration
  rw [hkind]
  show Except.bind (optionalCorrector (behindKind position text).position
    (behindKind position text).rest.1) _ = _
  rw [hcorrector]
  show Except.bind (propertyBraces r.position r.rest.1) _ = _
  rw [hproperties]
  rfl

/-- A declaration is read as it is written, and no more is read. -/
theorem declaration_body {d : Declaration} (hreadable : ∀ c ∈ d.corrector, c.Readable)
    (hbraces : Encloses '\x7b' '\x7d' .outside 0 d.properties) (position : Nat)
    (rest : List Char) :
    ∃ r, declaration position (d.body ++ rest) = .ok (d, r) ∧ r.rest.1 = rest := by
  have hbody : d.body ++ rest = d.kind.capitals ++
      (d.corrector.elim [] Corrector.text ++
        ' ' :: '\x7b' :: (d.properties ++ '\x7d' :: rest)) := by
    simp [Declaration.body]
  have hword : (d.body ++ rest).takeWhile (!endsKind ·) = d.kind.capitals := by
    rw [hbody, List.takeWhile_append_of_pos d.kind.not_endsKind_capitals]
    cases d.corrector <;> exact List.append_nil _
  have hbehind : (behindKind position (d.body ++ rest)).rest.1 =
      Text.trimStart (d.corrector.elim [] Corrector.text ++
        ' ' :: '\x7b' :: (d.properties ++ '\x7d' :: rest)) := by
    show ((d.body ++ rest).dropWhile (!endsKind ·)).dropWhile Text.isBlank = _
    rw [hbody, List.dropWhile_append_of_pos d.kind.not_endsKind_capitals]
    cases d.corrector <;> rfl
  have hkind : BlockKind.ofName (String.ofList ((d.body ++ rest).takeWhile (!endsKind ·))) =
      .ok d.kind := by
    rw [hword, BlockKind.ofName_capitals]
  obtain ⟨r, hr, hrest⟩ := optionalCorrector_eq hreadable hbehind
    (behindKind position (d.body ++ rest)).position
  obtain ⟨r', hr', hrest'⟩ := propertyBraces_eq hbraces hrest r.position
  exact ⟨_, declaration_eq hkind hr hr', hrest'⟩

/-! ## Segments -/

theorem isEntry_of_isWord (hkey : IsKey key.toList) (hvalue : IsWord value) :
    IsEntry (key, value) :=
  ⟨hkey, isValue_of_isWord hvalue⟩

theorem isEntry_kind_blockEntries (kind : SegmentKind) :
    ∀ entry ∈ kind.blockEntries, IsEntry entry := by
  have hnatural {key : String} (hkey : IsKey key.toList) (n : Nat) :
      IsEntry (key, Decimal.naturalText n) :=
    isEntry_of_isWord hkey (isWord_naturalText n)
  have hboolean {key : String} (hkey : IsKey key.toList) (b : Bool) :
      IsEntry (key, Decimal.booleanText b) :=
    isEntry_of_isWord hkey (isWord_booleanText b)
  cases kind with
  | fallback frame => exact List.forall_mem_singleton.2 (hnatural (by decide) frame)
  | singleFrame frame trigger => exact List.forall_mem_singleton.2 (hnatural (by decide) frame)
  | sequence range looping pauses trigger =>
    simp only [SegmentKind.blockEntries, List.forall_mem_cons]
    exact ⟨hnatural (by decide) _, hnatural (by decide) _, hboolean (by decide) _,
      hboolean (by decide) _, nofun⟩
  | oneShot range trigger =>
    simp only [SegmentKind.blockEntries, List.forall_mem_cons]
    exact ⟨hnatural (by decide) _, hnatural (by decide) _, nofun⟩

theorem isEntry_blockEntries {s : Segment} (h : Quotable s.name.toList) :
    ∀ entry ∈ s.blockEntries, IsEntry entry := by
  have hframetime : ∀ entry ∈ (s.frametime.map fun ticks =>
      ("frametime", Decimal.naturalText ticks)).toList, IsEntry entry := by
    cases s.frametime with
    | none => nofun
    | some ticks =>
      exact List.forall_mem_singleton.2 (isEntry_of_isWord (by decide) (isWord_naturalText ticks))
  have hname : IsEntry ("name", inQuotes s.name.toList) :=
    ⟨show IsKey "name".toList by decide, h.isValue⟩
  simp only [Segment.blockEntries, List.forall_mem_cons, List.forall_mem_append]
  exact ⟨hname, isEntry_of_isWord (by decide) (isWord_integerText _),
    isEntry_kind_blockEntries _, hframetime⟩

theorem nodup_blockEntries (s : Segment) : (s.blockEntries.map Prod.fst).Nodup := by
  obtain ⟨name, priority, frametime, kind⟩ := s
  cases kind <;> cases frametime <;> simp [Segment.blockEntries, SegmentKind.blockEntries]

/-- The properties of a declaration are those of its segment. -/
theorem get?_blockProperties_declaration {s : Segment} (h : Quotable s.name.toList)
    (key : String) :
    (blockProperties s.declaration.properties).get? key = s.blockEntries.lookup key :=
  get?_blockProperties (isEntry_blockEntries h) (nodup_blockEntries s) (by decide) key

section

variable {s : Segment} {random : Expression.Random}

theorem blockValue_natural (h : Quotable s.name.toList) {key : String} {n : Nat}
    (hkey : s.blockEntries.lookup key = some (Decimal.naturalText n))
    (hn : n < Decimal.frameBound) :
    blockValue (blockProperties s.declaration.properties) Decimal.frame? key = some n := by
  have hget := (get?_blockProperties_declaration h key).trans hkey
  rw [blockValue_of_isWord hget (isWord_naturalText n), frame?_naturalText hn]

theorem blockValue_boolean (h : Quotable s.name.toList) {key : String} {b : Bool}
    (hkey : s.blockEntries.lookup key = some (Decimal.booleanText b)) :
    blockValue (blockProperties s.declaration.properties) Decimal.boolean? key = some b := by
  have hget := (get?_blockProperties_declaration h key).trans hkey
  rw [blockValue_of_isWord hget (isWord_booleanText b), boolean?_booleanText b]

theorem blockValue_priority (h : s.BlockWritable random) :
    blockValue (blockProperties s.declaration.properties) Decimal.integer? "priority" =
      some s.priority := by
  have hget := get?_blockProperties_declaration h.name "priority"
  rw [blockValue_of_isWord hget (isWord_integerText _),
    integer?_integerText h.inRange.least h.inRange.greatest]

/-- A frame time is found if it was written, and none otherwise. -/
theorem blockValue_frametime (h : s.BlockWritable random) :
    blockValue (blockProperties s.declaration.properties) Decimal.frame? "frametime" =
      s.frametime := by
  cases hticks : s.frametime with
  | none =>
    refine blockValue_of_none ((get?_blockProperties_declaration h.name _).trans ?_) _
    cases hkind : s.kind <;> rw [Segment.blockEntries, hkind, hticks] <;> rfl
  | some ticks =>
    refine blockValue_natural h.name ?_ (h.inRange.frametime ticks hticks)
    cases hkind : s.kind <;> rw [Segment.blockEntries, hkind, hticks] <;> rfl

end

/-- A corrector stands for the trigger that it was written for. -/
theorem value_trigger_corrector {t : Trigger} {random : Expression.Random}
    (h : t.BlockWritable random) (name : String) :
    (match t.corrector with
      | some c => c.trigger name random
      | none => pure .none).value = t := by
  cases h with
  | none => rfl
  | event h =>
    show Trigger.ofEvent (String.ofList (unquote (inQuotes _))) = _
    rw [h.unquote_inQuotes, String.ofList_toList]
  | @condition source h =>
    have hsource : String.ofList (Text.trim
        (Expression.Condition.read source random).value.source.toList) = source := by
      rw [Expression.Condition.source_read, h.trimmed, String.ofList_toList]
    exact congrArg (fun text => Trigger.ofCondition (Expression.Condition.read text random).value)
      hsource

theorem outcome_checkRange {config : Config} {name : String} {range : FrameRange}
    (h : range.first ≤ range.last) :
    (config.checkRange name range.first range.last).outcome.value = .ok range := by
  rw [Config.checkRange, if_pos h]
  rfl

/-- A declaration is worked out to the segment that it was written for. -/
theorem outcome_segment_declaration {s : Segment} {config : Config} {index : Nat}
    (h : s.BlockWritable (config.random index)) :
    (s.declaration.segment config index).outcome.value = .ok s := by
  have hname : (blockProperties s.declaration.properties).get? "name" =
      some (inQuotes s.name.toList) :=
    get?_blockProperties_declaration h.name "name"
  unfold Declaration.segment
  dsimp only
  rw [hname]
  dsimp only
  rw [h.name.unquote_inQuotes, String.ofList_toList, blockValue_priority h, blockValue_frametime h]
  obtain ⟨hwell, hrange, hquotable, htrigger⟩ := h
  obtain ⟨name, priority, frametime, kind⟩ := s
  cases kind with
  | fallback frame =>
    obtain rfl : priority = -1000 := hwell.priority rfl
    have hframe := @blockValue_natural _ hquotable "frame_index" frame rfl hrange.kind.first
    rw [hframe]
    rfl
  | singleFrame frame trigger =>
    have hframe := @blockValue_natural _ hquotable "frame_index" frame rfl hrange.kind.first
    have hread := value_trigger_corrector (htrigger _ rfl) name
    rw [hframe]
    exact Reading.outcome_bind_eq_ok_iff.2 ⟨trigger, congrArg Except.ok hread, rfl⟩
  | sequence range looping pauses trigger =>
    have hfirst := @blockValue_natural _ hquotable "first_frame_index" range.first rfl
      hrange.kind.first
    have hlast := @blockValue_natural _ hquotable "last_frame_index" range.last rfl
      (hrange.kind.last range rfl)
    have hloop := @blockValue_boolean _ hquotable "loop" looping rfl
    have hpause := @blockValue_boolean _ hquotable "pause_on_last_frame" pauses rfl
    have hread := value_trigger_corrector (htrigger _ rfl) name
    rw [hfirst, hlast, hloop, hpause]
    refine Reading.outcome_bind_eq_ok_iff.2 ⟨trigger, congrArg Except.ok hread, ?_⟩
    exact Reading.outcome_bind_eq_ok_iff.2
      ⟨range, outcome_checkRange (hwell.kind.range range rfl), rfl⟩
  | oneShot range trigger =>
    have hfirst := @blockValue_natural _ hquotable "first_frame_index" range.first rfl
      hrange.kind.first
    have hlast := @blockValue_natural _ hquotable "last_frame_index" range.last rfl
      (hrange.kind.last range rfl)
    have hread := value_trigger_corrector (htrigger _ rfl) name
    rw [hfirst, hlast]
    refine Reading.outcome_bind_eq_ok_iff.2 ⟨trigger, congrArg Except.ok hread, ?_⟩
    exact Reading.outcome_bind_eq_ok_iff.2
      ⟨range, outcome_checkRange (hwell.kind.range range rfl), rfl⟩

end Flipbook.Document
