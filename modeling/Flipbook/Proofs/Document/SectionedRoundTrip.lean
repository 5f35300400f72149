import Flipbook.Proofs.Document.SectionedLines

/-!
# Sectioned documents are read as they are written

What is written for an animation is recognised as a sectioned document and read as that
animation, as long as a frame list may hold the two ends of a range.

* `outcome_segmentKind`, `outcome_extend`: each section adds its segment.
* `value_process_animation`: the first section sets what holds for all of them.
* `read_sectionedText`: whole documents.
-/
namespace Flipbook.Document

open Decimal (IsWord frameBound naturalText frame?_naturalText integer?_integerText
  boolean?_booleanText isWord_naturalText isWord_integerText isWord_booleanText)

variable {key : String} {value : List Char}

/-! ## Segments -/

theorem isProperty_of_isWord (hkey : IsKey key.toList) (hvalue : IsWord value)
    (hne : value ≠ []) : IsProperty (key, value) :=
  ⟨hkey, onLine_of_isWord hvalue, hne⟩

theorem isProperty_natural (hkey : IsKey key.toList) (n : Nat) :
    IsProperty (key, naturalText n) :=
  isProperty_of_isWord hkey (isWord_naturalText n) Nat.toDigits_ne_nil

theorem isProperty_boolean (hkey : IsKey key.toList) (b : Bool) :
    IsProperty (key, Decimal.booleanText b) :=
  isProperty_of_isWord hkey (isWord_booleanText b) (by cases b <;> decide)

theorem isProperty_kind (kind : SegmentKind) :
    ∀ entry ∈ kind.sectionedEntries, IsProperty entry := by
  have htype {word : List Char} (hword : IsWord word) (hne : word ≠ []) :
      IsProperty ("type", word) :=
    isProperty_of_isWord (by decide) hword hne
  have hframes (range : FrameRange) : IsProperty ("frames", rangeText range) :=
    ⟨show IsKey "frames".toList by decide, onLine_rangeText range, nofun⟩
  cases kind with
  | fallback frame => exact List.forall_mem_singleton.2 (isProperty_natural (by decide) frame)
  | singleFrame frame trigger =>
    simp only [SegmentKind.sectionedEntries, List.forall_mem_cons]
    exact ⟨htype (List.all_eq_true.1 (by decide)) (by decide), isProperty_natural (by decide) _,
      nofun⟩
  | sequence range looping pauses trigger =>
    simp only [SegmentKind.sectionedEntries, List.forall_mem_cons]
    exact ⟨htype (List.all_eq_true.1 (by decide)) (by decide), hframes range,
      isProperty_boolean (by decide) _, isProperty_boolean (by decide) _, nofun⟩
  | oneShot range trigger =>
    simp only [SegmentKind.sectionedEntries, List.forall_mem_cons]
    exact ⟨htype (List.all_eq_true.1 (by decide)) (by decide), hframes range, nofun⟩

theorem statable_whenEntry {t : Trigger} {random : Expression.Random}
    (h : t.SectionedWritable random) :
    ∀ entry ∈ t.whenEntry, entry.1 = "when" ∧ Statable entry.2 := by
  intro entry hentry
  cases h with
  | none => cases hentry
  | condition h =>
    cases hentry
    dsimp only
    rw [Expression.Condition.source_read]
    exact ⟨rfl, h⟩

theorem isProperty_sectionedEntries {s : Segment} {random : Expression.Random}
    (h : s.SectionedWritable random) :
    ∀ entry ∈ s.sectionedEntries, IsProperty entry := by
  have hpriority : IsProperty ("priority", Decimal.integerText s.priority) := by
    refine isProperty_of_isWord (by decide) (isWord_integerText _) ?_
    cases s.priority with
    | ofNat n => exact Nat.toDigits_ne_nil
    | negSucc n => exact nofun
  have hframetime : ∀ entry ∈ (s.frametime.map fun ticks =>
      ("frametime", naturalText ticks)).toList, IsProperty entry := by
    cases s.frametime with
    | none => nofun
    | some ticks => exact List.forall_mem_singleton.2 (isProperty_natural (by decide) ticks)
  have hwhen : ∀ entry ∈ (s.kind.trigger?.bind Trigger.whenEntry).toList, IsProperty entry := by
    intro entry hentry
    obtain ⟨t, ht, hentry⟩ := Option.bind_eq_some_iff.1 (Option.mem_toList.1 hentry)
    obtain ⟨hkey, hvalue⟩ := statable_whenEntry (h.trigger t ht) entry hentry
    refine ⟨?_, hvalue.toOnLine, hvalue.nonempty⟩
    rw [hkey]
    decide
  simp only [Segment.sectionedEntries, List.forall_mem_cons, List.forall_mem_append]
  exact ⟨isProperty_kind _, hpriority, hframetime, hwhen⟩

theorem nodup_sectionedEntries (s : Segment) : (s.sectionedEntries.map Prod.fst).Nodup := by
  have hwhen : (s.kind.trigger?.bind Trigger.whenEntry).toList.map Prod.fst ∈ [[], ["when"]] := by
    cases s.kind.trigger? with
    | none => exact List.mem_cons_self
    | some t =>
      show t.whenEntry.toList.map Prod.fst ∈ [[], ["when"]]
      unfold Trigger.whenEntry
      cases t.condition with
      | none => exact List.mem_cons_self
      | some condition => exact List.mem_cons_of_mem _ List.mem_cons_self
  have hframetime : (s.frametime.map fun ticks => ("frametime", naturalText ticks)).toList.map
      Prod.fst ∈ [[], ["frametime"]] := by
    cases s.frametime with
    | none => exact List.mem_cons_self
    | some ticks => exact List.mem_cons_of_mem _ List.mem_cons_self
  have hkind : s.kind.sectionedEntries.map Prod.fst ∈ [["frame"], ["type", "frame"],
      ["type", "frames", "loop", "pause_on_last"], ["type", "frames"]] := by
    cases s.kind <;> simp [SegmentKind.sectionedEntries]
  have hkeys : ∀ kind ∈ [["frame"], ["type", "frame"], ["type", "frames", "loop", "pause_on_last"],
      ["type", "frames"]], ∀ frametime ∈ [[], ["frametime"]], ∀ condition ∈ [[], ["when"]],
        (kind ++ "priority" :: (frametime ++ condition)).Nodup := by
    decide
  rw [Segment.sectionedEntries, List.map_append, List.map_cons, List.map_append]
  exact hkeys _ hkind _ hframetime _ hwhen

/-! ### Headers -/

theorem onLine_sectionHeader {s : Segment} {random : Expression.Random}
    (h : s.SectionedWritable random) : OnLine s.sectionHeader := by
  unfold Segment.sectionHeader
  split
  · exact ⟨by decide, by decide, by decide⟩
  · refine ⟨Text.stripWhile_between (by decide) (by decide) _, ?_, ?_⟩
    · simp [h.name.line]
    · simp [h.name.comment]

theorem isHeader_sectionHeader (s : Segment) : isHeader s.sectionHeader = true := by
  unfold Segment.sectionHeader
  split
  · decide
  · rw [isHeader, ← List.cons_append, List.getLast?_concat]
    rfl

theorem ofName_segment (name : List Char) :
    Section.ofName ("segment:".toList ++ name) = .segment (String.ofList (Text.trim name)) := by
  have hne (word : List Char) (h : word.head? ≠ some 's') : "segment:".toList ++ name ≠ word := by
    rintro rfl
    exact h rfl
  have hprefix : "segment:".toList.isPrefixOf? ("segment:".toList ++ name) = some name := rfl
  rw [Section.ofName, if_neg (hne _ (by decide)), if_neg (hne _ (by decide)),
    if_neg (hne _ (by decide)), if_neg (hne _ (by decide)), hprefix]

/-- The name in a header is read as it is written. -/
theorem ofHeader_segment {name : List Char} (h : Nameable name) :
    Section.ofHeader ('[' :: ("segment:".toList ++ name ++ [']'])) =
      .segment (String.ofList name) := by
  have hword : ∀ c ∈ ("segment:".toList ++ name).getLast?, c ≠ ']' ∧ Text.isBlank c = false := by
    intro c hc
    rw [List.getLast?_append] at hc
    cases hlast : name.getLast? with
    | none =>
      rw [hlast] at hc
      cases hc
      decide
    | some last =>
      rw [hlast] at hc
      cases hc
      refine ⟨?_, h.toOnLine.last c hlast⟩
      rintro rfl
      exact h.last hlast
  have hopening : ('[' :: ("segment:".toList ++ name ++ [']'])).dropWhile (· == '[') =
      "segment:".toList ++ name ++ [']'] := rfl
  have hclosing : Text.dropEndWhile (· == ']') ("segment:".toList ++ name ++ [']']) =
      "segment:".toList ++ name :=
    Text.dropEndWhile_eq (by simp) fun c hc => beq_eq_false_iff_ne.2 (hword c hc).1
  have htrim : Text.trim ("segment:".toList ++ name) = "segment:".toList ++ name := by
    refine Text.stripWhile_eq_self_iff.2 ⟨?_, fun c hc => (hword c hc).2⟩
    intro c hc
    cases hc
    decide
  rw [Section.ofHeader, hopening, hclosing, htrim, ofName_segment, h.trimmed]

theorem writable_section {s : Segment} {random : Expression.Random}
    (h : s.SectionedWritable random) : s.section.Writable where
  header := onLine_sectionHeader h
  nonempty := by
    show s.sectionHeader ≠ []
    unfold Segment.sectionHeader
    split <;> exact nofun
  isHeader := isHeader_sectionHeader s
  entries := isProperty_sectionedEntries h

/-! ### Contents -/

section

variable {config : Config} {texture : Texture} {d : Draft} {p : Properties}

theorem outcome_frame {n : Nat} (hp : p.get? "frame" = some (naturalText n))
    (hn : n < frameBound) : (d.frame config p).outcome.value = .ok n := by
  have hspec : p.getD "frame" ['0'] = naturalText n := by
    rw [Table.getD, hp]
    rfl
  have htoken : '$' ∉ naturalText n :=
    fun hmem => absurd (Decimal.isDigit_of_mem_naturalText hmem) (by decide)
  have hframes := outcome_resolveFrames d.substitutions config.frameLimit htoken
    (isWord_naturalText n).trim (listFrames?_naturalText config.frameLimit hn)
  unfold Draft.frame
  rw [hspec]
  refine Reading.outcome_bind_eq_ok_iff.2 ⟨_, hframes, ?_⟩
  rw [List.mergeSort_singleton]
  rfl

theorem outcome_range (hlimit : 2 ≤ config.frameLimit) {range : FrameRange}
    (hp : p.get? "frames" = some (rangeText range)) (hrange : range.first ≤ range.last)
    (hfirst : range.first < frameBound) (hlast : range.last < frameBound) (default : String) :
    (d.range config p default).outcome.value = .ok range := by
  have hspec : p.getD "frames" default.toList = rangeText range := by
    rw [Table.getD, hp]
    rfl
  have hframes := outcome_resolveFrames d.substitutions config.frameLimit
    (notMem_rangeText (by decide) (by decide)) (onLine_rangeText range).trimmed
    (listFrames?_rangeText hlimit hfirst hlast)
  unfold Draft.range
  rw [hspec]
  refine Reading.outcome_bind_eq_ok_iff.2 ⟨_, hframes, ?_⟩
  rw [spanning_ends hrange]
  rfl

/-- A condition is read as it is written, and no condition is read where none is. -/
theorem value_trigger {t : Trigger}
    (h : t.SectionedWritable (config.random d.segments.length))
    (hp : p.get? "when" = t.whenEntry.map Prod.snd) : (d.trigger config p).value = t := by
  cases h with
  | none =>
    have hsource : p.getD "when" [] = [] := by
      rw [Table.getD, hp]
      rfl
    unfold Draft.trigger
    rw [hsource, Noted.value_bind, value_expand_of_notMem _ List.not_mem_nil]
    rfl
  | @condition source h =>
    have hsource : p.getD "when" [] = source.toList := by
      rw [Table.getD, hp]
      show (Expression.Condition.read source _).value.source.toList = _
      rw [Expression.Condition.source_read]
    have hne : ¬source.toList.isEmpty = true := by simpa using h.nonempty
    unfold Draft.trigger
    rw [hsource, Noted.value_bind, value_expand_of_notMem _ h.token, h.trimmed]
    dsimp only
    rw [if_neg hne, String.ofList_toList]
    rfl

/-- A section that can be worked in is worked in. -/
theorem value_process {part : Section × List (List Char)} {d' : Draft}
    (h : (d.extend config texture part.1 (propertiesOf part.2)).outcome.value = .ok d') :
    (d.process config texture part).value = d' := by
  unfold Draft.process
  rw [Noted.value_bind, h]
  rfl

/-- The properties that do not depend on the kind of a segment. -/
theorem lookup_sectionedEntries (s : Segment) :
    s.sectionedEntries.lookup "priority" = some (Decimal.integerText s.priority) ∧
      s.sectionedEntries.lookup "frametime" = s.frametime.map naturalText ∧
        s.sectionedEntries.lookup "when" =
          (s.kind.trigger?.bind Trigger.whenEntry).map Prod.snd := by
  have hcases : (s.kind.trigger?.bind Trigger.whenEntry) = none ∨
      ∃ source, s.kind.trigger?.bind Trigger.whenEntry = some ("when", source) := by
    cases s.kind.trigger? with
    | none => exact .inl rfl
    | some t =>
      show t.whenEntry = none ∨ ∃ source, t.whenEntry = some ("when", source)
      unfold Trigger.whenEntry
      cases t.condition with
      | none => exact .inl rfl
      | some condition => exact .inr ⟨_, rfl⟩
  have hkind : ∀ key ∈ ["priority", "frametime", "when"],
      s.kind.sectionedEntries.lookup key = none := by
    simp only [List.forall_mem_cons]
    cases s.kind <;> exact ⟨rfl, rfl, rfl, nofun⟩
  simp only [List.forall_mem_cons] at hkind
  obtain ⟨hpriority, hframetime, hwhen, -⟩ := hkind
  rw [Segment.sectionedEntries, List.lookup_append, List.lookup_append, List.lookup_append,
    hpriority, hframetime, hwhen]
  rcases hcases with hnone | ⟨source, hsome⟩
  · rw [hnone]
    cases s.frametime <;> exact ⟨rfl, rfl, rfl⟩
  · rw [hsome]
    cases s.frametime <;> exact ⟨rfl, rfl, rfl⟩

theorem outcome_segmentKind (hlimit : 2 ≤ config.frameLimit) {s : Segment}
    (h : s.SectionedWritable (config.random d.segments.length)) (hkind : s.isFallback = false)
    (hp : ∀ key, p.get? key = s.sectionedEntries.lookup key) :
    (d.segmentKind config s.name p).outcome.value = .ok s.kind := by
  obtain ⟨hwell, hrange, -, -, htrigger⟩ := h
  have htype {word : List Char} (hword : s.sectionedEntries.lookup "type" = some word) :
      p.getD "type" "sequence".toList = word := by
    rw [Table.getD, hp, hword]
    rfl
  have hboolean {key : String} {b : Bool}
      (hkey : s.sectionedEntries.lookup key = some (Decimal.booleanText b)) :
      p.read Decimal.boolean? key = some b := by
    rw [Properties.read, hp, hkey, Option.bind_some, boolean?_booleanText]
  have hwhen : p.get? "when" = (s.kind.trigger?.bind Trigger.whenEntry).map Prod.snd := by
    rw [hp, (lookup_sectionedEntries s).2.2]
  obtain ⟨name, priority, frametime, kind⟩ := s
  unfold Draft.segmentKind
  cases kind with
  | fallback frame => cases hkind
  | singleFrame frame trigger =>
    have hlower : Text.toLower (String.ofList "single".toList) = "single" := by decide +kernel
    have hread := value_trigger (d := d) (htrigger _ rfl) hwhen
    rw [htype rfl, hlower]
    refine Reading.outcome_bind_eq_ok_iff.2 ⟨trigger, congrArg Except.ok hread, ?_⟩
    exact Reading.outcome_bind_eq_ok_iff.2
      ⟨frame, outcome_frame (hp "frame") hrange.kind.first, rfl⟩
  | sequence range looping pauses trigger =>
    have hlower : Text.toLower (String.ofList "sequence".toList) = "sequence" := by decide +kernel
    have hread := value_trigger (d := d) (htrigger _ rfl) hwhen
    have hframes := outcome_range (d := d) hlimit (hp "frames") (hwell.kind.range range rfl)
      hrange.kind.first (hrange.kind.last range rfl) "0-0"
    have hloop := @hboolean "loop" looping rfl
    have hpause := @hboolean "pause_on_last" pauses rfl
    rw [htype rfl, hlower, hloop, hpause]
    refine Reading.outcome_bind_eq_ok_iff.2 ⟨trigger, congrArg Except.ok hread, ?_⟩
    exact Reading.outcome_bind_eq_ok_iff.2 ⟨range, hframes, rfl⟩
  | oneShot range trigger =>
    have hlower : Text.toLower (String.ofList "oneshot".toList) = "oneshot" := by decide +kernel
    have hread := value_trigger (d := d) (htrigger _ rfl) hwhen
    have hframes := outcome_range (d := d) hlimit (hp "frames") (hwell.kind.range range rfl)
      hrange.kind.first (hrange.kind.last range rfl) "0-0"
    rw [htype rfl, hlower]
    refine Reading.outcome_bind_eq_ok_iff.2 ⟨trigger, congrArg Except.ok hread, ?_⟩
    exact Reading.outcome_bind_eq_ok_iff.2 ⟨range, hframes, rfl⟩

theorem read_frametime {s : Segment} (h : s.InRange)
    (hp : ∀ key, p.get? key = s.sectionedEntries.lookup key) :
    p.read Decimal.frame? "frametime" = s.frametime := by
  rw [Properties.read, hp, (lookup_sectionedEntries s).2.1]
  cases hticks : s.frametime with
  | none => rfl
  | some ticks => exact frame?_naturalText (h.frametime ticks hticks)

theorem outcome_segment (hlimit : 2 ≤ config.frameLimit) {s : Segment}
    (h : s.SectionedWritable (config.random d.segments.length)) (hkind : s.isFallback = false)
    (hp : ∀ key, p.get? key = s.sectionedEntries.lookup key) :
    (d.segment config s.name p).outcome.value = .ok s := by
  have hpriority : p.read Decimal.integer? "priority" = some s.priority := by
    rw [Properties.read, hp, (lookup_sectionedEntries s).1]
    exact integer?_integerText h.inRange.least h.inRange.greatest
  refine Reading.outcome_bind_eq_ok_iff.2 ⟨s.kind, outcome_segmentKind hlimit h hkind hp, ?_⟩
  rw [hpriority, read_frametime h.inRange hp]
  rfl

/-- The section of a segment adds that segment. -/
theorem outcome_extend (hlimit : 2 ≤ config.frameLimit) {s : Segment}
    (h : s.SectionedWritable (config.random d.segments.length))
    (hp : ∀ key, p.get? key = s.sectionedEntries.lookup key) :
    (d.extend config texture (Section.ofHeader s.sectionHeader) p).outcome.value =
      .ok { d with segments := d.segments ++ [s] } := by
  cases hfallback : s.isFallback with
  | false =>
    have hheader : Section.ofHeader s.sectionHeader = .segment s.name := by
      rw [Segment.sectionHeader, hfallback, if_neg (by decide), ofHeader_segment h.name,
        String.ofList_toList]
    rw [hheader]
    exact Reading.outcome_bind_eq_ok_iff.2 ⟨s, outcome_segment hlimit h hfallback hp, rfl⟩
  | true =>
    have hheader : Section.ofHeader s.sectionHeader = .fallback := by
      rw [Segment.sectionHeader, hfallback, if_pos rfl]
      decide
    have hframetime := read_frametime h.inRange hp
    rw [hheader]
    obtain ⟨name, priority, frametime, kind⟩ := s
    cases kind with
    | fallback frame =>
      obtain rfl : name = "fallback" := h.fallback rfl
      obtain rfl : priority = -1000 := h.wellFormed.priority rfl
      have hframe : (d.frame config p).outcome.value = .ok frame :=
        outcome_frame (hp "frame") h.inRange.kind.first
      refine Reading.outcome_bind_eq_ok_iff.2 ⟨frame, hframe, ?_⟩
      rw [hframetime]
      rfl
    | singleFrame frame t => cases hfallback
    | sequence range looping pauses t => cases hfallback
    | oneShot range t => cases hfallback

theorem value_process_section (hlimit : 2 ≤ config.frameLimit) {s : Segment}
    (h : s.SectionedWritable (config.random d.segments.length)) :
    (d.process config texture
      (Section.ofHeader s.sectionHeader, s.sectionedEntries.map propertyLine)).value =
        { d with segments := d.segments ++ [s] } := by
  have hget := get?_propertiesOf (isProperty_sectionedEntries h) (nodup_sectionedEntries s)
  refine value_process ?_
  dsimp only
  exact outcome_extend hlimit h hget

/-- The sections of segments add these segments in their order. -/
theorem foldl_process_sections (hlimit : 2 ≤ config.frameLimit) {segments : List Segment}
    (h : ∀ entry ∈ segments.zipIdx d.segments.length,
      entry.1.SectionedWritable (config.random entry.2)) :
    (segments.map fun s => (Section.ofHeader s.sectionHeader,
        s.sectionedEntries.map propertyLine)).foldl
          (fun d part => (Draft.process config texture d part).value) d =
      { d with segments := d.segments ++ segments } := by
  induction segments generalizing d with
  | nil => simp
  | cons s segments ih =>
    rw [List.zipIdx_cons] at h
    obtain ⟨hs, hsegments⟩ := List.forall_mem_cons.1 h
    rw [List.map_cons, List.foldl_cons, value_process_section hlimit hs,
      ih (by simpa using hsegments)]
    simp

/-! ## Animations -/

variable {m : Metadata}

theorem isProperty_animationEntries (m : Metadata) :
    ∀ entry ∈ m.animationEntries, IsProperty entry := by
  have hframetime : IsProperty ("frametime", naturalText m.header.frametime) :=
    isProperty_natural (show IsKey "frametime".toList by decide) _
  have hinterpolate : IsProperty ("interpolate", Decimal.booleanText m.header.interpolate) :=
    isProperty_boolean (show IsKey "interpolate".toList by decide) _
  have hmaxFps : ∀ entry ∈ (m.header.maxFps.map fun rate =>
      ("max_fps", naturalText rate)).toList, IsProperty entry := by
    cases m.header.maxFps with
    | none => nofun
    | some rate =>
      exact List.forall_mem_singleton.2
        (isProperty_natural (show IsKey "max_fps".toList by decide) rate)
  exact List.forall_mem_cons.2 ⟨hframetime, List.forall_mem_cons.2 ⟨hinterpolate, hmaxFps⟩⟩

theorem onLine_animationHeader : OnLine Metadata.animationHeader :=
  ⟨by decide, by decide, by decide⟩

theorem writable_animationSection (m : Metadata) : m.animationSection.Writable where
  header := onLine_animationHeader
  nonempty := show Metadata.animationHeader ≠ [] by decide
  isHeader := show isHeader Metadata.animationHeader = true by decide
  entries := isProperty_animationEntries m

/-- The properties of an animation are found under their names. -/
theorem lookup_animationEntries (m : Metadata) :
    m.animationEntries.lookup "frametime" = some (naturalText m.header.frametime) ∧
      m.animationEntries.lookup "interpolate" =
        some (Decimal.booleanText m.header.interpolate) ∧
      m.animationEntries.lookup "max_fps" = m.header.maxFps.map naturalText := by
  unfold Metadata.animationEntries
  cases m.header.maxFps <;> exact ⟨rfl, rfl, rfl⟩

theorem nodup_animationEntries (m : Metadata) : (m.animationEntries.map Prod.fst).Nodup := by
  have hkeys : m.animationEntries.map Prod.fst ∈
      [["frametime", "interpolate"], ["frametime", "interpolate", "max_fps"]] := by
    unfold Metadata.animationEntries
    cases m.header.maxFps with
    | none => exact List.mem_cons_self
    | some rate => exact List.mem_cons_of_mem _ List.mem_cons_self
  have hnodup : ∀ keys ∈ [["frametime", "interpolate"],
      ["frametime", "interpolate", "max_fps"]], keys.Nodup := by
    decide
  exact hnodup _ hkeys

/-- The section of an animation sets what holds for the whole of it. -/
theorem value_process_animation (h : m.header.InRange) :
    (Draft.process config texture .blank (Section.ofHeader Metadata.animationHeader,
      m.animationEntries.map propertyLine)).value =
        ⟨m.header.frametime, m.header.interpolate, m.header.maxFps, .empty, []⟩ := by
  have hget := get?_propertiesOf (isProperty_animationEntries m) (nodup_animationEntries m)
  obtain ⟨hframetime, hinterpolate, hmaxFps⟩ := lookup_animationEntries m
  have hheader : Section.ofHeader Metadata.animationHeader = .animation := by decide
  have hticks : (propertiesOf (m.animationEntries.map propertyLine)).read Decimal.frame?
      "frametime" = some m.header.frametime := by
    rw [Properties.read, hget, hframetime]
    exact frame?_naturalText h.frametime
  have hflag : (propertiesOf (m.animationEntries.map propertyLine)).read Decimal.boolean?
      "interpolate" = some m.header.interpolate := by
    rw [Properties.read, hget, hinterpolate]
    exact boolean?_booleanText _
  have hrate : (propertiesOf (m.animationEntries.map propertyLine)).read Decimal.frame?
      "max_fps" = m.header.maxFps := by
    rw [Properties.read, hget, hmaxFps]
    cases hfps : m.header.maxFps with
    | none => rfl
    | some rate => exact frame?_naturalText (h.maxFps rate hfps)
  refine value_process ?_
  dsimp only
  rw [hheader]
  unfold Draft.extend
  dsimp only
  rw [hticks, hflag, hrate]
  cases m.header.maxFps <;> rfl

theorem outcome_readSectioned (hlimit : 2 ≤ config.frameLimit) (h : m.SectionedWritable config) :
    (readSectioned config m.header.texture m.sectionedText).outcome.value = .ok m := by
  have hparts : ∀ part ∈ m.animationSection :: m.segments.map Segment.section, part.Writable := by
    refine List.forall_mem_cons.2 ⟨writable_animationSection m, ?_⟩
    intro part hpart
    obtain ⟨s, hs, rfl⟩ := List.mem_map.1 hpart
    obtain ⟨random, hs⟩ := Config.exists_random h.segment s hs
    exact writable_section hs
  have hlines : AreLines ((m.animationSection :: m.segments.map Segment.section).flatMap
      WrittenSection.lines) := by
    intro line hline
    obtain ⟨part, hpart, hline⟩ := List.mem_flatMap.1 hline
    exact (hparts part hpart).areLines line hline
  have hsections : sections (logicalLines m.sectionedText) =
      ([], (m.animationSection :: m.segments.map Segment.section).map fun part =>
        (Section.ofHeader part.header, part.entries.map propertyLine)) := by
    rw [Metadata.sectionedText, logicalLines_linesText hlines, sections_lines hparts]
  have hmap : (m.segments.map Segment.section).map (fun part =>
      (Section.ofHeader part.header, part.entries.map propertyLine)) =
        m.segments.map fun s =>
          (Section.ofHeader s.sectionHeader, s.sectionedEntries.map propertyLine) :=
    List.map_map
  have hdraft : (((m.animationSection :: m.segments.map Segment.section).map fun part =>
      (Section.ofHeader part.header, part.entries.map propertyLine)).foldlM
        (Draft.process config m.header.texture) .blank).value =
          ⟨m.header.frametime, m.header.interpolate, m.header.maxFps, .empty, m.segments⟩ := by
    rw [Noted.value_foldlM, List.map_cons, hmap, List.foldl_cons]
    dsimp only [Metadata.animationSection]
    rw [value_process_animation h.inRange, foldl_process_sections hlimit h.segment]
    rfl
  unfold readSectioned
  rw [hsections]
  dsimp only
  refine Reading.outcome_bind_eq_ok_iff.2 ⟨(), rfl, ?_⟩
  refine Reading.outcome_bind_eq_ok_iff.2 ⟨_, congrArg Except.ok hdraft, ?_⟩
  refine Reading.outcome_bind_eq_ok_iff.2 ⟨_, rfl, ?_⟩
  refine validated_eq_ok_iff.2 ⟨?_, h.wellFormed.segments, h.wellFormed.fallbacks⟩
  obtain ⟨⟨_, _, _, _, _, _, _⟩, segments⟩ := m
  obtain ⟨⟨-, rfl, hpositive, -⟩, -, rfl, rfl, -⟩ := h
  simp [Header.withFrametime, Header.plain, Nat.max_eq_right hpositive]

/-- What is written as a sectioned document is recognised as one. -/
theorem formatOf_sectionedText (m : Metadata) : formatOf m.sectionedText = .sectioned := by
  have htext : ∃ rest, m.sectionedText = Metadata.animationHeader ++ '\n' :: rest := by
    simp only [Metadata.sectionedText, linesText, Metadata.animationSection, List.flatMap_cons,
      WrittenSection.lines, List.append_assoc, List.cons_append, List.nil_append]
    exact ⟨_, rfl⟩
  obtain ⟨rest, htext⟩ := htext
  have hheader : OnLine Metadata.animationHeader := onLine_animationHeader
  have hlines := codeLines_append hheader.line hheader.comment hheader.trimEnd
    (show Metadata.animationHeader ≠ [] by decide) rest
  have hopening : ¬(Text.trimStart (Metadata.animationHeader ++ '\n' :: rest)).head? =
      some '\x7b' :=
    show ¬some '[' = some '\x7b' by decide
  rw [formatOf, htext, if_neg hopening, hlines]
  rfl

/-- What is written for an animation is recognised as a sectioned document and read as
that animation, if a frame list may hold two frames. -/
theorem read_sectionedText (config : Config) (hlimit : 2 ≤ config.frameLimit) (m : Metadata)
    (h : m.SectionedWritable config) :
    formatOf m.sectionedText = .sectioned ∧
      (read config m.header.texture m.sectionedText).outcome.value = .ok m := by
  have hformat := formatOf_sectionedText m
  refine ⟨hformat, ?_⟩
  rw [outcome_read, hformat]
  exact outcome_readSectioned hlimit h

end

/-- A range that no list could spell out, names that look like headers and a condition
that looks like a property. -/
def sprawlingAnimation : Metadata where
  header := ⟨⟨"game", "lantern"⟩, .sectioned, 3, true, some 60, none, none⟩
  segments := [
    ⟨"[a]: b", 5, some 0, .sequence ⟨1, 4000000000⟩ false true
      (.ofCondition (Expression.Condition.read "near(\x22[x]: y\x22) ? 1 : 0" .zeros).value)⟩,
    ⟨"fallback", -1000, none, .fallback 7⟩,
    ⟨"", -4, none, .singleFrame 1 .none⟩,
    ⟨"fallback", 20, some 3, .oneShot ⟨5, 5⟩
      (.ofCondition (Expression.Condition.read "[storm]" .zeros).value)⟩]

theorem sectionedWritable_of_mem_sprawlingAnimation :
    ∀ s ∈ sprawlingAnimation.segments, s.SectionedWritable .zeros := by
  have hname (name : String) (h : Text.trim name.toList = name.toList ∧ '\n' ∉ name.toList ∧
      '#' ∉ name.toList ∧ name.toList.getLast? ≠ some ']') : Nameable name.toList :=
    ⟨⟨h.1, h.2.1, h.2.2.1⟩, h.2.2.2⟩
  have hnear : Statable "near(\x22[x]: y\x22) ? 1 : 0".toList :=
    ⟨⟨by decide, by decide, by decide⟩, by decide, by decide⟩
  have hstorm : Statable "[storm]".toList :=
    ⟨⟨by decide, by decide, by decide⟩, by decide, by decide⟩
  simp only [sprawlingAnimation, List.forall_mem_cons]
  refine ⟨?_, ?_, ?_, ?_, List.forall_mem_nil _⟩
  · exact ⟨⟨SegmentKind.wellFormed_sequence (by decide) _ _ (Trigger.single_ofCondition _), nofun⟩,
      ⟨⟨by decide, by rintro _ ⟨⟩; decide⟩, by decide, by decide, by rintro _ ⟨⟩; decide⟩,
      hname _ (by decide), nofun, by rintro _ ⟨⟩; exact .condition hnear⟩
  · exact ⟨⟨SegmentKind.wellFormed_fallback 7, fun _ => rfl⟩,
      ⟨⟨by decide, nofun⟩, by decide, by decide, nofun⟩,
      hname _ (by decide), fun _ => rfl, nofun⟩
  · exact ⟨⟨SegmentKind.wellFormed_singleFrame 1 Trigger.single_none, nofun⟩,
      ⟨⟨by decide, nofun⟩, by decide, by decide, nofun⟩,
      hname _ (by decide), nofun, by rintro _ ⟨⟩; exact .none⟩
  · exact ⟨⟨SegmentKind.wellFormed_oneShot (by decide) (Trigger.single_ofCondition _), nofun⟩,
      ⟨⟨by decide, by rintro _ ⟨⟩; decide⟩, by decide, by decide, by rintro _ ⟨⟩; decide⟩,
      hname _ (by decide), nofun, by rintro _ ⟨⟩; exact .condition hstorm⟩

theorem sectionedWritable_sprawlingAnimation : sprawlingAnimation.SectionedWritable .strict where
  wellFormed :=
    { texture := rfl
      source := rfl
      frametime := by decide
      segments := nofun
      fallbacks := by decide
      segment := fun s hs => (sectionedWritable_of_mem_sprawlingAnimation s hs).wellFormed
      vanilla := nofun }
  inRange := ⟨by decide, by rintro _ ⟨⟩; decide⟩
  width := rfl
  height := rfl
  segment := fun entry hentry =>
    sectionedWritable_of_mem_sprawlingAnimation entry.1 (List.fst_mem_of_mem_zipIdx hentry)

theorem read_sectionedText_sprawlingAnimation :
    2 ≤ Config.strict.frameLimit ∧ sprawlingAnimation.SectionedWritable .strict ∧
      formatOf sprawlingAnimation.sectionedText = .sectioned ∧
        (read .strict sprawlingAnimation.header.texture
          sprawlingAnimation.sectionedText).outcome.value = .ok sprawlingAnimation :=
  ⟨by decide, sectionedWritable_sprawlingAnimation,
    read_sectionedText .strict (by decide) _ sectionedWritable_sprawlingAnimation⟩

end Flipbook.Document
