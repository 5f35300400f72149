import Flipbook.Document.Read
import Flipbook.Proofs.Text.Split

/-!
# Inverted ranges

A range may be declared to end before it starts. The policy of a reader says what
is to become of a segment with such a range: it is skipped, or it shows the first
frame only. Block documents give both ends of a range in properties of their own, and
sectioned documents give them in a frame list; only the first of these readers asks the
policy.

* `Config.Honours` is the policy as a condition on what a declaration has come to.
* `outcome_segment_inverted`: a block declaration is refused or collapsed, as
  the policy says.
* `listFrames?_inverted`: an inverted range in a frame list holds no frames at all.
* `inverted_range_policy`: block documents keep the policy for every inverted range;
  sectioned documents keep it for none, and never look at it.
-/
namespace Flipbook.Document

/-- What has come of a segment declared with an inverted range keeps the policy: the
segment is left out, or it shows the first frame only. -/
def Config.Honours (config : Config) (first : Nat) (found : Option Segment) : Prop :=
  if config.rejectInverted then found = none
  else found.bind (·.kind.range?) = some (.single first)

instance (config : Config) (first : Nat) (found : Option Segment) :
    Decidable (config.Honours first found) := by
  unfold Config.Honours
  infer_instance

/-- Under either policy, a segment that shows another frame is against it. -/
theorem Config.not_honours_of_ne (config : Config) {first frame : Nat} (hne : frame ≠ first)
    {s : Segment} (hs : s.kind.range? = some (.single frame)) :
    ¬config.Honours first (some s) := by
  intro h
  unfold Honours at h
  split at h
  · cases h
  · have hrange : FrameRange.single frame = FrameRange.single first :=
      Option.some.inj (hs.symm.trans h)
    exact hne (congrArg FrameRange.first hrange)

/-! ## Block documents -/

namespace Declaration

/-- The declaration is of a segment that moves, and gives its first and last frame. -/
structure DeclaresRange (d : Declaration) (first last : Nat) : Prop where
  moves : d.kind = .sequence ∨ d.kind = .oneShot
  first : blockValue (blockProperties d.properties) Decimal.frame? "first_frame_index" = some first
  last : blockValue (blockProperties d.properties) Decimal.frame? "last_frame_index" = some last

/-- The name of the segment that a declaration is for. -/
def segmentName (d : Declaration) (index : Nat) : String :=
  match (blockProperties d.properties).get? "name" with
  | some name => String.ofList (unquote name)
  | none => s!"segment_{index}"

end Declaration

variable {config : Config}

theorem Config.outcome_checkRange_of_lt (config : Config) (name : String) {first last : Nat}
    (hinverted : last < first) :
    (config.checkRange name first last).outcome.value =
      if config.rejectInverted then .error (.invertedRange name first last)
      else .ok (.single first) := by
  rw [checkRange, if_neg (Nat.not_le_of_gt hinverted)]
  split <;> rfl

/-- The segment of a declaration that moves is built around its range, once that is
checked. -/
theorem Declaration.DeclaresRange.outcome_segment {d : Declaration} {first last : Nat}
    (h : d.DeclaresRange first last) (config : Config) (index : Nat) :
    ∃ build : FrameRange → Segment, (∀ range, (build range).kind.range? = some range) ∧
      (d.segment config index).outcome.value =
        (config.checkRange (d.segmentName index) first last).outcome.value.map build := by
  obtain ⟨hmoves, hfirst, hlast⟩ := h
  have hmap {build : FrameRange → Segment} {x : Reading FrameRange} :
      (x >>= fun range => pure (build range)).outcome.value = x.outcome.value.map build := by
    rw [Reading.outcome_bind]
    cases x.outcome.value <;> rfl
  unfold Declaration.segment
  dsimp only
  rw [hfirst, hlast, Reading.outcome_bind, Reading.outcome_ofNoted]
  dsimp only [Option.getD_some]
  rcases hmoves with hkind | hkind
  · rw [hkind]
    exact ⟨_, fun _ => rfl, hmap⟩
  · rw [hkind]
    exact ⟨_, fun _ => rfl, hmap⟩

/-- A declaration of an inverted range is refused, and the message names the range; or
its segment shows the first frame only. -/
theorem outcome_segment_inverted {d : Declaration} {first last : Nat}
    (h : d.DeclaresRange first last) (hinverted : last < first) (config : Config) (index : Nat) :
    (config.rejectInverted = true → (d.segment config index).outcome.value =
        .error (.invertedRange (d.segmentName index) first last)) ∧
    (config.rejectInverted = false → ∃ s, (d.segment config index).outcome.value = .ok s ∧
        s.kind.range? = some (.single first)) := by
  obtain ⟨build, hbuild, houtcome⟩ := h.outcome_segment config index
  rw [config.outcome_checkRange_of_lt _ hinverted] at houtcome
  constructor
  · intro hreject
    rw [houtcome, if_pos hreject]
    rfl
  · intro hcollapse
    rw [houtcome, if_neg (by simp [hcollapse])]
    exact ⟨build (.single first), rfl, hbuild _⟩

/-- What comes of a marker is the segment of the declaration behind it, if that is not
refused. -/
theorem segment_readSegment {texture : Texture} {index position : Nat} {text : List Char}
    {d : Declaration}
    (hread : (declaration (behindMarker position) text).toOption.map Prod.fst = some d) :
    (readSegment config texture index position text).value.segment =
      (d.segment config index).outcome.value.toOption := by
  obtain ⟨behind, hdeclaration⟩ :
      ∃ behind, declaration (behindMarker position) text = .ok (d, behind) := by
    cases hfound : declaration (behindMarker position) text with
    | error e =>
      rw [hfound] at hread
      cases hread
    | ok found =>
      rw [hfound] at hread
      cases hread
      exact ⟨found.2, rfl⟩
  unfold readSegment
  dsimp only
  rw [Noted.value_bind, Reading.outcome_bind, Reading.outcome_ofExcept, hdeclaration]
  dsimp only
  rw [Reading.outcome_bind]
  cases (d.segment config index).outcome.value <;> rfl

/-- Block documents keep the policy. -/
theorem readSegment_honours {texture : Texture} {index position : Nat} {text : List Char}
    {d : Declaration} {first last : Nat}
    (hread : (declaration (behindMarker position) text).toOption.map Prod.fst = some d)
    (h : d.DeclaresRange first last) (hinverted : last < first) :
    config.Honours first (readSegment config texture index position text).value.segment := by
  obtain ⟨hrejected, hcollapsed⟩ := outcome_segment_inverted h hinverted config index
  rw [segment_readSegment hread]
  unfold Config.Honours
  split
  · next hpolicy =>
    rw [hrejected hpolicy]
    rfl
  · next hpolicy =>
    obtain ⟨s, hs, hrange⟩ := hcollapsed (by simpa using hpolicy)
    rw [hs]
    exact hrange

/-! ## Frame lists -/

/-- What a frame number is written with. -/
theorem isDigit_of_mem_frame? {cs : List Char} {n : Nat} (h : Decimal.frame? cs = some n) :
    ∀ c ∈ cs, c = '+' ∨ c.isDigit = true := by
  have hdigits {ds : List Char}
      (h : (Decimal.digits? ds).filter (· < Decimal.frameBound) = some n) :
      ∀ c ∈ ds, c.isDigit = true := by
    obtain ⟨hsome, -⟩ := Option.filter_eq_some_iff.1 h
    unfold Decimal.digits? at hsome
    split at hsome
    · next hall => exact List.all_eq_true.1 (Bool.and_eq_true_iff.1 hall).2
    · cases hsome
  intro c hc
  unfold Decimal.frame? Decimal.natural? at h
  split at h
  · next ds =>
    rcases List.mem_cons.1 hc with rfl | hmem
    · exact .inl rfl
    · exact .inr (hdigits h c hmem)
  · exact .inr (hdigits h c hc)

/-- What a bound of a range is written with. -/
theorem notMem_of_frame?_trim {cs : List Char} {n : Nat}
    (h : Decimal.frame? (Text.trim cs) = some n) {c : Char} (hblank : Text.isBlank c = false)
    (hplus : c ≠ '+') (hdigit : c.isDigit = false) : c ∉ cs := by
  intro hmem
  rcases isDigit_of_mem_frame? h c (Text.mem_stripWhile_of_mem hmem hblank) with hc | hc
  · exact hplus hc
  · rw [hdigit] at hc
    cases hc

/-- A frame list that is an inverted range holds no frames, however many are allowed. -/
theorem listFrames?_inverted (limit : Nat) {left right : List Char} {first last : Nat}
    (hfirst : Decimal.frame? (Text.trim left) = some first)
    (hlast : Decimal.frame? (Text.trim right) = some last) (hinverted : last < first) :
    listFrames? limit (left ++ '-' :: right) = some [] := by
  have hdash : '-' ∉ left := notMem_of_frame?_trim hfirst (by decide) (by decide) (by decide)
  have hcolon : ':' ∉ left ++ '-' :: right := by
    have hleft : ':' ∉ left := notMem_of_frame?_trim hfirst (by decide) (by decide) (by decide)
    have hright : ':' ∉ right := notMem_of_frame?_trim hlast (by decide) (by decide) (by decide)
    simp [hleft, hright]
  have hbracketed : bracketed? (left ++ '-' :: right) = none := by
    have hbracket : '[' ∉ left := notMem_of_frame?_trim hfirst (by decide) (by decide) (by decide)
    cases left with
    | nil => rfl
    | cons c left =>
      have hc : c ≠ '[' := fun h => hbracket (h ▸ List.mem_cons_self)
      unfold bracketed?
      split
      · next inner hinner => exact absurd (List.cons.inj hinner).1 hc
      · rfl
  rw [listFrames?, hbracketed]
  dsimp only
  rw [partFrames?, Text.cut_eq_none hcolon]
  dsimp only
  rw [plainFrames?, Text.cut_append hdash]
  dsimp only
  rw [rangeBound, rangeBound, hfirst, hlast]
  exact if_pos hinverted

/-! ## Sectioned documents -/

namespace Draft

/-- The section is of a segment that moves, and its frame list comes to one range,
written with its first and last frame. -/
structure DeclaresRange (draft : Draft) (p : Properties) (first last : Nat) : Prop where
  moves : ∃ kind, kind ≠ .single ∧
    SectionedKind.ofName? (Text.toLower (String.ofList (p.getD "type" "sequence".toList))) =
      some kind
  frames : ∃ spec left right, p.get? "frames" = some spec ∧
    Text.trim (draft.substitutions.expand spec).value = left ++ '-' :: right ∧
    Decimal.frame? (Text.trim left) = some first ∧ Decimal.frame? (Text.trim right) = some last

variable {draft : Draft} {p : Properties} {first last : Nat}

/-- An inverted range of frames counts for the frame zero, whatever the policy. -/
theorem DeclaresRange.outcome_range (h : draft.DeclaresRange p first last)
    (hinverted : last < first) (config : Config) (default : String) :
    (draft.range config p default).outcome.value = .ok (.single 0) := by
  obtain ⟨spec, left, right, hspec, hexpanded, hfirst, hlast⟩ := h.frames
  have hget : p.getD "frames" default.toList = spec := by
    rw [Table.getD, hspec]
    rfl
  have hnone : ([] : List Nat).mergeSort.eraseReps = [] := by
    rw [List.mergeSort_nil]
    rfl
  have hframes : (draft.frames config spec).outcome.value = .ok [] := by
    refine Reading.outcome_bind_eq_ok_iff.2 ⟨_, rfl, ?_⟩
    dsimp only
    rw [hexpanded, listFrames?_inverted config.frameLimit hfirst hlast hinverted]
    exact congrArg Except.ok hnone
  rw [range, hget, Reading.outcome_bind, hframes]
  rfl

/-- Whatever the policy, the segment of an inverted range shows the frame zero. -/
theorem DeclaresRange.outcome_segment (h : draft.DeclaresRange p first last)
    (hinverted : last < first) (config : Config) (name : String) :
    ∃ s, (draft.segment config name p).outcome.value = .ok s ∧
      s.kind.range? = some (.single 0) := by
  have hkind : ∃ kind, (draft.segmentKind config name p).outcome.value = .ok kind ∧
      kind.range? = some (.single 0) := by
    obtain ⟨declared, hne, hname⟩ := h.moves
    unfold segmentKind
    dsimp only
    rw [Reading.outcome_bind, Reading.outcome_ofNoted, hname]
    dsimp only
    cases declared with
    | single => exact absurd rfl hne
    | sequence =>
      dsimp only
      rw [Reading.outcome_bind, h.outcome_range hinverted]
      exact ⟨_, rfl, rfl⟩
    | weighted =>
      dsimp only
      rw [Reading.outcome_bind, Reading.outcome_note]
      dsimp only
      rw [Reading.outcome_bind, h.outcome_range hinverted]
      exact ⟨_, rfl, rfl⟩
    | conditional =>
      dsimp only
      rw [Reading.outcome_bind, Reading.outcome_note]
      dsimp only
      rw [Reading.outcome_bind, h.outcome_range hinverted]
      exact ⟨_, rfl, rfl⟩
    | oneShot =>
      dsimp only
      rw [Reading.outcome_bind, h.outcome_range hinverted]
      exact ⟨_, rfl, rfl⟩
  obtain ⟨kind, houtcome, hrange⟩ := hkind
  rw [segment, Reading.outcome_bind, houtcome]
  exact ⟨_, rfl, hrange⟩

/-- Whatever the policy, a section with an inverted range is worked in. -/
theorem DeclaresRange.value_process {lines : List (List Char)}
    (h : draft.DeclaresRange (propertiesOf lines) first last) (hinverted : last < first)
    (config : Config) (texture : Texture) (name : String) :
    ∃ s, (draft.process config texture (.segment name, lines)).value =
        { draft with segments := draft.segments ++ [s] } ∧
      s.kind.range? = some (.single 0) := by
  obtain ⟨s, hs, hrange⟩ := h.outcome_segment hinverted config name
  have hextend : (draft.extend config texture (.segment name) (propertiesOf lines)).outcome.value =
      .ok { draft with segments := draft.segments ++ [s] } := by
    rw [extend, Reading.outcome_bind, hs]
    rfl
  refine ⟨s, ?_, hrange⟩
  rw [process, Noted.value_bind, hextend]
  rfl

variable (config : Config) (rejects : Bool)

theorem frame_rejectInverted (draft : Draft) :
    draft.frame { config with rejectInverted := rejects } = draft.frame config := rfl

theorem range_rejectInverted (draft : Draft) :
    draft.range { config with rejectInverted := rejects } = draft.range config := rfl

theorem trigger_rejectInverted (draft : Draft) :
    draft.trigger { config with rejectInverted := rejects } = draft.trigger config := rfl

theorem segmentKind_rejectInverted (draft : Draft) :
    draft.segmentKind { config with rejectInverted := rejects } = draft.segmentKind config := by
  funext name p
  unfold segmentKind
  rw [range_rejectInverted, frame_rejectInverted, trigger_rejectInverted]

theorem segment_rejectInverted (draft : Draft) :
    draft.segment { config with rejectInverted := rejects } = draft.segment config := by
  funext name p
  unfold segment
  rw [segmentKind_rejectInverted]

theorem extend_rejectInverted (draft : Draft) :
    draft.extend { config with rejectInverted := rejects } = draft.extend config := by
  funext texture heading p
  unfold extend
  rw [segment_rejectInverted, frame_rejectInverted]

/-- A section is worked in alike whether inverted ranges are rejected or not. -/
theorem process_rejectInverted (texture : Texture) :
    process { config with rejectInverted := rejects } texture = process config texture := by
  funext draft part
  unfold process
  rw [extend_rejectInverted]

end Draft

/-- No sectioned document is read otherwise because inverted ranges are rejected. -/
theorem readSectioned_rejectInverted (config : Config) (rejects : Bool) (texture : Texture)
    (content : List Char) :
    readSectioned { config with rejectInverted := rejects } texture content =
      readSectioned config texture content := by
  unfold readSectioned
  rw [Draft.process_rejectInverted]

/-! ## The policy -/

/-- For every inverted range, block documents keep the policy, and sectioned documents
do not: their segments show the frame zero and are never skipped. -/
theorem inverted_range_policy (config : Config) (texture : Texture) {first last : Nat}
    (hinverted : last < first) :
    (∀ index position text d,
      (declaration (behindMarker position) text).toOption.map Prod.fst = some d →
      d.DeclaresRange first last →
      config.Honours first (readSegment config texture index position text).value.segment) ∧
    (∀ (draft : Draft) name lines, draft.DeclaresRange (propertiesOf lines) first last →
      ∃ s, (draft.process config texture (.segment name, lines)).value =
          { draft with segments := draft.segments ++ [s] } ∧
        s.kind.range? = some (.single 0) ∧ ¬config.Honours first (some s)) ∧
    ∀ rejects content, readSectioned { config with rejectInverted := rejects } texture content =
      readSectioned config texture content := by
  refine ⟨?_, ?_, fun rejects content =>
    readSectioned_rejectInverted config rejects texture content⟩
  · intro index position text d hread h
    exact readSegment_honours hread h hinverted
  · intro draft name lines h
    obtain ⟨s, hprocess, hrange⟩ := h.value_process hinverted config texture name
    exact ⟨s, hprocess, hrange, config.not_honours_of_ne (Nat.ne_of_lt (by omega)) hrange⟩

/-- A declaration of the frames from five down to two. -/
def backwards : Declaration :=
  ⟨.sequence, none, " first_frame_index = 5; last_frame_index = 2 ".toList⟩

/-- A section of the frames from five down to two. -/
def backwardsLines : List (List Char) := ["frames: 5-2".toList]

theorem declaresRange_backwards : backwards.DeclaresRange 5 2 where
  moves := .inl rfl
  first := by decide +kernel
  last := by decide +kernel

theorem declaresRange_backwardsLines :
    Draft.blank.DeclaresRange (propertiesOf backwardsLines) 5 2 where
  moves := ⟨.sequence, by decide, by decide +kernel⟩
  frames := ⟨"5-2".toList, ['5'], ['2'], by decide +kernel, by decide +kernel, by decide +kernel,
    by decide +kernel⟩

/-- The texture of the examples below. -/
def clock : Texture := ⟨"minecraft", "item/clock"⟩

theorem inverted_range_policy_backwards :
    (Config.strict.Honours 5 (readSegment .strict clock 0 0
      "SEQUENCE \x7b first_frame_index = 5; last_frame_index = 2 \x7d".toList).value.segment ∧
    Config.standard.Honours 5 (readSegment .standard clock 0 0
      "SEQUENCE \x7b first_frame_index = 5; last_frame_index = 2 \x7d".toList).value.segment) ∧
    ∃ s, (Draft.blank.process .standard clock
        (.segment "idle", backwardsLines)).value =
          { Draft.blank with segments := [s] } ∧
      s.kind.range? = some (.single 0) ∧ ¬Config.standard.Honours 5 (some s) := by
  have hread : (declaration (behindMarker 0)
      "SEQUENCE \x7b first_frame_index = 5; last_frame_index = 2 \x7d".toList).toOption.map
        Prod.fst = some backwards := by
    decide +kernel
  obtain ⟨hstrict, -, -⟩ := inverted_range_policy .strict clock
    (show 2 < 5 by decide)
  obtain ⟨hstandard, hsectioned, -⟩ := inverted_range_policy .standard clock
    (show 2 < 5 by decide)
  exact ⟨⟨hstrict 0 0 _ _ hread declaresRange_backwards,
    hstandard 0 0 _ _ hread declaresRange_backwards⟩,
    hsectioned .blank "idle" _ declaresRange_backwardsLines⟩

/-- A sectioned document of the frames from five down to two. -/
def backwardsDocument : List Char := "[segment:idle]\nframes: 5-2\n".toList

/-- The ranges of the segments that a document is read to. -/
def rangesRead (config : Config) (document : List Char) : Option (List (Option FrameRange)) :=
  (readSectioned config clock document).outcome.value.toOption.map fun m =>
    m.segments.map (·.kind.range?)

/-- The document is read alike under both policies, to the frame zero. -/
theorem not_forall_sectioned_honours :
    (rangesRead .standard backwardsDocument = some [some (.single 0)] ∧
      rangesRead .strict backwardsDocument = some [some (.single 0)]) ∧
    ¬∀ (config : Config) texture (draft : Draft) name lines first last, last < first →
      draft.DeclaresRange (propertiesOf lines) first last →
      ∃ found, (draft.process config texture (.segment name, lines)).value.segments =
          draft.segments ++ found.toList ∧ config.Honours first found := by
  refine ⟨⟨by decide +kernel, by decide +kernel⟩, fun hall => ?_⟩
  obtain ⟨found, hprocess, hhonours⟩ := hall .standard clock .blank "idle"
    backwardsLines 5 2 (by decide) declaresRange_backwardsLines
  obtain ⟨s, hvalue, hrange⟩ := declaresRange_backwardsLines.value_process (by decide) .standard
    clock "idle"
  rw [hvalue] at hprocess
  obtain rfl : found = some s := by
    cases found with
    | none => cases hprocess
    | some t =>
      cases hprocess
      rfl
  exact Config.standard.not_honours_of_ne (by decide) hrange hhonours

end Flipbook.Document
