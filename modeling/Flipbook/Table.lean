/-!
# Tables sorted by key

A `Table` holds at most one value per key, in ascending order of the keys, so
that whatever walks over a table meets the keys in one order. Order and
uniqueness are part of the type.

* `get?_insert`, `get?_erase`, `get?_filter`, `get?_mapValues`, `get?_mapFold` say what
  each operation does to a look-up.
* `nodup_keys` and `ascending` give the order of what is listed, and `get?_eq_some_iff`
  says that a look-up finds just what is listed.
-/
namespace Flipbook

/-- Values by key, in ascending order of the keys. -/
structure Table (κ α : Type) [Ord κ] where
  entries : List (κ × α)
  ascending : entries.Pairwise fun a b => compare a.1 b.1 = .lt

namespace Table

variable {κ α β : Type} [Ord κ]

/-- The table without entries. -/
def empty : Table κ α := ⟨[], .nil⟩

instance : EmptyCollection (Table κ α) := ⟨empty⟩

instance : Inhabited (Table κ α) := ⟨empty⟩

/-- The keys, in ascending order. -/
def keys (t : Table κ α) : List κ := t.entries.map Prod.fst

/-- The values, in the order of their keys. -/
def values (t : Table κ α) : List α := t.entries.map Prod.snd

/-- The number of keys. -/
def size (t : Table κ α) : Nat := t.entries.length

/-- Whether there is no entry. -/
def isEmpty (t : Table κ α) : Bool := t.entries.isEmpty

/-- The value of a key. -/
def get? (t : Table κ α) (k : κ) : Option α :=
  (t.entries.find? fun e => compare k e.1 == .eq).map Prod.snd

/-- Whether a key has a value. -/
def contains (t : Table κ α) (k : κ) : Bool := (t.get? k).isSome

/-- The value of a key, or a default. -/
def getD (t : Table κ α) (k : κ) (default : α) : α := (t.get? k).getD default

/-- Applies a function to every value. -/
def mapValues (f : κ → α → β) (t : Table κ α) : Table κ β :=
  ⟨t.entries.map fun e => (e.1, f e.1 e.2), List.pairwise_map.2 t.ascending⟩

/-- Applies a function to every value, in ascending order of the keys, and hands a
state on from each to the next. -/
def mapFoldEntries {τ : Type} (f : κ → α → τ → β × τ) : List (κ × α) → τ → List (κ × β) × τ
  | [], s => ([], s)
  | e :: es, s =>
    let (b, s) := f e.1 e.2 s
    let (bs, s) := mapFoldEntries f es s
    ((e.1, b) :: bs, s)

omit [Ord κ] in
theorem keys_mapFoldEntries {τ : Type} (f : κ → α → τ → β × τ) (es : List (κ × α)) (s : τ) :
    (mapFoldEntries f es s).1.map Prod.fst = es.map Prod.fst := by
  induction es generalizing s with
  | nil => rfl
  | cons e es ih => simp [mapFoldEntries, ih]

/-- Applies a function to every value, in ascending order of the keys, and hands a
state on from each to the next. -/
def mapFold {τ : Type} (f : κ → α → τ → β × τ) (t : Table κ α) (s : τ) : Table κ β × τ :=
  let done := mapFoldEntries f t.entries s
  (⟨done.1, by
    have h : (done.1.map Prod.fst).Pairwise fun a b => compare a b = .lt := by
      rw [keys_mapFoldEntries]
      exact List.pairwise_map.2 t.ascending
    exact List.pairwise_map.1 h⟩, done.2)

/-- Keeps the entries that pass a test. -/
def filter (p : κ → α → Bool) (t : Table κ α) : Table κ α :=
  ⟨t.entries.filter fun e => p e.1 e.2, t.ascending.filter _⟩

/-- Removes a key. -/
def erase (t : Table κ α) (k : κ) : Table κ α := t.filter fun k' _ => compare k k' != .eq

@[simp] theorem get?_empty (k : κ) : (empty : Table κ α).get? k = none := rfl

/-- Puts an entry at its place in a list in ascending order. -/
def insertEntry (k : κ) (v : α) : List (κ × α) → List (κ × α)
  | [] => [(k, v)]
  | e :: es =>
    match compare k e.1 with
    | .lt => (k, v) :: e :: es
    | .eq => (k, v) :: es
    | .gt => e :: insertEntry k v es

theorem mem_insertEntry {k : κ} {v : α} {es : List (κ × α)} {e : κ × α}
    (h : e ∈ insertEntry k v es) : e = (k, v) ∨ e ∈ es := by
  induction es with
  | nil => simpa [insertEntry] using h
  | cons f fs ih =>
    unfold insertEntry at h
    split at h
    · simpa using h
    · rcases List.mem_cons.1 h with rfl | h'
      · exact .inl rfl
      · exact .inr (List.mem_cons_of_mem _ h')
    · rcases List.mem_cons.1 h with rfl | h'
      · exact .inr List.mem_cons_self
      · exact (ih h').imp_right (List.mem_cons_of_mem _)

variable [Std.LawfulEqOrd κ]

theorem get?_mapValues (f : κ → α → β) (t : Table κ α) (k : κ) :
    (t.mapValues f).get? k = (t.get? k).map (f k) := by
  obtain ⟨es, hes⟩ := t
  simp only [get?, mapValues]
  clear hes
  induction es with
  | nil => rfl
  | cons e es ih =>
    by_cases h : compare k e.1 = .eq
    · obtain rfl : k = e.1 := Std.LawfulEqCmp.eq_of_compare h
      simp
    · rw [List.map_cons, List.find?_cons_of_neg (by simpa using h), ih,
        List.find?_cons_of_neg (by simpa using h)]

/-- A look-up after a walk over the entries finds what came of the value before, in some
state that the walk may have reached: one of which all holds that every step keeps. -/
theorem get?_mapFold {τ : Type} {f : κ → α → τ → β × τ} {I : τ → Prop}
    (hf : ∀ k a s, I s → I (f k a s).2) (t : Table κ α) {s : τ} (hs : I s) (k : κ) :
    ∃ s', I s' ∧ (t.mapFold f s).1.get? k = (t.get? k).map fun a => (f k a s').1 := by
  obtain ⟨es, hes⟩ := t
  simp only [get?, mapFold]
  clear hes
  induction es generalizing s with
  | nil => exact ⟨s, hs, rfl⟩
  | cons e es ih =>
    by_cases h : compare k e.1 = .eq
    · obtain rfl : k = e.1 := Std.LawfulEqCmp.eq_of_compare h
      exact ⟨s, hs, by simp [mapFoldEntries]⟩
    · obtain ⟨s', hs', heq⟩ := ih (hf e.1 e.2 s hs)
      refine ⟨s', hs', ?_⟩
      rw [mapFoldEntries, List.find?_cons_of_neg (by simpa using h), heq,
        List.find?_cons_of_neg (by simpa using h)]

theorem mem_entries_of_get? {t : Table κ α} {k : κ} {a : α} (h : t.get? k = some a) :
    (k, a) ∈ t.entries := by
  obtain ⟨e, he, rfl⟩ := Option.map_eq_some_iff.1 h
  obtain rfl : k = e.1 := by simpa using List.find?_some he
  exact List.mem_of_find?_eq_some he

variable [Std.TransOrd κ]

theorem pairwise_insertEntry (k : κ) (v : α) {es : List (κ × α)}
    (h : es.Pairwise fun a b => compare a.1 b.1 = .lt) :
    (insertEntry k v es).Pairwise fun a b => compare a.1 b.1 = .lt := by
  induction es with
  | nil => simp [insertEntry]
  | cons e es ih =>
    rw [List.pairwise_cons] at h
    unfold insertEntry
    split
    · next hlt =>
      refine List.pairwise_cons.2 ⟨?_, List.pairwise_cons.2 h⟩
      intro f hf
      rcases List.mem_cons.1 hf with rfl | hf
      · exact hlt
      · exact Std.TransCmp.lt_trans hlt (h.1 f hf)
    · next heq =>
      refine List.pairwise_cons.2 ⟨fun f hf => ?_, h.2⟩
      rw [Std.LawfulEqCmp.eq_of_compare heq]
      exact h.1 f hf
    · next hgt =>
      refine List.pairwise_cons.2 ⟨fun f hf => ?_, ih h.2⟩
      rcases mem_insertEntry hf with rfl | hf
      · exact Std.OrientedCmp.lt_of_gt hgt
      · exact h.1 f hf

/-- Gives a key its value, in place of any it had before. -/
def insert (t : Table κ α) (k : κ) (v : α) : Table κ α :=
  ⟨insertEntry k v t.entries, pairwise_insertEntry k v t.ascending⟩

/-- The table of some pairs; of several with one key the last counts. -/
def ofList (pairs : List (κ × α)) : Table κ α := pairs.foldl (fun t e => t.insert e.1 e.2) empty

/-! ## Look-ups -/

theorem get?_insert (t : Table κ α) (k k' : κ) (v : α) :
    (t.insert k v).get? k' = if compare k' k = .eq then some v else t.get? k' := by
  obtain ⟨es, hes⟩ := t
  simp only [get?, insert]
  clear hes
  induction es with
  | nil => by_cases h : compare k' k = .eq <;> simp [insertEntry, h]
  | cons e es ih =>
    unfold insertEntry
    split
    · by_cases h : compare k' k = .eq <;> simp [List.find?_cons, h]
    · next heq =>
      obtain rfl : k = e.1 := Std.LawfulEqCmp.eq_of_compare heq
      by_cases h : compare k' e.1 = .eq <;> simp [h]
    · next hgt =>
      by_cases h : compare k' e.1 = .eq
      · obtain rfl : k' = e.1 := Std.LawfulEqCmp.eq_of_compare h
        have hne : compare e.1 k ≠ .eq := by
          rw [Std.OrientedCmp.lt_of_gt hgt]
          simp
        simp [hne]
      · rw [List.find?_cons_of_neg (by simpa using h), ih]
        simp [h]

/-- A look-up behind insertions of different keys finds the value among them, or what
was there before. -/
theorem get?_foldl_insert [BEq κ] [LawfulBEq κ] {pairs : List (κ × α)}
    (h : (pairs.map Prod.fst).Nodup) (t : Table κ α) (k : κ) :
    (pairs.foldl (fun t e => t.insert e.1 e.2) t).get? k = (pairs.lookup k).or (t.get? k) := by
  induction pairs generalizing t with
  | nil => rfl
  | cons e pairs ih =>
    rw [List.map_cons, List.nodup_cons] at h
    rw [List.foldl_cons, ih h.2, get?_insert, List.lookup_cons]
    by_cases hk : k = e.1
    · subst hk
      have hnone : pairs.lookup e.1 = none := by
        rw [List.lookup_eq_none_iff]
        intro f hf
        exact bne_iff_ne.2 fun heq => h.1 (heq ▸ List.mem_map_of_mem hf)
      simp [hnone]
    · have hbeq : (k == e.1) = false := beq_eq_false_iff_ne.2 hk
      have hcompare : ¬compare k e.1 = .eq := fun heq => hk (Std.LawfulEqCmp.eq_of_compare heq)
      rw [hbeq, if_neg hcompare]

theorem get?_ofList [BEq κ] [LawfulBEq κ] {pairs : List (κ × α)}
    (h : (pairs.map Prod.fst).Nodup) (k : κ) : (ofList pairs).get? k = pairs.lookup k := by
  rw [ofList, get?_foldl_insert h, get?_empty, Option.or_none]

theorem get?_eq_some_iff {t : Table κ α} {k : κ} {a : α} :
    t.get? k = some a ↔ (k, a) ∈ t.entries := by
  refine ⟨mem_entries_of_get?, fun h => ?_⟩
  obtain ⟨es, hes⟩ := t
  simp only [get?]
  induction es with
  | nil => cases h
  | cons e es ih =>
    rw [List.pairwise_cons] at hes
    rcases List.mem_cons.1 h with rfl | h
    · simp
    · have hne : compare k e.1 ≠ .eq := by
        rw [Std.OrientedCmp.gt_of_lt (hes.1 (k, a) h)]
        simp
      rw [List.find?_cons_of_neg (by simpa using hne)]
      exact ih hes.2 h

theorem get?_filter (p : κ → α → Bool) (t : Table κ α) (k : κ) :
    (t.filter p).get? k = (t.get? k).filter (p k) := by
  refine Option.ext fun a => ?_
  rw [get?_eq_some_iff, Option.filter_eq_some_iff, get?_eq_some_iff]
  exact List.mem_filter

theorem get?_erase (t : Table κ α) (k k' : κ) :
    (t.erase k).get? k' = if compare k' k = .eq then none else t.get? k' := by
  have hsymm : compare k k' = .eq ↔ compare k' k = .eq :=
    ⟨Std.OrientedCmp.eq_symm, Std.OrientedCmp.eq_symm⟩
  rw [erase, get?_filter]
  by_cases h : compare k' k = .eq <;> cases t.get? k' <;> simp [hsymm, h]

theorem mem_keys_iff {t : Table κ α} {k : κ} : k ∈ t.keys ↔ t.contains k = true := by
  simp only [keys, contains, Option.isSome_iff_exists, get?_eq_some_iff, List.mem_map,
    Prod.exists, exists_and_right, exists_eq_right]

omit [Std.LawfulEqOrd κ] in
theorem nodup_keys (t : Table κ α) : t.keys.Nodup := by
  refine List.pairwise_map.2 (t.ascending.imp fun hlt heq => ?_)
  rw [heq] at hlt
  simp at hlt

end Table
end Flipbook
