import MdxBuild.Text.Order

/-!
# Dictionaries

A dictionary is a list of entries sorted by their keys, each key once. The invariant is part of the
type, so a dictionary is determined by its look-ups and lists its keys in order.
-/

namespace MdxBuild

/-- A finite map from texts, its entries sorted by key. -/
structure Dictionary (α : Type) where
  entries : List (Text × α)
  sorted : (entries.map Prod.fst).Pairwise (Text.isBefore · ·)

namespace Dictionary

variable {α : Type}

instance [DecidableEq α] : DecidableEq (Dictionary α) := fun first second =>
  if same : first.entries = second.entries then
    .isTrue (by cases first; cases second; cases same; rfl)
  else
    .isFalse fun equal => same (congrArg entries equal)

/-- The dictionary without entries. -/
def empty : Dictionary α :=
  ⟨[], by simp⟩

instance : Inhabited (Dictionary α) :=
  ⟨empty⟩

/-- The value of a key. -/
def find? (dictionary : Dictionary α) (key : Text) : Option α :=
  (dictionary.entries.find? fun entry => entry.1 == key).map Prod.snd

/-- The keys, in order. -/
def keys (dictionary : Dictionary α) : List Text :=
  dictionary.entries.map Prod.fst

/-- The values, in the order of their keys. -/
def values (dictionary : Dictionary α) : List α :=
  dictionary.entries.map Prod.snd

/-- There are no entries. -/
def isEmpty (dictionary : Dictionary α) : Bool :=
  dictionary.entries.isEmpty

/-- Sorted entries with a new value for a key. -/
def insertEntry (key : Text) (value : α) : List (Text × α) → List (Text × α)
  | [] => [(key, value)]
  | entry :: others =>
    if key = entry.1 then (key, value) :: others
    else if key.isBefore entry.1 then (key, value) :: entry :: others
    else entry :: insertEntry key value others

theorem mem_keys_insertEntry {key other : Text} {value : α} {entries : List (Text × α)} :
    other ∈ (insertEntry key value entries).map Prod.fst ↔
      other = key ∨ other ∈ entries.map Prod.fst := by
  induction entries with
  | nil => simp [insertEntry]
  | cons entry others ih =>
    rw [insertEntry]
    split
    · next same => simp [same]
    · split
      · simp
      · rw [List.map_cons, List.mem_cons, ih, List.map_cons, List.mem_cons]
        exact or_left_comm

theorem sorted_insertEntry {key : Text} {value : α} {entries : List (Text × α)}
    (sorted : (entries.map Prod.fst).Pairwise (Text.isBefore · ·)) :
    ((insertEntry key value entries).map Prod.fst).Pairwise (Text.isBefore · ·) := by
  induction entries with
  | nil => simp [insertEntry]
  | cons entry others ih =>
    rw [List.map_cons, List.pairwise_cons] at sorted
    rcases sorted with ⟨below, sortedOthers⟩
    rw [insertEntry]
    split
    · next same =>
      rw [List.map_cons, List.pairwise_cons]
      exact ⟨by simpa [same] using below, sortedOthers⟩
    · next different =>
      split
      · next less =>
        rw [List.map_cons, List.map_cons, List.pairwise_cons, List.pairwise_cons]
        refine ⟨?_, below, sortedOthers⟩
        intro other member
        rcases List.mem_cons.mp member with rfl | member
        · exact less
        · exact Text.isBefore_trans less (below other member)
      · next notLess =>
        rw [List.map_cons, List.pairwise_cons]
        refine ⟨?_, ih sortedOthers⟩
        intro other member
        rcases mem_keys_insertEntry.mp member with rfl | member
        · exact Text.isBefore_of_ne different (Bool.eq_false_iff.mpr notLess)
        · exact below other member

/-- The dictionary with a new value for a key. -/
def insert (dictionary : Dictionary α) (key : Text) (value : α) : Dictionary α :=
  ⟨insertEntry key value dictionary.entries, sorted_insertEntry dictionary.sorted⟩

/-- The dictionary without a key. -/
def erase (dictionary : Dictionary α) (key : Text) : Dictionary α :=
  ⟨dictionary.entries.filter fun entry => entry.1 != key,
    dictionary.sorted.sublist (List.filter_sublist.map _)⟩

/-- The dictionary with every value mapped. -/
def map {β : Type} (change : α → β) (dictionary : Dictionary α) : Dictionary β :=
  ⟨dictionary.entries.map fun entry => (entry.1, change entry.2), by
    simpa [Function.comp_def] using dictionary.sorted⟩

/-- The dictionary with entries taken in one after the other. -/
def insertAll (dictionary : Dictionary α) (entries : List (Text × α)) : Dictionary α :=
  entries.foldl (fun all entry => all.insert entry.1 entry.2) dictionary

/-- The dictionary of a list of entries; the last value of a key counts. -/
def ofList (entries : List (Text × α)) : Dictionary α :=
  entries.foldl (fun dictionary entry => dictionary.insert entry.1 entry.2) empty

@[simp]
theorem find?_empty (key : Text) : (empty : Dictionary α).find? key = none :=
  rfl

@[simp]
theorem find?_insert_self (dictionary : Dictionary α) (key : Text) (value : α) :
    (dictionary.insert key value).find? key = some value := by
  rcases dictionary with ⟨entries, sorted⟩
  simp only [find?, insert]
  clear sorted
  induction entries with
  | nil => simp [insertEntry]
  | cons entry others ih =>
    by_cases same : key = entry.1
    · simp [insertEntry, same]
    · by_cases less : key.isBefore entry.1 = true
      · simp [insertEntry, same, less]
      · have other : (entry.1 == key) = false := by simpa using Ne.symm same
        simpa [insertEntry, same, less, List.find?_cons, other] using ih

@[simp]
theorem find?_insert_of_ne (dictionary : Dictionary α) {key other : Text} (value : α)
    (different : other ≠ key) :
    (dictionary.insert key value).find? other = dictionary.find? other := by
  rcases dictionary with ⟨entries, sorted⟩
  simp only [find?, insert]
  clear sorted
  have skipped : (key == other) = false := by simpa using Ne.symm different
  induction entries with
  | nil => simp [insertEntry, skipped]
  | cons entry others ih =>
    by_cases same : key = entry.1
    · have skippedEntry : (entry.1 == other) = false := by simpa [← same] using skipped
      simp [insertEntry, same, skippedEntry]
    · by_cases less : key.isBefore entry.1 = true
      · simp [insertEntry, same, less, skipped]
      · by_cases found : (entry.1 == other) = true
        · simp [insertEntry, same, less, found]
        · rw [Bool.not_eq_true] at found
          simpa [insertEntry, same, less, List.find?_cons, found] using ih

@[simp]
theorem find?_erase_self (dictionary : Dictionary α) (key : Text) :
    (dictionary.erase key).find? key = none := by
  simp [find?, erase]

@[simp]
theorem find?_erase_of_ne (dictionary : Dictionary α) {key other : Text} (different : other ≠ key) :
    (dictionary.erase key).find? other = dictionary.find? other := by
  rcases dictionary with ⟨entries, sorted⟩
  simp only [find?, erase]
  clear sorted
  induction entries with
  | nil => rfl
  | cons entry others ih =>
    by_cases dropped : entry.1 = key
    · have skipped : (entry.1 == other) = false := by simpa [dropped] using Ne.symm different
      simpa [List.filter_cons, dropped, List.find?_cons, dropped ▸ skipped] using ih
    · by_cases found : (entry.1 == other) = true
      · simp [dropped, found]
      · rw [Bool.not_eq_true] at found
        simpa [List.filter_cons, dropped, List.find?_cons, found] using ih

end Dictionary

end MdxBuild
