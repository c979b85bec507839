import MdxBuild.Dictionary

/-!
# Look-ups in dictionaries

Keys are listed once, so the entries of a dictionary are its look-ups, and a dictionary is determined
by them. What is listed under the keys and values is stated here as what can be looked up. The order
of the keys is that of sorted sets, which list their texts in strict order, so none twice.
-/

namespace MdxBuild

namespace Text

theorem ne_of_isBefore {first second : Text} (before : isBefore first second = true) :
    first ≠ second := by
  rintro rfl
  rw [isBefore_irrefl] at before
  cases before

theorem pairwise_insertSorted {text : Text} {sorted : List Text}
    (isSorted : sorted.Pairwise (isBefore · ·)) :
    (insertSorted text sorted).Pairwise (isBefore · ·) := by
  induction sorted with
  | nil => exact List.pairwise_singleton _ text
  | cons first others ih =>
    rcases List.pairwise_cons.mp isSorted with ⟨isFirst, isOthers⟩
    rw [insertSorted]
    split
    · exact isSorted
    split
    · next less =>
      apply List.pairwise_cons.mpr ⟨_, isSorted⟩
      intro other member
      rcases List.mem_cons.mp member with rfl | member
      · exact less
      · exact isBefore_trans less (isFirst other member)
    · next different notLess =>
      apply List.pairwise_cons.mpr ⟨_, ih isOthers⟩
      intro other member
      rcases mem_insertSorted.mp member with rfl | member
      · exact isBefore_of_ne different (Bool.eq_false_iff.mpr notLess)
      · exact isFirst other member

theorem nodup_sortedSet (texts : List Text) : (sortedSet texts).Nodup := by
  have isSorted : (sortedSet texts).Pairwise (isBefore · ·) := by
    induction texts with
    | nil => exact .nil
    | cons first others ih => exact pairwise_insertSorted ih
  exact isSorted.imp ne_of_isBefore

end Text

namespace Dictionary

variable {α : Type}

/-- An entry is listed exactly if it is looked up. -/
theorem mem_entries {dictionary : Dictionary α} {key : Text} {value : α} :
    (key, value) ∈ dictionary.entries ↔ dictionary.find? key = some value := by
  rcases dictionary with ⟨entries, sorted⟩
  simp only [find?]
  induction entries with
  | nil => simp
  | cons entry others ih =>
    rw [List.map_cons, List.pairwise_cons] at sorted
    rcases sorted with ⟨before, sortedOthers⟩
    rw [List.mem_cons, List.find?_cons]
    by_cases same : entry.1 = key
    · have absent : (key, value) ∉ others := by
        intro member
        have less := before key (List.mem_map_of_mem (f := Prod.fst) member)
        rw [same, Text.isBefore_irrefl] at less
        exact absurd less (by decide)
      simp only [same, beq_self_eq_true, absent, or_false, Option.map_some, Option.some.injEq]
      constructor
      · rintro rfl
        rfl
      · rintro rfl
        rw [← same]
    · have skipped : (entry.1 == key) = false := by simpa using same
      have differs : (key, value) ≠ entry := by
        rintro rfl
        exact same rfl
      simp only [skipped, differs, false_or]
      exact ih sortedOthers

/-- A key is listed exactly if it is looked up. -/
theorem mem_keys {dictionary : Dictionary α} {key : Text} :
    key ∈ dictionary.keys ↔ (dictionary.find? key).isSome := by
  rw [keys, List.mem_map, Option.isSome_iff_exists]
  constructor
  · rintro ⟨⟨_, value⟩, member, rfl⟩
    exact ⟨value, mem_entries.mp member⟩
  · rintro ⟨value, found⟩
    exact ⟨(key, value), mem_entries.mpr found, rfl⟩

/-- A value is listed exactly if it is looked up under some key. -/
theorem mem_values {dictionary : Dictionary α} {value : α} :
    value ∈ dictionary.values ↔ ∃ key, dictionary.find? key = some value := by
  rw [values, List.mem_map]
  constructor
  · rintro ⟨⟨key, _⟩, member, rfl⟩
    exact ⟨key, mem_entries.mp member⟩
  · rintro ⟨key, found⟩
    exact ⟨(key, value), mem_entries.mpr found, rfl⟩

@[simp]
theorem find?_map {β : Type} (change : α → β) (dictionary : Dictionary α) (key : Text) :
    (dictionary.map change).find? key = (dictionary.find? key).map change := by
  simp [find?, map, List.find?_map, Function.comp_def]

theorem find?_insert (dictionary : Dictionary α) (key other : Text) (value : α) :
    (dictionary.insert key value).find? other =
      if other = key then some value else dictionary.find? other := by
  split
  · next same => rw [same, find?_insert_self]
  · next different => exact find?_insert_of_ne dictionary value different

/-- A value that is found without a key is found with it. -/
theorem find?_of_find?_erase {dictionary : Dictionary α} {key other : Text} {value : α}
    (found : (dictionary.erase key).find? other = some value) :
    dictionary.find? other = some value := by
  by_cases same : other = key
  · rw [same, find?_erase_self] at found
    cases found
  · rwa [find?_erase_of_ne dictionary same] at found

theorem find?_erase (dictionary : Dictionary α) (key other : Text) :
    (dictionary.erase key).find? other = if other = key then none else dictionary.find? other := by
  split
  · next same => rw [same, find?_erase_self]
  · next different => exact find?_erase_of_ne dictionary different

theorem nodup_keys (dictionary : Dictionary α) : dictionary.keys.Nodup :=
  dictionary.sorted.imp Text.ne_of_isBefore

/-- A dictionary is determined by what can be looked up in it. -/
theorem ext_find? {first second : Dictionary α}
    (same : ∀ key, first.find? key = second.find? key) : first = second := by
  have isSorted (dictionary : Dictionary α) :
      dictionary.entries.Pairwise fun entry other => entry.1.isBefore other.1 = true :=
    List.pairwise_map.mp dictionary.sorted
  have nodup (dictionary : Dictionary α) : dictionary.entries.Nodup :=
    (isSorted dictionary).imp fun before same => Text.ne_of_isBefore before (congrArg Prod.fst same)
  have isPerm : first.entries.Perm second.entries := by
    rw [List.perm_ext_iff_of_nodup (nodup first) (nodup second)]
    rintro ⟨key, value⟩
    rw [mem_entries, mem_entries, same]
  have sameEntries : first.entries = second.entries := by
    apply isPerm.eq_of_pairwise _ (isSorted first) (isSorted second)
    intro entry other _ _ before behind
    exact absurd rfl (Text.ne_of_isBefore (Text.isBefore_trans before behind))
  cases first
  cases second
  cases sameEntries
  rfl

/-- One more value at the end of the list under a key. -/
theorem perm_insert_append (dictionary : Dictionary (List α)) (key : Text) (value : α) :
    ((dictionary.insert key ((dictionary.find? key).getD [] ++ [value])).entries.flatMap
      Prod.snd).Perm (dictionary.entries.flatMap Prod.snd ++ [value]) := by
  rcases dictionary with ⟨entries, sorted⟩
  simp only [insert, find?]
  induction entries with
  | nil => exact List.Perm.refl _
  | cons entry others ih =>
    rw [List.map_cons, List.pairwise_cons] at sorted
    rcases sorted with ⟨isFirst, isOthers⟩
    have comm (values : List α) : ([value] ++ values).Perm (values ++ [value]) :=
      List.perm_append_comm
    rw [insertEntry]
    by_cases same : key = entry.1
    · have isFound : (entry.1 == key) = true := by rw [same, beq_self_eq_true]
      simp only [List.find?_cons, isFound]
      rw [if_pos same, List.flatMap_cons, List.flatMap_cons, Option.map_some, Option.getD_some,
        List.append_assoc, List.append_assoc]
      exact (comm _).append_left entry.2
    · have skipped : (entry.1 == key) = false := beq_false_of_ne (Ne.symm same)
      simp only [List.find?_cons, skipped]
      rw [if_neg same]
      split
      · next less =>
        have absent : others.find? (fun other => other.1 == key) = none := by
          rw [List.find?_eq_none]
          intro other member
          rw [beq_iff_eq]
          exact (Text.ne_of_isBefore
            (Text.isBefore_trans less (isFirst _ (List.mem_map_of_mem member)))).symm
        rw [absent, List.flatMap_cons, Option.map_none, Option.getD_none, List.nil_append]
        exact comm _
      · rw [List.flatMap_cons, List.flatMap_cons, List.append_assoc]
        exact (ih isOthers).append_left entry.2

/-! ## Entries taken in one after the other -/

/-- A key behind all others is inserted at the end. -/
theorem insertEntry_append {entries : List (Text × α)} {key : Text} (value : α)
    (before : ∀ other ∈ entries.map Prod.fst, other.isBefore key = true) :
    insertEntry key value entries = entries ++ [(key, value)] := by
  induction entries with
  | nil => rfl
  | cons entry others ih =>
    have less := before entry.1 List.mem_cons_self
    have different : key ≠ entry.1 := (Text.ne_of_isBefore less).symm
    have notLess : key.isBefore entry.1 = false := by
      apply Bool.eq_false_iff.mpr
      intro reversed
      exact Text.ne_of_isBefore (Text.isBefore_trans less reversed) rfl
    rw [insertEntry, if_neg different, notLess]
    simp only [Bool.false_eq_true, reduceIte]
    rw [ih fun other member => before other (List.mem_cons_of_mem _ member), List.cons_append]

/-- Entries in order are taken in behind entries that are before all of them. -/
theorem entries_insertAll {dictionary : Dictionary α} {entries : List (Text × α)}
    (sorted : ((dictionary.entries ++ entries).map Prod.fst).Pairwise (Text.isBefore · ·)) :
    (dictionary.insertAll entries).entries = dictionary.entries ++ entries := by
  induction entries generalizing dictionary with
  | nil => simp [insertAll]
  | cons entry others ih =>
    have before : ∀ other ∈ dictionary.entries.map Prod.fst, other.isBefore entry.1 = true := by
      rw [List.map_append, List.pairwise_append] at sorted
      intro other member
      exact sorted.2.2 other member entry.1 (by simp)
    have inserted : (dictionary.insert entry.1 entry.2).entries = dictionary.entries ++ [entry] :=
      insertEntry_append entry.2 before
    have behind : ((dictionary.insert entry.1 entry.2).insertAll others).entries =
        (dictionary.insert entry.1 entry.2).entries ++ others :=
      ih (by rw [inserted]; simpa using sorted)
    rw [insertAll, List.foldl_cons, ← insertAll, behind, inserted]
    simp

/-- A dictionary is what its entries are if they are taken in one after the other. -/
theorem insertAll_entries (dictionary : Dictionary α) :
    (empty : Dictionary α).insertAll dictionary.entries = dictionary := by
  have same : ((empty : Dictionary α).insertAll dictionary.entries).entries =
      [] ++ dictionary.entries :=
    entries_insertAll dictionary.sorted
  rcases taken : (empty : Dictionary α).insertAll dictionary.entries with ⟨entries, sorted⟩
  rw [taken] at same
  cases dictionary
  cases same
  rfl

theorem insertAll_append (dictionary : Dictionary α) (first second : List (Text × α)) :
    dictionary.insertAll (first ++ second) = (dictionary.insertAll first).insertAll second :=
  List.foldl_append

section InsertAll

variable {dictionary : Dictionary α} {entries : List (Text × α)} {key : Text} {value : α}

/-- After entries are taken in, the last one of a key is found, or what was there before. -/
theorem find?_insertAll_eq_or (dictionary : Dictionary α) (entries : List (Text × α)) (key : Text) :
    (dictionary.insertAll entries).find? key =
      ((entries.filter (·.1 == key)).getLast?.map Prod.snd).or (dictionary.find? key) := by
  induction entries generalizing dictionary with
  | nil => rfl
  | cons entry others ih =>
    rw [insertAll, List.foldl_cons, ← insertAll, ih, find?_insert]
    by_cases same : entry.1 = key
    · rw [List.filter_cons_of_pos (by rwa [beq_iff_eq]), List.getLast?_cons, if_pos same.symm]
      cases (others.filter (·.1 == key)).getLast? <;> rfl
    · rw [List.filter_cons_of_neg (by rwa [beq_iff_eq]), if_neg (Ne.symm same)]

/-- Entries that are taken in once more change nothing. -/
theorem insertAll_insertAll_self (dictionary : Dictionary α) (entries : List (Text × α)) :
    (dictionary.insertAll entries).insertAll entries = dictionary.insertAll entries := by
  apply ext_find?
  intro key
  rw [find?_insertAll_eq_or, find?_insertAll_eq_or, ← Option.or_assoc, Option.or_self]

/-- The last entry of a key is one of the entries. -/
theorem mem_of_getLast?_filter {entry : Text × α}
    (isLast : (entries.filter (·.1 == key)).getLast? = some entry) :
    (key, entry.2) ∈ entries := by
  have member := List.mem_of_getLast? isLast
  rw [List.mem_filter, beq_iff_eq] at member
  obtain ⟨isEntry, rfl⟩ := member
  exact isEntry

/-- What is found after entries are taken in is one of them or was there before. -/
theorem mem_of_find?_insertAll (found : (dictionary.insertAll entries).find? key = some value) :
    (key, value) ∈ entries ∨ dictionary.find? key = some value := by
  rw [find?_insertAll_eq_or, Option.or_eq_some_iff] at found
  rcases found with taken | ⟨-, before⟩
  · obtain ⟨entry, isLast, rfl⟩ := Option.map_eq_some_iff.mp taken
    exact .inl (mem_of_getLast?_filter isLast)
  · exact .inr before

/-- A key is found after entries are taken in if one of them has it or it was there before. -/
theorem isSome_find?_insertAll :
    ((dictionary.insertAll entries).find? key).isSome = true ↔
      (∃ value, (key, value) ∈ entries) ∨ (dictionary.find? key).isSome = true := by
  rw [find?_insertAll_eq_or, Option.isSome_or, Option.isSome_map, Bool.or_eq_true,
    List.getLast?_isSome, ne_eq, List.filter_eq_nil_iff]
  simp

/-- A value is found if it is there or is taken in, and no other one is taken in for the key. -/
theorem find?_insertAll (known : (key, value) ∈ entries ∨ dictionary.find? key = some value)
    (only : ∀ other, (key, other) ∈ entries → other = value) :
    (dictionary.insertAll entries).find? key = some value := by
  rw [find?_insertAll_eq_or]
  cases isLast : (entries.filter (·.1 == key)).getLast? with
  | some entry =>
    rw [Option.map_some, Option.some_or, only entry.2 (mem_of_getLast?_filter isLast)]
  | none =>
    rw [List.getLast?_eq_none_iff, List.filter_eq_nil_iff] at isLast
    rcases known with member | before
    · exact absurd (beq_self_eq_true key) (isLast _ member)
    · rw [before]
      rfl

end InsertAll

end Dictionary

end MdxBuild
