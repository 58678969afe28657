import ConsensusEnvelope.Binary.Format

/-!
# Dictionaries

A dictionary maps texts to values. It is the list of its entries in the order of
the keys, each key once, so two dictionaries with the same entries are equal and
have the same binary form. Texts are ordered by their code points, which is also
the order of their UTF-8 forms.

The binary form is the number of entries and the entries in order. Reading also
takes them in any other order; of two entries with one key the later one stays.
-/

namespace ConsensusEnvelope

/-- Entries in ascending order of their keys. -/
@[ext] structure Dictionary (α : Type) where
  entries : List (String × α)
  sorted : entries.Pairwise (·.1 < ·.1)
  deriving DecidableEq

namespace Dictionary

variable {α : Type}

/-- Puts an entry into its place, instead of an entry with the same key. -/
def insertEntry (key : String) (value : α) : List (String × α) → List (String × α)
  | [] => [(key, value)]
  | entry :: rest =>
    if key < entry.1 then (key, value) :: entry :: rest
    else if key = entry.1 then (key, value) :: rest
    else entry :: insertEntry key value rest

theorem fst_of_mem_insertEntry {key : String} {value : α} {entries : List (String × α)}
    {entry : String × α} (h : entry ∈ insertEntry key value entries) :
    entry.1 = key ∨ entry ∈ entries := by
  induction entries with
  | nil =>
    simp only [insertEntry, List.mem_singleton] at h
    exact .inl (by rw [h])
  | cons e rest ih =>
    simp only [insertEntry] at h
    split at h
    · rcases List.mem_cons.1 h with h | h
      · exact .inl (by rw [h])
      · exact .inr h
    · split at h
      · rcases List.mem_cons.1 h with h | h
        · exact .inl (by rw [h])
        · exact .inr (List.mem_cons_of_mem _ h)
      · rcases List.mem_cons.1 h with h | h
        · exact .inr (h ▸ List.mem_cons_self)
        · exact (ih h).imp id (List.mem_cons_of_mem _)

theorem pairwise_insertEntry (key : String) (value : α) {entries : List (String × α)}
    (sorted : entries.Pairwise (·.1 < ·.1)) :
    (insertEntry key value entries).Pairwise (·.1 < ·.1) := by
  induction entries with
  | nil => simp [insertEntry]
  | cons e rest ih =>
    obtain ⟨first, others⟩ := List.pairwise_cons.1 sorted
    simp only [insertEntry]
    split
    next less =>
      refine List.pairwise_cons.2 ⟨fun entry h => ?_, sorted⟩
      rcases List.mem_cons.1 h with h | h
      · exact h ▸ less
      · exact String.lt_trans less (first entry h)
    next notLess =>
      split
      next same => exact List.pairwise_cons.2 ⟨fun entry h => same ▸ first entry h, others⟩
      next differs =>
        refine List.pairwise_cons.2 ⟨fun entry h => ?_, ih others⟩
        rcases fst_of_mem_insertEntry h with h | h
        · rw [h]
          have le : e.1 ≤ key := String.not_lt.1 notLess
          exact Decidable.byContradiction fun notGreater =>
            differs (String.le_antisymm (String.not_lt.1 notGreater) le)
        · exact first entry h

/-- No entries. -/
def empty : Dictionary α :=
  ⟨[], .nil⟩

/-- Adds an entry, in place of one with the same key. -/
def insert (d : Dictionary α) (key : String) (value : α) : Dictionary α :=
  ⟨insertEntry key value d.entries, pairwise_insertEntry key value d.sorted⟩

/-- The dictionary of some entries; of two with one key the later one stays. -/
def ofList (entries : List (String × α)) : Dictionary α :=
  entries.foldl (fun d entry => d.insert entry.1 entry.2) empty

/-- The entries behind their number. -/
def format (o : Binary.Options) (value : Binary.Format α) : Binary.Format (Dictionary α) :=
  (((Binary.Format.text o).pair value).list o).map entries ofList

end Dictionary

end ConsensusEnvelope
