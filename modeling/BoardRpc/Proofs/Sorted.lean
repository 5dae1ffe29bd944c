import Mathlib

/-! Rows that are kept sorted by their keys, one of each key, and keys made from numbers. -/

namespace BoardRpc

variable {α : Type} {key : α → String} {rows : List α} {new row : α}

/-- Rows sorted by their keys, no two of one key. -/
def SortedBy (key : α → String) (rows : List α) : Prop := rows.Pairwise fun a b => key a < key b

/-- Puts a row among sorted ones, in place of one of its key. -/
def insertByKey (key : α → String) (new : α) : List α → List α
  | [] => [new]
  | other :: rest =>
    if key new = key other then new :: rest
    else if key new < key other then new :: other :: rest
    else other :: insertByKey key new rest

/-- Rows put one after the other among none. -/
def sortByKey (key : α → String) (rows : List α) : List α :=
  rows.foldl (fun held new => insertByKey key new held) []

namespace SortedBy

/-- Keys in order are different keys. -/
theorem nodup (sorted : SortedBy key rows) : (rows.map key).Nodup :=
  List.pairwise_map.mpr (List.Pairwise.imp ne_of_lt sorted)

/-- Putting a row changes the rows of its own key and no others. -/
theorem mem_insert (sorted : SortedBy key rows) :
    row ∈ insertByKey key new rows ↔ row = new ∨ row ∈ rows ∧ key row ≠ key new := by
  induction rows with
  | nil => simp [insertByKey]
  | cons other rest ih =>
    obtain ⟨least, restSorted⟩ := List.pairwise_cons.mp sorted
    -- Keys further on are greater than the first one, so they are not equal to a lesser one.
    have further : ∀ {name}, name ≤ key other → row ∈ rest → key row ≠ name :=
      fun bounded here same => String.not_le.mpr (least row here) (same ▸ bounded)
    rw [insertByKey]
    split
    · -- The row that is replaced is the only one of its key.
      rename_i same
      have apart := further (le_of_eq same)
      grind
    · rename_i different
      split
      · -- Nothing here has the key.
        rename_i less
        have apart := further (le_of_lt less)
        grind
      · have rest := ih restSorted
        grind

/-- Rows are sorted after one more was put among them. -/
theorem insert (sorted : SortedBy key rows) (new : α) :
    SortedBy key (insertByKey key new rows) := by
  induction rows with
  | nil => exact List.pairwise_singleton ..
  | cons other rest ih =>
    obtain ⟨least, restSorted⟩ := List.pairwise_cons.mp sorted
    rw [insertByKey]
    split
    · -- The row in the place of another has its key, so the order is the same.
      rename_i same
      exact List.pairwise_cons.mpr ⟨fun row here => same ▸ least row here, restSorted⟩
    · rename_i different
      split
      · -- What is less than the first row is less than all of them.
        rename_i less
        refine List.pairwise_cons.mpr ⟨fun row here => ?_, sorted⟩
        rcases List.mem_cons.mp here with rfl | here
        · exact less
        · exact String.lt_trans less (least row here)
      · -- What is put further on is greater too, or the row would have been put here.
        rename_i notLess
        have greater : key other < key new :=
          Std.lt_of_le_of_ne (String.not_lt.mp notLess) (Ne.symm different)
        refine List.pairwise_cons.mpr ⟨fun row here => ?_, ih restSorted⟩
        rcases (mem_insert restSorted).mp here with rfl | ⟨here, _⟩
        · exact greater
        · exact least row here

/-- A row is found by its key. -/
theorem find? (sorted : SortedBy key rows) (here : row ∈ rows) :
    rows.find? (key · == key row) = some row := by
  -- The first row of the key is a row of it, and there is one.
  cases found : rows.find? (key · == key row) with
  | none => exact absurd (beq_self_eq_true _) (List.find?_eq_none.mp found row here)
  | some first =>
    have same : key first = key row := by simpa using List.find?_some found
    exact congrArg some
      (List.inj_on_of_nodup_map sorted.nodup (List.mem_of_find?_eq_some found) here same)

end SortedBy

/-- Rows put one after the other are sorted. -/
theorem sortedBy_sortByKey (rows : List α) : SortedBy key (sortByKey key rows) := by
  -- By induction on the rows that are left, whatever sorted rows are held so far.
  have general : ∀ held, SortedBy key held →
      SortedBy key (rows.foldl (fun held new => insertByKey key new held) held) := by
    induction rows with
    | nil => exact fun _ sorted => sorted
    | cons first others ih => exact fun held sorted => ih _ (sorted.insert first)
  exact general [] .nil

/-- The row put last is put among those that were sorted before it. -/
theorem sortByKey_concat (others : List α) (last : α) :
    sortByKey key (others ++ [last]) = insertByKey key last (sortByKey key others) :=
  List.foldl_concat ..

/-- Of the rows of one key that were put, the last is kept. -/
theorem mem_sortByKey : row ∈ sortByKey key rows ↔ ∃ index : Nat, rows[index]? = some row ∧
    ∀ (later : Nat) (other : α), index < later → rows[later]? = some other →
      key other ≠ key row := by
  -- The induction takes rows off the end, where the row is that was put last.
  induction rows using List.reverseRecOn with
  | nil => simp [sortByKey]
  | append_singleton others last ih =>
    rw [sortByKey_concat, (sortedBy_sortByKey others).mem_insert, ih]
    constructor
    · rintro (rfl | ⟨⟨index, here, apart⟩, different⟩)
      · exact ⟨others.length, by grind⟩
      · exact ⟨index, by grind⟩
    · rintro ⟨index, here, apart⟩
      -- Either the row is the one that was put last, or that one stands behind it.
      rcases Nat.lt_or_ge index others.length with before | atEnd
      · have inOthers : others[index]? = some row := by grind
        have different := apart others.length last before (by simp)
        exact .inr ⟨⟨index, inOthers, by grind⟩, Ne.symm different⟩
      · exact .inl (by grind)

/-- No key is lost. -/
theorem mem_keys_sortByKey {name : String} :
    name ∈ (sortByKey key rows).map key ↔ name ∈ rows.map key := by
  induction rows using List.reverseRecOn with
  | nil => rfl
  | append_singleton others last ih =>
    -- A row that was replaced has left its key to the row in its place.
    have put : ∀ row, row ∈ insertByKey key last (sortByKey key others) ↔ _ :=
      fun row => (sortedBy_sortByKey others).mem_insert
    rw [sortByKey_concat]
    grind

/-- There are as many sorted rows as there are different keys. -/
theorem length_sortByKey (rows : List α) :
    (sortByKey key rows).length = (rows.map key).dedup.length := by
  have sorted : SortedBy key (sortByKey key rows) := sortedBy_sortByKey rows
  -- Both lists of keys are without repetition, and they have the same keys.
  rw [← List.length_map key]
  refine List.Perm.length_eq ((List.perm_ext_iff_of_nodup sorted.nodup (List.nodup_dedup _)).mpr ?_)
  intro name
  rw [List.mem_dedup, mem_keys_sortByKey]

/-- As many rows are kept as were put exactly if no two have one key. -/
theorem length_sortByKey_eq_iff :
    (sortByKey key rows).length = rows.length ↔ (rows.map key).Nodup := by
  rw [length_sortByKey, ← List.length_map key, ← List.dedup_eq_self]
  exact ⟨(List.dedup_sublist _).eq_of_length, congrArg List.length⟩

/-- Keys that are made from different numbers behind one stem are different. -/
theorem numberedKey_injective (stem : String) {m n : Nat}
    (same : stem ++ toString m = stem ++ toString n) : m = n :=
  Nat.repr_injective ((String.append_right_inj stem).mp same)

end BoardRpc
