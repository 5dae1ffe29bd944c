import BoardRpc.Proofs.Sorted
import BoardRpc.Reply.Render
import BoardRpc.Rpc.Binding

/-! Replies as objects: which results are kept under their names. -/

namespace BoardRpc

/-- Setting a member is putting it among members that are sorted by name. -/
theorem Json.insertMember_eq (name : String) (value : Json) (members : List (String × Json)) :
    insertMember name value members = insertByKey Prod.fst (name, value) members := by
  induction members with
  | nil => rfl
  | cons member rest ih =>
    rw [insertMember, insertByKey, ih]

/-- Two results come by one name: both are given it, or one is given the name that is made for the
other. -/
def SameName (names : Option (List String)) (i j : Nat) : Prop :=
  match paramName? names i, paramName? names j with
  | some one, some other => one = other
  | some one, none => one = s!"result{j + 1}"
  | none, some other => other = s!"result{i + 1}"
  | none, none => False

/-- A result has the name that it is given, or one from its position. -/
theorem resultName_eq (names : Option (List String)) (index : Nat) :
    resultName names index = (paramName? names index).getD s!"result{index + 1}" := by
  unfold resultName paramName?
  -- An empty name counts as none.
  cases names.bind (·[index]?) with
  | none => rfl
  | some name => cases given : name.isEmpty <;> simp [given]

/-- Two results come by one name only as they are given it. -/
theorem resultName_eq_iff {names : Option (List String)} {i j : Nat} (apart : i ≠ j) :
    resultName names i = resultName names j ↔ SameName names i j := by
  rw [resultName_eq, resultName_eq, SameName]
  -- A name that is given stands for itself, so that two of them are compared as they are.
  cases paramName? names i <;> cases paramName? names j
  · -- Both names are made, and from different positions.
    have different : s!"result{i + 1}" ≠ s!"result{j + 1}" :=
      fun same => apart (Nat.succ_injective (numberedKey_injective "result" same))
    exact iff_of_false different id
  · exact eq_comm
  · exact Iff.rfl
  · exact Iff.rfl

/-- No two of so many results come by one name. -/
def NamesApart (names : Option (List String)) (count : Nat) : Prop :=
  ∀ i j, i < j → j < count → ¬ SameName names i j

namespace Reply

/-- The results by name in the order in which they are put into the object. -/
def namedJson (reply : Reply) (names : Option (List String)) : List (String × Json) :=
  (reply.namedValues names).map fun row => (row.1, row.2.toJson)

variable {reply : Reply} {names : Option (List String)}

/-- The object has the results sorted by name. -/
theorem toNamedJson_eq (reply : Reply) (names : Option (List String)) :
    reply.toNamedJson names = .obj (sortByKey Prod.fst (reply.namedJson names)) := by
  -- Putting members into an object one by one is sorting them by name.
  rw [toNamedJson, sortByKey, namedJson, List.foldl_map]
  congr 2
  funext members row
  exact Json.insertMember_eq ..

/-- At each index stands the result with its name. -/
theorem namedJson_eq_some {index : Nat} {name : String} {json : Json} :
    (reply.namedJson names)[index]? = some (name, json) ↔ ∃ value,
      reply.values[index]? = some value ∧ resultName names index = name ∧ value.toJson = json := by
  -- Rows are made of the results index by index.
  simp [namedJson, namedValues, List.getElem?_mapIdx]

/-- There are as many rows as results. -/
theorem length_namedJson (reply : Reply) (names : Option (List String)) :
    (reply.namedJson names).length = reply.values.length := by
  simp [namedJson, namedValues]

/-- The names of the results are different exactly if no two of them come by one. -/
theorem nodup_namedJson : ((reply.namedJson names).map Prod.fst).Nodup ↔
    NamesApart names reply.values.length := by
  have named : ∀ index, index < reply.values.length →
      ((reply.namedJson names).map Prod.fst)[index]? = some (resultName names index) := by
    intro index inside
    simp [namedJson, namedValues, inside]
  have length : ((reply.namedJson names).map Prod.fst).length = reply.values.length := by
    rw [List.length_map, length_namedJson]
  rw [List.nodup_iff_getElem?_ne_getElem?, length]
  -- Two names in the list are equal exactly if the two results come by one name.
  constructor
  · intro different i j behind inside same
    apply different i j behind inside
    rw [named i (by omega), named j inside, (resultName_eq_iff (by omega)).mpr same]
  · intro apart i j behind inside same
    rw [named i (by omega), named j inside] at same
    exact apart i j behind inside ((resultName_eq_iff (by omega)).mp (Option.some.inj same))

/-- A value is the last of the results that come by a name. -/
def LastNamed (reply : Reply) (names : Option (List String)) (name : String) (value : Value) :
    Prop :=
  ∃ index, reply.values[index]? = some value ∧ resultName names index = name ∧
    ∀ later, index < later → later < reply.values.length → resultName names later ≠ name

/-- Sorted by name, the last result of each name is left. -/
theorem mem_sorted_iff {name : String} {json : Json} :
    (name, json) ∈ sortByKey Prod.fst (reply.namedJson names) ↔
      ∃ value, reply.LastNamed names name value ∧ value.toJson = json := by
  rw [mem_sortByKey]
  constructor
  · -- A result further on is a row further on.
    rintro ⟨index, here, last⟩
    obtain ⟨value, inside, named, written⟩ := namedJson_eq_some.mp here
    refine ⟨value, ⟨index, inside, named, fun later behind within => ?_⟩, written⟩
    exact last later _ behind
      (namedJson_eq_some.mpr ⟨_, List.getElem?_eq_getElem within, rfl, rfl⟩)
  · -- Conversely, a row of the same name further on would be a later result of that name.
    rintro ⟨value, ⟨index, inside, named, last⟩, written⟩
    refine ⟨index, namedJson_eq_some.mpr ⟨value, inside, named, written⟩, ?_⟩
    rintro later ⟨other, json⟩ behind there
    obtain ⟨_, within, rfl, _⟩ := namedJson_eq_some.mp there
    exact last later behind (List.getElem?_eq_some_iff.mp within).1

/-- Each result is the last of its name where no two come by one. -/
theorem lastNamed_of_apart (apart : NamesApart names reply.values.length) {index : Nat}
    {value : Value} (here : reply.values[index]? = some value) :
    reply.LastNamed names (resultName names index) value := by
  -- A later result of the same name would be a second one.
  refine ⟨index, here, rfl, fun later behind inside same => ?_⟩
  exact apart index later behind inside ((resultName_eq_iff (by omega)).mp same.symm)

/-- An object of results has its members sorted by name, each with the last of the results that
come by the name. It has a member for every result exactly if no two come by one name, and then
each name holds its own result. -/
theorem toNamedJson_members (reply : Reply) (names : Option (List String)) :
    ∃ members : List (String × Json), reply.toNamedJson names = .obj members ∧
      SortedBy Prod.fst members ∧
      (∀ name json, (name, json) ∈ members ↔
        ∃ value, reply.LastNamed names name value ∧ value.toJson = json) ∧
      (members.length = reply.values.length ↔ NamesApart names reply.values.length) ∧
      (NamesApart names reply.values.length → ∀ index value, reply.values[index]? = some value →
        (resultName names index, value.toJson) ∈ members) := by
  refine ⟨_, toNamedJson_eq reply names, sortedBy_sortByKey _, fun _ _ => mem_sorted_iff, ?_, ?_⟩
  · -- There is a member for each different name.
    rw [← nodup_namedJson, ← length_sortByKey_eq_iff, length_namedJson]
  · -- Each name is that of one result, which is therefore the last.
    intro apart index value here
    exact mem_sorted_iff.mpr ⟨value, lastNamed_of_apart apart here, rfl⟩

/-- A name given to one result can be the name that is made for another, which is then lost. -/
theorem toNamedJson_loses : ¬ ∀ (reply : Reply) (names : Option (List String)),
    ∃ members : List (String × Json), reply.toNamedJson names = .obj members ∧
      members.length = reply.values.length ∧
      ∀ index value, reply.values[index]? = some value →
        (resultName names index, value.toJson) ∈ members := by
  intro lossless
  obtain ⟨members, object, length, _⟩ :=
    lossless (.multiple [.uint 1, .uint 2]) (some ["result2"])
  -- The second result is put in last, under the name that is given to the first.
  have lost : (Reply.multiple [.uint 1, .uint 2]).toNamedJson (some ["result2"])
      = .obj [("result2", .int 2)] := by cbv
  cases lost.symm.trans object
  cases length

end Reply

end BoardRpc
