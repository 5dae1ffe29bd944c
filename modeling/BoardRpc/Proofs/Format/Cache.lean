import BoardRpc.Format.Cache
import BoardRpc.Proofs.Format.Sound

/-! The format store: it holds what reading the texts again would give. -/

namespace BoardRpc

/-- A format keeps the text that it was read from. -/
theorem Format.source_of_parse {source : String} {format : Format}
    (parsed : Format.parse source = .ok format) : format.source = source := by
  -- The text is put into the format as it was given.
  unfold Format.parse at parsed
  split at parsed <;> cases parsed
  rfl

namespace FormatCache

/-- Every format kept is the one that its text is read as. -/
def Sound (cache : FormatCache) : Prop :=
  ∀ format ∈ cache.formats, Format.parse format.source = .ok format

/-- An empty store is sound. -/
theorem sound_empty : Sound {} := nofun

/-- What is fetched is what the text is read as, and the store stays sound. -/
theorem fetch_sound {cache : FormatCache} (sound : cache.Sound) (source : String) :
    (cache.fetch source).1 = Format.parse source ∧ (cache.fetch source).2.Sound := by
  -- A text is looked up first, and only read if it is not found.
  unfold fetch
  split
  · -- A format that is found was kept for this very text.
    rename_i format found
    have kept := List.mem_of_find?_eq_some found
    have same : format.source = source := by simpa using List.find?_some found
    refine ⟨?_, sound⟩
    rw [← same]
    exact (sound format kept).symm
  · split
    · -- A format that is read now is kept with its text.
      rename_i format parsed
      refine ⟨parsed.symm, ?_⟩
      rintro other (_ | ⟨_, kept⟩)
      · rw [Format.source_of_parse parsed]
        exact parsed
      · exact sound other kept
    · -- Nothing is kept of a text that is no format.
      rename_i error parsed
      exact ⟨parsed.symm, sound⟩

end FormatCache

end BoardRpc
