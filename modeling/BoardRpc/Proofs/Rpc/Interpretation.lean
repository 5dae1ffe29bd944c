import BoardRpc.Proofs.Codec.Accounting
import BoardRpc.Proofs.Link.Loopback
import BoardRpc.Rpc.Session

/-! The interpretation of responses: looking at the extent first refuses nothing that can be
decoded. -/

namespace BoardRpc

namespace Session

variable {format : Format} {rpc : String} {response : Bytes}

/-- A response is interpreted exactly if it is decoded, and then as its values are collapsed. -/
theorem interpret_eq_ok {reply : Reply} : interpret format rpc response = .ok reply ↔
    ∃ values, format.decode response = .ok values ∧ reply = format.collapse values := by
  -- The interpretation looks at the extent first, then at what is left behind it, then decodes.
  unfold interpret
  constructor
  · -- Each test that fails is an error, so that only what is decoded is left.
    intro interpreted
    split at interpreted
    · cases interpreted
    · split at interpreted
      · cases interpreted
      · split at interpreted
        · cases interpreted
        · rename_i values decoded
          cases interpreted
          exact ⟨values, decoded, rfl⟩
  · rintro ⟨values, decoded, rfl⟩
    -- What is decoded takes all of the response, so the test before it is passed.
    simp [Format.extent_of_decode decoded, decoded]

/-- A command that is issued and answered has the reply that its response is interpreted as. -/
theorem executeFormats_answered {σ : Type} [Transport σ] {session after : Session σ}
    {classNumber verbNumber : UInt32} {inFormat : Format} {args : List Value} {payload : Bytes}
    {options : CallOptions} (encoded : inFormat.encode args = .ok payload)
    (answered : session.transact classNumber verbNumber payload options rpc
      = (.ok response, after)) :
    session.executeFormats classNumber verbNumber inFormat format args options rpc
      = (interpret format rpc response, after) := by
  simp only [executeFormats, encoded, answered]

end Session

namespace Format

/-- The extent of a payload agrees with its decoding: it is the whole of what is decoded; without
one the payload is not decoded for the same reason, or because a string in front of it is no text;
where bytes are left behind it they are what is wrong, or a string that is no text. So a command
whose response is looked at this way first has a reply exactly if the response is decoded. -/
theorem extent_agrees {source : String} {format : Format} (parsed : parse source = .ok format)
    (data : Bytes) :
    (∀ values, format.decode data = .ok values → format.extent data = .ok data.length) ∧
    (∀ error, format.extent data = .error error → ∃ actual, format.decode data = .error actual ∧
      (actual = error ∨ ∃ early late reason shortfall, early < late ∧
        error = ⟨format.source, .inField late (Shortfall.fault shortfall)⟩ ∧
        actual = ⟨format.source, .inField early (.invalidString reason)⟩)) ∧
    (∀ used, format.extent data = .ok used → used < data.length →
      format.decode data = .error ⟨format.source, .trailingBytes (data.length - used)⟩ ∨
      ∃ charged reason, format.decode data
        = .error ⟨format.source, .inField charged (.invalidString reason)⟩) ∧
    ∀ (σ : Type) [Transport σ] (session after : Session σ) (classNumber verbNumber : UInt32)
      (inFormat : Format) (args : List Value) (payload : Bytes) (options : CallOptions)
      (rpc : String), inFormat.encode args = .ok payload →
      session.transact classNumber verbNumber payload options rpc = (.ok data, after) →
      ∃ result, session.executeFormats classNumber verbNumber inFormat format args options rpc
          = (result, after) ∧
        ∀ reply, result = .ok reply ↔
          ∃ values, format.decode data = .ok values ∧ reply = format.collapse values := by
  have sound := parse_sound parsed
  refine ⟨fun values => extent_of_decode, fun error missing => ?_,
    fun used => decode_of_leftover sound, fun σ _ session after classNumber verbNumber inFormat args
      payload options rpc encoded answered => ?_⟩
  · -- Where the extent is missing, the decoder comes to the same field unless a string stops it.
    rcases decode_of_missing sound missing with
      same | ⟨early, late, reason, shortfall, before, charged, failed⟩
    · exact ⟨error, same, .inl rfl⟩
    · exact ⟨_, failed, .inr ⟨early, late, reason, shortfall, before, charged, rfl⟩⟩
  · -- The response of the command is the payload that the first three parts are about.
    exact ⟨_, Session.executeFormats_answered encoded answered,
      fun reply => Session.interpret_eq_ok⟩

/-- A parrot's response becomes a reply: here a byte and a word, which come back as they were sent.
A string with nothing behind it is refused where a number should follow. -/
theorem extent_agrees_parrot :
    (∃ format result after, parse ">BH" = .ok format ∧ format.extent [7, 2, 1] = .ok 3 ∧
      ({ link := { device := .device } } : Session (Loopback Parrot)).executeFormats 7 1 format
        format [.uint 7, .uint 513] {} "probe" = (result, after) ∧
      result = .ok (format.collapse [.uint 7, .uint 513])) ∧
    ∃ format actual, parse "SB" = .ok format ∧
      format.extent [97, 0] = .error ⟨"SB", .inField 1 (.payloadTruncated 1 0)⟩ ∧
      format.decode [97, 0] = .error actual := by
  constructor
  · -- The same format is written from the arguments and read from the response.
    have parsed : parse ">BH" = .ok ⟨">BH", .big,
        [.primitive .uint8 .once, .primitive .uint16 .once]⟩ := by cbv
    generalize read : (⟨">BH", .big, [.primitive .uint8 .once, .primitive .uint16 .once]⟩ : Format)
      = format at parsed
    have encoded : format.encode [.uint 7, .uint 513] = .ok [7, 2, 1] := by rw [← read]; rfl
    have decoded : format.decode [7, 2, 1] = .ok [.uint 7, .uint 513] := by rw [← read]; rfl
    obtain ⟨whole, _, _, issued⟩ := extent_agrees parsed [7, 2, 1]
    obtain ⟨result, executed, replied⟩ := issued (Loopback Parrot)
      { link := { device := .device } } _ 7 1 format _ _ {} "probe" encoded rfl
    exact ⟨_, result, _, parsed, whole _ decoded, executed, (replied _).mpr ⟨_, decoded, rfl⟩⟩
  · -- The string is one, so that only the missing byte is told of.
    have parsed : parse "SB" = .ok ⟨"SB", .little, [.text .once, .primitive .uint8 .once]⟩ := by cbv
    have short : (⟨"SB", .little, [.text .once, .primitive .uint8 .once]⟩ : Format).extent [97, 0]
        = .error ⟨"SB", .inField 1 (.payloadTruncated 1 0)⟩ := rfl
    obtain ⟨_, missing, _, _⟩ := extent_agrees parsed [97, 0]
    obtain ⟨actual, failed, _⟩ := missing _ short
    exact ⟨_, actual, parsed, short, failed⟩

end Format

end BoardRpc
