import BoardRpc.Cli.Commands
import BoardRpc.Proofs.Codec.Faults

/-! Whose fault an error of a format is: the caller's, who gave the format and the arguments, or the
device's, which answered with the payload. -/

namespace BoardRpc

/-- A string that has a zero byte in it, which no payload can hold. -/
def FormatFault.EmbeddedZero (fault : FormatFault) : Prop :=
  ∃ index, fault = .inField index (.invalidString "embedded NUL character")

/-- A fault of arguments counts as the caller's unless it is a zero byte in a string, which shares
its kind with strings of a payload that are no text. -/
theorem FieldFault.OfArguments.usage {fault : FieldFault} (ofArguments : fault.OfArguments)
    (index : Nat) : (FormatFault.inField index fault).isUsage = false ↔
      (FormatFault.inField index fault).EmbeddedZero := by
  -- The zero byte is the only fault that both sides of the codec may tell of.
  cases ofArguments with
  | embeddedZero => exact ⟨fun _ => ⟨index, rfl⟩, fun _ => rfl⟩
  | _ =>
    constructor
    · intro none
      cases none
    · rintro ⟨_, same⟩
      cases same

/-- A fault of a payload never counts as the caller's. -/
theorem FieldFault.OfPayload.usage {fault : FieldFault} (ofPayload : fault.OfPayload)
    (index : Nat) : (FormatFault.inField index fault).isUsage = false := by
  -- Each of the three kinds is one of a payload.
  cases ofPayload <;> rfl

namespace Cli

/-- An error of a format ends the program as the caller's fault or as invalid data. -/
theorem ofRpc_format (rpc : String) (error : FormatError) :
    ExitCode.ofRpc (.format rpc error) = if error.fault.isUsage then 64 else 60 := by
  rw [ExitCode.ofRpc]
  rfl

/-- Formats that cannot be read, or arguments that do not fit theirs, are refused as the caller's
fault before any device is opened. -/
theorem checkFormats_refuses {source : String} {format : Format}
    (parsed : Format.parse source = .ok format) (outFormat : String) {args : List Value}
    {error : FormatError} (failed : format.encode args = .error error) :
    ∃ failure, checkFormats source outFormat args = .error failure ∧ failure.code = 64 := by
  -- The format of the reply is read first, and may have a defect of its own.
  simp only [checkFormats, parsed]
  cases Format.parse outFormat with
  | error other => exact ⟨_, rfl, rfl⟩
  | ok other =>
    -- The arguments are refused last, with the same exit code.
    simp only [failed]
    exact ⟨_, rfl, rfl⟩

/-- Errors of a format's text and of its arguments count as the caller's, and errors of a payload do
not, but for a string with a zero byte in it: it is an argument that counts as a payload. A verb
that is called by name ends the program accordingly, while one that is called by numbers has its
arguments refused as the caller's in any case. Sequences of arguments are ones that memory can
hold. -/
theorem usage_told_apart (rpc source : String) :
    (∀ error, Format.parse source = .error error →
      (RpcError.format rpc error).isUsage = true) ∧
    ∀ format, Format.parse source = .ok format →
      (∀ args error, AllShort args → format.encode args = .error error →
        ((RpcError.format rpc error).isUsage = false ↔ error.fault.EmbeddedZero)) ∧
      (∀ payload error,
        format.extent payload = .error error ∨ format.decode payload = .error error →
        (RpcError.format rpc error).isUsage = false) ∧
      ∀ (σ : Type) [Transport σ] (session : Session σ) (binding : RpcBinding) (purpose : String)
        (outFormat : String) (args : List Value) (options : CallOptions) (error : FormatError),
        binding.inFormat = format → AllShort args → format.encode args = .error error →
        ∃ called checked,
          Task.ofAction purpose (binding.invoke · args options) session
            = (.error called, session) ∧
          checkFormats source outFormat args = .error checked ∧ checked.code = 64 ∧
          (error.fault.EmbeddedZero → called.code = 60) ∧
          (¬ error.fault.EmbeddedZero → called.code = 64) := by
  -- What encoding charges to the arguments decides both the kind of error and the exit code.
  have arguments : ∀ format, Format.parse source = .ok format → ∀ args error, AllShort args →
      format.encode args = .error error →
      (error.fault.isUsage = false ↔ error.fault.EmbeddedZero) := by
    intro format parsed args error short failed
    obtain ⟨index, inner, rfl, ofArguments⟩ :=
      Format.encode_fails (Format.parse_sound parsed) short error failed
    exact ofArguments.usage index
  refine ⟨?_, fun format parsed => ⟨arguments format parsed, ?_, ?_⟩⟩
  · -- A malformed text has one kind of error.
    intro error failed
    obtain ⟨position, reason, rfl⟩ := Format.parse_fails source error failed
    rfl
  · -- A payload may be too short, too long, or wrong within a field.
    intro payload error failed
    rcases failed with missing | refused
    · obtain ⟨index, inner, rfl, ofPayload⟩ := Format.extent_fails format payload error missing
      exact ofPayload.usage index
    · rcases Format.decode_fails (Format.parse_sound parsed) payload error refused with
        ⟨unused, rfl⟩ | ⟨index, inner, rfl, ofPayload⟩
      · rfl
      · exact ofPayload.usage index
  · intro σ _ session binding purpose outFormat args options error same short failed
    obtain ⟨checked, refused, code⟩ := checkFormats_refuses parsed outFormat failed
    have told := arguments format parsed args error short failed
    -- The arguments are written before anything is transferred.
    have called : binding.invoke session args options
        = (.error (.format binding.name error), session) := by
      subst same
      simp only [RpcBinding.invoke, Session.executeFormats, failed]
    refine ⟨.ofRpc purpose (.format binding.name error), checked, ?_, refused, code, ?_, ?_⟩
    · simp only [Task.ofAction, called]
    · -- The exit code follows the kind of the error.
      intro embedded
      show ExitCode.ofRpc _ = 60
      rw [ofRpc_format, told.mpr embedded]
      rfl
    · intro other
      have usage : error.fault.isUsage = true := by
        rw [← Bool.not_eq_false, told]
        exact other
      show ExitCode.ofRpc _ = 64
      rw [ofRpc_format, usage]
      rfl

/-- In tuples, something that is no string is the caller's fault whichever way the verb is called,
while a string without an end in a reply is not. -/
theorem usage_told_apart_tuples : ∃ format error other, Format.parse "2(S)" = .ok format ∧
    format.encode [.list [.tuple [.str "a"], .tuple [.bool true]]] = .error error ∧
    (RpcError.format "label" error).isUsage = true ∧
    format.decode [97, 0, 98] = .error other ∧
    (RpcError.format "label" other).isUsage = false := by
  have parsed : Format.parse "2(S)"
      = .ok ⟨"2(S)", .little, [.group [.text .once] (.count 2)]⟩ := by cbv
  obtain ⟨arguments, payloads, _⟩ := (usage_told_apart "label" "2(S)").2 _ parsed
  have short : AllShort [.list [.tuple [.str "a"], .tuple [.bool true]]] := by
    simp [AllShort, Value.Short, maxSize]
  have refused : Format.encode ⟨"2(S)", .little, [.group [.text .once] (.count 2)]⟩
      [.list [.tuple [.str "a"], .tuple [.bool true]]]
      = .error ⟨"2(S)", .inField 0 (.typeMismatch "a string" "bool")⟩ := by rfl
  have cut : Format.decode ⟨"2(S)", .little, [.group [.text .once] (.count 2)]⟩ [97, 0, 98]
      = .error ⟨"2(S)", .inField 0 (.payloadTruncated 4 3)⟩ := by rfl
  -- A value of the wrong kind is not a zero byte in a string.
  refine ⟨_, _, _, parsed, refused, ?_, cut, payloads _ _ (.inr cut)⟩
  rw [← Bool.not_eq_false, arguments _ _ short refused]
  rintro ⟨_, same⟩
  cases same

/-- A string with a zero byte in it counts as invalid data where a verb is called by name, and as
the caller's fault where it is called by numbers. -/
theorem embedded_zero_not_usage : ∃ format error failure, Format.parse "S" = .ok format ∧
    format.encode [.str "a\x00b"] = .error error ∧
    (RpcError.format "label" error).isUsage = false ∧
    ExitCode.ofRpc (.format "label" error) = 60 ∧
    checkFormats "S" "" [.str "a\x00b"] = .error failure ∧ failure.code = 64 := by
  have parsed : Format.parse "S" = .ok ⟨"S", .little, [.text .once]⟩ := by cbv
  have refused : Format.encode ⟨"S", .little, [.text .once]⟩ [.str "a\x00b"]
      = .error ⟨"S", .inField 0 (.invalidString "embedded NUL character")⟩ := by rfl
  obtain ⟨failure, checked, code⟩ := checkFormats_refuses parsed "" refused
  -- By name the kind of the error decides, by numbers it is not looked at.
  exact ⟨_, _, failure, parsed, refused, rfl, ofRpc_format _ _, checked, code⟩

end Cli

end BoardRpc
