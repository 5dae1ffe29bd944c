import BoardRpc.Proofs.Cli.Usage
import BoardRpc.Proofs.Rpc.Endurance
import BoardRpc.Proofs.Rpc.Methods

/-! Whose fault an error of the core class is: the device's or the link's, and never the caller's,
as there is nothing for a caller to get wrong. -/

namespace BoardRpc

/-- Errors that are the device's or the link's: a failure that the device reports, a transfer that
failed, a cancel without an error number, and a response that does not fit its format. -/
inductive RpcError.OfDevice : RpcError → Prop
  | failed (classNumber verbNumber : UInt32) (rpc : String) (code : UInt32) (cause : LinkError) :
      OfDevice (.commandFailed classNumber verbNumber rpc code cause)
  | transport (cause : LinkError) : OfDevice (.transport cause)
  | malformedCancel (length : Nat) : OfDevice (.malformedCancel length)
  | response (rpc : String) {error : FormatError} (ofPayload : error.fault.isUsage = false) :
      OfDevice (.format rpc error)

/-- Such an error is not the caller's. -/
theorem RpcError.OfDevice.not_usage {error : RpcError} (ofDevice : error.OfDevice) :
    error.isUsage = false := by
  cases ofDevice with
  | response rpc ofPayload => exact ofPayload
  | _ => rfl

/-- The error of a command that lost the link is the link's. -/
theorem Asked.Severed.ofDevice {asked : Asked} (lost : asked.Severed) {error : RpcError}
    (same : asked.result = .error error) : error.OfDevice := by
  -- Only a cancel can lose the link: it was not carried out, or its answer is no error number.
  rcases lost with ⟨cause, failed⟩ | ⟨length, failed⟩
  · cases failed.symm.trans same
    exact .transport cause
  · cases failed.symm.trans same
    exact .malformedCancel length

namespace Session

variable {σ : Type} [Transport σ]

/-- A command that fits a frame fails by the device or by the link. -/
theorem transact_fails (session : Session σ) (classNumber verbNumber : UInt32) {payload : Bytes}
    (options : CallOptions) (rpc : String) (fits : 8 + payload.length ≤ 4096) :
    FailsBy RpcError.OfDevice
      (session.transact classNumber verbNumber payload options rpc).1 := by
  obtain ⟨calls, result, after, ⟨plain, _, _⟩, dialogue, _⟩ :=
    transact_does session classNumber verbNumber options rpc fits
  rw [plain]
  -- Every way in which its dialogue ends is one of theirs.
  cases dialogue with
  | answered => exact failsBy_ok _
  | broken | stuck => exact failsBy_error.mpr (.transport _)
  | failed => exact failsBy_error.mpr (.failed _ _ _ _ _)
  | malformed => exact failsBy_error.mpr (.malformedCancel _)

/-- A response is refused for a fault of its own. -/
theorem interpret_fails {format : Format} (sound : format.Sound) (rpc : String)
    (response : Bytes) : FailsBy RpcError.OfDevice (interpret format rpc response) := by
  unfold interpret
  cases found : format.extent response with
  | error error =>
    -- The response is too short.
    obtain ⟨index, inner, rfl, ofPayload⟩ := Format.extent_fails format response error found
    exact failsBy_error.mpr (.response rpc (ofPayload.usage index))
  | ok used =>
    -- Bytes left behind the extent are a fault of the response; else it is decoded.
    apply FailsBy.ite
    · exact failsBy_error.mpr (.response rpc rfl)
    · cases decoded : format.decode response with
      | ok values => exact failsBy_ok _
      | error error =>
        rcases Format.decode_fails sound response error decoded with
          ⟨unused, rfl⟩ | ⟨index, inner, rfl, ofPayload⟩
        · exact failsBy_error.mpr (.response rpc rfl)
        · exact failsBy_error.mpr (.response rpc (ofPayload.usage index))

end Session

/-- So is that of a query that is refused. -/
theorem Query.Refused.ofDevice {query : Query} {error : RpcError} (refused : query.Refused error) :
    error.OfDevice := by
  cases refused with
  | failed code cause => exact .failed _ _ _ code cause
  | unread refused =>
    -- The format of a query is one of two that can be read, and a format that was read is sound.
    have sound := Format.parse_sound query.parse_outFormat
    exact Session.interpret_fails sound _ _ error refused

section Actions

variable {σ : Type} [Transport σ] {session : Session σ}

/-- No method of the core class can be used wrongly: its formats can be read, its arguments fit
them and a frame, and what is decoded has the shape that it reads. -/
theorem method_fails {α : Type} (method : CoreMethod α) (sound : session.formats.Sound) :
    FailsBy RpcError.OfDevice (method.action session).1 := by
  -- The command is issued once both of its texts are in the store.
  let prepared := session.withFormats
    ((session.formats.fetch method.verb.inFormat).2.fetch method.verb.outFormat).2
  have fails := prepared.transact_fails 0 method.verb.number method.verb.options
    method.verb.rpcName method.payload_fits
  cases issued : prepared.transact 0 method.verb.number method.payload method.verb.options
      method.verb.rpcName with
  | mk result after =>
    rw [issued] at fails
    rw [method.action_issued sound issued]
    refine fails.bind fun response _ => ?_
    -- The response is refused for a fault of its own, or it has the shape that is read.
    have refused := Session.interpret_fails (Format.parse_sound method.parse_output)
      method.verb.rpcName response
    refine refused.bind fun reply interpreted => ?_
    obtain ⟨values, decoded, rfl⟩ := Session.interpret_eq_ok.mp interpreted
    obtain ⟨a, told⟩ := method.read_decoded decoded
    rw [told]
    exact failsBy_ok a

/-- The description of a verb is made of texts that the device gives, none of which is read as a
format. -/
theorem describeVerb_fails (classNumber verbNumber : UInt32) (sound : session.formats.Sound) :
    FailsBy RpcError.OfDevice (describeVerb classNumber verbNumber session).1 := by
  -- Nothing but a query can be refused, as every text that is heard is taken as it is.
  have tolerates : ∀ {error}, (Script.ofVerb classNumber verbNumber).Rejects error →
      error.OfDevice := by
    intro error rejects
    obtain ⟨query, refused⟩ := rejects.of_ofVerb
    exact refused.ofDevice
  obtain ⟨commands, result, after, ⟨plain, _, _⟩, _, _, ends⟩ := Script.performs _ tolerates sound
  have plain : (Script.ofVerb classNumber verbNumber).run session = (result, after) := plain
  rw [← Script.run_ofVerb, plain]
  -- A query is refused, or it loses the link.
  cases ends with
  | found => exact failsBy_ok _
  | refused kind => exact failsBy_error.mpr kind
  | severed order intact lost same => exact failsBy_error.mpr (lost.ofDevice same)

end Actions

namespace Cli

/-- A failed transfer ends the program neither as the caller's fault nor as an unknown one. -/
theorem ofLink_code (cause : LinkError) :
    ExitCode.ofLink cause ≠ ExitCode.usage ∧ ExitCode.ofLink cause ≠ ExitCode.internal := by
  cases cause <;> simp [ExitCode.ofLink, ExitCode.usage, ExitCode.internal, ExitCode.failure,
    ExitCode.timeout, ExitCode.transportError]

/-- Neither does any other error of the device or of the link. -/
theorem ofDevice_code {error : RpcError} (ofDevice : error.OfDevice) :
    ExitCode.ofRpc error ≠ ExitCode.usage ∧ ExitCode.ofRpc error ≠ ExitCode.internal := by
  -- Each constructor has its code; only that of a transfer depends on what failed.
  cases ofDevice with
  | failed classNumber verbNumber rpc code cause =>
    have same : ExitCode.ofRpc (.commandFailed classNumber verbNumber rpc code cause)
        = ExitCode.deviceError := by
      rw [ExitCode.ofRpc]
      rfl
    rw [same]
    decide
  | malformedCancel length =>
    have same : ExitCode.ofRpc (.malformedCancel length) = ExitCode.transportError := by
      rw [ExitCode.ofRpc]
      rfl
    rw [same]
    decide
  -- A transfer is the only one whose code depends on what happened to it.
  | transport cause =>
    have same : ExitCode.ofRpc (.transport cause) = ExitCode.ofLink cause := by
      rw [ExitCode.ofRpc]
      rfl
    rw [same]
    exact ofLink_code cause
  | response rpc ofPayload =>
    rw [ofRpc_format, ofPayload]
    decide

/-- A discovery that cannot start ends the program as the error behind it does. -/
theorem ofRpc_discovery (stage : String) (source : RpcError) :
    ExitCode.ofRpc (.discovery stage source) = ExitCode.ofRpc source := by
  rw [ExitCode.ofRpc]
  rfl

variable {σ : Type} [Transport σ]

/-- Over any link, in every session and with any arguments, no method of the core class and no
description of a verb ends in an error that counts as the caller's: each format of a method can be
read, and every response that is decoded in it has the shape that the method reads. Nor does the
program end as by the caller's fault, or as by an unknown one, when discovery fails. -/
theorem device_faults_not_usage {session : Session σ} (sound : session.formats.Sound) :
    (∀ {α : Type} (method : CoreMethod α), ∃ input output,
      Format.parse method.verb.inFormat = .ok input ∧
      Format.parse method.verb.outFormat = .ok output ∧
      ∀ response values, output.decode response = .ok values →
        ∃ a, method.read (output.collapse values) = .ok a) ∧
    (∀ {α : Type} (method : CoreMethod α) error, (method.action session).1 = .error error →
      error.isUsage = false) ∧
    (∀ classNumber verbNumber error,
      (describeVerb classNumber verbNumber session).1 = .error error → error.isUsage = false) ∧
    ∀ config error, (discover config session).1 = .error error →
      ExitCode.ofRpc error ≠ ExitCode.usage ∧ ExitCode.ofRpc error ≠ ExitCode.internal := by
  refine ⟨fun method => ⟨_, _, method.parse_input, method.parse_output,
    fun response values decoded => method.read_decoded decoded⟩, ?_, ?_, ?_⟩
  · intro α method error failed
    exact (method_fails method sound error failed).not_usage
  · intro classNumber verbNumber error failed
    exact (describeVerb_fails classNumber verbNumber sound error failed).not_usage
  · -- All queries after the listing are those of the script, so that the record tells whose the
    -- error is.
    intro config error failed
    obtain ⟨first, later, result, after, _, ⟨plain, _, _⟩, _, discovers⟩ :=
      discover_does config sound
    have told : discover config session = (result, after) := plain
    rw [told] at failed
    -- Either the classes cannot be listed, or a later query has lost the link.
    rcases discovers.error_of failed with ⟨cause, listing, _, rfl⟩ | ⟨asked, _, lost, same⟩
    · rw [ofRpc_discovery]
      have ofDevice : cause.OfDevice :=
        method_fails .availableClasses sound cause listing
      exact ofDevice_code ofDevice
    · exact ofDevice_code (lost.ofDevice same)

/-- Over a link that stalls every response, the board's type is not told and the classes are not
listed, and neither is the caller's fault. -/
theorem device_faults_not_usage_stalling : ∃ session error cause,
    session = ({ link := .link } : Session Stalling) ∧
    (Core.readBoardId session).1 = .error error ∧ error.isUsage = false ∧
    (discover {} session).1 = .error (.discovery "listing classes" cause) ∧
    ExitCode.ofRpc (.discovery "listing classes" cause) ≠ ExitCode.usage := by
  let session : Session Stalling := { link := .link }
  have sound : session.formats.Sound := FormatCache.sound_empty
  -- Each command is written, stalls and is cancelled, and the device then tells why it stalled.
  have failed : (Core.readBoardId session).1
      = .error (.commandFailed 0 0 "core.read_board_id" 16 .stalled) :=
    congrArg Prod.fst (CoreMethod.boardId.action_issued sound rfl)
  have listing : Core.getAvailableClasses session = (.error
      (.commandFailed 0 4 "core.get_available_classes" 16 .stalled), _) :=
    CoreMethod.availableClasses.action_issued sound rfl
  obtain ⟨core, known⟩ := withCore_isOk
  have discovered : (discover {} session).1 = .error (.discovery "listing classes"
      (.commandFailed 0 4 "core.get_available_classes" 16 .stalled)) := by
    rw [discover_apply known, listing]
  obtain ⟨_, methods, _, discoveries⟩ := device_faults_not_usage sound
  exact ⟨session, _, _, rfl, failed, methods .boardId _ failed, discovered,
    (discoveries {} _ discovered).1⟩

end Cli

end BoardRpc
