import BoardRpc.Proofs.Rpc.Dialogue
import BoardRpc.Proofs.Rpc.Histories

/-! Two ways to call a verb: through a binding, whose formats were read once and for all, and by its
numbers with formats that are given as texts. They come to the same, up to the name that an error
bears. -/

namespace BoardRpc

/-- The error under another name of the command. -/
def RpcError.rename (rpc : String) : RpcError → RpcError
  | .format _ error => .format rpc error
  | .commandFailed classNumber verbNumber _ code cause =>
    .commandFailed classNumber verbNumber rpc code cause
  | error => error

/-- The binding that texts give holds what they are read as. -/
theorem RpcBinding.ofTexts_eq_ok {classNumber verbNumber : UInt32} {name input output : String}
    {made : RpcBinding} : ofTexts classNumber verbNumber name input output = .ok made ↔
      ∃ inFormat outFormat, Format.parse input = .ok inFormat ∧
        Format.parse output = .ok outFormat ∧
        made = { classNumber, verbNumber, name, inFormat, outFormat } := by
  -- The formats are read in order, and the name has no part in that.
  unfold ofTexts
  constructor
  · intro built
    split at built
    · cases built
    · rename_i inFormat readInput
      split at built
      · cases built
      · rename_i outFormat readOutput
        cases built
        exact ⟨inFormat, outFormat, readInput, readOutput, rfl⟩
  · intro read
    obtain ⟨inFormat, outFormat, readInput, readOutput, rfl⟩ := read
    simp only [readInput, readOutput]

namespace Session

variable {σ : Type} [Transport σ]

section Names

/-! A name has no part in what is done, and an error that bears one has the name of the call. -/

variable (session : Session σ) (classNumber verbNumber : UInt32) (options : CallOptions)
  (rpc other : String)

/-- No error of an abort bears a name. -/
theorem abort_unnamed {error : RpcError} {after : Session σ}
    (failed : session.abort = (.error error, after)) : error.rename rpc = error := by
  -- Either the cancel failed, or its answer was no error number.
  unfold abort at failed
  split at failed
  · cases failed
    rfl
  · split at failed
    · cases failed
    · cases failed
      rfl

/-- A command under another name comes to the same under that name. -/
theorem transact_renamed (payload : Bytes) :
    session.transact classNumber verbNumber payload options other
      = ((session.transact classNumber verbNumber payload options rpc).1.mapError
          (·.rename other),
        (session.transact classNumber verbNumber payload options rpc).2) := by
  simp only [transact]
  -- A command that is too long is refused under no name at all.
  split
  · rfl
  · -- The name is not used until the command has failed.
    rcases session.exchange ⟨classNumber, verbNumber, payload⟩ options with ⟨answer, between⟩
    cases answer with
    | ok response => rfl
    | error cause =>
      dsimp only
      split
      · cases aborted : between.abort with
        | mk code after =>
          cases code with
          | error error =>
            show _ = ((Except.error (error.rename other) : Except RpcError Bytes), after)
            -- What goes wrong with the abort is told of without a name.
            rw [abort_unnamed between other aborted]
          | ok code => rfl
      · rfl

/-- A response is interpreted under another name as it is under any. -/
theorem interpret_renamed (format : Format) (response : Bytes) :
    interpret format other response
      = (interpret format rpc response).mapError (·.rename other) := by
  -- Whichever of the three tests refuses the response, the name is all that is put in front.
  simp only [interpret]
  cases format.extent response with
  | error error => rfl
  | ok used =>
    dsimp only
    split
    · rfl
    · cases format.decode response <;> rfl

/-- A command with arguments and a reply comes to the same under another name as well. -/
theorem executeFormats_renamed (inFormat outFormat : Format) (args : List Value) :
    session.executeFormats classNumber verbNumber inFormat outFormat args options other
      = ((session.executeFormats classNumber verbNumber inFormat outFormat args options
          rpc).1.mapError (·.rename other),
        (session.executeFormats classNumber verbNumber inFormat outFormat args options rpc).2) := by
  -- Arguments that do not fit are refused under the name, and anything else is up to the command.
  cases encoded : inFormat.encode args with
  | error error =>
    rw [executeFormats_rejected session encoded, executeFormats_rejected session encoded]
    rfl
  | ok payload =>
    rw [executeFormats_encoded session encoded, executeFormats_encoded session encoded,
      transact_renamed session classNumber verbNumber options rpc other payload]
    -- An error of the command is followed by no interpretation.
    cases (session.transact classNumber verbNumber payload options rpc).1 with
    | error error => rfl
    | ok response => exact congrArg (·, _) (interpret_renamed rpc other outFormat response)

end Names

/-- A command with arguments and a reply makes some transfers over its link, and comes to the same
over a watched one. -/
theorem executeFormats_does (session : Session σ) (classNumber verbNumber : UInt32)
    (inFormat outFormat : Format) (args : List Value) (options : CallOptions) (rpc : String) :
    ∃ calls result after, Does (fun session => session.executeFormats classNumber verbNumber
      inFormat outFormat args options rpc) session calls result after := by
  cases encoded : inFormat.encode args with
  | error error =>
    -- Nothing is transferred for arguments that do not fit.
    refine ⟨[], .error (.format rpc error), session, executeFormats_rejected session encoded,
      fun seen => ?_, rfl⟩
    rw [List.append_nil]
    exact executeFormats_rejected (session.watch seen) encoded
  | ok payload =>
    -- Encoding decides whether there is a command, and its length whether it is issued.
    by_cases fits : 8 + payload.length ≤ 4096
    · obtain ⟨calls, result, after, ⟨plain, watched, settings⟩, _⟩ :=
        transact_does session classNumber verbNumber options rpc fits
      refine ⟨calls, result.bind (interpret outFormat rpc), after, ?_, fun seen => ?_, settings⟩
      · rw [executeFormats_encoded session encoded, plain]
      · rw [executeFormats_encoded (session.watch seen) encoded, watched]
    · -- Nor is anything transferred for a frame that is too long.
      have large : 4096 < 8 + payload.length := Nat.lt_of_not_le fits
      refine ⟨[], .error (.commandTooLong (8 + payload.length) 4096), session, ?_, fun seen => ?_,
        rfl⟩
      · rw [executeFormats_encoded session encoded, transact_oversized session large]
        rfl
      · rw [executeFormats_encoded (session.watch seen) encoded,
          transact_oversized (session.watch seen) large, List.append_nil]
        rfl

/-- Calling a verb through a binding that was made from texts, whatever it is documented with and
whatever its defaults are, makes the same transfers as calling it by its numbers with those texts
and with the options that the defaults complete; and it leaves the same link and the same memo, and
comes to the same reply, or to the same error but for the name in it. So it is in every session,
whatever its store holds of texts that were read before. -/
theorem invoke_as_execute {classNumber verbNumber : UInt32} {name input output : String}
    {made : RpcBinding}
    (built : RpcBinding.ofTexts classNumber verbNumber name input output = .ok made)
    (doc : String) (inParamNames outParamNames : Option (List String)) (defaults : CallOptions)
    {session : Session σ} (sound : session.formats.Sound) (args : List Value)
    (options : CallOptions) : ∃ calls result after other,
      Does (fun session => RpcBinding.invoke
        { made with doc, inParamNames, outParamNames, defaults } session args options) session
        calls result after ∧
      Does (fun session => session.execute classNumber verbNumber made.inFormat.source
        made.outFormat.source args
        { timeout := options.timeout <|> defaults.timeout
          commsTimeout := options.commsTimeout <|> defaults.commsTimeout
          maxResponseLength := options.maxResponseLength <|> defaults.maxResponseLength })
        session calls (result.mapError (·.rename (commandName classNumber verbNumber))) other ∧
      other.link = after.link ∧ other.memo = after.memo ∧ after.formats.Sound ∧
      other.formats.Sound := by
  -- The binding holds what the texts were read as, and each format the text it was read from.
  obtain ⟨inFormat, outFormat, readInput, readOutput, rfl⟩ := RpcBinding.ofTexts_eq_ok.mp built
  rw [Format.source_of_parse readInput, Format.source_of_parse readOutput]
  -- The binding does the transfers, and calling by numbers is shown to do the same.
  obtain ⟨calls, result, after, invoked⟩ := executeFormats_does session classNumber verbNumber
    inFormat outFormat args (options.orElse defaults) name
  have formats : after.formats = session.formats := by
    have kept := (executeFormats_independent classNumber verbNumber inFormat outFormat args
      (options.orElse defaults) name).formats session
    rwa [invoked.plain] at kept
  -- Texts that can be read are issued as what they are read as, and the store has no part in it.
  have executed {τ : Type} [Transport τ] {session after : Session τ}
      (sound : session.formats.Sound)
      (issued : session.executeFormats classNumber verbNumber inFormat outFormat args
        (options.orElse defaults) name = (result, after)) :
      session.execute classNumber verbNumber input output args (options.orElse defaults)
        = (result.mapError (·.rename (commandName classNumber verbNumber)),
          after.withFormats ((session.formats.fetch input).2.fetch output).2) := by
    rw [execute, executeNamed_parsed sound readInput readOutput]
    have independent := executeFormats_independent classNumber verbNumber inFormat outFormat args
      (options.orElse defaults) (commandName classNumber verbNumber) session
      ((session.formats.fetch input).2.fetch output).2
    dsimp only at independent
    rw [independent, executeFormats_renamed session classNumber verbNumber
      (options.orElse defaults) name, issued]
  refine ⟨calls, result, after,
    after.withFormats ((session.formats.fetch input).2.fetch output).2, invoked,
    ⟨executed sound invoked.plain, fun seen => ?_, invoked.settings⟩, rfl, rfl, ?_,
    FormatCache.fetch_both_sound sound input output⟩
  · -- A watched session has the same store.
    have watchedSound : (session.watch seen).formats.Sound := sound
    exact executed watchedSound (invoked.watched seen)
  · -- A binding reads no text, so the store is left as it was.
    rw [formats]
    exact sound

/-- A verb that stalls comes to the device's error number either way, once under its name and once
under its numbers, in a session that has read one of the texts before. -/
theorem invoke_as_execute_stalling : ∃ made session calls after other,
    RpcBinding.ofTexts 7 1 "lamp.level" "B" "S" = .ok made ∧
    session = ({ link := .link, formats := ⟨[⟨"B", .little, [.primitive .uint8 .once]⟩]⟩ } :
      Session Stalling) ∧
    Does (fun session => RpcBinding.invoke { made with defaults := { timeout := some 5 } } session
      [.ofNat 3] {}) session calls
      (.error (.commandFailed 7 1 "lamp.level" 16 .stalled)) after ∧
    Does (fun session => session.execute 7 1 "B" "S" [.ofNat 3] { timeout := some 5 }) session
      calls (.error (.commandFailed 7 1 (commandName 7 1) 16 .stalled)) other ∧
    other.memo = after.memo := by
  -- Both texts are read by evaluation, as they are closed.
  have readInput : Format.parse "B" = .ok ⟨"B", .little, [.primitive .uint8 .once]⟩ := by cbv
  have readOutput : Format.parse "S" = .ok ⟨"S", .little, [.text .once]⟩ := by cbv
  have built : RpcBinding.ofTexts 7 1 "lamp.level" "B" "S" = .ok
      ⟨7, 1, "lamp.level", ⟨"B", .little, [.primitive .uint8 .once]⟩,
        ⟨"S", .little, [.text .once]⟩, "", none, none, {}⟩ :=
    RpcBinding.ofTexts_eq_ok.mpr ⟨_, _, readInput, readOutput, rfl⟩
  let session : Session Stalling :=
    { link := .link, formats := ⟨[⟨"B", .little, [.primitive .uint8 .once]⟩]⟩ }
  -- The one text in the store is in it with what it is read as.
  have sound : session.formats.Sound := by
    intro format here
    rw [List.mem_singleton.mp here]
    exact readInput
  -- The defaults have a limit of time only, and the options are empty.
  obtain ⟨calls, result, after, other, invoked, executed, _, memo, _⟩ := invoke_as_execute built ""
    none none { timeout := some 5 } sound [.ofNat 3] {}
  obtain rfl : result = .error (.commandFailed 7 1 "lamp.level" 16 .stalled) :=
    congrArg Prod.fst invoked.plain.symm
  exact ⟨_, _, calls, after, other, built, rfl, invoked, executed, memo⟩

end Session

end BoardRpc
