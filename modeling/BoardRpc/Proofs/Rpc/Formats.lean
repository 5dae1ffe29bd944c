import BoardRpc.Proofs.Format.Cache
import BoardRpc.Rpc.Session

/-! The format store of a session: a command is issued without a look at it, and a text is read
through it as it would be read without one. The store is sound whatever was done with its session
before, as `past_sound` tells. -/

namespace BoardRpc

/-- A store is sound behind both of the texts of a command. -/
theorem FormatCache.fetch_both_sound {cache : FormatCache} (sound : cache.Sound)
    (input output : String) : ((cache.fetch input).2.fetch output).2.Sound :=
  (fetch_sound (fetch_sound sound input).2 output).2

namespace Session

variable {σ : Type}

/-- The session with another store of formats. -/
def withFormats (session : Session σ) (formats : FormatCache) : Session σ :=
  { session with formats }

/-- A step that never looks at the store: with another one it comes to the same, and leaves that
one as it was. -/
def Independent (step : Session σ → α × Session σ) : Prop :=
  ∀ session formats,
    step (session.withFormats formats)
      = ((step session).1, (step session).2.withFormats formats)

/-- An independent step leaves the store as it was. -/
theorem Independent.formats {step : Session σ → α × Session σ} (independent : Independent step)
    (session : Session σ) : (step session).2.formats = session.formats := by
  -- With the store that it has already, the session is the same as before.
  have same := independent session session.formats
  have own : session.withFormats session.formats = session := rfl
  rw [own] at same
  rw [same]
  rfl

section Steps

/-! Issuing a command, step by step. -/

variable [Transport σ]

/-- A frame is sent without a look at the store. -/
theorem sendFrame_independent (frame : CommandFrame) (options : CallOptions) :
    Independent fun session : Session σ => session.sendFrame frame options := by
  -- The link, the settings and the memo are all that is looked at, and they are the same.
  intro session formats
  simp only [sendFrame, withFormats, responseLimit]
  generalize Transport.write session.link _ _ _ = written
  obtain ⟨answer, link⟩ := written
  cases answer <;> rfl

/-- A response is read without a look at the store. -/
theorem readResponse_independent (repeatLast : Bool) (options : CallOptions) :
    Independent fun session : Session σ => session.readResponse repeatLast options :=
  fun _ _ => rfl

/-- Whether to send or to repeat is decided without a look at the store. -/
theorem exchange_independent (frame : CommandFrame) (options : CallOptions) :
    Independent fun session : Session σ => session.exchange frame options := by
  -- The memo decides, and it is the same.
  intro session formats
  have decision : (session.withFormats formats).canRepeat frame options
      = session.canRepeat frame options := rfl
  simp only [exchange, decision]
  split
  · exact readResponse_independent true options session formats
  · have sent := sendFrame_independent frame options session formats
    dsimp only at sent
    rw [sent]
    rcases session.sendFrame frame options with ⟨answer, between⟩
    cases answer with
    | error cause => rfl
    | ok taken =>
      -- Neither does the limit of the response depend on the store.
      show (if between.responseLimit options = 0 then _ else _) = _
      dsimp only
      split
      · rfl
      · exact readResponse_independent false options between formats

/-- A command is cancelled without a look at the store. -/
theorem cancel_independent : Independent fun session : Session σ => session.cancel := by
  intro session formats
  simp only [cancel, withFormats]
  rcases Transport.cancel session.link session.config.cancelTimeout with ⟨answer, link⟩
  cases answer with
  | ok response => rfl
  | error error => cases session.config.cancelRetryDelay <;> rfl

/-- A command is aborted without a look at the store. -/
theorem abort_independent : Independent fun session : Session σ => session.abort := by
  intro session formats
  -- The answer of the cancel is all that is read behind it.
  have cancelled := cancel_independent session formats
  dsimp only at cancelled
  simp only [abort, cancelled]
  rcases session.cancel with ⟨answer, after⟩
  cases answer with
  | error error => rfl
  | ok response =>
    dsimp only
    split <;> rfl

/-- A command is issued without a look at the store. -/
theorem transact_independent (classNumber verbNumber : UInt32) (payload : Bytes)
    (options : CallOptions) (rpc : String) : Independent fun session : Session σ =>
      session.transact classNumber verbNumber payload options rpc := by
  intro session formats
  -- A frame is too long in every session, and any other is exchanged.
  have exchanged := exchange_independent ⟨classNumber, verbNumber, payload⟩ options session formats
  dsimp only at exchanged
  simp only [transact, exchanged]
  split
  · rfl
  · rcases session.exchange ⟨classNumber, verbNumber, payload⟩ options with ⟨answer, between⟩
    cases answer with
    | ok response => rfl
    | error cause =>
      dsimp only
      split
      · -- The failure was signaled, so that the error number is fetched.
        have aborted := abort_independent between formats
        dsimp only at aborted
        simp only [aborted]
        rcases between.abort with ⟨answer, after⟩
        cases answer <;> rfl
      · rfl

/-- Arguments that do not fit are refused before anything is issued. -/
theorem executeFormats_rejected (session : Session σ) {classNumber verbNumber : UInt32}
    {inFormat outFormat : Format} {args : List Value} {options : CallOptions} {rpc : String}
    {error : FormatError} (rejected : inFormat.encode args = .error error) :
    session.executeFormats classNumber verbNumber inFormat outFormat args options rpc
      = (.error (.format rpc error), session) := by
  simp only [executeFormats, rejected]

/-- Arguments that fit are issued, and the response is interpreted. -/
theorem executeFormats_encoded (session : Session σ) {classNumber verbNumber : UInt32}
    {inFormat outFormat : Format} {args : List Value} {options : CallOptions} {rpc : String}
    {payload : Bytes} (encoded : inFormat.encode args = .ok payload) :
    session.executeFormats classNumber verbNumber inFormat outFormat args options rpc
      = ((session.transact classNumber verbNumber payload options rpc).1.bind
          (interpret outFormat rpc),
        (session.transact classNumber verbNumber payload options rpc).2) := by
  -- An error is passed on, and only a response is interpreted.
  simp only [executeFormats, encoded]
  rcases session.transact classNumber verbNumber payload options rpc with ⟨answer, after⟩
  cases answer <;> rfl

/-- A command whose formats are known is issued without a look at the store. -/
theorem executeFormats_independent (classNumber verbNumber : UInt32) (inFormat outFormat : Format)
    (args : List Value) (options : CallOptions) (rpc : String) :
    Independent fun session : Session σ =>
      session.executeFormats classNumber verbNumber inFormat outFormat args options rpc := by
  intro session formats
  dsimp only
  -- Encoding does not involve the session, and transfers do not look at the store.
  cases encoded : inFormat.encode args with
  | error error => simp only [executeFormats_rejected _ encoded]
  | ok payload =>
    have issued := transact_independent classNumber verbNumber payload options rpc session formats
    dsimp only at issued
    simp only [executeFormats_encoded _ encoded, issued]

end Steps

section Texts

/-! Formats that are given as texts. -/

variable {session : Session σ} (sound : session.formats.Sound)

include sound

/-- What is fetched for a text is what the text is read as, and nothing but the store may change. -/
theorem fetchFormat_eq (source rpc : String) : session.fetchFormat source rpc
    = ((Format.parse source).mapError (.format rpc),
      session.withFormats (session.formats.fetch source).2) := by
  -- A sound store gives what reading the text gives.
  have read := (FormatCache.fetch_sound sound source).1
  unfold fetchFormat
  rw [← read]
  rcases session.formats.fetch source with ⟨found, formats⟩
  cases found <;> rfl

variable [Transport σ] {classNumber verbNumber : UInt32} {input output : String}
  {args : List Value} {options : CallOptions} {rpc : String}

/-- Where both texts can be read, the command is issued with what they are read as. -/
theorem executeNamed_parsed {inFormat outFormat : Format}
    (readInput : Format.parse input = .ok inFormat)
    (readOutput : Format.parse output = .ok outFormat) :
    session.executeNamed classNumber verbNumber input output args options rpc
      = (session.withFormats ((session.formats.fetch input).2.fetch output).2).executeFormats
          classNumber verbNumber inFormat outFormat args options rpc := by
  -- The second text is read through the store that the first one left.
  have between : (session.withFormats (session.formats.fetch input).2).formats.Sound :=
    (FormatCache.fetch_sound sound input).2
  simp only [executeNamed, fetchFormat_eq sound, readInput, Except.mapError, fetchFormat_eq between,
    readOutput]
  rfl

/-- Where the text of the arguments cannot be read, nothing is issued. -/
theorem executeNamed_input_unread {error : FormatError}
    (unread : Format.parse input = .error error) :
    session.executeNamed classNumber verbNumber input output args options rpc
      = (.error (.format rpc error), session.withFormats (session.formats.fetch input).2) := by
  simp only [executeNamed, fetchFormat_eq sound, unread, Except.mapError]

/-- Where the text of the reply cannot be read, nothing is issued either. -/
theorem executeNamed_output_unread {inFormat : Format} {error : FormatError}
    (readInput : Format.parse input = .ok inFormat) (unread : Format.parse output = .error error) :
    session.executeNamed classNumber verbNumber input output args options rpc
      = (.error (.format rpc error),
        session.withFormats ((session.formats.fetch input).2.fetch output).2) := by
  have between : (session.withFormats (session.formats.fetch input).2).formats.Sound :=
    (FormatCache.fetch_sound sound input).2
  simp only [executeNamed, fetchFormat_eq sound, readInput, Except.mapError, fetchFormat_eq between,
    unread]
  rfl

end Texts

end Session

end BoardRpc
