import BoardRpc.Rpc.Binding

/-! Runs of sessions: requests made one after the other. -/

namespace BoardRpc

/-- What is asked of a session. -/
inductive Request
  | send (classNumber verbNumber : UInt32) (payload : Bytes) (options : CallOptions)
  | execute (classNumber verbNumber : UInt32) (inFormat outFormat : String) (args : List Value)
      (options : CallOptions)
  | invoke (binding : RpcBinding) (args : List Value) (options : CallOptions)
  | abort
  | reset

/-- What a request came to. -/
inductive Outcome
  | response (result : Except RpcError Bytes)
  | reply (result : Except RpcError Reply)
  | errno (result : Except RpcError UInt32)
  | done

namespace Session

variable [Transport σ]

/-- Does what is asked. -/
def perform (session : Session σ) : Request → Outcome × Session σ
  | .send classNumber verbNumber payload options =>
    (session.send classNumber verbNumber payload options).map .response id
  | .execute classNumber verbNumber inFormat outFormat args options =>
    (session.execute classNumber verbNumber inFormat outFormat args options).map .reply id
  | .invoke binding args options => (binding.invoke session args options).map .reply id
  | .abort => session.abort.map .errno id
  | .reset => (.done, session.reset)

/-- Does what is asked, one request after the other. -/
def run (session : Session σ) : List Request → List Outcome × Session σ
  | [] => ([], session)
  | request :: others =>
    -- An error ends a request and not the run, so the next one starts from what was left.
    let (outcome, next) := session.perform request
    let (outcomes, last) := next.run others
    (outcome :: outcomes, last)

/-- A command that does not fit a frame is refused before anything is transferred. -/
theorem transact_oversized (session : Session σ) {classNumber verbNumber : UInt32}
    {payload : Bytes} {options : CallOptions} {rpc : String}
    (large : 4096 < 8 + payload.length) :
    session.transact classNumber verbNumber payload options rpc
      = (.error (.commandTooLong (8 + payload.length) 4096), session) :=
  if_pos large

/-- What is kept by all that a session does: by issuing, aborting and forgetting commands, and by
reading formats. -/
structure Preserved (P : Session σ → Prop) : Prop where
  transact : ∀ {session : Session σ}, P session → ∀ classNumber verbNumber payload options rpc,
    P (session.transact classNumber verbNumber payload options rpc).2
  abort : ∀ {session : Session σ}, P session → P session.abort.2
  reset : ∀ {session : Session σ}, P session → P session.reset
  formats : ∀ {session : Session σ}, P session → ∀ source,
    P { session with formats := (session.formats.fetch source).2 }

variable {P : Session σ → Prop} {session : Session σ}

/-- A command with arguments is issued at most once. -/
theorem Preserved.executeFormats (preserved : Preserved P) (kept : P session)
    (classNumber verbNumber : UInt32) (inFormat outFormat : Format) (args : List Value)
    (options : CallOptions) (rpc : String) :
    P (session.executeFormats classNumber verbNumber inFormat outFormat args options rpc).2 := by
  -- Arguments that do not fit are refused before anything is issued.
  unfold Session.executeFormats
  split
  · exact kept
  · -- Interpreting the response is left, which does nothing with the session.
    rename_i payload _
    have issued := preserved.transact kept classNumber verbNumber payload options rpc
    revert issued
    generalize session.transact classNumber verbNumber payload options rpc = done
    obtain ⟨result, after⟩ := done
    intro issued
    cases result <;> exact issued

/-- Reading a format changes the store at most. -/
theorem Preserved.fetchFormat (preserved : Preserved P) (kept : P session)
    (source rpc : String) : P (session.fetchFormat source rpc).2 := by
  -- The store is changed in the same way whether the text can be read or not.
  have fetched := preserved.formats kept source
  unfold Session.fetchFormat
  split
  · rename_i format formats found
    rw [found] at fetched
    exact fetched
  · rename_i error formats refused
    rw [refused] at fetched
    exact fetched

/-- A command whose formats are texts is issued at most once. -/
theorem Preserved.executeNamed (preserved : Preserved P) (kept : P session)
    (classNumber verbNumber : UInt32) (inFormat outFormat : String) (args : List Value)
    (options : CallOptions) (rpc : String) :
    P (session.executeNamed classNumber verbNumber inFormat outFormat args options rpc).2 := by
  -- Both texts are read first, and each may end the request.
  unfold Session.executeNamed
  have first := preserved.fetchFormat kept inFormat rpc
  revert first
  generalize session.fetchFormat inFormat rpc = fetched
  obtain ⟨input, between⟩ := fetched
  intro first
  cases input with
  | error error => exact first
  | ok input =>
    -- The second text is read from the session that the first one left.
    dsimp only
    have second := preserved.fetchFormat first outFormat rpc
    revert second
    generalize between.fetchFormat outFormat rpc = fetched
    obtain ⟨output, last⟩ := fetched
    intro second
    cases output with
    | error error => exact second
    | ok output => exact preserved.executeFormats second _ _ _ _ _ _ _

/-- What issuing, aborting and forgetting commands keep is kept by every request. -/
theorem Preserved.perform (preserved : Preserved P) (kept : P session) (request : Request) :
    P (session.perform request).2 := by
  -- A binding has its formats already, and the two last requests are kept by assumption.
  cases request with
  | send classNumber verbNumber payload options => exact preserved.transact kept _ _ _ _ _
  | execute classNumber verbNumber inFormat outFormat args options =>
    exact preserved.executeNamed kept _ _ _ _ _ _ _
  | invoke binding args options => exact preserved.executeFormats kept _ _ _ _ _ _ _
  | abort => exact preserved.abort kept
  | reset => exact preserved.reset kept

end Session

end BoardRpc
