import BoardRpc.Proofs.Except
import BoardRpc.Proofs.Rpc.Formats
import BoardRpc.Proofs.Rpc.Requests

/-! The memo against the transfers of a run: a command is only repeated while the device is known to
have it. -/

namespace BoardRpc

/-- What happened in a run: a command was asked for, a transfer succeeded or failed, or the caller
reset the session or borrowed its link. -/
inductive Mark
  | call (frame : CommandFrame)
  | transfer (transfer : Transfer) (succeeded : Bool)
  | reset
  | lend

namespace Mark

/-- The command that was asked for. -/
def called? : Mark → Option CommandFrame
  | .call frame => some frame
  | _ => none

/-- Whether the device still has the command written last: nothing was transferred, or a read
succeeded. -/
def isQuiet : Mark → Bool
  | .call _ => true
  | .transfer (.read _ _ _) succeeded => succeeded
  | _ => false

/-- Only calls and reads that succeeded are quiet. -/
theorem isQuiet_iff {mark : Mark} : mark.isQuiet = true ↔ (∃ frame, mark = .call frame) ∨
    ∃ maxLength flags timeout, mark = .transfer (.read maxLength flags timeout) true := by
  -- Writes and cancels are not quiet, whatever came of them.
  cases mark with
  | transfer transfer succeeded => cases transfer <;> simp [isQuiet]
  | _ => simp [isQuiet]

end Mark

/-- The command asked for last. -/
def lastCalled? (marks : List Mark) : Option CommandFrame := marks.reverse.findSome? Mark.called?

/-- Of a transfer, only its outcome is of interest here. -/
instance : Note Mark where
  ofAnswered call := .transfer call.transfer call.succeeded

/-- A link together with what happened over it so far, which are not its transfers alone. -/
abbrev Traced (σ : Type) : Type := Recorded Mark σ

/-- The frame of a command with arguments in a format, if they fit it. -/
def frameOf? (classNumber verbNumber : UInt32) (inFormat : Format) (args : List Value) :
    Option CommandFrame :=
  match inFormat.encode args with
  | .ok payload => some ⟨classNumber, verbNumber, payload⟩
  | .error _ => none

/-- The command that a request asks for, if there is one. -/
def Request.frame? : Request → Option CommandFrame
  | .send classNumber verbNumber payload _ => some ⟨classNumber, verbNumber, payload⟩
  | .execute classNumber verbNumber inFormat _ args _ =>
    match Format.parse inFormat with
    | .ok inFormat => frameOf? classNumber verbNumber inFormat args
    | .error _ => none
  | .invoke binding args _ =>
    frameOf? binding.classNumber binding.verbNumber binding.inFormat args
  | .abort | .reset => none

/-- What is noted of a request before it is done. -/
def Request.marks : Request → List Mark
  | .reset => [.reset]
  | request => request.frame?.toList.map .call

/-- What a caller does with a session: a request, or a change of the link that it borrows. -/
inductive Use (σ : Type)
  | request (request : Request)
  | lend (change : σ → σ)

namespace Session

variable {σ : Type}

/-- Notes what happens next. -/
def note (session : Session (Traced σ)) (marks : List Mark) : Session (Traced σ) :=
  { session with link := { session.link with notes := session.link.notes ++ marks } }

/-- Lets a caller do something with a session, and notes what happens. -/
def use [Transport σ] (session : Session (Traced σ)) : Use σ → Session (Traced σ)
  | .request request => ((session.note request.marks).perform request).2
  | .lend change =>
    session.modifyLink fun traced => ⟨change traced.link, traced.notes ++ [.lend]⟩

end Session

/-- The command was the last one written and was taken, and the device has it still. -/
def Standing (frame : CommandFrame) (marks : List Mark) : Prop :=
  ∃ earlier flags timeout quiet,
    marks = earlier ++ .transfer (.write frame.encode flags timeout) true :: quiet ∧
      ∀ mark ∈ quiet, mark.isQuiet = true

/-- Whatever was repeated was the command asked for, and the device had it. -/
def Justified (repeatsCommands : Bool) (marks : List Mark) : Prop :=
  ∀ before after maxLength flags timeout succeeded,
    marks = before ++ .transfer (.read maxLength flags timeout) succeeded :: after →
    flags.repeatLast = true →
    repeatsCommands = true ∧ ∃ frame, lastCalled? before = some frame ∧ Standing frame before

/-- A call is the last one until the next. -/
@[simp] theorem lastCalled?_call (marks : List Mark) (frame : CommandFrame) :
    lastCalled? (marks ++ [.call frame]) = some frame := by
  -- Backwards, it is the first mark.
  simp [lastCalled?, List.findSome?_cons, Mark.called?]

/-- A transfer is no call. -/
@[simp] theorem lastCalled?_transfer (marks : List Mark) (transfer : Transfer) (succeeded : Bool) :
    lastCalled? (marks ++ [.transfer transfer succeeded]) = lastCalled? marks := by
  simp [lastCalled?, List.findSome?_cons, Mark.called?]

/-- A command that was just written and taken is standing. -/
theorem standing_write (marks : List Mark) (frame : CommandFrame) (flags : CommandFlags)
    (timeout : Nat) :
    Standing frame (marks ++ [.transfer (.write frame.encode flags timeout) true]) :=
  ⟨marks, flags, timeout, [], rfl, nofun⟩

/-- A command is standing as long as nothing happens that the device could tell. -/
theorem Standing.append {frame : CommandFrame} {marks others : List Mark}
    (standing : Standing frame marks) (quiet : ∀ mark ∈ others, mark.isQuiet = true) :
    Standing frame (marks ++ others) := by
  -- The write stays where it was, and what is added follows what was quiet before.
  obtain ⟨earlier, flags, timeout, behind, rfl, silent⟩ := standing
  refine ⟨earlier, flags, timeout, behind ++ others, by simp, fun mark found => ?_⟩
  rcases List.mem_append.mp found with here | there
  · exact silent mark here
  · exact quiet mark there

/-- One more mark needs a justification only if it is a read that repeats. -/
theorem Justified.append {repeatsCommands : Bool} {marks : List Mark}
    (justified : Justified repeatsCommands marks) (mark : Mark)
    (reason : ∀ maxLength flags timeout succeeded,
      mark = .transfer (.read maxLength flags timeout) succeeded → flags.repeatLast = true →
      repeatsCommands = true ∧ ∃ frame, lastCalled? marks = some frame ∧ Standing frame marks) :
    Justified repeatsCommands (marks ++ [mark]) := by
  intro before after maxLength flags timeout succeeded trace repeats
  -- The read is the new mark, or one of those before it.
  rcases List.eq_nil_or_concat after with rfl | ⟨between, last, rfl⟩
  · obtain ⟨rfl, same⟩ := List.append_inj' trace rfl
    cases same
    exact reason maxLength flags timeout succeeded rfl repeats
  · rw [List.concat_eq_append, ← List.cons_append, ← List.append_assoc] at trace
    obtain ⟨here, _⟩ := List.append_inj' trace rfl
    exact justified before between maxLength flags timeout succeeded here repeats

/-- A link without a state: it takes every frame and answers nothing. -/
inductive Silent
  | link

instance : Transport Silent where
  write silent _ _ _ := (.ok (), silent)
  read silent _ _ _ := (.ok [], silent)
  cancel silent _ := (.ok (Word.split errnoSize 0), silent)

namespace Session

variable {σ : Type}

/-- A session whose settings are those it began with, whose formats are read right, and which has
repeated nothing without a reason. -/
structure Kept (config : SessionConfig) (session : Session (Traced σ)) : Prop where
  settings : session.config = config
  formats : session.formats.Sound
  justified : Justified config.repeatsCommands session.link.notes

/-- What is remembered is standing. -/
def Remembers (session : Session (Traced σ)) : Prop :=
  ∀ frame, session.memo = some frame → Standing frame session.link.notes

/-- A command is being issued. -/
def Issuing (session : Session (Traced σ)) (frame : CommandFrame) : Prop :=
  lastCalled? session.link.notes = some frame

variable [Transport σ] {config : SessionConfig} {session : Session (Traced σ)}
  {frame : CommandFrame}

/-- A frame that is taken is standing, and one that is not is not remembered. -/
theorem sendFrame_kept (kept : Kept config session) (issuing : session.Issuing frame)
    (options : CallOptions) :
    Kept config (session.sendFrame frame options).2 ∧
      (session.sendFrame frame options).2.Remembers ∧
      (session.sendFrame frame options).2.Issuing frame := by
  obtain ⟨settings, formats, justified⟩ := kept
  -- A write needs no reason, whatever comes of it.
  have after : ∀ flags timeout succeeded, Justified config.repeatsCommands
      (session.link.notes ++ [.transfer (.write frame.encode flags timeout) succeeded]) :=
    fun _ _ _ => justified.append _ fun _ _ _ _ same => by cases same
  unfold sendFrame
  simp only [Transport.write, Note.ofAnswered, Answered.transfer, Answered.succeeded]
  generalize Transport.write session.link.link _ _ _ = result
  obtain ⟨result, link⟩ := result
  cases result with
  | error error =>
    exact ⟨⟨settings, formats, after _ _ _⟩, nofun, (lastCalled?_transfer ..).trans issuing⟩
  | ok =>
    -- Whether the frame is remembered depends on the settings, but nothing else ever is.
    refine ⟨⟨settings, formats, after _ _ _⟩, fun other same => ?_,
      (lastCalled?_transfer ..).trans issuing⟩
    dsimp only at same
    split at same
    · cases same
      exact standing_write ..
    · cases same

/-- A read that succeeds lets what is remembered stand; one that repeats must have a reason. -/
theorem readResponse_kept (kept : Kept config session) (remembers : session.Remembers)
    {repeatLast : Bool} (options : CallOptions)
    (reason : repeatLast = true → config.repeatsCommands = true ∧
      ∃ frame, session.Issuing frame ∧ session.memo = some frame) :
    Kept config (session.readResponse repeatLast options).2 ∧
      ∀ response, (session.readResponse repeatLast options).1 = .ok response →
        (session.readResponse repeatLast options).2.Remembers := by
  obtain ⟨settings, formats, justified⟩ := kept
  -- What is remembered is standing and is the command asked for, which is the reason.
  have after : ∀ maxLength timeout succeeded, Justified config.repeatsCommands
      (session.link.notes ++ [.transfer (.read maxLength { repeatLast } timeout) succeeded]) := by
    refine fun _ _ _ => justified.append _ fun _ _ _ _ same repeats => ?_
    cases same
    obtain ⟨enabled, frame, issuing, remembered⟩ := reason repeats
    exact ⟨enabled, frame, issuing, remembers frame remembered⟩
  unfold readResponse
  simp only [Transport.read, Note.ofAnswered, Answered.transfer, Answered.succeeded]
  generalize Transport.read session.link.link _ _ _ = result
  obtain ⟨result, link⟩ := result
  refine ⟨⟨settings, formats, after _ _ _⟩, fun response succeeded other remembered => ?_⟩
  -- A read that succeeds is quiet, so whatever stood before it stands.
  dsimp only at succeeded
  rw [succeeded]
  exact (remembers other remembered).append (by simp [Mark.isQuiet, Except.isOk, Except.toBool])

/-- What is remembered is standing after an exchange that succeeds. -/
theorem exchange_kept (kept : Kept config session) (remembers : session.Remembers)
    (issuing : session.Issuing frame) (options : CallOptions) :
    Kept config (session.exchange frame options).2 ∧
      ∀ response, (session.exchange frame options).1 = .ok response →
        (session.exchange frame options).2.Remembers := by
  -- An exchange that fails need not keep what it remembers, as it is followed by a cancel or reset.
  unfold exchange
  split
  · -- The memo holds the very command that is being issued.
    rename_i repeats
    simp only [canRepeat, Bool.and_eq_true, beq_iff_eq] at repeats
    refine readResponse_kept kept remembers options fun _ => ⟨?_, frame, issuing, repeats.2⟩
    rw [← kept.settings]
    exact repeats.1.1
  · -- After a write that succeeds, a plain read needs no reason.
    have sent := sendFrame_kept kept issuing options
    revert sent
    generalize session.sendFrame frame options = result
    obtain ⟨result, session⟩ := result
    rintro ⟨kept, remembers, _⟩
    cases result with
    | error error => exact ⟨kept, nofun⟩
    | ok =>
      dsimp only
      split
      · -- Where no response is wanted, the write was all.
        exact ⟨kept, fun _ _ => remembers⟩
      · exact readResponse_kept kept remembers options nofun

/-- Nothing is remembered after a cancel. -/
theorem cancel_kept (kept : Kept config session) :
    Kept config session.cancel.2 ∧ session.cancel.2.memo = none := by
  -- Neither the first cancel nor the second needs a reason.
  have after : ∀ {marks}, Justified config.repeatsCommands marks → ∀ timeout succeeded,
      Justified config.repeatsCommands (marks ++ [.transfer (.cancel timeout) succeeded]) :=
    fun justified _ _ => justified.append _ fun _ _ _ _ same => by cases same
  obtain ⟨settings, formats, justified⟩ := kept
  unfold cancel
  simp only [Transport.cancel, Note.ofAnswered, Answered.transfer, Answered.succeeded]
  generalize Transport.cancel session.link.link _ = result
  obtain ⟨result, link⟩ := result
  have once := after justified session.config.cancelTimeout result.isOk
  cases result with
  | ok response => exact ⟨⟨settings, formats, once⟩, rfl⟩
  | error error =>
    -- The settings say whether there is a second cancel, and the memo is cleared in any case.
    dsimp only
    split
    · exact ⟨⟨settings, formats, once⟩, rfl⟩
    · exact ⟨⟨settings, formats, after once _ _⟩, rfl⟩

/-- Nothing is remembered after an abort. -/
theorem abort_kept (kept : Kept config session) :
    Kept config session.abort.2 ∧ session.abort.2.memo = none := by
  -- Reading the answer changes nothing.
  have cancelled := cancel_kept kept
  unfold abort
  revert cancelled
  generalize session.cancel = result
  obtain ⟨result, session⟩ := result
  intro cancelled
  cases result with
  | error error => exact cancelled
  | ok response =>
    dsimp only
    split <;> exact cancelled

/-- What is remembered after a command is standing: a failed one is followed by a cancel or a
reset. -/
theorem transact_kept (kept : Kept config session) (remembers : session.Remembers)
    {classNumber verbNumber : UInt32} {payload : Bytes}
    (issuing : session.Issuing ⟨classNumber, verbNumber, payload⟩) (options : CallOptions)
    (rpc : String) :
    Kept config (session.transact classNumber verbNumber payload options rpc).2 ∧
      (session.transact classNumber verbNumber payload options rpc).2.Remembers := by
  unfold transact
  dsimp only
  split
  · -- A frame that is too long is refused before any transfer.
    exact ⟨kept, remembers⟩
  · have exchanged := exchange_kept kept remembers issuing options
    revert exchanged
    generalize session.exchange _ options = result
    obtain ⟨result, session⟩ := result
    rintro ⟨kept, remembers⟩
    cases result with
    | ok response => exact ⟨kept, remembers response rfl⟩
    | error cause =>
      dsimp only
      split
      · -- A failure that is signaled is answered by a cancel, which forgets the command.
        have aborted := abort_kept kept
        revert aborted
        generalize session.abort = result
        obtain ⟨result, session⟩ := result
        rintro ⟨kept, forgotten⟩
        have remembers : session.Remembers := fun frame same => by cases forgotten.symm.trans same
        cases result <;> exact ⟨kept, remembers⟩
      · -- Any other failure resets the session.
        exact ⟨⟨kept.settings, kept.formats, kept.justified⟩, nofun⟩

/-- Arguments that fit their format are issued with the command. -/
theorem executeFormats_kept (kept : Kept config session) (remembers : session.Remembers)
    {classNumber verbNumber : UInt32} {inFormat : Format} {args : List Value}
    (issuing : ∀ frame, frameOf? classNumber verbNumber inFormat args = some frame →
      session.Issuing frame) (outFormat : Format) (options : CallOptions) (rpc : String) :
    Kept config
        (session.executeFormats classNumber verbNumber inFormat outFormat args options rpc).2 ∧
      (session.executeFormats classNumber verbNumber inFormat outFormat args options
        rpc).2.Remembers := by
  unfold executeFormats
  unfold frameOf? at issuing
  cases encoded : inFormat.encode args with
  -- Arguments that do not fit are refused before any transfer.
  | error error => exact ⟨kept, remembers⟩
  | ok payload =>
    rw [encoded] at issuing
    have done := transact_kept kept remembers (issuing _ rfl) options rpc
    dsimp only
    revert done
    generalize session.transact classNumber verbNumber payload options rpc = result
    obtain ⟨result, session⟩ := result
    intro done
    cases result <;> exact done

omit [Transport σ] in
/-- Reading a format changes the store only, and reads the text right. -/
theorem fetchFormat_kept (session : Session (Traced σ)) (formats : session.formats.Sound)
    (source rpc : String) :
    ∃ result formats, session.fetchFormat source rpc = (result, { session with formats }) ∧
      formats.Sound ∧ ∀ format, result = .ok format → Format.parse source = .ok format := by
  exact ⟨_, _, fetchFormat_eq formats source rpc, (FormatCache.fetch_sound formats source).2,
    fun format found => mapError_eq_ok.mp found⟩

/-- A command whose formats are texts is issued once they are read. -/
theorem execute_kept (kept : Kept config session) (remembers : session.Remembers)
    {classNumber verbNumber : UInt32} {inFormat outFormat : String} {args : List Value}
    {options : CallOptions}
    (issuing : ∀ frame,
      (Request.execute classNumber verbNumber inFormat outFormat args options).frame? = some frame →
      session.Issuing frame) :
    Kept config (session.execute classNumber verbNumber inFormat outFormat args options).2 ∧
      (session.execute classNumber verbNumber inFormat outFormat args options).2.Remembers := by
  unfold execute executeNamed
  simp only [Request.frame?] at issuing
  obtain ⟨settings, formats, justified⟩ := kept
  obtain ⟨input, formats, fetched, sound, read⟩ :=
    fetchFormat_kept session formats inFormat (commandName classNumber verbNumber)
  rw [fetched]
  cases input with
  | error error => exact ⟨⟨settings, sound, justified⟩, remembers⟩
  | ok input =>
    -- The format from the store is the one that the call's text is read as.
    rw [read input rfl] at issuing
    dsimp only
    obtain ⟨output, formats, fetched, sound, _⟩ := fetchFormat_kept
      { session with formats } sound outFormat (commandName classNumber verbNumber)
    rw [fetched]
    cases output with
    | error error => exact ⟨⟨settings, sound, justified⟩, remembers⟩
    | ok output =>
      have kept : Kept config { session with formats } := ⟨settings, sound, justified⟩
      exact executeFormats_kept kept remembers issuing output options _

omit [Transport σ] in
/-- Calls are noted without any transfer. -/
theorem note_call_kept (kept : Kept config session) (remembers : session.Remembers)
    (called : Option CommandFrame) :
    Kept config (session.note (called.toList.map .call)) ∧
      (session.note (called.toList.map .call)).Remembers ∧
      ∀ frame, called = some frame → (session.note (called.toList.map .call)).Issuing frame := by
  obtain ⟨settings, formats, justified⟩ := kept
  cases called with
  | none =>
    -- Nothing is noted.
    have same : session.note [] = session := by simp [note]
    simp only [Option.toList_none, List.map_nil, same]
    exact ⟨⟨settings, formats, justified⟩, remembers, nofun⟩
  | some frame =>
    -- A call is no read and is quiet, and it is the last one from now on.
    refine ⟨⟨settings, formats, ?_⟩, fun other remembered => ?_, fun other same => ?_⟩
    · exact justified.append _ fun _ _ _ _ same => by cases same
    · exact (remembers other remembered).append (by simp [Mark.isQuiet])
    · cases same
      exact lastCalled?_call ..

omit [Transport σ] in
/-- A session that has forgotten its command keeps its word whatever is noted but transfers. -/
theorem Kept.forget (kept : Kept config session) {mark : Mark} {link : σ}
    (noTransfer : ∀ transfer succeeded, mark ≠ .transfer transfer succeeded) :
    Kept config { session with link := ⟨link, session.link.notes ++ [mark]⟩, memo := none } :=
  ⟨kept.settings, kept.formats,
    kept.justified.append _ fun _ _ _ _ same => absurd same (noTransfer _ _)⟩

/-- Whatever a caller does with a session, nothing is repeated without a reason. -/
theorem use_kept (kept : Kept config session) (remembers : session.Remembers) (use : Use σ) :
    Kept config (session.use use) ∧ (session.use use).Remembers := by
  cases use with
  -- Lending the link and resetting forget the command.
  | lend change => exact ⟨kept.forget nofun, nofun⟩
  | request request =>
    cases request with
    | reset => exact ⟨kept.forget nofun, nofun⟩
    | abort =>
      -- An abort asks for no command, and leaves none in the memo.
      obtain ⟨kept, forgotten⟩ := abort_kept (note_call_kept kept remembers none).1
      exact ⟨kept, fun frame same => by cases forgotten.symm.trans same⟩
    | send classNumber verbNumber payload options =>
      obtain ⟨kept, remembers, issuing⟩ := note_call_kept kept remembers
        (Request.send classNumber verbNumber payload options).frame?
      exact transact_kept kept remembers (issuing _ rfl) options _
    | execute classNumber verbNumber inFormat outFormat args options =>
      obtain ⟨kept, remembers, issuing⟩ := note_call_kept kept remembers
        (Request.execute classNumber verbNumber inFormat outFormat args options).frame?
      exact execute_kept kept remembers issuing
    | invoke binding args options =>
      obtain ⟨kept, remembers, issuing⟩ := note_call_kept kept remembers
        (Request.invoke binding args options).frame?
      exact executeFormats_kept kept remembers issuing _ _ _

/-- Nothing is repeated without a reason in any run. -/
theorem foldl_use_kept (kept : Kept config session) (remembers : session.Remembers)
    (uses : List (Use σ)) :
    Kept config (uses.foldl Session.use session) ∧ (uses.foldl Session.use session).Remembers := by
  -- Each use starts from a session that keeps its word, and leaves it so.
  induction uses generalizing session with
  | nil => exact ⟨kept, remembers⟩
  | cons use others ih =>
    obtain ⟨kept, remembers⟩ := use_kept kept remembers use
    exact ih kept remembers

/-- What happens in a run of a new session. -/
def trace (link : σ) (config : SessionConfig) (uses : List (Use σ)) : List Mark :=
  (uses.foldl Session.use { link := { link }, config }).link.notes

/-- Whenever a session lets the device repeat a command, it was set up to do so, the last frame
that was written is that of the command asked for and was taken, and since then no transfer failed,
no cancel was sent, and nobody reset the session or borrowed its link. -/
theorem repeat_follows_write (link : σ) (config : SessionConfig) (uses : List (Use σ))
    {before after : List Mark} {maxLength timeout : Nat} {flags : CommandFlags} {succeeded : Bool}
    (happened : trace link config uses
      = before ++ .transfer (.read maxLength flags timeout) succeeded :: after)
    (repeats : flags.repeatLast = true) :
    config.repeatsCommands = true ∧ ∃ frame earlier writeFlags writeTimeout quiet,
      lastCalled? before = some frame ∧
      before = earlier ++ .transfer (.write
        (Word.split 4 frame.classNumber.toNat ++ Word.split 4 frame.verbNumber.toNat
          ++ frame.payload) writeFlags writeTimeout) true :: quiet ∧
      ∀ mark ∈ quiet, (∃ other, mark = .call other) ∨
        ∃ limit readFlags readTimeout,
          mark = .transfer (.read limit readFlags readTimeout) true := by
  -- At the start nothing has happened and nothing is remembered.
  have start : Kept config ({ link := { link }, config } : Session (Traced σ)) := by
    refine ⟨rfl, FormatCache.sound_empty, fun before after _ _ _ _ none => ?_⟩
    cases before <;> cases none
  obtain ⟨kept, _⟩ := foldl_use_kept start nofun uses
  -- What was repeated at the end of the run had its reason when it was repeated.
  obtain ⟨enabled, frame, called, earlier, writeFlags, writeTimeout, quiet, written, silent⟩ :=
    kept.justified before after maxLength flags timeout succeeded happened repeats
  exact ⟨enabled, frame, earlier, writeFlags, writeTimeout, quiet, called, written,
    fun mark here => Mark.isQuiet_iff.mp (silent mark here)⟩

/-- A command that is issued twice over a link that works is written once and then repeated. -/
theorem repeat_follows_write_twice : ∃ before frame earlier writeFlags writeTimeout quiet,
    trace Silent.link {} [.request (.send 7 1 [2] {}), .request (.send 7 1 [2] {})]
      = before ++ [.transfer (.read maxCommandSize { repeatLast := true } defaultTimeout) true] ∧
    lastCalled? before = some frame ∧
    before = earlier ++ .transfer (.write
      (Word.split 4 frame.classNumber.toNat ++ Word.split 4 frame.verbNumber.toNat
        ++ frame.payload) writeFlags writeTimeout) true :: quiet := by
  have happened : trace Silent.link {} [.request (.send 7 1 [2] {}), .request (.send 7 1 [2] {})]
      = [.call ⟨7, 1, [2]⟩, .transfer (.write [7, 0, 0, 0, 1, 0, 0, 0, 2] {} defaultTimeout) true,
        .transfer (.read maxCommandSize {} defaultTimeout) true, .call ⟨7, 1, [2]⟩]
      ++ .transfer (.read maxCommandSize { repeatLast := true } defaultTimeout) true :: [] := rfl
  obtain ⟨_, frame, earlier, writeFlags, writeTimeout, quiet, called, written, _⟩ :=
    repeat_follows_write Silent.link {} _ happened rfl
  exact ⟨_, frame, earlier, writeFlags, writeTimeout, quiet, happened, called, written⟩

end Session

end BoardRpc
