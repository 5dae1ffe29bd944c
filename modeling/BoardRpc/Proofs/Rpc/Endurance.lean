import BoardRpc.Proofs.Rpc.Dialogue
import BoardRpc.Proofs.Rpc.Scripts

/-! Endurance: discovery survives whatever the device rejects, and ends where the link is lost. -/

namespace BoardRpc

/-- A query as it was put: how the command was issued, the transfers that it made, and what came of
them. -/
structure Asked where
  query : Query
  issue : Issue
  calls : List Answered
  result : Except RpcError Bytes

/-- A transfer that loses the link: it failed and the device does not signal so, or a cancel was
answered by something other than an error number. -/
def Answered.Severs : Answered → Prop
  | .write _ _ _ (.error cause) | .read _ _ _ (.error cause) => cause ≠ .stalled ∧ cause ≠ .timeout
  | .write _ _ _ (.ok _) | .read _ _ _ (.ok _) => False
  | .cancel _ (.error _) => True
  | .cancel _ (.ok response) => response.length ≠ 4

/-- The failure of a write or a read. -/
def Answered.failure? : Answered → Option LinkError
  | .write _ _ _ (.error cause) | .read _ _ _ (.error cause) => some cause
  | _ => none

namespace Asked

/-- The command came to an error of the link. -/
def Severed (asked : Asked) : Prop :=
  (∃ cause, asked.result = .error (.transport cause)) ∨
    ∃ length, asked.result = .error (.malformedCancel length)

/-- The command was issued as a session issues the query, and made the transfers of its dialogue. -/
structure Proper (σ : Type) (config : SessionConfig) (asked : Asked) : Prop where
  issued : ∃ session : Session σ, session.config = config ∧
    asked.issue = session.issue 0 asked.query.verb.number asked.query.payload {}
      asked.query.verb.rpcName
  dialogue : Dialogue asked.issue asked.calls asked.result

end Asked

/-- How an action ends: while the link holds, in a value or in an error of a tolerated kind; or with
the command that lost the link, whose error is the error of the whole. -/
inductive Ends {α : Type} (tolerated : RpcError → Prop) (commands : List Asked) :
    Except RpcError α → Prop
  | found (a : α) (intact : ∀ asked ∈ commands, ¬ asked.Severed) : Ends tolerated commands (.ok a)
  | refused {error : RpcError} (kind : tolerated error)
      (intact : ∀ asked ∈ commands, ¬ asked.Severed) : Ends tolerated commands (.error error)
  | severed {earlier : List Asked} {last : Asked} {error : RpcError}
      (order : commands = earlier ++ [last]) (intact : ∀ asked ∈ earlier, ¬ asked.Severed)
      (lost : last.Severed) (same : last.result = .error error) :
      Ends tolerated commands (.error error)

/-- A command that lost the link has an error for which no class is left out. -/
theorem Asked.Severed.not_skippable {asked : Asked} (lost : asked.Severed) {error : RpcError}
    (same : asked.result = .error error) : error.isSkippable = false := by
  -- Neither of the two errors of the link is one of the device or of a format.
  rcases lost with ⟨cause, failed⟩ | ⟨length, failed⟩ <;>
    (rw [failed] at same; cases same; rfl)

/-- A command whose error is of the link loses the link; any other error is one that the query may
come to while the link holds. -/
theorem Asked.Proper.severed_or_refused {σ : Type} {config : SessionConfig} {asked : Asked}
    (proper : asked.Proper σ config) {error : RpcError} (outcome : asked.result = .error error) :
    asked.Severed ∨ ¬ asked.Severed ∧ asked.query.Refused error := by
  obtain ⟨query, issue, calls, result⟩ := asked
  obtain ⟨⟨session, _, issued⟩, dialogue⟩ := proper
  dsimp only at issued dialogue outcome
  subst issued outcome
  -- Only the dialogue that ends with the device's error number leaves the link.
  cases dialogue with
  | broken | stuck => exact .inl (.inl ⟨_, rfl⟩)
  | malformed => exact .inl (.inr ⟨_, rfl⟩)
  | failed =>
    refine .inr ⟨?_, .failed _ _⟩
    rintro (⟨_, other⟩ | ⟨_, other⟩) <;> cases other

/-- A command with a response has not lost the link. -/
theorem Asked.not_severed_of_ok {asked : Asked} {response : Bytes}
    -- A response is not an error.
    (answered : asked.result = .ok response) : ¬ asked.Severed := by
  rintro (⟨_, failed⟩ | ⟨_, failed⟩) <;> cases answered.symm.trans failed

/-- The last transfer of an exchange tells whether it lost the link. -/
theorem Exchanged.severs_last {issue : Issue} {calls : List Answered}
    {result : Except LinkError Bytes} (exchanged : Exchanged issue calls result) :
    ∃ front last, calls = front ++ [last] ∧ (∀ call ∈ front, call.failure? = none) ∧
      last.failure? = (match result with | .ok _ => none | .error cause => some cause) ∧
      (last.Severs ↔ ∃ cause, result = .error cause ∧ cause ≠ .stalled ∧ cause ≠ .timeout) := by
  -- Only a write that succeeded is followed by another transfer.
  cases exchanged with
  | unanswered silent answer =>
    refine ⟨[], _, rfl, nofun, ?_⟩
    cases answer <;> simp [Answered.failure?, Answered.Severs, Except.map]
  | repeated heard again =>
    refine ⟨[], _, rfl, nofun, ?_⟩
    cases result <;> simp [Answered.failure?, Answered.Severs]
  | refused heard fresh cause =>
    refine ⟨[], _, rfl, nofun, ?_⟩
    simp [Answered.failure?, Answered.Severs]
  | sent heard fresh =>
    refine ⟨[_], _, rfl, ?_, ?_⟩
    · simp [Answered.failure?]
    · cases result <;> simp [Answered.failure?, Answered.Severs]

/-- The last cancel tells whether the link is lost. -/
theorem Cancelled.severs_last {timeout : Nat} {retries : Prop} {calls : List Answered}
    {answer : Except LinkError Bytes} (cancelled : Cancelled timeout retries calls answer) :
    ∃ front last, calls = front ++ [last] ∧
      (last.Severs ↔ ∀ response, answer = .ok response → response.length ≠ 4) := by
  -- The first of two cancels has failed, and it is the second that gives the answer.
  cases cancelled with
  | once response => exact ⟨[], _, rfl, by simp [Answered.Severs]⟩
  | failed final error => exact ⟨[], _, rfl, by simp [Answered.Severs]⟩
  | retried again error =>
    refine ⟨[_], _, rfl, ?_⟩
    cases answer <;> simp [Answered.Severs]

/-- A command lost the link exactly if its last transfer did. -/
theorem Asked.Proper.severed_iff {asked : Asked} {config : SessionConfig}
    {σ : Type} (proper : asked.Proper σ config) :
    ∃ front last, asked.calls = front ++ [last] ∧ (asked.Severed ↔ last.Severs) := by
  obtain ⟨query, issue, calls, result⟩ := asked
  obtain ⟨_, dialogue⟩ := proper
  have dialogue : Dialogue issue calls result := dialogue
  -- Where there are cancels, the last of them is the last transfer.
  cases dialogue with
  | answered exchanged =>
    obtain ⟨front, last, split, _, _, severs⟩ := exchanged.severs_last
    refine ⟨front, last, split, ?_⟩
    simp [severs, Severed]
  | broken exchanged unsignaled =>
    obtain ⟨front, last, split, _, _, severs⟩ := exchanged.severs_last
    refine ⟨front, last, split, ?_⟩
    simp [severs, Severed, unsignaled]
  | failed exchanged signaled cancelled =>
    -- The exchange has failed, but the cancels behind it make the last transfers.
    obtain ⟨front, last, rfl, severs⟩ := cancelled.severs_last
    refine ⟨_, last, (List.append_assoc ..).symm, ?_⟩
    simp [severs, Severed]
  | malformed exchanged signaled cancelled length =>
    obtain ⟨front, last, rfl, severs⟩ := cancelled.severs_last
    refine ⟨_, last, (List.append_assoc ..).symm, ?_⟩
    simp [severs, Severed, length]
  | stuck exchanged signaled cancelled =>
    obtain ⟨front, last, rfl, severs⟩ := cancelled.severs_last
    refine ⟨_, last, (List.append_assoc ..).symm, ?_⟩
    simp [severs, Severed]

/-- A failure that a command survives is signaled by the device, and the cancel behind it is
answered by an error number. -/
theorem Asked.Proper.survives {asked : Asked} {config : SessionConfig}
    {σ : Type} (proper : asked.Proper σ config) (intact : ¬ asked.Severed) {call : Answered}
    (here : call ∈ asked.calls) {cause : LinkError} (failed : call.failure? = some cause) :
    (cause = .stalled ∨ cause = .timeout) ∧ ∃ before cancels a b c d,
      asked.calls = before ++ call :: cancels ∧
      Cancelled config.cancelTimeout (config.cancelRetryDelay.isSome = true) cancels
        (.ok [a, b, c, d]) := by
  obtain ⟨query, issue, calls, result⟩ := asked
  obtain ⟨⟨session, rfl, issued⟩, dialogue⟩ := proper
  dsimp only at issued dialogue here
  subst issued
  cases dialogue with
  -- These three ways to end lose the link.
  | broken | malformed | stuck => exact absurd (by simp [Severed]) intact
  | answered exchanged =>
    -- No transfer of an exchange that succeeds has failed.
    obtain ⟨front, last, rfl, quiet, ends, _⟩ := exchanged.severs_last
    rcases List.mem_append.mp here with early | final
    · cases (quiet call early).symm.trans failed
    · rw [List.mem_singleton.mp final, ends] at failed
      cases failed
  | failed exchanged signaled cancelled =>
    -- Only the last transfer of the exchange has failed, and the cancels follow it.
    obtain ⟨front, last, rfl, quiet, ends, _⟩ := exchanged.severs_last
    rcases List.mem_append.mp here with early | late
    · rcases List.mem_append.mp early with early | final
      · cases (quiet call early).symm.trans failed
      · obtain rfl := List.mem_singleton.mp final
        rw [ends] at failed
        cases failed
        exact ⟨signaled, front, _, _, _, _, _, List.append_assoc .., cancelled⟩
    · -- A cancel is neither a write nor a read.
      obtain ⟨_, _, rfl⟩ := cancelled.eq_cancel late
      cases failed

section Endings

variable {α : Type} {tolerated : RpcError → Prop} {commands : List Asked}
  {result : Except RpcError α}

/-- Commands that kept the link change nothing about the end of those behind them. -/
theorem Ends.behind (ends : Ends tolerated commands result) {earlier : List Asked}
    (intact : ∀ asked ∈ earlier, ¬ asked.Severed) :
    Ends tolerated (earlier ++ commands) result := by
  have all : ∀ {rest : List Asked}, (∀ asked ∈ rest, ¬ asked.Severed) →
      ∀ asked ∈ earlier ++ rest, ¬ asked.Severed := fun kept =>
    List.forall_mem_append.mpr ⟨intact, kept⟩
  -- A command that lost the link is still the last of all.
  cases ends with
  | found a kept => exact .found a (all kept)
  | refused kind kept => exact .refused kind (all kept)
  | severed order kept lost same =>
    exact .severed (by rw [order, List.append_assoc]) (all kept) lost same

/-- Only the last command may have lost the link. -/
theorem Ends.intact_before (ends : Ends tolerated commands result) :
    ∀ asked ∈ commands.dropLast, ¬ asked.Severed := by
  -- A command that lost the link ends the action.
  intro asked here
  cases ends with
  | found _ intact | refused _ intact => exact intact asked (List.dropLast_subset _ here)
  | severed order intact =>
    rw [order, List.dropLast_concat] at here
    exact intact asked here

/-- Where nothing is tolerated, an error is that of the command that lost the link. -/
theorem Ends.error_of (ends : Ends (fun _ => False) commands result) {error : RpcError}
    (failed : result = .error error) :
    ∃ asked ∈ commands, asked.Severed ∧ asked.result = .error error := by
  -- There is no other way left to end in an error.
  cases ends with
  | found => cases failed
  | refused kind => exact kind.elim
  | severed order intact lost same =>
    cases failed
    exact ⟨_, by rw [order]; exact List.mem_concat_self, lost, same⟩

/-- Where nothing is tolerated, an action fails exactly if a command loses the link. -/
theorem Ends.failed_iff (ends : Ends (fun _ => False) commands result) :
    (∃ error, result = .error error) ↔ ∃ asked ∈ commands, asked.Severed := by
  -- No action comes to a value once the link is lost.
  constructor
  · rintro ⟨error, failed⟩
    obtain ⟨asked, here, lost, _⟩ := ends.error_of failed
    exact ⟨asked, here, lost⟩
  · rintro ⟨asked, here, lost⟩
    cases ends with
    | found _ intact => exact absurd lost (intact asked here)
    | refused kind => exact kind.elim
    | severed => exact ⟨_, rfl⟩

end Endings

section Endurance

variable {σ α β : Type} [Transport σ]

section Transfers

variable {first : Script α} {next : α → Script β} {session between after : Session σ}
  {calls more : List Answered} {found : α}

/-- The second part of a script transfers behind the first, from the session that this one left. -/
theorem Script.does_bind {result : Except RpcError β}
    (one : Session.Does (fun session => first.run session) session calls (.ok found) between)
    (other : Session.Does (fun session => (next found).run session) between more result after) :
    Session.Does (fun session => (first.bind next).run session) session (calls ++ more) result
      after where
  plain := by
    have plain : first.run session = (.ok found, between) := one.plain
    show Script.run _ _ = _
    rw [Script.run_bind, plain]
    exact other.plain
  watched seen := by
    -- What the watch has seen by then includes the transfers of the first part.
    have watched : first.run (session.watch seen) = (.ok found, between.watch (seen ++ calls)) :=
      one.watched seen
    show Script.run _ _ = _
    rw [Script.run_bind, watched, ← List.append_assoc]
    exact other.watched _
  settings := other.settings.trans one.settings

/-- Behind a part that failed nothing is transferred. -/
theorem Script.does_stop (next : α → Script β) {error : RpcError}
    (one : Session.Does (fun session => first.run session) session calls (.error error) after) :
    Session.Does (fun session => (first.bind next).run session) session calls (.error error)
      after where
  plain := by
    have plain : first.run session = (.error error, after) := one.plain
    show Script.run _ _ = _
    rw [Script.run_bind, plain]
  watched seen := by
    have watched : first.run (session.watch seen) = (.error error, after.watch (seen ++ calls)) :=
      one.watched seen
    show Script.run _ _ = _
    rw [Script.run_bind, watched]
  settings := one.settings

/-- Leaving a part out changes what it comes to, and neither the transfers nor the session. -/
theorem Script.does_skip {part : Script (Option α)} {result : Except RpcError (Option α)}
    (one : Session.Does (fun session => part.run session) session calls result after) :
    Session.Does (fun session => part.skip.run session) session calls (leftOut result) after where
  plain := by
    have plain : part.run session = (result, after) := one.plain
    show Script.run _ _ = _
    rw [Script.run_skip, plain]
  watched seen := by
    have watched : part.run (session.watch seen) = (result, after.watch (seen ++ calls)) :=
      one.watched seen
    show Script.run _ _ = _
    rw [Script.run_skip, watched]
  settings := one.settings

end Transfers

/-- What a script does from a session on: it puts queries, each in its dialogue, makes no other
transfers, and ends as it should. -/
structure Performs (tolerated : RpcError → Prop) (script : Script α) (session : Session σ)
    (commands : List Asked) (result : Except RpcError α) (after : Session σ) : Prop where
  does : Session.Does (fun session => script.run session) session (commands.flatMap Asked.calls)
    result after
  sound : after.formats.Sound
  proper : ∀ asked ∈ commands, asked.Proper σ session.config
  ends : Ends tolerated commands result

variable {tolerated : RpcError → Prop}

/-- A question is one query, and only the loss of the link is not among the errors of a query. -/
theorem performs_ask (question : Question α)
    (tolerates : ∀ {error}, question.query.Refused error → tolerated error) {session : Session σ}
    (sound : session.formats.Sound) : ∃ asked result after, asked.query = question.query ∧
      Performs tolerated (.ask question) session [asked] result after := by
  obtain ⟨calls, result, after, ⟨plain, watched, settings⟩, dialogue, _⟩ :=
    Session.transact_does (session.prepare question.query) 0 question.query.verb.number {}
      question.query.verb.rpcName question.query.payload_fits
  have plain : session.ask question.query = (result, after) := plain
  -- The one command is issued from the session that has read the formats.
  let asked : Asked := ⟨question.query, (session.prepare question.query).issue 0
    question.query.verb.number question.query.payload {} question.query.verb.rpcName, calls, result⟩
  have proper : asked.Proper σ session.config :=
    ⟨⟨session.prepare question.query, rfl, rfl⟩, dialogue⟩
  -- There is one command, so what holds of it holds of all.
  have single : ∀ {P : Asked → Prop}, P asked → ∀ other ∈ [asked], P other := by
    intro P holds other here
    rw [List.mem_singleton.mp here]
    exact holds
  have transfers : [asked].flatMap Asked.calls = calls := List.append_nil _
  refine ⟨asked, result.bind question.hear, after, rfl, ⟨?_, fun seen => ?_, settings⟩, ?_,
    single proper, ?_⟩
  · show Script.run _ _ = _
    rw [Script.run_ask sound, plain]
  · -- A watch does not notice that formats are read before the command is issued.
    have watched : (session.watch seen).ask question.query
        = (result, after.watch (seen ++ calls)) := watched seen
    have watchedSound : (session.watch seen).formats.Sound := sound
    show Script.run _ _ = _
    rw [Script.run_ask watchedSound, watched, transfers]
  · have kept := Session.ask_sound sound question.query
    rwa [plain] at kept
  · cases result with
    | ok response =>
      have intact : ∀ other ∈ [asked], ¬ other.Severed := single (Asked.not_severed_of_ok rfl)
      rw [Except.bind]
      cases heard : question.hear response with
      | ok found => exact .found found intact
      | error error => exact .refused (tolerates (Question.hear_refused heard)) intact
    | error error =>
      rcases proper.severed_or_refused rfl with lost | ⟨intact, refused⟩
      · exact .severed (List.nil_append [asked]).symm nofun lost rfl
      · exact .refused (tolerates refused) (single intact)

/-- A part that found something is followed by the rest of the script, whose queries come behind its
own. -/
theorem Performs.bind {first : Script α} {next : α → Script β} {session between after : Session σ}
    {commands more : List Asked} {found : α} {result : Except RpcError β}
    (one : Performs tolerated first session commands (.ok found) between)
    (other : Performs tolerated (next found) between more result after) :
    Performs tolerated (.bind first next) session (commands ++ more) result after where
  does := by
    rw [List.flatMap_append]
    exact Script.does_bind one.does other.does
  sound := other.sound
  proper asked here := by
    -- Queries do not change the settings that the dialogues depend on.
    rcases List.mem_append.mp here with early | late
    · exact one.proper asked early
    · rw [← one.does.settings]
      exact other.proper asked late
  ends := by
    -- No command of the first part lost the link, as it found something.
    cases one.ends with
    | found _ intact => exact other.ends.behind intact

/-- A part that failed is followed by nothing. -/
theorem Performs.stop {first : Script α} (next : α → Script β) {session after : Session σ}
    {commands : List Asked} {error : RpcError}
    (one : Performs tolerated first session commands (.error error) after) :
    Performs tolerated (.bind first next) session commands (.error error) after where
  does := Script.does_stop next one.does
  sound := one.sound
  proper := one.proper
  -- The error is that of the first part, which may have lost the link or been refused.
  ends := by
    cases one.ends with
    | refused kind intact => exact .refused kind intact
    | severed order intact lost same => exact .severed order intact lost same

/-- Where a part may be left out, only the loss of the link is an error. Nothing is transferred by
leaving it out. -/
theorem Performs.skip {part : Script (Option α)} {session after : Session σ}
    {commands : List Asked} {result : Except RpcError (Option α)}
    (performed : Performs (·.isSkippable = true) part session commands result after) :
    Performs tolerated part.skip session commands (Script.leftOut result) after where
  does := Script.does_skip performed.does
  sound := performed.sound
  proper := performed.proper
  ends := by
    cases performed.ends with
    | found a intact => exact .found a intact
    | refused kind intact =>
      -- What is refused is left out, and nothing is found of it.
      rw [Script.leftOut, if_pos kind]
      exact .found none intact
    | severed order intact lost same =>
      -- The error of the command is not one for which a part is left out.
      rw [Script.leftOut, lost.not_skippable same]
      exact .severed order intact lost same

/-- From every session a script puts queries and nothing else, and any error but the loss of the
link is one that it rejects with. -/
theorem Script.performs (script : Script α)
    (tolerates : ∀ {error}, script.Rejects error → tolerated error) {session : Session σ}
    (sound : session.formats.Sound) :
    ∃ commands result after, Performs tolerated script session commands result after := by
  induction script generalizing tolerated session with
  | known result skips =>
    -- There are no commands, and the session stays as it is.
    refine ⟨[], result, session, ⟨rfl, fun seen => ?_, rfl⟩, sound, nofun, ?_⟩
    · rw [List.flatMap_nil, List.append_nil]
      rfl
    · cases result with
      | ok found => exact .found found nofun
      | error error => exact .refused (tolerates rfl) nofun
  | ask question =>
    obtain ⟨asked, result, after, _, performed⟩ := performs_ask question tolerates sound
    exact ⟨[asked], result, after, performed⟩
  | bind first next ih ihNext =>
    obtain ⟨commands, result, between, performed⟩ := ih (fun early => tolerates (.inl early)) sound
    cases result with
    | error error => exact ⟨commands, _, between, performed.stop next⟩
    | ok found =>
      obtain ⟨more, result, after, behind⟩ :=
        ihNext found (fun late => tolerates (.inr ⟨found, late⟩)) performed.sound
      exact ⟨commands ++ more, result, after, performed.bind behind⟩
  | skip part ih =>
    obtain ⟨commands, _, after, performed⟩ := ih Rejects.skippable sound
    exact ⟨commands, _, after, performed.skip⟩

omit [Transport σ] in
/-- Going through the classes ends in no error but the loss of the link. -/
theorem Script.not_rejects_ofClasses (config : DiscoveryConfig) (api : ApiCollection)
    (classes : List UInt32) {error : RpcError} :
    ¬ (ofClasses config api classes).Rejects error := by
  -- By induction on the classes that are left, as each may be left out.
  induction classes generalizing api with
  | nil => nofun
  | cons classNumber rest ih =>
    -- The class that is first in the list may be left out, so that only the others could reject.
    rintro (first | ⟨found, behind⟩)
    · exact first
    · cases found with
      | some descriptor => exact ih (api.insert descriptor) behind
      | none => exact ih api behind

/-- How discovery goes: the classes cannot be listed, and nothing else is asked; or they can, and
what is asked behind that ends in a value, or in the loss of the link. -/
inductive Discovers (session : Session σ) (first : Asked) (later : List Asked) :
    Except RpcError ApiCollection → Prop
  | unlisted {cause : RpcError}
      (listing : (Core.getAvailableClasses session).1 = .error cause) (alone : later = []) :
      Discovers session first later (.error (.discovery "listing classes" cause))
  | listed {classes : List UInt32} {result : Except RpcError ApiCollection}
      (listing : (Core.getAvailableClasses session).1 = .ok classes) (start : ¬ first.Severed)
      (ends : Ends (fun _ => False) later result) : Discovers session first later result

/-- From every session discovery lists the classes by one query, and makes no transfers but those of
the queries that it puts. -/
theorem discover_does (settings : DiscoveryConfig) {session : Session σ}
    (sound : session.formats.Sound) : ∃ first later result after, first.query = .classes ∧
      Session.Does (fun session => discover settings session) session
        ((first :: later).flatMap Asked.calls) result after ∧
      (∀ asked ∈ first :: later, asked.Proper σ session.config) ∧
      Discovers session first later result := by
  -- The listing is a question as well, and its error gets the name of the stage.
  obtain ⟨core, known⟩ := withCore_isOk
  obtain ⟨first, listed, between, query, listing⟩ :=
    performs_ask (.words .classes rfl) Query.Refused.skippable sound
  have plain : Core.getAvailableClasses session = (listed, between) := listing.does.plain
  have watched : ∀ seen, Core.getAvailableClasses (session.watch seen)
      = (listed, between.watch (seen ++ [first].flatMap Asked.calls)) := listing.does.watched
  cases listed with
  | error cause =>
    -- Nothing is asked once the classes cannot be listed.
    refine ⟨first, [], .error (.discovery "listing classes" cause), between, query,
      ⟨?_, fun seen => ?_, listing.does.settings⟩, listing.proper, .unlisted (by rw [plain]) rfl⟩
    · rw [discover_apply known, plain]
    · rw [discover_apply known, watched]
  | ok classes =>
    have unrejected : ∀ {error}, (Script.ofClasses settings core classes).Rejects error → False :=
      Script.not_rejects_ofClasses settings core classes
    obtain ⟨later, result, after, rest⟩ := Script.performs _ unrejected listing.sound
    -- A listing that found something has not lost the link.
    have start : ¬ first.Severed := by
      cases listing.ends with
      | found _ intact => exact intact first (List.mem_singleton.mpr rfl)
    refine ⟨first, later, result, after, query,
      ⟨?_, fun seen => ?_, rest.does.settings.trans listing.does.settings⟩, fun asked here => ?_,
      .listed (by rw [plain]) start rest.ends⟩
    · rw [discover_apply known, plain]
      exact rest.does.plain
    · -- The transfers of the queries follow those of the listing.
      have behind := rest.does.watched (seen ++ [first].flatMap Asked.calls)
      rw [List.append_assoc, ← List.flatMap_append] at behind
      rw [discover_apply known, watched]
      exact behind
    · -- The settings of the session are the same for all of the queries.
      rcases List.mem_cons.mp here with rfl | behind
      · exact listing.proper _ (List.mem_singleton.mpr rfl)
      · rw [← listing.does.settings]
        exact rest.proper asked behind

section Discoveries

variable {session : Session σ} {first : Asked} {later : List Asked}
  {result : Except RpcError ApiCollection}

/-- Discovery fails exactly if the classes cannot be listed, or if a query behind that loses the
link. -/
theorem Discovers.failed_iff (discovers : Discovers session first later result) :
    (∃ error, result = .error error) ↔
      (∃ error, (Core.getAvailableClasses session).1 = .error error) ∨
        ∃ asked ∈ later, asked.Severed := by
  cases discovers with
  | unlisted listing => exact ⟨fun _ => .inl ⟨_, listing⟩, fun _ => ⟨_, rfl⟩⟩
  | listed listing _ ends =>
    -- Only the second way to fail is left.
    have found : ¬ ∃ error, (Core.getAvailableClasses session).1 = .error error := by
      rintro ⟨error, failed⟩
      cases listing.symm.trans failed
    rw [or_iff_right found]
    exact ends.failed_iff

/-- The error of discovery is that of the listing, or that of the query that lost the link. -/
theorem Discovers.error_of (discovers : Discovers session first later result) {error : RpcError}
    (failed : result = .error error) :
    (∃ cause, (Core.getAvailableClasses session).1 = .error cause ∧ later = [] ∧
        error = .discovery "listing classes" cause) ∨
      ∃ asked ∈ later, asked.Severed ∧ asked.result = .error error := by
  cases discovers with
  -- Here nothing has been asked behind the listing.
  | unlisted listing alone =>
    cases failed
    exact .inl ⟨_, listing, alone, rfl⟩
  | listed _ _ ends => exact .inr (ends.error_of failed)

/-- No query follows one that lost the link. -/
theorem Discovers.intact_before (discovers : Discovers session first later result) :
    ∀ asked ∈ (first :: later).dropLast, ¬ asked.Severed := by
  intro asked here
  cases discovers with
  | unlisted _ alone =>
    -- There is only one query.
    rw [alone] at here
    cases here
  | listed _ start ends =>
    -- The first query is not the one that lost the link, and neither is any before the last.
    cases later with
    | nil => cases here
    | cons second others =>
      rw [List.dropLast_cons_cons] at here
      rcases List.mem_cons.mp here with rfl | behind
      · exact start
      · exact ends.intact_before asked behind

end Discoveries

/-- Over any link and after anything that was done with the session, discovery puts queries to the
device and makes no other transfer. It fails exactly if the classes cannot be listed, or if one of
the queries behind that loses the link, and then with the error of that query; no query follows one
that lost the link. A query loses the link exactly if its last transfer is a write or a read that
failed without a signal of the device, or a cancel that was not answered by four bytes. Every other
write or read that failed was signaled, and the cancel behind it was answered by four bytes. -/
theorem discover_endures (link : σ) (config : SessionConfig) (uses : List (Use σ))
    (settings : DiscoveryConfig) : ∃ session first later result after,
      session = Session.past link config uses ∧
      discover settings session = (result, after) ∧
      (∀ seen, discover settings (session.watch seen)
        = (result, after.watch (seen ++ (first :: later).flatMap Asked.calls))) ∧
      first.query = .classes ∧ (∀ asked ∈ first :: later, asked.Proper σ config) ∧
      ((∃ error, result = .error error) ↔
        (∃ error, (Core.getAvailableClasses session).1 = .error error) ∨
          ∃ asked ∈ later, asked.Severed) ∧
      (∀ error, result = .error error →
        (∃ cause, (Core.getAvailableClasses session).1 = .error cause ∧ later = [] ∧
          error = .discovery "listing classes" cause) ∨
        ∃ asked ∈ later, asked.Severed ∧ asked.result = .error error) ∧
      (∀ asked ∈ (first :: later).dropLast, ¬ asked.Severed) ∧
      (∀ asked ∈ first :: later, ∃ front last,
        asked.calls = front ++ [last] ∧ (asked.Severed ↔ last.Severs)) ∧
      (∀ asked ∈ first :: later, ¬ asked.Severed → ∀ call ∈ asked.calls, ∀ cause,
        call.failure? = some cause → (cause = .stalled ∨ cause = .timeout) ∧
          ∃ before cancels a b c d, asked.calls = before ++ call :: cancels ∧
            Cancelled config.cancelTimeout (config.cancelRetryDelay.isSome = true) cancels
              (.ok [a, b, c, d])) := by
  have sound := Session.past_sound link config uses
  have kept : (Session.past link config uses).config = config :=
    Session.past_config link config uses
  generalize Session.past link config uses = session at sound kept
  subst kept
  obtain ⟨first, later, result, after, query, ⟨plain, watched, _⟩, proper, discovers⟩ :=
    discover_does settings sound
  -- What a single query does is told by its dialogue.
  refine ⟨session, first, later, result, after, rfl, plain, watched, query, proper,
    discovers.failed_iff, fun error => discovers.error_of, discovers.intact_before, ?_, ?_⟩
  · intro asked here
    exact (proper asked here).severed_iff
  · intro asked here intact call there cause failed
    exact (proper asked here).survives intact there failed

end Endurance

end BoardRpc
