import BoardRpc.Proofs.Link.Loopback
import BoardRpc.Proofs.Rpc.Requests

/-! Repeating commands changes nothing that a caller or a device can tell. -/

namespace BoardRpc

/-- A device together with the commands that it was asked to execute so far, in order. -/
structure Logged (δ : Type) where
  device : δ
  calls : List CommandFrame := []

/-- Every command is noted and passed on. -/
instance [CommandHandler δ] : CommandHandler (Logged δ) where
  handle logged classNumber verbNumber payload :=
    let (result, device) := CommandHandler.handle logged.device classNumber verbNumber payload
    (result, ⟨device, logged.calls ++ [⟨classNumber, verbNumber, payload⟩]⟩)

namespace Session

variable {δ : Type}

/-- A session that repeats commands and one that sends each of them, over devices that differ in
their counts only: what the first remembers is what its device has stored. -/
structure Alike (repeating sending : Session (Loopback δ)) : Prop where
  repeats : repeating.config.repeatsCommands = true
  config : sending.config = { repeating.config with repeatsCommands := false }
  formats : sending.formats = repeating.formats
  link : repeating.link.Same sending.link
  unfailing : repeating.link.failures = []
  forgotten : sending.memo = none
  stored : ∀ frame, repeating.memo = some frame → repeating.link.lastFrame = some frame

/-- One result, and sessions that are alike behind it. -/
def Matched (x y : α × Session (Loopback δ)) : Prop :=
  ∃ result repeating sending, x = (result, repeating) ∧ y = (result, sending) ∧
    Alike repeating sending

namespace Alike

variable {a b : Session (Loopback δ)}

/-- No failure is bound for the device of the session that sends. -/
theorem sending_unfailing (alike : Alike a b) : b.link.failures = [] := by
  -- The devices differ in their counts only.
  obtain ⟨_, same⟩ := alike.link
  rw [same]
  exact alike.unfailing

/-- The session that sends every command repeats none. -/
theorem sends (alike : Alike a b) : b.config.repeatsCommands = false := by
  rw [alike.config]

/-- Responses are limited alike. -/
theorem responseLimit (alike : Alike a b) (options : CallOptions) :
    b.responseLimit options = a.responseLimit options := by
  -- The settings differ in nothing that limits responses.
  rw [Session.responseLimit, alike.config]
  rfl

/-- Sessions stay alike when both links change alike and the same frame, or none, is stored. -/
theorem relink (alike : Alike a b) {linkA linkB : Loopback δ} (link : linkA.Same linkB)
    (unfailing : linkA.failures = []) {memo : Option CommandFrame}
    (stored : ∀ frame, memo = some frame → linkA.lastFrame = some frame) :
    Alike { a with link := linkA, memo } { b with link := linkB, memo := none } :=
  ⟨alike.repeats, alike.config, alike.formats, link, unfailing, rfl, stored⟩

/-- Sessions that are reset are alike still. -/
theorem reset (alike : Alike a b) : Alike a.reset b.reset :=
  alike.relink alike.link alike.unfailing nofun

/-- Formats are read alike, and kept alike. -/
theorem fetchFormat (alike : Alike a b) (source rpc : String) :
    Matched (a.fetchFormat source rpc) (b.fetchFormat source rpc) := by
  -- Both stores are the same, and nothing else is touched.
  unfold Session.fetchFormat
  rw [alike.formats]
  split <;> exact ⟨_, _, _, rfl, rfl, alike.repeats, alike.config, rfl, alike.link,
    alike.unfailing, alike.forgotten, alike.stored⟩

variable [CommandHandler δ]

/-- A command that both send is stored where it is remembered. -/
theorem sendFrame (alike : Alike a b) (frame : CommandFrame) (options : CallOptions) :
    Matched (a.sendFrame frame options) (b.sendFrame frame options) := by
  unfold Session.sendFrame
  simp only [Transport.write, Loopback.unlessFailing_none alike.unfailing,
    Loopback.unlessFailing_none alike.sending_unfailing, alike.responseLimit]
  generalize ({ skipResponse := a.responseLimit options == 0 } : CommandFlags) = flags
  -- The devices take or refuse the frame alike, and store it if they take it.
  obtain ⟨same, link⟩ := alike.link.performWrite frame.encode flags
  obtain ⟨unfailing, stored⟩ := Loopback.performWrite_keeps a.link frame flags
  rw [alike.unfailing] at unfailing
  revert same link unfailing stored
  generalize a.link.performWrite frame.encode flags = x
  generalize b.link.performWrite frame.encode flags = y
  obtain ⟨result, linkA⟩ := x
  obtain ⟨_, linkB⟩ := y
  rintro rfl link unfailing stored
  cases result with
  | error error => exact ⟨_, _, _, rfl, rfl, alike.relink link unfailing nofun⟩
  | ok =>
    -- One session remembers the frame, and the other nothing.
    simp only [alike.repeats, alike.sends, if_true, Bool.false_eq_true, if_false]
    refine ⟨_, _, _, rfl, rfl, alike.relink link unfailing fun other same => ?_⟩
    cases same
    exact stored rfl

/-- Reads that agree keep sessions alike, as they leave what is stored. -/
theorem read (alike : Alike a b) {linkB : Loopback δ} {maxLength : Nat}
    {flags others : CommandFlags}
    (agree : Loopback.Agree (a.link.performRead maxLength flags)
      (linkB.performRead maxLength others)) :
    Matched ((a.link.performRead maxLength flags).map id fun link => { a with link })
      ((linkB.performRead maxLength others).map id fun link => { b with link, memo := none }) := by
  -- The stored frame outlives the read, so what is remembered is stored still.
  obtain ⟨same, link⟩ := agree
  obtain ⟨stored, unfailing⟩ := Loopback.performRead_keeps a.link maxLength flags
  exact ⟨_, _, _, rfl, Prod.ext same.symm rfl, alike.relink link (unfailing.trans alike.unfailing)
    fun frame same => stored.trans (alike.stored frame same)⟩

/-- Nothing is remembered or forgotten by a read. -/
theorem readResponse (alike : Alike a b) (options : CallOptions) :
    Matched (a.readResponse false options) (b.readResponse false options) := by
  -- A plain read is answered alike, and the session that sends remembers nothing before or after.
  have matched := alike.read (alike.link.performRead (a.responseLimit options) {})
  rw [← alike.forgotten] at matched
  unfold Session.readResponse
  simp only [Transport.read, Loopback.unlessFailing_none alike.unfailing,
    Loopback.unlessFailing_none alike.sending_unfailing, alike.responseLimit]
  exact matched

/-- A command is repeated by one session where the other sends it. -/
theorem repeated (alike : Alike a b) {frame : CommandFrame} {options : CallOptions}
    (fits : frame.size ≤ maxCommandSize) (limit : a.responseLimit options ≠ 0)
    (remembered : a.memo = some frame) :
    ∃ sent, b.sendFrame frame options = (.ok (), sent) ∧
      sent.responseLimit options = a.responseLimit options ∧
      Matched (a.readResponse true options) (sent.readResponse false options) := by
  -- What is remembered is stored, so the read executes what the other session sends.
  obtain ⟨executed, written, agree⟩ := Loopback.performRead_repeat alike.link
    (alike.stored frame remembered) fits (a.responseLimit options)
  have unfailing : executed.failures = [] := by
    have kept := (Loopback.performWrite_keeps b.link frame {}).1
    rw [written] at kept
    exact kept.trans alike.sending_unfailing
  refine ⟨{ b with link := executed, memo := none }, ?_, alike.responseLimit options, ?_⟩
  · have flags : (a.responseLimit options == 0) = false := by simpa using limit
    simp only [Session.sendFrame, Transport.write,
      Loopback.unlessFailing_none alike.sending_unfailing, alike.responseLimit, flags, written,
      alike.sends, Bool.false_eq_true, if_false]
  · have matched := alike.read agree
    have same : Session.responseLimit { b with link := executed, memo := none } options
      = a.responseLimit options := alike.responseLimit options
    simp only [Session.readResponse, Transport.read, Loopback.unlessFailing_none alike.unfailing,
      Loopback.unlessFailing_none unfailing, same]
    exact matched

/-- The transfers of a command have one result. -/
theorem exchange (alike : Alike a b) {frame : CommandFrame} (fits : frame.size ≤ maxCommandSize)
    (options : CallOptions) : Matched (a.exchange frame options) (b.exchange frame options) := by
  -- Only one of the sessions may repeat, so there are two cases and not four.
  have sends : b.canRepeat frame options = false := by simp [canRepeat, alike.sends]
  simp only [Session.exchange, sends, Bool.false_eq_true, if_false]
  by_cases repeats : a.canRepeat frame options
  · -- The memo holds the frame, so the device has stored it.
    rw [if_pos repeats]
    simp only [canRepeat, Bool.and_eq_true, bne_iff_ne, beq_iff_eq] at repeats
    obtain ⟨⟨_, limit⟩, remembered⟩ := repeats
    obtain ⟨sent, written, sameLimit, matched⟩ := alike.repeated fits limit remembered
    rw [written]
    dsimp only
    rw [sameLimit, if_neg limit]
    exact matched
  · -- Both send the frame, and read unless no response is wanted.
    rw [if_neg repeats]
    obtain ⟨result, sentA, sentB, left, right, alike⟩ := alike.sendFrame frame options
    rw [left, right]
    cases result with
    | error error => exact ⟨_, _, _, rfl, rfl, alike⟩
    | ok =>
      dsimp only
      rw [alike.responseLimit]
      split
      · exact ⟨_, _, _, rfl, rfl, alike⟩
      · exact alike.readResponse options

/-- After a cancel nothing is remembered. -/
theorem cancel (alike : Alike a b) : Matched a.cancel b.cancel := by
  -- A cancel always succeeds, so there is no second one.
  obtain ⟨same, link⟩ := alike.link.performCancel
  unfold Session.cancel
  simp only [Transport.cancel, Loopback.unlessFailing_none alike.unfailing,
    Loopback.unlessFailing_none alike.sending_unfailing]
  refine ⟨_, _, _, rfl, Prod.ext same.symm rfl, alike.relink link alike.unfailing
    fun _ same => by cases same⟩

/-- Aborting tells one error number. -/
theorem abort (alike : Alike a b) : Matched a.abort b.abort := by
  -- The answer is one, and so is what it is read as.
  obtain ⟨result, endedA, endedB, left, right, alike⟩ := alike.cancel
  rw [Session.abort, Session.abort, left, right]
  cases result with
  | error error => exact ⟨_, _, _, rfl, rfl, alike⟩
  | ok response =>
    dsimp only
    split <;> exact ⟨_, _, _, rfl, rfl, alike⟩

/-- Issuing a command tells one response or one error, in which failures are cancelled alike. -/
theorem transact (alike : Alike a b) (classNumber verbNumber : UInt32) (payload : Bytes)
    (options : CallOptions) (rpc : String) :
    Matched (a.transact classNumber verbNumber payload options rpc)
      (b.transact classNumber verbNumber payload options rpc) := by
  unfold Session.transact
  dsimp only
  split
  · exact ⟨_, _, _, rfl, rfl, alike⟩
  · rename_i fits
    obtain ⟨result, doneA, doneB, left, right, alike⟩ :=
      alike.exchange (Nat.le_of_not_lt fits) options
    rw [left, right]
    cases result with
    | ok response => exact ⟨_, _, _, rfl, rfl, alike⟩
    | error cause =>
      -- One failure is signaled in both runs or in neither.
      dsimp only
      split
      · obtain ⟨result, endedA, endedB, left, right, alike⟩ := alike.abort
        rw [left, right]
        cases result <;> exact ⟨_, _, _, rfl, rfl, alike⟩
      · exact ⟨_, _, _, rfl, rfl, alike.reset⟩

/-- Arguments and replies are the business of the formats, which are the same. -/
theorem executeFormats (alike : Alike a b) (classNumber verbNumber : UInt32)
    (inFormat outFormat : Format) (args : List Value) (options : CallOptions) (rpc : String) :
    Matched (a.executeFormats classNumber verbNumber inFormat outFormat args options rpc)
      (b.executeFormats classNumber verbNumber inFormat outFormat args options rpc) := by
  unfold Session.executeFormats
  -- Arguments that do not fit are refused in both runs, before any transfer.
  split
  · exact ⟨_, _, _, rfl, rfl, alike⟩
  · obtain ⟨result, doneA, doneB, left, right, alike⟩ :=
      alike.transact classNumber verbNumber _ options rpc
    rw [left, right]
    cases result <;> exact ⟨_, _, _, rfl, rfl, alike⟩

/-- Formats that are given as texts are read first. -/
theorem execute (alike : Alike a b) (classNumber verbNumber : UInt32) (inFormat outFormat : String)
    (args : List Value) (options : CallOptions) :
    Matched (a.execute classNumber verbNumber inFormat outFormat args options)
      (b.execute classNumber verbNumber inFormat outFormat args options) := by
  unfold Session.execute Session.executeNamed
  -- The store may change with each text that is read, and stays the same in both runs.
  obtain ⟨result, a, b, left, right, alike⟩ :=
    alike.fetchFormat inFormat (commandName classNumber verbNumber)
  rw [left, right]
  cases result with
  | error error => exact ⟨_, _, _, rfl, rfl, alike⟩
  | ok inFormat =>
    dsimp only
    obtain ⟨result, a, b, left, right, alike⟩ :=
      alike.fetchFormat outFormat (commandName classNumber verbNumber)
    rw [left, right]
    cases result with
    | error error => exact ⟨_, _, _, rfl, rfl, alike⟩
    | ok outFormat =>
      exact alike.executeFormats classNumber verbNumber inFormat outFormat args options _

end Alike

/-- A result that is wrapped is one result still. -/
theorem Matched.map {x y : α × Session (Loopback δ)} (matched : Matched x y) (wrap : α → β) :
    Matched (x.map wrap id) (y.map wrap id) := by
  obtain ⟨result, a, b, rfl, rfl, alike⟩ := matched
  exact ⟨_, _, _, rfl, rfl, alike⟩

variable [CommandHandler δ] {a b : Session (Loopback δ)}

/-- Every request has one outcome, and leaves sessions alike. -/
theorem Alike.perform (alike : Alike a b) (request : Request) :
    Matched (a.perform request) (b.perform request) := by
  -- Each outcome wraps the result of what was requested.
  cases request with
  | send classNumber verbNumber payload options =>
    exact (alike.transact classNumber verbNumber payload options _).map Outcome.response
  | execute classNumber verbNumber inFormat outFormat args options =>
    exact (alike.execute classNumber verbNumber inFormat outFormat args options).map Outcome.reply
  | invoke binding args options =>
    exact (alike.executeFormats binding.classNumber binding.verbNumber binding.inFormat
      binding.outFormat args (options.orElse binding.defaults) binding.name).map Outcome.reply
  | abort => exact alike.abort.map Outcome.errno
  | reset => exact ⟨_, _, _, rfl, rfl, alike.reset⟩

/-- Every run has the same outcomes, and leaves sessions alike. -/
theorem Alike.run (alike : Alike a b) (requests : List Request) :
    Matched (a.run requests) (b.run requests) := by
  -- Each request starts from sessions that the ones before it left alike.
  induction requests generalizing a b with
  | nil => exact ⟨_, _, _, rfl, rfl, alike⟩
  | cons request others ih =>
    obtain ⟨outcome, nextA, nextB, left, right, next⟩ := alike.perform request
    obtain ⟨outcomes, lastA, lastB, restLeft, restRight, last⟩ := ih next
    simp only [Session.run, left, right, restLeft, restRight]
    exact ⟨_, _, _, rfl, rfl, last⟩

/-- A new session over a device in any state, without failures to come. -/
def fresh (loopback : Loopback δ) (config : SessionConfig) (repeatsCommands : Bool) :
    Session (Loopback δ) :=
  { link := { loopback with failures := [] }, config := { config with repeatsCommands } }

/-- Whether commands are repeated makes no difference to the outcomes of any run, nor to the calls
that the device's handler gets, nor to the state that it ends in. -/
theorem run_repeating (loopback : Loopback (Logged δ)) (config : SessionConfig)
    (requests : List Request) :
    ((fresh loopback config true).run requests).1 = ((fresh loopback config false).run requests).1 ∧
      ((fresh loopback config true).run requests).2.link.device.calls
        = ((fresh loopback config false).run requests).2.link.device.calls ∧
      ((fresh loopback config true).run requests).2.link.device.device
        = ((fresh loopback config false).run requests).2.link.device.device := by
  -- At first nothing is remembered, and the devices are one.
  have alike : Alike (fresh loopback config true) (fresh loopback config false) :=
    ⟨rfl, rfl, rfl, Loopback.Same.refl _, rfl, rfl, nofun⟩
  obtain ⟨outcomes, lastA, lastB, left, right, last⟩ := alike.run requests
  obtain ⟨_, same⟩ := last.link
  rw [left, right, same]
  exact ⟨rfl, rfl, rfl⟩

end Session

end BoardRpc
