import BoardRpc.Proofs.Rpc.Memo

/-! Histories of sessions: all that a caller can do before the next command, and what none of it
changes. -/

namespace BoardRpc

namespace Session

variable {σ : Type}

/-- A session with the settings and the formats of another. -/
structure SameSettings (before after : Session σ) : Prop where
  config : after.config = before.config
  formats : after.formats = before.formats

/-- Settings that are kept twice are kept. -/
theorem SameSettings.trans {first second third : Session σ} (one : SameSettings first second)
    (other : SameSettings second third) : SameSettings first third :=
  ⟨other.config.trans one.config, other.formats.trans one.formats⟩

/-- The limit of a response is one of the settings, unless the caller has another. -/
theorem SameSettings.responseLimit {before after : Session σ} (same : SameSettings before after)
    (options : CallOptions) : after.responseLimit options = before.responseLimit options := by
  rw [Session.responseLimit, same.config, Session.responseLimit]

variable [Transport σ]

/-- Lets a caller do something with a session. -/
def serve (session : Session σ) : Use σ → Session σ
  | .request request => (session.perform request).2
  | .lend change => session.modifyLink change

/-- A session that began over a link and has come through all that a caller did with it. -/
def past (link : σ) (config : SessionConfig) (uses : List (Use σ)) : Session σ :=
  uses.foldl serve { link, config }

/-- What every request keeps, and every loan of the link that was made, holds in the end. -/
theorem past_kept {P : Session σ → Prop} (preserved : Preserved P) {link : σ}
    {config : SessionConfig} {uses : List (Use σ)} (start : P { link, config })
    (lent : ∀ change, .lend change ∈ uses → ∀ session, P session → P (session.modifyLink change)) :
    P (past link config uses) := by
  -- Each use starts from what the ones before it left.
  unfold past
  generalize ({ link, config } : Session σ) = session at start ⊢
  induction uses generalizing session with
  | nil => exact start
  | cons use others ih =>
    have later : ∀ change, .lend change ∈ others → ∀ session, P session →
        P (session.modifyLink change) := fun change here => lent change (.tail _ here)
    have next : P (session.serve use) := by
      cases use with
      | request request => exact preserved.perform start request
      | lend change => exact lent change (.head _) session start
    exact ih later _ next

/-- Sending a frame keeps the settings. -/
theorem sendFrame_settings (session : Session σ) (frame : CommandFrame) (options : CallOptions) :
    SameSettings session (session.sendFrame frame options).2 := by
  -- The memo is all that depends on what became of the write.
  unfold sendFrame
  dsimp only
  split <;> exact ⟨rfl, rfl⟩

/-- An exchange keeps the settings. -/
theorem exchange_settings (session : Session σ) (frame : CommandFrame) (options : CallOptions) :
    SameSettings session (session.exchange frame options).2 := by
  -- Reading changes the link alone.
  unfold exchange
  split
  · exact ⟨rfl, rfl⟩
  · have sent := sendFrame_settings session frame options
    rcases done : session.sendFrame frame options with ⟨result, between⟩
    rw [done] at sent
    cases result with
    | error error => exact sent
    | ok =>
      dsimp only
      -- A response that is not wanted is not read.
      split
      · exact sent
      · exact sent.trans ⟨rfl, rfl⟩

/-- An abort keeps the settings. -/
theorem abort_settings (session : Session σ) : SameSettings session session.abort.2 := by
  -- Each of the two cancels changes the link, and the command is forgotten.
  have cancelled : SameSettings session session.cancel.2 := by
    -- There are one or two cancels, and each of them leaves a link.
    unfold cancel
    split
    · exact ⟨rfl, rfl⟩
    · split <;> exact ⟨rfl, rfl⟩
  unfold abort
  rcases done : session.cancel with ⟨result, after⟩
  rw [done] at cancelled
  cases result with
  | error error => exact cancelled
  | ok response =>
    -- What was answered is only looked at.
    dsimp only
    split <;> exact cancelled

/-- A command keeps the settings. -/
theorem transact_settings (session : Session σ) (classNumber verbNumber : UInt32)
    (payload : Bytes) (options : CallOptions) (rpc : String) :
    SameSettings session (session.transact classNumber verbNumber payload options rpc).2 := by
  unfold transact
  dsimp only
  -- A frame that is too long is refused before the session is touched.
  split
  · exact ⟨rfl, rfl⟩
  · have exchanged := exchange_settings session ⟨classNumber, verbNumber, payload⟩ options
    rcases done : session.exchange ⟨classNumber, verbNumber, payload⟩ options with
      ⟨result, between⟩
    rw [done] at exchanged
    cases result with
    | ok response => exact exchanged
    | error cause =>
      dsimp only
      split
      · -- The cancel behind a failure keeps them as well.
        have aborted := abort_settings between
        rcases done : between.abort with ⟨answer, after⟩
        rw [done] at aborted
        cases answer <;> exact exchanged.trans aborted
      · -- A link that is given up is forgotten about in the memo alone.
        exact exchanged.trans ⟨rfl, rfl⟩

/-- No request changes the settings. -/
theorem preserved_config (config : SessionConfig) :
    Preserved (σ := σ) fun session => session.config = config where
  transact kept _ _ _ _ _ := (transact_settings _ _ _ _ _ _).config.trans kept
  abort kept := (abort_settings _).config.trans kept
  reset kept := kept
  formats kept _ := kept

/-- Formats are read right after every request. -/
theorem preserved_sound : Preserved (σ := σ) fun session => session.formats.Sound where
  -- The command has no part in the store, which changes by reading formats only.
  transact {session} sound classNumber verbNumber payload options rpc := by
    rw [(transact_settings session classNumber verbNumber payload options rpc).formats]
    exact sound
  abort {session} sound := by
    rw [(abort_settings session).formats]
    exact sound
  reset sound := sound
  formats sound source := (FormatCache.fetch_sound sound source).2

/-- Whatever has happened, the settings are those that a session began with. -/
@[simp] theorem past_config (link : σ) (config : SessionConfig) (uses : List (Use σ)) :
    (past link config uses).config = config :=
  past_kept (preserved_config config) rfl fun _ _ _ kept => kept

/-- Whatever has happened, formats are read right. -/
theorem past_sound (link : σ) (config : SessionConfig) (uses : List (Use σ)) :
    (past link config uses).formats.Sound :=
  past_kept preserved_sound FormatCache.sound_empty fun _ _ _ sound => sound

end Session

end BoardRpc
