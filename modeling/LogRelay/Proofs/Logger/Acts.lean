import LogRelay.Proofs.Logger.Lifetime

/-!
# What can be done with a logger

Apart from what can happen while it runs, a logger is started and shut down. Starting may fail for three
reasons; each of them leaves the logger shut down and the contents of all files as they are then.
-/

namespace LogRelay

namespace Logger

/-- What can be done with a logger, running or not. -/
inductive Act where
  | step (step : Step)
  | shutdown (thread : Thread)
  | start (thread : Thread) (options : SinkOptions)
deriving DecidableEq, Repr

namespace Act

/-- The state after an act. -/
def apply : Act → Hosted Logger → Hosted Logger
  | step next, state => Logger.step next state
  | shutdown thread, state => Logger.shutdown thread state
  | start thread options, state => (Logger.start thread options state).1

/-- Whether an act tries to start the logger. -/
def isStart : Act → Bool
  | start _ _ => true
  | _ => false

/-- Whether an act starts the logger. -/
def starts : Act → Hosted Logger → Bool
  | start thread options, state => (Logger.start thread options state).2.isOk
  | _, _ => false

/-- The thread that ends the session in an act, if there is one. -/
def closer? : Act → Option Thread
  | shutdown thread | start thread _ => some thread
  | step _ => none

end Act

/-- The state after some acts. -/
def perform (acts : List Act) (state : Hosted Logger) : Hosted Logger :=
  acts.foldl (fun state act => act.apply state) state

theorem perform_append (front back : List Act) (state : Hosted Logger) :
    perform (front ++ back) state = perform back (perform front state) := List.foldl_append

theorem perform_steps (steps : List Step) (state : Hosted Logger) :
    perform (steps.map .step) state = run steps state := by
  rw [perform, run, List.foldl_map]
  rfl

/-! ## Loggers without a session -/

theorem session_shutdown (thread : Thread) (state : Hosted Logger) :
    (shutdown thread state).item.session = none := by
  rw [shutdown]
  cases hsession : state.item.session with
  | none => exact hsession
  | some session => rfl

theorem shutdown_of_none {state : Hosted Logger} (hnone : state.item.session = none) (thread : Thread) :
    shutdown thread state = state := by
  rw [shutdown, hnone]

/-- A step leaves a logger without a session as it is, apart from its level. -/
theorem step_of_none {state : Hosted Logger} (hnone : state.item.session = none) (step : Step) :
    ∃ level events, Logger.step step state =
      ⟨{ state.item with level := level }, state.host.reportAll events⟩ := by
  obtain ⟨⟨level, format, period, probe, options, session, closed⟩, host⟩ := state
  obtain rfl : session = none := hnone
  let idle : Logger := ⟨level, format, period, probe, options, none, closed⟩
  have hsame : ∃ other events, (⟨idle, host⟩ : Hosted Logger) =
      ⟨{ idle with level := other }, host.reportAll events⟩ :=
    ⟨level, [], by rw [Host.reportAll_nil]⟩
  cases step with
  | log thread call =>
      simp only [Logger.step, log]
      cases closed <;> exact hsame
  | drain => exact hsame
  | flush => exact hsame
  | close thread =>
      simp only [Logger.step, close]
      cases closed <;> exact hsame
  | setLevel text =>
      simp only [Logger.step, setLevel]
      cases Severity.parse? text with
      | none => exact hsame
      | some threshold =>
          exact ⟨text, [.levelChanged threshold], by rw [Host.reportAll_singleton]; rfl⟩

/-! ## Starting in vain -/

/-- How a logger fails to start, with what that leaves. -/
inductive Fails (starter : Thread) (options : SinkOptions) (before : Hosted Logger) :
    Hosted Logger → LogError → Prop where
  /-- The level is unknown. -/
  | invalidLevel (hparse : Severity.parse? before.item.level = none) :
      Fails starter options before (shutdown starter before) (.invalidLevel before.item.level)
  /-- The name is held and not to be taken over. -/
  | duplicateName
      (hclaim : ((shutdown starter before).host.claim options.name options.replace).1 = none) :
      Fails starter options before
        ⟨(shutdown starter before).item,
          ((shutdown starter before).host.claim options.name options.replace).2⟩
        (.failedToStart options.name .duplicateName)
  /-- The file cannot be opened. -/
  | noFile {claim : Claim} {left : FileTree} {fault : IoFault}
      (hclaim : ((shutdown starter before).host.claim options.name options.replace).1 = some claim)
      (hopen : Sink.start options.name options.path (shutdown starter before).item.format
        options.maxSize options.maxFiles (shutdown starter before).host.files = (left, .error fault)) :
      Fails starter options before
        ⟨(shutdown starter before).item,
          { ((shutdown starter before).host.claim options.name options.replace).2 with
            files := left }.release claim⟩
        (.failedToStart options.name (.file fault))

variable {starter : Thread} {options : SinkOptions} {before after : Hosted Logger} {error : LogError}

theorem fails_of_error (hfailed : (start starter options before).2 = .error error) :
    Fails starter options before (start starter options before).1 error := by
  have hlevel := level_shutdown starter before
  revert hfailed
  simp only [start, hlevel]
  split
  · next hparse =>
    intro hfailed
    obtain rfl : LogError.invalidLevel before.item.level = error := Except.error.inj hfailed
    exact .invalidLevel hparse
  · split
    · next hclaim =>
      intro hfailed
      obtain rfl : LogError.failedToStart options.name .duplicateName = error :=
        Except.error.inj hfailed
      exact .duplicateName hclaim
    · next claim hclaim =>
      simp only [openFile]
      split
      · exact fun hfailed => absurd hfailed (by simp)
      · next fault hfault =>
        intro hfailed
        obtain rfl : LogError.failedToStart options.name (.file fault) = error :=
          Except.error.inj hfailed
        exact .noFile hclaim (Prod.ext rfl hfault)

namespace Fails

theorem item_eq (hfails : Fails starter options before after error) :
    after.item = (shutdown starter before).item := by
  cases hfails <;> rfl

theorem clock_eq (hfails : Fails starter options before after error) :
    after.host.clock = (shutdown starter before).host.clock := by
  cases hfails <;> rfl

theorem contents_eq (hfails : Fails starter options before after error) :
    after.host.files.contents = (shutdown starter before).host.files.contents := by
  cases hfails with
  | invalidLevel hparse => rfl
  | duplicateName hclaim => rfl
  | noFile hclaim hopen => exact Sink.contents_of_start_error hopen

theorem files_eq (hfails : Fails starter options before after error)
    (hother : ∀ fault, error ≠ .failedToStart options.name (.file fault)) :
    after.host.files = (shutdown starter before).host.files := by
  cases hfails with
  | invalidLevel hparse => rfl
  | duplicateName hclaim => rfl
  | noFile hclaim hopen => exact absurd rfl (hother _)

theorem count_le (hfails : Fails starter options before after error) (kind : Event → Bool) :
    (shutdown starter before).host.count kind ≤ after.host.count kind := by
  have hclaim : (shutdown starter before).host.count kind ≤
      ((shutdown starter before).host.claim options.name options.replace).2.count kind :=
    Host.count_le_reportAll kind _ _
  cases hfails with
  | invalidLevel => exact Nat.le_refl _
  | duplicateName => exact hclaim
  | noFile => exact Nat.le_trans hclaim (Host.count_le_reportAll kind _ _)

end Fails

end Logger

end LogRelay
