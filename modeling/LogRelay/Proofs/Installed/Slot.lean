import LogRelay.Installed
import LogRelay.Proofs.Logger.Names

/-!
# One logger at a time

The handles of removed loggers stay in use, and every call may go through any of them. The logger in the slot
is nevertheless the only one that can run, and the only one that can hold a name: removing a logger shuts it
down, and what has no session leaves the files and the names alone.
-/

namespace LogRelay

namespace Installed

open Logger

/-- What can be done with the installed logger, and with all loggers that were installed before it. -/
inductive Call where
  | install (thread : Thread) (config : LoggerConfig)
  | remove (thread : Thread)
  | log (thread : Thread) (source : String) (severity : Severity) (payload : Payload)
  | step (handle : Nat) (step : Step)
  | shutdown (handle : Nat) (thread : Thread)

namespace Call

/-- The handle that a call goes through, unless it goes through the slot. -/
def handle? : Call → Option Nat
  | step handle _ | shutdown handle _ => some handle
  | _ => none

/-- The state after a call. -/
def apply : Call → Hosted (Installed Logger) → Hosted (Installed Logger)
  | install thread config, state => (Installed.install thread config state).1
  | remove thread, state => Installed.remove thread state
  | log thread source severity payload, state =>
      (Installed.log thread source severity payload state).1
  | step handle next, state => (update handle (fun logger => (Logger.step next logger, ())) state).1
  | shutdown handle thread, state =>
      (update handle (fun logger => (Logger.shutdown thread logger, ())) state).1

/-- Whether a call installs a logger. -/
def fills : Call → Hosted (Installed Logger) → Bool
  | install thread config, state => (Installed.install thread config state).2.isOk
  | _, _ => false

/-- Whether a call removes the installed logger, or fails to install one. -/
def empties : Call → Hosted (Installed Logger) → Bool
  | install thread config, state => !(Installed.install thread config state).2.isOk
  | remove _, _ => true
  | _, _ => false

end Call

/-- The state after some calls. -/
def run (calls : List Call) (state : Hosted (Installed Logger)) : Hosted (Installed Logger) :=
  calls.foldl (fun state call => call.apply state) state

theorem run_append (front back : List Call) (state : Hosted (Installed Logger)) :
    run (front ++ back) state = run back (run front state) := List.foldl_append

/-- The logger behind a handle runs. -/
def Runs (installed : Installed Logger) (handle : Nat) : Prop :=
  ∃ logger, installed.logger? handle = some logger ∧ logger.isRunning = true

/-- One of the calls installed a logger, and none after it emptied the slot. -/
def StaysFilled (calls : List Call) (state : Hosted (Installed Logger)) : Prop :=
  ∃ front call back, calls = front ++ call :: back ∧ call.fills (run front state) = true ∧
    ∀ between next rest, back = between ++ next :: rest →
      next.empties (run (front ++ call :: between) state) = false

variable {state : Hosted (Installed Logger)} {outside : Registry}

/-! ## The logger behind a handle -/

theorem update_of_some {τ : Type} {handle : Nat} {logger : Logger}
    (hlogger : state.item.logger? handle = some logger) (change : Hosted Logger → Hosted Logger × τ) :
    let done := change ⟨logger, state.host⟩
    update handle change state =
      (⟨{ state.item with loggers := state.item.loggers.setIfInBounds handle done.1.item },
        done.1.host⟩, some done.2) := by
  rw [update, hlogger]

theorem update_of_none {τ : Type} {handle : Nat} (hnone : state.item.logger? handle = none)
    (change : Hosted Logger → Hosted Logger × τ) : update handle change state = (state, none) := by
  rw [update, hnone]

theorem slot_update {τ : Type} (handle : Nat) (change : Hosted Logger → Hosted Logger × τ)
    (state : Hosted (Installed Logger)) :
    (update handle change state).1.item.slot = state.item.slot := by
  rw [update]
  split <;> rfl

theorem update_map_slot {τ : Type} (handle : Nat) (change : Hosted Logger → Hosted Logger × τ)
    (state : Hosted (Installed Logger)) :
    (update handle change (state.map fun installed => { installed with slot := none })).1 =
      (update handle change state).1.map fun installed => { installed with slot := none } := by
  have hsame : (state.map fun installed => { installed with slot := none }).item.logger? handle =
    state.item.logger? handle := rfl
  rw [update, update, hsame]
  cases state.item.logger? handle <;> rfl

theorem logger?_put (installed : Installed Logger) (handle other : Nat) (next : Logger) :
    { installed with loggers := installed.loggers.setIfInBounds handle next }.logger? other =
      if other = handle then (installed.logger? handle).map fun _ => next
      else installed.logger? other := by
  rw [logger?, Array.getElem?_setIfInBounds]
  by_cases hother : other = handle
  · subst hother
    rw [if_pos rfl, if_pos rfl, logger?]
    split
    · next hlt => rw [Array.getElem?_eq_getElem hlt, Option.map_some]
    · next hge => rw [Array.getElem?_eq_none (Nat.le_of_not_lt hge), Option.map_none]
  · rw [if_neg hother, if_neg (Ne.symm hother), logger?]

/-! ## What a logger gives up -/

/-- A change of a logger neither starts it nor claims a name. What is held afterwards was held before, and by
the claim of the logger only if it still has that claim. -/
structure Eases (before after : Hosted Logger) : Prop where
  /-- A logger without a session gets none. -/
  session : before.item.session = none → after.item.session = none
  /-- No name is claimed. -/
  holder? : ∀ name number, after.host.registry.holder? name = some number →
    before.host.registry.holder? name = some number
  /-- A name is free once the claim that held it is gone. -/
  claim? : ∀ name number, after.host.registry.holder? name = some number →
    before.item.claim? = some ⟨name, number⟩ → after.item.claim? = some ⟨name, number⟩

theorem eases_step (step : Step) (state : Hosted Logger) : Eases state (Logger.step step state) := by
  obtain ⟨hclaim, hregistry⟩ := step_keeps_names step state
  refine ⟨?_, fun name number hholder => ?_, fun _ _ _ hown => hclaim.trans hown⟩
  · intro hnone
    obtain ⟨level, events, hstep⟩ := step_of_none hnone step
    rw [hstep]
    exact hnone
  · rwa [hregistry] at hholder

theorem eases_shutdown (thread : Thread) (state : Hosted Logger) :
    Eases state (Logger.shutdown thread state) := by
  have hregistry := registry_shutdown thread state
  refine ⟨fun _ => session_shutdown thread state, ?_, ?_⟩
  · intro name number hholder
    rw [hregistry] at hholder
    cases hclaim : state.item.claim? with
    | none => rwa [hclaim] at hholder
    | some claim =>
        rw [hclaim, Registry.holder?_drop] at hholder
        split at hholder
        · exact absurd hholder (Option.some_ne_none number).symm
        · exact hholder
  · intro name number hholder hown
    rw [hregistry, hown, Registry.holder?_drop] at hholder
    split at hholder
    · exact absurd hholder (Option.some_ne_none number).symm
    · next hother => exact absurd ⟨rfl, hholder⟩ hother

/-! ## Only the logger in the slot -/

/-- Loggers of which only the one in the slot can have a session. Of the held names, it holds those that were
not held outside from the beginning. -/
structure Sound (outside : Registry) (state : Hosted (Installed Logger)) : Prop where
  /-- Outside the slot no logger has a session. -/
  idle : ∀ handle logger, state.item.logger? handle = some logger →
    state.item.slot ≠ some handle → logger.session = none
  /-- Names are held outside, or by the logger in the slot. -/
  held : ∀ name number, state.host.registry.holder? name = some number →
    outside.holder? name = some number ∨
      ∃ handle logger, state.item.slot = some handle ∧ state.item.logger? handle = some logger ∧
        logger.claim? = some ⟨name, number⟩

namespace Sound

theorem of_vacant (host : Host) : Sound host.registry ⟨vacant, host⟩ := by
  refine ⟨fun handle logger hlogger => ?_, fun _ _ hholder => .inl hholder⟩
  exact absurd hlogger (by simp [vacant, logger?])

theorem runs_slot (hsound : Sound outside state) {handle : Nat} (hruns : state.item.Runs handle) :
    state.item.slot = some handle := by
  obtain ⟨logger, hlogger, hrunning⟩ := hruns
  by_contra hslot
  rw [isRunning, hsound.idle handle logger hlogger hslot] at hrunning
  exact Bool.false_ne_true hrunning

/-- Nothing that is done through a handle starts a logger or claims a name. -/
theorem update {τ : Type} (hsound : Sound outside state) (handle : Nat)
    {change : Hosted Logger → Hosted Logger × τ}
    (heases : ∀ logger, Eases logger (change logger).1) :
    Sound outside (Installed.update handle change state).1 := by
  cases hlogger : state.item.logger? handle with
  | none => rwa [update_of_none hlogger]
  | some logger =>
      have hchange := heases ⟨logger, state.host⟩
      rw [update_of_some hlogger]
      refine ⟨?_, ?_⟩
      · intro other found hfound hslot
        simp only [logger?_put, hlogger, Option.map_some] at hfound
        split at hfound
        · next hsame =>
          subst hsame
          obtain rfl := Option.some.inj hfound
          exact hchange.session (hsound.idle other logger hlogger hslot)
        · exact hsound.idle other found hfound hslot
      · intro name number hholder
        rcases hsound.held name number (hchange.holder? name number hholder) with
          houtside | ⟨current, owner, hslot, howner, hclaim⟩
        · exact .inl houtside
        · by_cases hsame : current = handle
          · subst hsame
            obtain rfl : owner = logger := Option.some.inj (howner.symm.trans hlogger)
            refine .inr ⟨current, _, hslot, ?_, hchange.claim? name number hholder hclaim⟩
            simp only [logger?_put, if_pos, hlogger, Option.map_some]
          · refine .inr ⟨current, owner, hslot, ?_, hclaim⟩
            simp only [logger?_put, if_neg hsame]
            exact howner

theorem of_empty (hsound : Sound outside state) (hslot : state.item.slot = none) :
    (∀ handle logger, state.item.logger? handle = some logger → logger.session = none) ∧
      ∀ name number, state.host.registry.holder? name = some number →
        outside.holder? name = some number := by
  refine ⟨fun handle logger hlogger => hsound.idle handle logger hlogger ?_, ?_⟩
  · rw [hslot]
    exact (Option.some_ne_none handle).symm
  · intro name number hholder
    rcases hsound.held name number hholder with houtside | ⟨handle, -, hfilled, -⟩
    · exact houtside
    · exact absurd (hslot.symm.trans hfilled) (Option.some_ne_none handle).symm

end Sound

/-! ## Filling and emptying the slot -/

theorem slot_remove (thread : Thread) (state : Hosted (Installed Logger)) :
    (remove thread state).item.slot = none := by
  rw [remove]
  split
  · next hslot => exact hslot
  · exact slot_update _ _ _

theorem eases_retire (thread : Thread) (state : Hosted Logger) :
    Eases state (retire thread state).1 :=
  ⟨(eases_shutdown thread state).session, (eases_shutdown thread state).holder?,
    (eases_shutdown thread state).claim?⟩

theorem session_update_retire {handle : Nat} {thread : Thread} {logger : Logger}
    (hlogger : (update handle (retire thread) state).1.item.logger? handle = some logger) :
    logger.session = none := by
  cases hfound : state.item.logger? handle with
  | none =>
      rw [update_of_none hfound, hfound] at hlogger
      exact absurd hlogger (Option.some_ne_none logger).symm
  | some found =>
      rw [update_of_some hfound, logger?_put, if_pos rfl, hfound, Option.map_some] at hlogger
      obtain rfl := Option.some.inj hlogger
      exact session_shutdown thread ⟨found, state.host⟩

namespace Sound

/-- A logger without a session may leave the slot. -/
theorem vacate (hsound : Sound outside state) {handle : Nat} (hslot : state.item.slot = some handle)
    (hended : ∀ logger, state.item.logger? handle = some logger → logger.session = none) :
    Sound outside (state.map fun installed => { installed with slot := none }) := by
  refine ⟨?_, ?_⟩
  · intro other logger hlogger _
    by_cases hsame : other = handle
    · exact hended logger (hsame ▸ hlogger)
    · apply hsound.idle other logger hlogger
      rw [hslot]
      exact fun heq => hsame (Option.some.inj heq).symm
  · intro name number hholder
    rcases hsound.held name number hholder with houtside | ⟨current, owner, hcurrent, howner, hclaim⟩
    · exact .inl houtside
    · obtain rfl : handle = current := Option.some.inj (hslot.symm.trans hcurrent)
      rw [Logger.claim?, hended owner howner] at hclaim
      exact absurd hclaim (Option.some_ne_none _).symm

theorem remove (hsound : Sound outside state) (thread : Thread) :
    Sound outside (Installed.remove thread state) := by
  rw [Installed.remove]
  split
  · exact hsound
  · next handle hslot =>
    rw [update_map_slot]
    exact (hsound.update handle (eases_retire thread)).vacate ((slot_update _ _ _).trans hslot)
      fun _ => session_update_retire

end Sound

/-- How installing a logger ends, once the one in the slot has been removed. -/
inductive Installs (config : LoggerConfig) (removed : Hosted (Installed Logger)) :
    Hosted (Installed Logger) → Except LogError Nat → Prop where
  /-- The new logger is in the slot, with the claim it was granted. -/
  | ok {logger : Logger} {host : Host}
      (hclaim : logger.claim? = some (removed.host.registry.grant config.sink.name).1)
      (hregistry : host.registry = (removed.host.registry.grant config.sink.name).2) :
      Installs config removed
        ⟨⟨removed.item.loggers.push logger, some removed.item.loggers.size⟩, host⟩
        (.ok removed.item.loggers.size)
  /-- The slot is empty, and no name was claimed. -/
  | error {host : Host} {error : LogError}
      (hholder : ∀ name number, host.registry.holder? name = some number →
        removed.host.registry.holder? name = some number)
      (hheld : error = .failedToStart config.sink.name .duplicateName →
        removed.host.registry.isHeld config.sink.name = true) :
      Installs config removed ⟨removed.item, host⟩ (.error error)

theorem installs (thread : Thread) (config : LoggerConfig) (state : Hosted (Installed Logger)) :
    Installs config (remove thread state) (install thread config state).1
      (install thread config state).2 := by
  let removed := remove thread state
  let idle : Hosted Logger :=
    ⟨.idle config.level config.format config.pollPeriod .threadFlag, removed.host⟩
  have hidle : Logger.shutdown thread idle = idle := shutdown_of_none rfl thread
  have hmade : Recorder.ofConfig thread config removed.host =
    Logger.start thread config.sink idle := rfl
  rw [install]
  simp only [removed, hmade]
  cases hstart : (Logger.start thread config.sink idle).2 with
  | ok =>
      obtain ⟨threshold, claim, files, sink, hstarts⟩ := starts_of_ok hstart
      obtain ⟨hclaim, hregistry⟩ := hstarts.names_start
      obtain ⟨rfl, hgranted, -⟩ := Registry.claim_of_some hstarts.claim_eq
      rw [hidle] at hclaim hgranted hregistry
      exact .ok hclaim (hregistry.trans hgranted)
  | error error =>
      have hfails : Fails thread config.sink idle (Logger.start thread config.sink idle).1 error :=
        fails_of_error hstart
      refine .error ?_ ?_
      · intro name number hholder
        rw [hfails.holder?_eq, hidle] at hholder
        split at hholder
        · exact absurd hholder (Option.some_ne_none number).symm
        · exact hholder
      · intro hduplicate
        have hheld := hfails.isHeld_of_duplicate hduplicate
        rwa [hidle] at hheld

theorem Installs.sound {config : LoggerConfig} {removed after : Hosted (Installed Logger)}
    {result : Except LogError Nat} (hinstalls : Installs config removed after result)
    (hsound : Sound outside removed) (hslot : removed.item.slot = none) : Sound outside after := by
  obtain ⟨hidle, hheld⟩ := hsound.of_empty hslot
  cases hinstalls with
  | @ok logger host hclaim hregistry =>
      have hnew : ∀ handle, (removed.item.loggers.push logger)[handle]? =
          if handle = removed.item.loggers.size then some logger
          else removed.item.logger? handle := fun handle => Array.getElem?_push
      refine ⟨fun handle found hfound hother => ?_, fun name number hholder => ?_⟩
      · have hne : handle ≠ removed.item.loggers.size := fun hsame => hother (congrArg some hsame.symm)
        rw [logger?, hnew, if_neg hne] at hfound
        exact hidle handle found hfound
      · simp only [hregistry, Registry.holder?_grant] at hholder
        split at hholder
        · next hname =>
          subst hname
          obtain rfl := Option.some.inj hholder
          exact .inr ⟨_, logger, rfl, (hnew _).trans (if_pos rfl), hclaim⟩
        · exact .inl (hheld name number hholder)
  | error hholder =>
      refine ⟨fun handle logger hlogger _ => hidle handle logger hlogger, fun name number hholds => ?_⟩
      exact .inl (hheld name number (hholder name number hholds))

namespace Sound

theorem apply (hsound : Sound outside state) (call : Call) : Sound outside (call.apply state) := by
  cases call with
  | install thread config =>
      exact (installs thread config state).sound (hsound.remove thread) (slot_remove thread state)
  | remove thread => exact hsound.remove thread
  | log thread source severity payload =>
      rw [Call.apply, Installed.log]
      split
      · exact hsound
      · next handle _ =>
        exact hsound.update handle fun logger =>
          eases_step (.log thread ⟨severity, mark source :: payload⟩) logger
  | step handle step => exact hsound.update handle fun logger => eases_step step logger
  | shutdown handle thread => exact hsound.update handle fun logger => eases_shutdown thread logger

theorem run (hsound : Sound outside state) (calls : List Call) :
    Sound outside (Installed.run calls state) := by
  induction calls generalizing state with
  | nil => exact hsound
  | cons call rest induction => exact induction (hsound.apply call)

end Sound

/-! ## What is in the slot -/

theorem current_eq_error_iff {installed : Installed Logger} :
    installed.current = .error .notInitialized ↔ installed.slot.isSome = false := by
  rw [current]
  cases installed.slot <;> simp

theorem Installs.slot_eq {config : LoggerConfig} {removed after : Hosted (Installed Logger)}
    {result : Except LogError Nat} (hinstalls : Installs config removed after result)
    (hslot : removed.item.slot = none) : after.item.slot = result.toOption := by
  cases hinstalls with
  | ok => rfl
  | error => exact hslot

theorem Installs.isHeld_of_duplicate {config : LoggerConfig}
    {removed after : Hosted (Installed Logger)} {result : Except LogError Nat}
    (hinstalls : Installs config removed after result)
    (hduplicate : result = .error (.failedToStart config.sink.name .duplicateName)) :
    removed.host.registry.isHeld config.sink.name = true := by
  cases hinstalls with
  | ok => cases hduplicate
  | error hholder hheld => exact hheld (Except.error.inj hduplicate)

/-- The slot is filled after a call that fills it, and stays filled until a call empties it. -/
theorem Call.slot_apply (call : Call) (state : Hosted (Installed Logger)) :
    (call.apply state).item.slot.isSome =
      (call.fills state || (!call.empties state && state.item.slot.isSome)) := by
  cases call with
  | install thread config =>
      have hslot := (installs thread config state).slot_eq (slot_remove thread state)
      rw [apply, fills, empties, hslot]
      cases (Installed.install thread config state).2 <;> rfl
  | remove thread =>
      rw [apply, slot_remove]
      rfl
  | log thread source severity payload =>
      have hslot : (apply (log thread source severity payload) state).item.slot = state.item.slot := by
        rw [apply, Installed.log]
        split
        · rfl
        · exact slot_update _ _ _
      rw [hslot]
      rfl
  | step handle step => exact congrArg Option.isSome (slot_update _ _ _)
  | shutdown handle thread => exact congrArg Option.isSome (slot_update _ _ _)

/-- One more call leaves the slot filled if it fills it, or if it was filled and is not emptied. -/
theorem staysFilled_append (calls : List Call) (last : Call) (state : Hosted (Installed Logger)) :
    StaysFilled (calls ++ [last]) state ↔ last.fills (run calls state) = true ∨
      StaysFilled calls state ∧ last.empties (run calls state) = false := by
  constructor
  · rintro ⟨front, call, back, hcalls, hfills, hback⟩
    rcases List.eq_nil_or_concat' back with rfl | ⟨middle, final, rfl⟩
    · obtain ⟨rfl, hlast⟩ := List.append_inj' hcalls rfl
      obtain rfl : last = call := (List.cons.inj hlast).1
      exact .inl hfills
    · rw [← List.cons_append, ← List.append_assoc] at hcalls
      obtain ⟨rfl, hlast⟩ := List.append_inj' hcalls rfl
      obtain rfl : last = final := (List.cons.inj hlast).1
      refine .inr ⟨⟨front, call, middle, rfl, hfills, ?_⟩, hback middle last [] rfl⟩
      rintro between next rest rfl
      exact hback between next (rest ++ [last]) (by rw [List.append_assoc, List.cons_append])
  · rintro (hfills | ⟨⟨front, call, back, rfl, hfills, hback⟩, hlast⟩)
    · exact ⟨calls, last, [], rfl, hfills, fun between _ _ hnil => by simp at hnil⟩
    · refine ⟨front, call, back ++ [last], by rw [List.append_assoc, List.cons_append], hfills, ?_⟩
      intro between next rest hbetween
      rcases List.eq_nil_or_concat' rest with rfl | ⟨middle, final, rfl⟩
      · obtain ⟨rfl, hnext⟩ := List.append_inj' hbetween rfl
        obtain rfl : last = next := (List.cons.inj hnext).1
        exact hlast
      · rw [← List.cons_append, ← List.append_assoc] at hbetween
        exact hback between next middle (List.append_inj' hbetween rfl).1

theorem slot_run (hslot : state.item.slot = none) (calls : List Call) :
    (run calls state).item.slot.isSome = true ↔ StaysFilled calls state := by
  induction calls using List.reverseRecOn with
  | nil =>
      refine iff_of_false ?_ ?_
      · rw [run, List.foldl_nil, hslot]
        exact Bool.false_ne_true
      · rintro ⟨front, call, back, hnil, -⟩
        simp at hnil
  | append_singleton calls last induction =>
      have hlast : run (calls ++ [last]) state = last.apply (run calls state) :=
        run_append calls [last] state
      rw [hlast, Call.slot_apply, Bool.or_eq_true, Bool.and_eq_true, Bool.not_eq_true', induction,
        staysFilled_append, and_comm]

/-! ## What goes through the other handles -/

theorem Sound.update_of_ne {τ : Type} (hsound : Sound outside state) {handle : Nat}
    (hslot : state.item.slot ≠ some handle) {change : Hosted Logger → Hosted Logger × τ}
    (hidle : ∀ logger : Hosted Logger, logger.item.session = none →
      (change logger).1.host.files = logger.host.files ∧
        (change logger).1.host.registry = logger.host.registry) :
    (Installed.update handle change state).1.host.files = state.host.files ∧
      (Installed.update handle change state).1.host.registry = state.host.registry := by
  cases hlogger : state.item.logger? handle with
  | none =>
      rw [update_of_none hlogger]
      exact ⟨rfl, rfl⟩
  | some logger =>
      rw [update_of_some hlogger]
      exact hidle ⟨logger, state.host⟩ (hsound.idle handle logger hlogger hslot)

theorem Sound.apply_of_ne (hsound : Sound outside state) {call : Call} {handle : Nat}
    (hcall : call.handle? = some handle) (hslot : state.item.slot ≠ some handle) :
    (call.apply state).host.files = state.host.files ∧
      (call.apply state).host.registry = state.host.registry := by
  cases call with
  | step other step =>
      obtain rfl : other = handle := Option.some.inj hcall
      refine hsound.update_of_ne hslot fun logger hnone => ?_
      obtain ⟨level, events, hstep⟩ := step_of_none hnone step
      rw [hstep]
      exact ⟨rfl, rfl⟩
  | shutdown other thread =>
      obtain rfl : other = handle := Option.some.inj hcall
      refine hsound.update_of_ne hslot fun logger hnone => ?_
      rw [shutdown_of_none hnone]
      exact ⟨rfl, rfl⟩
  | _ => exact absurd hcall.symm (Option.some_ne_none handle)

/-! ## All calls -/

/-- At any time at most one of all loggers runs, and it is the one in the slot. The slot is empty exactly if
no logger was installed since the beginning, the last removal and the last installation that failed. What
goes through any other handle changes neither the files nor the names. After a removal all held names are
held from the beginning, by others; after an installation the new logger may hold one more. A name therefore
is refused to a new logger only if it was held from the beginning, never on account of an earlier logger. -/
theorem one_logger_lives (host : Host) (calls : List Call) :
    let vacated : Hosted (Installed Logger) := ⟨vacant, host⟩
    let state := run calls vacated
    (∀ handle, state.item.Runs handle → state.item.slot = some handle) ∧
    (∀ first second, state.item.Runs first → state.item.Runs second → first = second) ∧
    (state.item.current = .error .notInitialized ↔ ¬StaysFilled calls vacated) ∧
    (∀ (call : Call) (handle : Nat), call.handle? = some handle → state.item.slot ≠ some handle →
      (call.apply state).host.files = state.host.files ∧
        (call.apply state).host.registry = state.host.registry) ∧
    (∀ thread name number,
      (remove thread state).host.registry.holder? name = some number →
        host.registry.holder? name = some number) ∧
    (∀ thread config name number,
      let done := install thread config state
      done.1.host.registry.holder? name = some number →
        host.registry.holder? name = some number ∨
          ∃ handle logger, done.2 = .ok handle ∧ done.1.item.logger? handle = some logger ∧
            logger.claim? = some ⟨name, number⟩) ∧
    ∀ thread config,
      (install thread config state).2 = .error (.failedToStart config.sink.name .duplicateName) →
        ∃ number, host.registry.holder? config.sink.name = some number ∧
          (remove thread state).host.registry.holder? config.sink.name = some number := by
  intro vacated state
  have hsound : Sound host.registry state := (Sound.of_vacant host).run calls
  refine ⟨fun _ => hsound.runs_slot, ?_, ?_, fun _ _ => hsound.apply_of_ne, ?_, ?_, ?_⟩
  · intro first second hfirst hsecond
    exact Option.some.inj ((hsound.runs_slot hfirst).symm.trans (hsound.runs_slot hsecond))
  · rw [current_eq_error_iff, ← Bool.not_eq_true, slot_run rfl]
  · intro thread name number hholder
    exact ((hsound.remove thread).of_empty (slot_remove thread state)).2 name number hholder
  · intro thread config name number done hholder
    have hdone : Sound host.registry done.1 := hsound.apply (.install thread config)
    have hslot : done.1.item.slot = done.2.toOption :=
      (installs thread config state).slot_eq (slot_remove thread state)
    rcases hdone.held name number hholder with houtside | ⟨handle, logger, hfilled, hlogger, hclaim⟩
    · exact .inl houtside
    · refine .inr ⟨handle, logger, ?_, hlogger, hclaim⟩
      have hresult : done.2.toOption = some handle := hslot.symm.trans hfilled
      cases hdone : done.2 with
      | error error => simp [hdone, Except.toOption] at hresult
      | ok made => simpa [hdone, Except.toOption] using hresult
  · intro thread config hfailed
    have hheld := (installs thread config state).isHeld_of_duplicate hfailed
    obtain ⟨number, hholder⟩ := Option.isSome_iff_exists.1 hheld
    have hempty := (hsound.remove thread).of_empty (slot_remove thread state)
    exact ⟨number, hempty.2 _ number hholder, hholder⟩

end Installed

end LogRelay
