import LogRelay.Proofs.Logger.Acts
import LogRelay.Proofs.Registry.Holders
import Mathlib.Logic.Function.Basic

/-!
# The names of loggers

Loggers on one host share its names. Only starting and shutting down change who holds a name, and then only
the names of that logger: the one its claim holds and the one it asks for. A start that fails gives up the
name of its own logger. If it fails over its file after taking a name over, that name is lost to the logger
that held it, which runs on.
-/

namespace LogRelay

/-- Whether a start failed because its file could not be opened. -/
def LogError.isFile : LogError → Bool
  | failedToStart _ (.file _) => true
  | _ => false

/-! ## Sessions -/

namespace Session

/-- The claim of a session, and who holds which name on its host. -/
def holding (state : Hosted Session) : Claim × Registry := (state.item.claim, state.host.registry)

theorem holding_conclude (state : Hosted Session) (written : SinkState × WriteResult) :
    holding (conclude state written).1 = holding state := by
  rw [conclude]
  cases written.2 <;> rfl

theorem holding_write (thread : Nat) (severity : Severity) (payload : Payload)
    (state : Hosted Session) : holding (write thread severity payload state).1 = holding state := by
  rw [write]
  split
  · split
    · rw [writeText, holding_conclude]
      rfl
    · rfl
  · rfl

theorem holding_periodicFlush (state : Hosted Session) :
    holding (periodicFlush state) = holding state := by
  rw [periodicFlush]
  cases state.item.flusher <;> rfl

theorem holding_stopFlusher (state : Hosted Session) :
    holding (stopFlusher state) = holding state := by
  rw [stopFlusher]
  cases state.item.flusher <;> rfl

theorem holding_finish (thread : Thread) (format : LogFormat) (state : Hosted Session) :
    holding (Logger.finish thread format state) = holding state := by
  have hflush : ∀ said : Hosted Session, holding (flush said).1 = holding said := fun _ => rfl
  simp only [Logger.finish]
  cases Logger.farewell? format with
  | none => cases (flush state).2 <;> exact hflush state
  | some text =>
      simp only
      rw [← holding_write thread.number .info (Payload.ofText text) state]
      cases (flush (write thread.number .info (Payload.ofText text) state).1).2 <;> exact hflush _

theorem holding_start (period : Duration) (threshold : Severity) (options : SinkOptions)
    (claim : Claim) (state : Hosted Sink) :
    holding (start period threshold options claim state) = (claim, state.host.registry) := by
  simp only [start]
  split <;> rfl

theorem registry_discard (state : Hosted Session) :
    (discard state).registry = ((holding state).2.drop (holding state).1).1 := rfl

end Session

namespace Logger

/-- The claim of a logger that runs. -/
def claim? (logger : Logger) : Option Claim := logger.session.map Session.claim

/-- A logger holds a name: it runs, and its claim is the one that holds the name. -/
def HoldsName (state : Hosted Logger) (name : String) : Prop :=
  ∃ claim, state.item.claim? = some claim ∧ claim.name = name ∧
    state.host.registry.holder? name = some claim.number

/-- A step leaves the claim of a logger and all names as they are. -/
theorem step_keeps_names (step : Step) (state : Hosted Logger) :
    (Logger.step step state).item.claim? = state.item.claim? ∧
      (Logger.step step state).host.registry = state.host.registry := by
  obtain ⟨⟨level, format, period, probe, options, session, closed⟩, host⟩ := state
  have hsame : ∀ {before after : Hosted Session}, Session.holding after = Session.holding before →
      some after.item.claim = some before.item.claim ∧ after.host.registry = before.host.registry :=
    fun hholding => ⟨congrArg some (Prod.mk.inj hholding).1, (Prod.mk.inj hholding).2⟩
  cases session with
  | none =>
      obtain ⟨other, events, hstep⟩ :=
        @step_of_none ⟨⟨level, format, period, probe, options, none, closed⟩, host⟩ rfl step
      rw [hstep]
      exact ⟨rfl, rfl⟩
  | some session =>
      cases step with
      | log thread call =>
          simp only [Logger.step, log]
          split
          · exact ⟨rfl, rfl⟩
          · split
            · exact ⟨rfl, rfl⟩
            · exact hsame (Session.holding_write _ _ _ ⟨session, host⟩)
      | drain => exact ⟨rfl, rfl⟩
      | flush => exact hsame (Session.holding_periodicFlush ⟨session, host⟩)
      | close thread =>
          simp only [Logger.step, close]
          split
          · exact ⟨rfl, rfl⟩
          · exact hsame (Session.holding_finish thread format ⟨session, host⟩)
      | setLevel text =>
          simp only [Logger.step, setLevel]
          cases Severity.parse? text <;> exact ⟨rfl, rfl⟩

/-- Shutting down drops the claim. -/
theorem registry_shutdown (thread : Thread) (state : Hosted Logger) :
    (shutdown thread state).host.registry =
      match state.item.claim? with
      | none => state.host.registry
      | some claim => (state.host.registry.drop claim).1 := by
  cases hsession : state.item.session with
  | none =>
      rw [shutdown_of_none hsession, claim?, hsession]
      rfl
  | some session =>
      let stopped := Session.stopFlusher
        (Session.stopDrain state.item.closed ⟨session, state.host⟩)
      have hstopped : Session.holding stopped = (session.claim, state.host.registry) :=
        Session.holding_stopFlusher (Session.stopDrain state.item.closed ⟨session, state.host⟩)
      have hfinished : Session.holding (if state.item.closed then stopped
          else finish thread state.item.format stopped) = (session.claim, state.host.registry) := by
        split
        · exact hstopped
        · exact (Session.holding_finish thread state.item.format stopped).trans hstopped
      simp only [shutdown, claim?, hsession, Option.map_some, Session.registry_discard]
      exact congrArg (fun holding : Claim × Registry => (holding.2.drop holding.1).1) hfinished

variable {starter : Thread} {options : SinkOptions} {before after : Hosted Logger} {error : LogError}
  {threshold : Severity} {claim : Claim} {files : FileTree} {sink : Sink}

theorem Starts.names_start (hstarts : Starts starter options before threshold claim files sink) :
    (start starter options before).1.item.claim? = some claim ∧
      (start starter options before).1.host.registry =
        ((shutdown starter before).host.registry.claim options.name options.replace).2.1 := by
  let idle := (shutdown starter before).item
  let opened : Hosted Sink := ⟨sink, openedHost starter options before files⟩
  let started := Session.start idle.period threshold options claim opened
  have hheld : Session.holding (Session.write starter.number .info
      (Payload.ofText (greeting idle.format options.name)) started).1 =
        (claim, opened.host.registry) :=
    (Session.holding_write _ _ _ started).trans (Session.holding_start _ _ _ _ opened)
  rw [hstarts.start_eq]
  exact ⟨congrArg some (Prod.mk.inj hheld).1, (Prod.mk.inj hheld).2⟩

/-! ## A logger that does not start -/

/-- Shutting down frees the names that the logger holds, and no others. -/
theorem holder?_shutdown (thread : Thread) (state : Hosted Logger) (name : String) :
    (HoldsName state name → (shutdown thread state).host.registry.holder? name = none) ∧
      (¬HoldsName state name →
        (shutdown thread state).host.registry.holder? name = state.host.registry.holder? name) := by
  rw [registry_shutdown]
  cases hclaim : state.item.claim? with
  | none =>
      refine ⟨?_, fun _ => rfl⟩
      rintro ⟨claim, hsome, -⟩
      exact absurd (hclaim.symm.trans hsome) (Option.some_ne_none claim).symm
  | some claim =>
      simp only [Registry.holder?_drop]
      constructor
      · rintro ⟨found, hfound, rfl, hholds⟩
        obtain rfl : claim = found := Option.some.inj (hclaim.symm.trans hfound)
        rw [if_pos ⟨rfl, hholds⟩]
      · intro hother
        rw [if_neg]
        rintro ⟨rfl, hholds⟩
        exact hother ⟨claim, hclaim, rfl, hholds⟩

theorem Fails.holder?_eq (hfails : Fails starter options before after error) (name : String) :
    after.host.registry.holder? name =
      if error.isFile = true ∧ name = options.name then none
      else (shutdown starter before).host.registry.holder? name := by
  cases hfails with
  | invalidLevel => simp [LogError.isFile]
  | duplicateName hclaim =>
      have hsame := (Registry.claim_of_none hclaim).1
      simp only [LogError.isFile, Bool.false_eq_true, false_and, if_false]
      exact congrArg (fun registry => registry.holder? name) hsame
  | noFile hclaim =>
      simp only [LogError.isFile, true_and]
      exact Registry.holder?_drop_of_claim hclaim name

theorem Fails.isHeld_eq_false (hfails : Fails starter options before after error)
    (hfile : error.isFile = true) (hreplace : options.replace = false) :
    (shutdown starter before).host.registry.isHeld options.name = false := by
  cases hfails with
  | invalidLevel => exact absurd hfile Bool.false_ne_true
  | duplicateName => exact absurd hfile Bool.false_ne_true
  | noFile hclaim => exact (Registry.claim_of_some hclaim).2.2 hreplace

theorem Fails.isHeld_of_duplicate (hfails : Fails starter options before after error)
    (hduplicate : error = .failedToStart options.name .duplicateName) :
    (shutdown starter before).host.registry.isHeld options.name = true := by
  cases hfails with
  | invalidLevel => cases hduplicate
  | duplicateName hclaim => exact (Registry.claim_of_none hclaim).2.1
  | noFile => cases hduplicate

theorem Fails.nextNumber (hfails : Fails starter options before after error) :
    after.host.registry.nextNumber = (shutdown starter before).host.registry.nextNumber ∨
      after.host.registry.nextNumber = (shutdown starter before).host.registry.nextNumber + 1 := by
  have hclaimed := (shutdown starter before).host.registry.nextNumber_claim options.name options.replace
  cases hfails with
  | invalidLevel => exact .inl rfl
  | duplicateName hclaim =>
      exact .inl (congrArg Registry.nextNumber (Registry.claim_of_none hclaim).1)
  | @noFile claim _ _ hclaim =>
      have hsome : ((shutdown starter before).host.registry.claim options.name options.replace).1 =
        some claim := hclaim
      rw [hsome, Option.isSome_some, if_pos rfl] at hclaimed
      exact .inr ((Registry.nextNumber_drop _ _).trans hclaimed)

theorem claim?_shutdown (thread : Thread) (state : Hosted Logger) :
    (shutdown thread state).item.claim? = none := by
  rw [claim?, session_shutdown, Option.map_none]

theorem nextNumber_shutdown (thread : Thread) (state : Hosted Logger) :
    (shutdown thread state).host.registry.nextNumber = state.host.registry.nextNumber := by
  rw [registry_shutdown]
  cases state.item.claim? with
  | none => rfl
  | some claim => exact Registry.nextNumber_drop _ _

/-- A start leaves the logger without a claim, or with one that has the next number. -/
theorem claim?_start (thread : Thread) (options : SinkOptions) (state : Hosted Logger) :
    let next := state.host.registry.nextNumber
    let after := (start thread options state).1
    (after.item.claim? = none ∧
      (after.host.registry.nextNumber = next ∨ after.host.registry.nextNumber = next + 1)) ∨
    ∃ claim, after.item.claim? = some claim ∧ claim.number = next ∧
      after.host.registry.nextNumber = next + 1 := by
  intro next after
  cases hstart : (start thread options state).2 with
  | error error =>
      have hfails : Fails thread options state after error := fails_of_error hstart
      have hnumber := hfails.nextNumber
      rw [nextNumber_shutdown] at hnumber
      exact .inl ⟨by rw [hfails.item_eq, claim?_shutdown], hnumber⟩
  | ok =>
      obtain ⟨threshold, claim, files, sink, hstarts⟩ := starts_of_ok hstart
      obtain ⟨hclaim, hregistry⟩ := hstarts.names_start
      obtain ⟨hgranted, hgrant, -⟩ := Registry.claim_of_some hstarts.claim_eq
      have hnext : (shutdown thread state).host.registry.nextNumber = next :=
        nextNumber_shutdown thread state
      refine .inr ⟨claim, hclaim, ?_, ?_⟩
      · rw [hgranted, ← hnext]
        rfl
      · rw [hregistry, hgrant, ← hnext]
        rfl

/-- A start took a name over, or would have, and then failed over its file. -/
def TakesInVain (options : SinkOptions) (error : LogError) (name : String) : Prop :=
  error.isFile = true ∧ options.replace = true ∧ name = options.name

/-- The names held after a start that failed are those held before, without those of its logger and without
the one taken over in vain. -/
theorem Fails.isHeld_iff (hfails : Fails starter options before after error) (name : String) :
    after.host.registry.isHeld name = true ↔ before.host.registry.isHeld name = true ∧
      ¬HoldsName before name ∧ ¬TakesInVain options error name := by
  obtain ⟨hown, hkept⟩ := holder?_shutdown starter before name
  rw [Registry.isHeld, hfails.holder?_eq]
  by_cases hlost : error.isFile = true ∧ name = options.name
  · rw [if_pos hlost]
    obtain ⟨hfile, rfl⟩ := hlost
    refine iff_of_false Bool.false_ne_true ?_
    rintro ⟨hheld, hother, hvain⟩
    cases hreplace : options.replace with
    | true => exact hvain ⟨hfile, hreplace, rfl⟩
    | false =>
        have hfree := hfails.isHeld_eq_false hfile hreplace
        rw [Registry.isHeld, hkept hother] at hfree
        exact Bool.false_ne_true (hfree.symm.trans hheld)
  · have hcalm : ¬TakesInVain options error name := fun hvain => hlost ⟨hvain.1, hvain.2.2⟩
    rw [if_neg hlost]
    by_cases hholds : HoldsName before name
    · simp [hown hholds, hholds]
    · simp [hkept hholds, hholds, hcalm, Registry.isHeld]

end Logger

/-! ## Many loggers -/

/-- Loggers on one host. -/
structure Fleet where
  /-- The loggers. -/
  loggers : Nat → Logger
  /-- What they share. -/
  host : Host

namespace Fleet

open Logger

/-- One of the loggers. -/
def member (fleet : Fleet) (index : Nat) : Hosted Logger := ⟨fleet.loggers index, fleet.host⟩

/-- The loggers with one of them and their host changed. -/
def put (index : Nat) (next : Hosted Logger) (fleet : Fleet) : Fleet :=
  ⟨Function.update fleet.loggers index next.item, next.host⟩

@[simp]
theorem loggers_put_self (fleet : Fleet) (index : Nat) (next : Hosted Logger) :
    (fleet.put index next).loggers index = next.item := Function.update_self _ _ _

theorem loggers_put_of_ne (fleet : Fleet) {index other : Nat} (hother : other ≠ index)
    (next : Hosted Logger) : (fleet.put index next).loggers other = fleet.loggers other :=
  Function.update_of_ne hother _ _

/-- The loggers after an act of one of them. -/
def act (index : Nat) (act : Act) (fleet : Fleet) : Fleet :=
  fleet.put index (act.apply (fleet.member index))

/-- The loggers after some acts, each of one of them. -/
def perform (acts : List (Nat × Act)) (fleet : Fleet) : Fleet :=
  acts.foldl (fun fleet next => fleet.act next.1 next.2) fleet

/-- Loggers of which none was ever started. -/
structure IsNew (fleet : Fleet) : Prop where
  /-- None has a session. -/
  idle : ∀ index, (fleet.loggers index).session = none
  /-- No name was ever claimed. -/
  registry_eq : fleet.host.registry = .empty

/-- Loggers that were started so many times at most, without a number being used twice. -/
structure Numbered (count : Nat) (fleet : Fleet) : Prop where
  /-- Every start uses up one number at most. -/
  next_le : fleet.host.registry.nextNumber.toNat ≤ count + 1
  /-- The numbers of claims have been used up. -/
  number_lt : ∀ index claim, (fleet.loggers index).claim? = some claim →
    claim.number.toNat < fleet.host.registry.nextNumber.toNat
  /-- No two loggers have claims of one number. -/
  number_ne : ∀ first second, first ≠ second → ∀ claim other,
    (fleet.loggers first).claim? = some claim → (fleet.loggers second).claim? = some other →
      claim.number ≠ other.number

variable {fleet : Fleet} {count : Nat}

theorem IsNew.numbered (hnew : fleet.IsNew) : fleet.Numbered 0 := by
  have hnone : ∀ index claim, (fleet.loggers index).claim? ≠ some claim := by
    intro index claim hclaim
    rw [claim?, hnew.idle, Option.map_none] at hclaim
    exact Option.some_ne_none claim hclaim.symm
  refine ⟨?_, fun index claim hclaim => absurd hclaim (hnone index claim),
    fun first _ _ claim _ hclaim => absurd hclaim (hnone first claim)⟩
  rw [hnew.registry_eq]
  exact Nat.le_refl 1

/-- A logger keeps its claim, loses it, or has a new one with the next number. -/
theorem Numbered.change (hnumbered : fleet.Numbered count) {index later : Nat}
    {next : Hosted Logger} (hnext : next.host.registry.nextNumber.toNat ≤ later + 1)
    (hle : fleet.host.registry.nextNumber.toNat ≤ next.host.registry.nextNumber.toNat)
    (hclaim : ∀ claim, next.item.claim? = some claim →
      (fleet.loggers index).claim? = some claim ∨
        claim.number = fleet.host.registry.nextNumber ∧
          fleet.host.registry.nextNumber.toNat < next.host.registry.nextNumber.toNat) :
    (fleet.put index next).Numbered later := by
  have hother : ∀ second, second ≠ index → ∀ claim other, next.item.claim? = some claim →
      (fleet.loggers second).claim? = some other → claim.number ≠ other.number := by
    intro second hne claim other hsome hsecond hsame
    rcases hclaim claim hsome with hold | ⟨hnew, -⟩
    · exact hnumbered.number_ne index second hne.symm claim other hold hsecond hsame
    · have hlt := hnumbered.number_lt second other hsecond
      rw [← hsame, hnew] at hlt
      exact Nat.lt_irrefl _ hlt
  refine ⟨hnext, ?_, ?_⟩
  · intro found claim hfound
    by_cases hindex : found = index
    · subst hindex
      rw [loggers_put_self] at hfound
      rcases hclaim claim hfound with hold | ⟨hnew, hlt⟩
      · exact Nat.lt_of_lt_of_le (hnumbered.number_lt found claim hold) hle
      · rwa [hnew]
    · rw [loggers_put_of_ne _ hindex] at hfound
      exact Nat.lt_of_lt_of_le (hnumbered.number_lt found claim hfound) hle
  · intro first second hne claim other hfirst hsecond
    by_cases hindex : first = index
    · subst hindex
      rw [loggers_put_self] at hfirst
      rw [loggers_put_of_ne _ hne.symm] at hsecond
      exact hother second hne.symm claim other hfirst hsecond
    · rw [loggers_put_of_ne _ hindex] at hfirst
      by_cases hindex : second = index
      · subst hindex
        rw [loggers_put_self] at hsecond
        exact (hother first hne other claim hsecond hfirst).symm
      · rw [loggers_put_of_ne _ hindex] at hsecond
        exact hnumbered.number_ne first second hne claim other hfirst hsecond

/-- An act uses up one number at most, and none unless it is a start. -/
theorem Numbered.act (hnumbered : fleet.Numbered count) (index : Nat) (act : Act)
    (hroom : act.isStart = true → count + 2 < 2 ^ 64) :
    (fleet.act index act).Numbered (if act.isStart then count + 1 else count) := by
  have hnext := hnumbered.next_le
  cases act with
  | step step =>
      obtain ⟨hclaim, hregistry⟩ := step_keeps_names step (fleet.member index)
      exact hnumbered.change (hregistry ▸ hnext) (hregistry ▸ Nat.le_refl _)
        fun claim hsome => .inl (hclaim ▸ hsome)
  | shutdown thread =>
      have hsame := nextNumber_shutdown thread (fleet.member index)
      have hended := claim?_shutdown thread (fleet.member index)
      exact hnumbered.change (hsame ▸ hnext) (hsame ▸ Nat.le_refl _)
        fun claim hsome => absurd (hended.symm.trans hsome) (Option.some_ne_none claim).symm
  | start thread options =>
      let after := (Logger.start thread options (fleet.member index)).1
      have hone : (fleet.host.registry.nextNumber + 1).toNat =
          fleet.host.registry.nextNumber.toNat + 1 := by
        have hfits := hroom rfl
        rw [UInt64.toNat_add, UInt64.toNat_one]
        exact Nat.mod_eq_of_lt (by omega)
      have hbounds : ∀ {next : UInt64},
          (next = fleet.host.registry.nextNumber ∨ next = fleet.host.registry.nextNumber + 1) →
          next.toNat ≤ count + 1 + 1 ∧ fleet.host.registry.nextNumber.toNat ≤ next.toNat := by
        rintro next (rfl | rfl) <;> omega
      rcases claim?_start thread options (fleet.member index) with
        ⟨hnone, hnumber⟩ | ⟨claim, hclaim, hnew, hnumber⟩
      · exact hnumbered.change (hbounds hnumber).1 (hbounds hnumber).2
          fun claim hsome => absurd (hnone.symm.trans hsome) (Option.some_ne_none claim).symm
      · refine hnumbered.change (hbounds (.inr hnumber)).1 (hbounds (.inr hnumber)).2
          fun other hsome => .inr ⟨?_, ?_⟩
        · obtain rfl : claim = other := Option.some.inj (hclaim.symm.trans hsome)
          exact hnew
        · have hlater : after.host.registry.nextNumber = fleet.host.registry.nextNumber + 1 := hnumber
          rw [Act.apply, hlater, hone]
          exact Nat.lt_succ_self _

/-- No two loggers have claims of one number, until numbers run out. -/
theorem Numbered.perform (hnumbered : fleet.Numbered count) (acts : List (Nat × Act))
    (hroom : count + acts.countP (fun next => next.2.isStart) + 1 < 2 ^ 64) :
    (fleet.perform acts).Numbered (count + acts.countP fun next => next.2.isStart) := by
  induction acts generalizing fleet count with
  | nil => exact hnumbered
  | cons next rest induction =>
      rw [List.countP_cons] at hroom ⊢
      have hstep := hnumbered.act next.1 next.2 fun hstart => by
        rw [hstart, if_pos rfl] at hroom
        omega
      cases hstart : next.2.isStart with
      | false =>
          rw [hstart, if_neg Bool.false_ne_true] at hroom hstep
          exact induction hstep hroom
      | true =>
          rw [hstart, if_pos rfl] at hroom hstep
          have hrest := induction hstep (by omega)
          rwa [Nat.add_assoc, Nat.add_comm 1] at hrest

/-- A start that fails takes names from no other logger, unless it takes one over and then fails over its
file. The names held are those held before, without those that its own logger held and without the one
taken over in vain. Every other logger that held another name than that holds it still, so that only who
takes it over can claim it; for this the starts must not have used up all numbers. A start that fails for
another reason leaves the files as shutting down leaves them. -/
theorem failed_start_keeps_names (hnew : fleet.IsNew) (acts : List (Nat × Act)) {index : Nat}
    {starter : Thread} {options : SinkOptions} {error : LogError}
    (hfailed : (start starter options ((fleet.perform acts).member index)).2 = .error error) :
    let before := fleet.perform acts
    let after := before.act index (.start starter options)
    (∀ name, after.host.registry.isHeld name = true ↔ before.host.registry.isHeld name = true ∧
      ¬HoldsName (before.member index) name ∧ ¬TakesInVain options error name) ∧
    (acts.countP (fun next => next.2.isStart) < 2 ^ 64 - 1 →
      ∀ other ≠ index, ∀ name, HoldsName (before.member other) name →
        ¬TakesInVain options error name →
          HoldsName (after.member other) name ∧ (after.host.claim name false).1 = none) ∧
    (error.isFile = false →
      after.host.files = (Logger.shutdown starter (before.member index)).host.files) := by
  intro before after
  have hfails := fails_of_error hfailed
  refine ⟨hfails.isHeld_iff, ?_, ?_⟩
  · rintro hroom other hother name ⟨claim, hclaim, hname, hholder⟩ hcalm
    have hnumbered := hnew.numbered.perform acts (by omega)
    have hforeign : ¬HoldsName (before.member index) name := by
      rintro ⟨own, hown, -, hholds⟩
      apply hnumbered.number_ne index other hother.symm own claim hown hclaim
      exact Option.some.inj (hholds.symm.trans hholder)
    have hstays : after.host.registry.isHeld name = true :=
      (hfails.isHeld_iff name).2 ⟨by rw [Registry.isHeld]; exact hholder ▸ rfl, hforeign, hcalm⟩
    have hheld : after.host.registry.holder? name = some claim.number := by
      have hsame : after.host.registry.holder? name = _ := hfails.holder?_eq name
      split at hsame
      · rw [Registry.isHeld, hsame] at hstays
        exact absurd hstays Bool.false_ne_true
      · exact hsame.trans (((holder?_shutdown starter _ name).2 hforeign).trans hholder)
    have hlogger : after.loggers other = before.loggers other := loggers_put_of_ne _ hother _
    refine ⟨⟨claim, (congrArg claim? hlogger).trans hclaim, hname, hheld⟩, ?_⟩
    simp only [Host.claim, Registry.claim, hstays, if_true, Bool.false_eq_true, if_false]
  · intro hfile
    apply hfails.files_eq
    rintro fault rfl
    exact Bool.false_ne_true hfile.symm

/-! ## Two loggers -/

/-- Loggers of which none was started. -/
def fresh : Fleet := ⟨fun _ => .idle "info" .text .zero .threadFlag, .initial (.steady 0 0) 1⟩

theorem fresh_isNew : fresh.IsNew := ⟨fun _ => rfl, rfl⟩

/-- The first logger holds a name, and so does the second. -/
def twoStarts : List (Nat × Act) :=
  [(0, .start Host.firstThread (.ofPath "first.log" "first")),
    (1, .start Host.firstThread (.ofPath "second.log" "second"))]

/-- The second logger cannot have the name of the first one; it gives up its own name all the same. -/
theorem duplicate_keeps_first :
    let options := SinkOptions.ofPath "third.log" "first"
    let before := fresh.perform twoStarts
    let after := before.act 1 (.start Host.firstThread options)
    HoldsName (after.member 0) "first" ∧ (after.host.claim "first" false).1 = none ∧
      after.host.registry.isHeld "second" = false ∧
      after.host.files = (Logger.shutdown Host.firstThread (before.member 1)).host.files := by
  intro options before after
  have hfailed : (start Host.firstThread options (before.member 1)).2 =
      .error (.failedToStart "first" .duplicateName) := by decide +kernel
  have hcalm : ∀ name, ¬TakesInVain options (.failedToStart "first" .duplicateName) name :=
    fun _ hvain => Bool.false_ne_true hvain.1
  have hclaims : (before.loggers 0).claim? = some ⟨"first", 1⟩ ∧
      (before.loggers 1).claim? = some ⟨"second", 2⟩ ∧
      before.host.registry.holder? "first" = some 1 ∧
      before.host.registry.holder? "second" = some 2 := by decide +kernel
  obtain ⟨hfirst, hsecond, hfirstHeld, hsecondHeld⟩ := hclaims
  obtain ⟨hnames, hothers, hfiles⟩ := failed_start_keeps_names fresh_isNew twoStarts hfailed
  obtain ⟨hholds, hclaim⟩ := hothers (by decide) 0 (by decide) "first"
    ⟨⟨"first", 1⟩, hfirst, rfl, hfirstHeld⟩ (hcalm "first")
  refine ⟨hholds, hclaim, ?_, hfiles rfl⟩
  rw [← Bool.not_eq_true, hnames]
  exact fun hall => hall.2.1 ⟨⟨"second", 2⟩, hsecond, rfl, hsecondHeld⟩

/-- A second logger that takes the name of the first one over and cannot open its file loses the name for
it: the first logger still runs, and anyone can claim its name. -/
theorem takeover_in_vain_frees_name :
    let options := { SinkOptions.ofPath "/dev" "first" with replace := true }
    let before := fresh.perform [(0, .start Host.firstThread (.ofPath "first.log" "first"))]
    let after := before.act 1 (.start Host.firstThread options)
    (start Host.firstThread options (before.member 1)).2 =
        .error (.failedToStart "first" (.file (.system .isDirectory))) ∧
      before.host.registry.isHeld "first" = true ∧ (before.loggers 1).claim? = none ∧
      (before.loggers 0).claim? = some ⟨"first", 1⟩ ∧
      (after.loggers 0).claim? = some ⟨"first", 1⟩ ∧
      after.host.registry.isHeld "first" = false ∧
      (after.host.claim "first" false).1 = some ⟨"first", 3⟩ := by
  decide +kernel

end Fleet

end LogRelay
