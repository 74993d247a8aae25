import LogRelay.Proofs.Sink.Opening

/-!
# Calls on a sink

A sink is called to write records and to flush. As long as nothing asked of the file system fails, a call
that hands over a line either makes the file written to longer by it or begins a new file with it, and
every other call leaves the contents as they are.
-/

namespace LogRelay

/-- A call on a sink. -/
inductive SinkCall where
  | write (origin : Origin) (record : Record)
  | flush
deriving DecidableEq, Repr

/-- The bytes of the line that a call hands to a sink. -/
def SinkCall.line? (sink : Sink) : SinkCall → Option Bytes
  | write origin record => (record.line? sink.format sink.name origin).map Utf8.encode
  | flush => none

namespace SinkState

/-- The state after a call. -/
def call (state : SinkState) : SinkCall → SinkState
  | .write origin record => (state.write origin record).1
  | .flush => state.flush.1

/-- Whether a call makes the sink rotate. -/
def rotatesOn (state : SinkState) (call : SinkCall) : Bool :=
  match call.line? state.sink with
  | some line => state.isFull line.length
  | none => false

/-- The fault that a call ends with. -/
def faultOf? (state : SinkState) : SinkCall → Option IoFault
  | .write origin record =>
      match (state.write origin record).2 with
      | .refused fault => some fault
      | _ => none
  | .flush => state.flush.2

/-- Nothing that a call asks of the file system fails, a rotation included. -/
def Succeeds (state : SinkState) (call : SinkCall) : Prop :=
  (state.rotatesOn call = true → (state.sink.rotate state.files).fault = none) ∧
    state.faultOf? call = none

instance (state : SinkState) (call : SinkCall) : Decidable (state.Succeeds call) :=
  inferInstanceAs (Decidable (_ ∧ _))

/-- The state after some calls. -/
def run : List SinkCall → SinkState → SinkState
  | [], state => state
  | call :: rest, state => run rest (state.call call)

/-- Nothing that some calls ask of the file system fails. -/
def AllSucceed : List SinkCall → SinkState → Prop
  | [], _ => True
  | call :: rest, state => state.Succeeds call ∧ AllSucceed rest (state.call call)

instance decidableAllSucceed : (calls : List SinkCall) → (state : SinkState) →
    Decidable (AllSucceed calls state)
  | [], _ => inferInstanceAs (Decidable True)
  | call :: rest, state =>
      have := decidableAllSucceed rest (state.call call)
      inferInstanceAs (Decidable (state.Succeeds call ∧ AllSucceed rest (state.call call)))

/-- The contents of the files that some calls discard, in the order in which they are discarded. -/
def discards : List SinkCall → SinkState → List Bytes
  | [], _ => []
  | call :: rest, state =>
      (if state.rotatesOn call then state.discarded else []) ++ discards rest (state.call call)

/-- How often some calls make the sink rotate. -/
def rotations : List SinkCall → SinkState → Nat
  | [], _ => 0
  | call :: rest, state =>
      (if state.rotatesOn call then 1 else 0) + rotations rest (state.call call)

theorem run_append (front back : List SinkCall) (state : SinkState) :
    run (front ++ back) state = run back (run front state) := by
  induction front generalizing state with
  | nil => rfl
  | cons call rest induction => exact induction (state.call call)

theorem allSucceed_append {front back : List SinkCall} {state : SinkState} :
    AllSucceed (front ++ back) state ↔
      AllSucceed front state ∧ AllSucceed back (run front state) := by
  induction front generalizing state with
  | nil => simp [AllSucceed, run]
  | cons call rest induction =>
      rw [List.cons_append, AllSucceed, AllSucceed, induction, run, and_assoc]

end SinkState

/-! ## One call -/

theorem SinkCall.line_ne_nil {sink : Sink} {call : SinkCall} {line : Bytes}
    (hline : call.line? sink = some line) : line ≠ [] := by
  cases call with
  | flush => exact absurd hline (by simp [line?])
  | write origin record =>
      obtain ⟨chars, hchars, rfl⟩ := Option.map_eq_some_iff.1 hline
      have hlast : chars = record.lineChars sink.format sink.name origin := by
        unfold Record.line? at hchars
        split at hchars
        · exact (Option.some.inj hchars).symm
        · exact absurd hchars (by simp)
      rw [hlast]
      unfold Record.lineChars
      rw [Utf8.encode_append]
      intro hnil
      exact absurd (List.append_eq_nil_iff.1 hnil).2 (by decide)

theorem SinkCall.line?_congr {first second : Sink} (hsame : first.SameSettings second)
    (call : SinkCall) : call.line? second = call.line? first := by
  cases call with
  | flush => rfl
  | write origin record => rw [line?, line?, hsame.format_eq, hsame.name_eq]

namespace SinkState

variable {state : SinkState}

/-- Taking a line adds it to the file written to, whether it is flushed or not. -/
theorem Moored.take (hmoored : state.Moored) (severity : Severity) (line : Bytes) :
    ∃ taken, (match (state.append line).2 with
        | some fault => ((state.append line).1, some fault)
        | none => if severity.reaches .error then (state.append line).1.flush
            else ((state.append line).1, none)) = (taken, none) ∧
      taken.Moored ∧ state.sink.SameSettings taken.sink ∧
      taken.rotatedFiles = state.rotatedFiles ∧ taken.active = state.active ++ line := by
  obtain ⟨appended, happend, hmooredAppended, hrotated, hactive, hsettings⟩ := hmoored.append line
  simp only [happend]
  split
  · obtain ⟨flushed, hflush, hmooredFlushed, hflushedRotated, hflushedActive, -, hflushedSettings⟩ :=
      hmooredAppended.flush
    exact ⟨flushed, hflush, hmooredFlushed, hsettings.trans hflushedSettings,
      hflushedRotated.trans hrotated, hflushedActive.trans hactive⟩
  · exact ⟨appended, rfl, hmooredAppended, hsettings, hrotated, hactive⟩

theorem Moored.writeLine_of_room (hmoored : state.Moored) (severity : Severity) {line : Bytes}
    (hroom : state.isFull line.length = false) :
    ∃ written, SinkState.writeLine severity line state = (written, none) ∧ written.Moored ∧
      state.sink.SameSettings written.sink ∧ written.rotatedFiles = state.rotatedFiles ∧
      written.active = state.active ++ line := by
  obtain ⟨written, hwritten, hrest⟩ := hmoored.take severity line
  refine ⟨written, ?_, hrest⟩
  simp only [SinkState.writeLine, hroom, Bool.false_eq_true, if_false]
  exact hwritten

/-- Writing a line that would make the file too big begins a new file with it. -/
theorem Moored.writeLine_of_full (hmoored : state.Moored) (severity : Severity) {line : Bytes}
    (hfull : state.isFull line.length = true)
    (hfault : (state.sink.rotate state.files).fault = none) :
    ∃ written, SinkState.writeLine severity line state = (written, none) ∧ written.Moored ∧
      state.sink.SameSettings written.sink ∧
      state.discarded ++ written.rotatedFiles = state.rotatedFiles ++ [state.active] ∧
      written.active = line := by
  obtain ⟨hrotated, hfiles, hempty, hsettings⟩ := hmoored.rotate hfault
  obtain ⟨written, hwritten, hnext, hnextSettings, hnextFiles, hnextActive⟩ :=
    hrotated.take severity line
  refine ⟨written, ?_, hnext, hsettings.trans hnextSettings, ?_, ?_⟩
  · simp only [SinkState.writeLine, hfull, if_true]
    exact hwritten
  · rw [hnextFiles, hfiles]
  · rw [hnextActive, hempty, List.nil_append]

/-- What a call that succeeds does to the files. -/
theorem Moored.call (hmoored : state.Moored) {call : SinkCall} (hcall : state.Succeeds call) :
    (state.call call).Moored ∧ state.sink.SameSettings (state.call call).sink ∧
      match call.line? state.sink with
      | none => (state.call call).logFiles = state.logFiles
      | some line =>
          if state.isFull line.length then
            state.discarded ++ (state.call call).rotatedFiles =
                state.rotatedFiles ++ [state.active] ∧
              (state.call call).active = line
          else
            (state.call call).rotatedFiles = state.rotatedFiles ∧
              (state.call call).active = state.active ++ line := by
  cases call with
  | flush =>
      obtain ⟨flushed, hflush, hnext, hrotated, hactive, -, hsettings⟩ := hmoored.flush
      have hstate : state.call .flush = flushed := by rw [SinkState.call, hflush]
      rw [hstate]
      refine ⟨hnext, hsettings, ?_⟩
      change flushed.logFiles = state.logFiles
      rw [logFiles, logFiles, hrotated, hactive]
  | write origin record =>
      have hwrite : state.call (.write origin record) = (state.write origin record).1 := rfl
      cases hline : record.line? state.sink.format state.sink.name origin with
      | none =>
          have hkept : state.call (.write origin record) = state := by
            rw [hwrite, SinkState.write, hline]
          have hnone : SinkCall.line? state.sink (.write origin record) = none := by
            rw [SinkCall.line?, hline, Option.map_none]
          rw [hkept, hnone]
          exact ⟨hmoored, .refl _, rfl⟩
      | some chars =>
          have hsome : SinkCall.line? state.sink (.write origin record) =
              some (Utf8.encode chars) := by
            rw [SinkCall.line?, hline, Option.map_some]
          have hwritten : ∀ written,
              SinkState.writeLine record.severity (Utf8.encode chars) state = (written, none) →
                state.call (.write origin record) = written := by
            intro written hdone
            rw [hwrite, SinkState.write, hline]
            simp [hdone]
          have hrotatesOn : state.rotatesOn (.write origin record) =
              state.isFull (Utf8.encode chars).length := by
            rw [rotatesOn, hsome]
          rw [hsome]
          cases hfull : state.isFull (Utf8.encode chars).length with
          | false =>
              obtain ⟨written, hdone, hnext, hsettings, hfiles⟩ :=
                hmoored.writeLine_of_room record.severity hfull
              rw [hwritten written hdone]
              exact ⟨hnext, hsettings, by simpa [hfull] using hfiles⟩
          | true =>
              obtain ⟨written, hdone, hnext, hsettings, hfiles⟩ :=
                hmoored.writeLine_of_full record.severity hfull
                  (hcall.1 (by rw [hrotatesOn, hfull]))
              rw [hwritten written hdone]
              exact ⟨hnext, hsettings, by simpa [hfull] using hfiles⟩

end SinkState

end LogRelay
