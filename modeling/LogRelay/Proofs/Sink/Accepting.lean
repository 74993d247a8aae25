import LogRelay.Proofs.Sink.Reports

/-!
# Lines that are accepted

A sink accepts a line when its stream takes the bytes; what becomes of a flush behind them is another
matter. Whatever fails, on a file or on a device, no more bytes are held back than there is room for.
-/

namespace LogRelay

namespace Stream

variable {stream : Stream} {files : FileTree}

theorem length_held_flush_le :
    (stream.flush files).state.held.length ≤ stream.held.length := by
  unfold flush
  split
  · exact Nat.le_refl _
  · split
    · exact Nat.zero_le _
    · exact Nat.le_refl _

theorem held_eq_nil_of_flush (hflush : (stream.flush files).fault = none) :
    (stream.flush files).state.held = [] := by
  unfold flush at hflush ⊢
  split
  · next hnil => exact hnil
  · next hheld =>
    rw [if_neg hheld] at hflush
    split
    · rfl
    · next hwrite => simp [hwrite] at hflush

theorem length_held_accept_le {bytes : Bytes}
    (hroom : stream.held.length + bytes.length ≤ capacity ∨ stream.held = []) :
    (stream.accept files bytes).state.held.length ≤ capacity := by
  have hheld : stream.held.length ≤ capacity := by
    rcases hroom with hfits | hnil
    · omega
    · simp [hnil]
  unfold accept
  split
  · split <;> exact hheld
  · next hsmall =>
    rw [List.length_append]
    rcases hroom with hfits | hnil
    · exact hfits
    · rw [hnil, List.length_nil]
      omega

theorem length_held_append_le (hheld : stream.held.length ≤ capacity) (bytes : Bytes) :
    (stream.append files bytes).state.held.length ≤ capacity := by
  unfold append
  split
  · simp only
    split
    · exact Nat.le_trans length_held_flush_le hheld
    · next hflush => exact length_held_accept_le (.inr (held_eq_nil_of_flush hflush))
  · next hroom => exact length_held_accept_le (.inl (Nat.le_of_not_lt hroom))

end Stream

theorem Sink.length_held_rotate_le (sink : Sink) (files : FileTree) :
    (sink.rotate files).state.stream.held.length ≤ sink.stream.held.length := by
  have hflush := @Stream.length_held_flush_le sink.stream files
  unfold rotate
  simp only
  split
  · exact hflush
  · split
    · exact hflush
    · split
      · exact hflush
      · exact Nat.zero_le _

namespace SinkState

/-! ## What becomes of a record -/

/-- The line of a call that the stream takes. -/
def accepted? (state : SinkState) (call : SinkCall) : Option Bytes :=
  (call.line? state.sink).filter fun line => ((state.ready line.length).append line).2 = none

/-- What becomes of a record that a sink is given: the line that is accepted, if any, and the state and the
answer after it. -/
inductive Written (state : SinkState) (origin : Origin) (record : Record) :
    Option Bytes → SinkState × WriteResult → Prop
  /-- The record has no line. -/
  | brokeDown (hline : SinkCall.line? state.sink (.write origin record) = none) :
      Written state origin record none (state, .brokeDown)
  /-- The line is not taken. -/
  | refused {line : Bytes} {appended : SinkState} {fault : IoFault}
      (hline : SinkCall.line? state.sink (.write origin record) = some line)
      (happend : (state.ready line.length).append line = (appended, some fault)) :
      Written state origin record none (appended, .refused fault)
  /-- The line is taken, and there is no hurry. -/
  | taken {line : Bytes} {appended : SinkState}
      (hline : SinkCall.line? state.sink (.write origin record) = some line)
      (happend : (state.ready line.length).append line = (appended, none))
      (hcalm : record.severity.reaches .error = false) :
      Written state origin record (some line) (appended, .done)
  /-- The line is taken and flushed. -/
  | flushed {line : Bytes} {appended flushed : SinkState}
      (hline : SinkCall.line? state.sink (.write origin record) = some line)
      (happend : (state.ready line.length).append line = (appended, none))
      (hurgent : record.severity.reaches .error = true) (hflush : appended.flush = (flushed, none)) :
      Written state origin record (some line) (flushed, .done)
  /-- The line is taken, and the flush behind it fails. -/
  | stuck {line : Bytes} {appended flushed : SinkState} {fault : IoFault}
      (hline : SinkCall.line? state.sink (.write origin record) = some line)
      (happend : (state.ready line.length).append line = (appended, none))
      (hurgent : record.severity.reaches .error = true)
      (hflush : appended.flush = (flushed, some fault)) :
      Written state origin record (some line) (flushed, .refused fault)

theorem written (state : SinkState) (origin : Origin) (record : Record) :
    state.Written origin record (state.accepted? (.write origin record))
      (state.write origin record) := by
  cases hchars : record.line? state.sink.format state.sink.name origin with
  | none =>
      have hline : SinkCall.line? state.sink (.write origin record) = none := by
        rw [SinkCall.line?, hchars, Option.map_none]
      simp only [accepted?, hline, Option.filter_none, write, hchars]
      exact .brokeDown hline
  | some chars =>
      have hline : SinkCall.line? state.sink (.write origin record) = some (Utf8.encode chars) := by
        rw [SinkCall.line?, hchars, Option.map_some]
      simp only [accepted?, hline, Option.filter_some, write, hchars, writeLine]
      change Written state origin record (if decide
          (((state.ready (Utf8.encode chars).length).append (Utf8.encode chars)).2 = none) = true
        then some (Utf8.encode chars) else none) _
      have happend : (if state.isFull (Utf8.encode chars).length then state.rotate else state).append
          (Utf8.encode chars) =
          (state.ready (Utf8.encode chars).length).append (Utf8.encode chars) := rfl
      rw [happend]
      rcases hresult : (state.ready (Utf8.encode chars).length).append (Utf8.encode chars) with
        ⟨appended, _ | fault⟩
      · simp only [decide_true, if_true]
        cases hsevere : record.severity.reaches .error with
        | false => exact .taken hline hresult hsevere
        | true =>
            rcases hflush : appended.flush with ⟨flushed, _ | fault⟩
            · simp only [if_true]
              exact .flushed hline hresult hsevere hflush
            · simp only [if_true]
              exact .stuck hline hresult hsevere hflush
      · exact .refused hline hresult

/-! ## What is held back -/

theorem length_held_ready_le (state : SinkState) (count : Nat) :
    (state.ready count).sink.stream.held.length ≤ state.sink.stream.held.length := by
  unfold ready
  split
  · have hrotate := Sink.length_held_rotate_le state.sink state.files
    simp only [rotate]
    split <;> exact hrotate
  · exact Nat.le_refl _

theorem length_held_append_le {state : SinkState}
    (hheld : state.sink.stream.held.length ≤ Stream.capacity) (bytes : Bytes) :
    (state.append bytes).1.sink.stream.held.length ≤ Stream.capacity := by
  have happend := @Stream.length_held_append_le state.sink.stream state.files hheld bytes
  simp only [append]
  split <;> exact happend

/-- No call makes a sink hold back more than there is room for. -/
theorem length_held_call_le {state : SinkState}
    (hheld : state.sink.stream.held.length ≤ Stream.capacity) (call : SinkCall) :
    (state.call call).sink.stream.held.length ≤ Stream.capacity := by
  have hflush : ∀ other : SinkState,
      other.flush.1.sink.stream.held.length ≤ other.sink.stream.held.length :=
    fun _ => Stream.length_held_flush_le
  obtain ⟨hcall, -⟩ | ⟨hcall, -⟩ | ⟨severity, bytes, hcall, -⟩ := state.call_cases call
  · rw [hcall]
    exact hheld
  · rw [hcall]
    exact Nat.le_trans (hflush state) hheld
  · have happend := @length_held_append_le (state.ready bytes.length)
      (Nat.le_trans (state.length_held_ready_le _) hheld) bytes
    rw [hcall]
    obtain hwrite | hwrite := state.writeLine_cases severity bytes
    · rw [hwrite]
      exact happend
    · rw [hwrite]
      exact Nat.le_trans (hflush _) happend

theorem length_held_run_le {state : SinkState}
    (hheld : state.sink.stream.held.length ≤ Stream.capacity) (calls : List SinkCall) :
    (run calls state).sink.stream.held.length ≤ Stream.capacity := by
  induction calls generalizing state with
  | nil => exact hheld
  | cons call rest induction => exact induction (length_held_call_le hheld call)

end SinkState

end LogRelay
