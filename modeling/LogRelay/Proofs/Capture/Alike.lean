import LogRelay.Proofs.Capture.Acts
import LogRelay.Proofs.Message.Readers

/-!
# Captures that nobody can tell apart

A call whose payload breaks down leaves a spare slot half written. Nothing reads a spare slot before it is
filled anew, so two captures that differ in spare slots only answer every act alike, hand the same over and
stay alike.
-/

namespace LogRelay

variable {size capacity : Nat} {σ : Type}

/-- A receiver gets no more of a message than its readers do. -/
def Receiver.ReadsOnly (receive : Receiver size σ) : Prop :=
  ∀ one other : Message size, one.reading = other.reading → receive one = receive other

theorem Message.view_of_reading {one other : Message size} (hreading : one.reading = other.reading) :
    one.view = other.view := by
  simp only [reading, Reading.mk.injEq] at hreading
  obtain ⟨hlevel, htimestamp, -, -, htext, -⟩ := hreading
  rw [view, view, hlevel, htimestamp, htext]

theorem Message.set_breaks_congr (one other : Message size) (level : Level) (time : Duration)
    (payload : Payload) : (one.set level time payload).2 = (other.set level time payload).2 := by
  rw [Bool.eq_iff_iff, set_breaks_iff, set_breaks_iff]

namespace Queue

/-- Two queues of messages that differ in what nobody can read: in what their spare slots hold, and beyond
the terminators of what waits. -/
structure Alike (left right : Queue (Message size) capacity) : Prop where
  /-- Pushes are counted alike. -/
  writeIndex_eq : left.writeIndex = right.writeIndex
  /-- Pops are counted alike. -/
  readIndex_eq : left.readIndex = right.readIndex
  /-- Refused pushes are counted alike. -/
  dropped_eq : left.dropped = right.dropped
  /-- A push is in progress in both or in none. -/
  pushing_eq : left.pushing = right.pushing
  /-- A pop is in progress in both or in none. -/
  popping_eq : left.popping = right.popping
  /-- What waits reads alike. -/
  waiting_eq : left.waiting.map Message.reading = right.waiting.map Message.reading

namespace Alike

variable {left right : Queue (Message size) capacity}

theorem length_eq (halike : left.Alike right) : left.length = right.length := by
  rw [length, length, halike.writeIndex_eq, halike.readIndex_eq]

theorem count_eq (halike : left.Alike right) : left.count = right.count :=
  congrArg UInt64.toNat halike.length_eq

theorem countDrop (halike : left.Alike right) : left.countDrop.Alike right.countDrop :=
  ⟨halike.writeIndex_eq, halike.readIndex_eq, congrArg (· + 1) halike.dropped_eq, halike.pushing_eq,
    halike.popping_eq, halike.waiting_eq⟩

theorem takeDropped (halike : left.Alike right) :
    left.takeDropped.1 = right.takeDropped.1 ∧ left.takeDropped.2.Alike right.takeDropped.2 :=
  ⟨halike.dropped_eq, halike.writeIndex_eq, halike.readIndex_eq, rfl, halike.pushing_eq,
    halike.popping_eq, halike.waiting_eq⟩

theorem of_brokeDown {queue : Queue (Message size) capacity}
    {fill : Message size → Message size × Bool}
    (hbroke : (queue.pushWith fill).1 = .brokeDown ()) : queue.Alike (queue.pushWith fill).2 := by
  rcases queue.startPush_cases with ⟨-, hstart⟩ | ⟨hpushing, hcount, hstart⟩
  · rw [pushWith, hstart] at hbroke
    exact absurd hbroke (by simp)
  · rw [pushWith_granted hpushing hcount] at hbroke ⊢
    split at hbroke
    · next hfill =>
      rw [if_pos hfill]
      refine ⟨rfl, rfl, rfl, hpushing, rfl, ?_⟩
      rw [waiting_abandon_store hcount]
    · exact absurd hbroke (by simp)

/-- A message is pushed alike. -/
theorem pushWith (halike : left.Alike right) (level : Level) (time : Duration) (payload : Payload) :
    let fill := fun slot : Message size => slot.set level time payload
    (left.pushWith fill).1 = (right.pushWith fill).1 ∧
      (left.pushWith fill).2.Alike (right.pushWith fill).2 := by
  intro fill
  rcases left.startPush_cases with ⟨hrefused, hleft⟩ | ⟨hpushing, hcount, -⟩
  · have hright : right.startPush = (none, right.countDrop) := by
      rw [halike.pushing_eq, halike.count_eq] at hrefused
      exact startPush_refused hrefused
    rw [Queue.pushWith, Queue.pushWith, hleft, hright]
    exact ⟨rfl, halike.countDrop⟩
  · have hpushing' := halike.pushing_eq ▸ hpushing
    have hcount' := halike.count_eq ▸ hcount
    have hsame : (fill (left.peek left.writeIndex)).2 = (fill (right.peek right.writeIndex)).2 :=
      Message.set_breaks_congr _ _ _ _ _
    rw [pushWith_granted hpushing hcount, pushWith_granted hpushing' hcount', ← hsame]
    split
    · refine ⟨rfl, halike.writeIndex_eq, halike.readIndex_eq, halike.dropped_eq, rfl,
        halike.popping_eq, ?_⟩
      rw [waiting_abandon_store hcount, waiting_abandon_store hcount']
      exact halike.waiting_eq
    · next hcalm =>
      rw [Bool.not_eq_true] at hcalm
      have hreading : (fill (left.peek left.writeIndex)).1.reading =
          (fill (right.peek right.writeIndex)).1.reading :=
        Message.reading_set hcalm (hsame ▸ hcalm)
      refine ⟨rfl, congrArg (· + 1) halike.writeIndex_eq, halike.readIndex_eq, halike.dropped_eq, rfl,
        halike.popping_eq, ?_⟩
      rw [waiting_publish_store hcount, waiting_publish_store hcount', List.map_append,
        List.map_append, halike.waiting_eq, List.map_singleton, List.map_singleton, hreading]

theorem reading_oldest (halike : left.Alike right) (hcount : 0 < left.count) :
    (left.peek left.readIndex).reading = (right.peek right.readIndex).reading := by
  have hwaiting := halike.waiting_eq
  rw [left.waiting_eq_cons hcount, right.waiting_eq_cons (halike.count_eq ▸ hcount), List.map_cons,
    List.map_cons] at hwaiting
  exact (List.cons.inj hwaiting).1

theorem release (halike : left.Alike right) (hcount : 0 < left.count) :
    (left.release left.readIndex).Alike (right.release right.readIndex) := by
  refine ⟨halike.writeIndex_eq, congrArg (· + 1) halike.readIndex_eq, halike.dropped_eq,
    halike.pushing_eq, rfl, ?_⟩
  rw [left.waiting_release hcount, right.waiting_release (halike.count_eq ▸ hcount), List.map_tail,
    List.map_tail, halike.waiting_eq]

theorem keep (halike : left.Alike right) : left.keep.Alike right.keep :=
  ⟨halike.writeIndex_eq, halike.readIndex_eq, halike.dropped_eq, halike.pushing_eq, rfl,
    halike.waiting_eq⟩

end Alike

end Queue

/-! ## Passes -/

namespace Flow

/-- Two passes under way that nobody can tell apart. -/
structure Alike (left right : Flow size capacity σ) : Prop where
  /-- The queues are alike. -/
  queue : left.queue.Alike right.queue
  /-- The clocks are the same. -/
  clock_eq : left.clock = right.clock
  /-- The receivers are in the same state. -/
  receiver_eq : left.receiver = right.receiver

variable {receive : Receiver size σ} {left right : Flow size capacity σ}

/-- What waits is delivered alike. -/
theorem Alike.deliver (hreads : receive.ReadsOnly) (halike : left.Alike right) (limit : Nat) :
    (left.deliver receive limit).2 = (right.deliver receive limit).2 ∧
      (left.deliver receive limit).1.Alike (right.deliver receive limit).1 := by
  induction limit generalizing left right with
  | zero => exact ⟨rfl, halike⟩
  | succ limit induction =>
      rcases left.queue.startPop_cases with ⟨hrefused, -⟩ | ⟨hpopping, hcount, -⟩
      · have hrefused' := hrefused
        rw [halike.queue.popping_eq, halike.queue.count_eq] at hrefused'
        rw [deliver_of_refused receive hrefused, deliver_of_refused receive hrefused']
        exact ⟨rfl, halike⟩
      · have hpopping' := halike.queue.popping_eq ▸ hpopping
        have hcount' := halike.queue.count_eq ▸ hcount
        have hreceived : receive (left.queue.peek left.queue.readIndex) left.receiver =
            receive (right.queue.peek right.queue.readIndex) right.receiver := by
          rw [halike.receiver_eq]
          exact congrFun (hreads _ _ (halike.queue.reading_oldest hcount)) right.receiver
        rw [deliver_of_granted receive hpopping hcount, deliver_of_granted receive hpopping' hcount',
          hreceived]
        split
        · exact ⟨rfl, halike.queue.keep, halike.clock_eq, rfl⟩
        · exact induction ⟨halike.queue.release hcount, halike.clock_eq, rfl⟩

theorem Alike.reportDrops (receive : Receiver size σ) (halike : left.Alike right) :
    (Flow.reportDrops receive left).2 = (Flow.reportDrops receive right).2 ∧
      (Flow.reportDrops receive left).1.Alike (Flow.reportDrops receive right).1 := by
  obtain ⟨hcount, hqueue⟩ := halike.queue.takeDropped
  rw [Flow.reportDrops, Flow.reportDrops, hcount, halike.clock_eq, halike.receiver_eq]
  simp only
  split
  · exact ⟨rfl, hqueue, rfl, rfl⟩
  · exact ⟨rfl, hqueue, rfl, rfl⟩

theorem Alike.drain (hreads : receive.ReadsOnly) (halike : left.Alike right) :
    (Flow.drain receive left).2 = (Flow.drain receive right).2 ∧
      (Flow.drain receive left).1.Alike (Flow.drain receive right).1 := by
  obtain ⟨hending, hdelivered⟩ := halike.deliver hreads left.queue.length.toNat
  have hlimit : right.queue.length = left.queue.length := halike.queue.length_eq.symm
  rw [Flow.drain, Flow.drain, hlimit, ← hending]
  split
  · exact ⟨hending, hdelivered⟩
  · exact hdelivered.reportDrops receive

end Flow

/-! ## Captures -/

namespace Capture

/-- Two captures that nobody can tell apart. -/
structure Alike (left right : Capture size capacity) : Prop where
  /-- The queues are alike. -/
  queue : left.queue.Alike right.queue
  /-- The thresholds are the same. -/
  threshold_eq : left.threshold = right.threshold
  /-- The workers are the same. -/
  worker_eq : left.worker = right.worker

variable {receive : Receiver size σ} {left right : Capture size capacity}

theorem Alike.pending_eq (halike : left.Alike right) : left.pending = right.pending :=
  halike.queue.count_eq

theorem Alike.dropped_eq (halike : left.Alike right) : left.dropped = right.dropped :=
  congrArg UInt32.toNat halike.queue.dropped_eq

theorem alike_log_of_brokeDown {capture : Capture size capacity} {clock : Clock} {level : Level}
    {payload : Payload} (hbroke : (capture.log clock level payload).2.2 = true) :
    capture.Alike (capture.log clock level payload).1 := by
  rw [Capture.log] at hbroke ⊢
  split at hbroke
  · next henabled =>
    rw [if_pos henabled]
    exact ⟨.of_brokeDown (of_decide_eq_true hbroke), rfl, rfl⟩
  · exact absurd hbroke Bool.false_ne_true

theorem Alike.log (halike : left.Alike right) (clock : Clock) (level : Level) (payload : Payload) :
    (left.log clock level payload).2 = (right.log clock level payload).2 ∧
      (left.log clock level payload).1.Alike (right.log clock level payload).1 := by
  obtain ⟨houtcome, hqueue⟩ := halike.queue.pushWith level clock.now payload
  have henabled : left.isEnabled level = right.isEnabled level := by
    rw [isEnabled, isEnabled, halike.threshold_eq]
  rw [Capture.log, Capture.log, henabled]
  split
  · exact ⟨congrArg (fun outcome => (clock.tick, decide (outcome = .brokeDown ()))) houtcome, hqueue,
      halike.threshold_eq, halike.worker_eq⟩
  · exact ⟨rfl, halike⟩

theorem Alike.setLevel (halike : left.Alike right) (levelText : String) :
    (left.setLevel levelText).Alike (right.setLevel levelText) :=
  ⟨halike.queue, rfl, halike.worker_eq⟩

theorem Alike.workerPass (hreads : receive.ReadsOnly) (halike : left.Alike right) (clock : Clock)
    (receiver : σ) :
    let one := left.worker.pass (Flow.drain receive) ⟨left.queue, clock, receiver⟩
    let other := right.worker.pass (Flow.drain receive) ⟨right.queue, clock, receiver⟩
    one.1 = other.1 ∧ one.2.Alike other.2 := by
  intro one other
  have hflow : Flow.Alike ⟨left.queue, clock, receiver⟩ ⟨right.queue, clock, receiver⟩ :=
    ⟨halike.queue, rfl, rfl⟩
  obtain ⟨hending, hdrained⟩ := hflow.drain hreads
  simp only [one, other, Worker.pass, halike.worker_eq, hending]
  split
  · exact ⟨rfl, hdrained⟩
  · exact ⟨rfl, hflow⟩

theorem Alike.workerStop (hreads : receive.ReadsOnly) (halike : left.Alike right) (clock : Clock)
    (receiver : σ) :
    let one := left.worker.stop (Flow.drain receive) ⟨left.queue, clock, receiver⟩
    let other := right.worker.stop (Flow.drain receive) ⟨right.queue, clock, receiver⟩
    one.1 = other.1 ∧ one.2.1.Alike other.2.1 ∧ one.2.2 = other.2.2 := by
  intro one other
  have hpass := halike.workerPass hreads clock receiver
  simp only [one, other, Worker.stop, halike.worker_eq] at hpass ⊢
  split
  · exact ⟨rfl, ⟨halike.queue, rfl, rfl⟩, rfl⟩
  · rw [hpass.1]
    exact ⟨rfl, hpass.2, rfl⟩

theorem Alike.pass (hreads : receive.ReadsOnly) (halike : left.Alike right) (clock : Clock)
    (receiver : σ) :
    (left.pass receive clock receiver).2 = (right.pass receive clock receiver).2 ∧
      (left.pass receive clock receiver).1.Alike (right.pass receive clock receiver).1 := by
  obtain ⟨hworker, hflow⟩ := halike.workerPass hreads clock receiver
  exact ⟨Prod.ext hflow.clock_eq hflow.receiver_eq, hflow.queue, halike.threshold_eq, hworker⟩

theorem Alike.shutdown (hreads : receive.ReadsOnly) (halike : left.Alike right) (clock : Clock)
    (receiver : σ) :
    (left.shutdown receive clock receiver).2 = (right.shutdown receive clock receiver).2 ∧
      (left.shutdown receive clock receiver).1.Alike (right.shutdown receive clock receiver).1 := by
  obtain ⟨hworker, hflow, hevents⟩ := halike.workerStop hreads clock receiver
  exact ⟨Prod.ext hflow.clock_eq (Prod.ext hflow.receiver_eq hevents), hflow.queue,
    halike.threshold_eq, hworker⟩

end Capture

/-! ## Runs -/

namespace CaptureState

/-- Two captures in use that nobody can tell apart. -/
structure Alike (left right : CaptureState size capacity σ) : Prop where
  /-- The captures are alike. -/
  capture : left.capture.Alike right.capture
  /-- The clocks are the same. -/
  clock_eq : left.clock = right.clock
  /-- The receivers are in the same state. -/
  receiver_eq : left.receiver = right.receiver

variable {receive : Receiver size σ} {left right : CaptureState size capacity σ}

theorem Alike.look_eq (halike : left.Alike right) : left.look = right.look := by
  rw [look, look, halike.receiver_eq, halike.capture.pending_eq, halike.capture.dropped_eq,
    halike.capture.threshold_eq, halike.capture.worker_eq]

/-- An act tells the same of both, and leaves them alike. -/
theorem Alike.act (hreads : receive.ReadsOnly) (halike : left.Alike right) (act : CaptureAct) :
    act.answer receive left = act.answer receive right ∧
      (act.apply receive left).Alike (act.apply receive right) := by
  obtain ⟨left, clock, receiver⟩ := left
  obtain ⟨right, clock', receiver'⟩ := right
  obtain ⟨hcapture, hclock, hreceiver⟩ := halike
  obtain rfl : clock = clock' := hclock
  obtain rfl : receiver = receiver' := hreceiver
  cases act with
  | shutdown =>
      obtain ⟨hsame, hstopped⟩ := hcapture.shutdown hreads clock receiver
      exact ⟨congrArg (fun told : Clock × σ × List Event => CaptureAnswer.stopped told.2.2) hsame,
        hstopped, congrArg (fun told : Clock × σ × List Event => told.1) hsame,
        congrArg (fun told : Clock × σ × List Event => told.2.1) hsame⟩
  | step step =>
      cases step with
      | log level payload =>
          obtain ⟨hsame, hlogged⟩ := hcapture.log clock level payload
          exact ⟨congrArg (fun told : Clock × Bool => CaptureAnswer.logged told.2) hsame, hlogged,
            congrArg Prod.fst hsame, rfl⟩
      | setLevel levelText => exact ⟨rfl, hcapture.setLevel levelText, rfl, rfl⟩
      | pass =>
          obtain ⟨hsame, hpassed⟩ := hcapture.pass hreads clock receiver
          exact ⟨rfl, hpassed, congrArg Prod.fst hsame, congrArg Prod.snd hsame⟩

theorem Alike.perform (hreads : receive.ReadsOnly) (halike : left.Alike right)
    (acts : List CaptureAct) :
    left.answers receive acts = right.answers receive acts ∧
      (left.perform receive acts).Alike (right.perform receive acts) := by
  induction acts generalizing left right with
  | nil => exact ⟨rfl, halike⟩
  | cons act rest induction =>
      obtain ⟨hanswer, hnext⟩ := halike.act hreads act
      obtain ⟨hanswers, hlast⟩ := induction hnext
      exact ⟨by rw [answers, answers, hanswer, hanswers], hlast⟩

end CaptureState

end LogRelay
