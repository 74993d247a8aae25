import LogRelay.Proofs.Message.Fitting
import LogRelay.Proofs.Queue.Fifo

/-!
# One pass of the worker

Between steps the queue of a capture is idle. A push into an idle queue puts its element behind everything
that waits, or is refused when the queue is full. With a receiver that never breaks down, a pass hands
over everything that waits, oldest first, and then one report if calls were refused.
-/

namespace LogRelay

variable {size capacity : Nat} {σ : Type}

/-- The state of a receiver that has taken some messages, one after the other. -/
def Receiver.takeAll (receive : Receiver size σ) (messages : List (Message size)) (receiver : σ) : σ :=
  messages.foldl (fun receiver message => (receive message receiver).1) receiver

/-- Whether a receiver breaks down over one of some messages that it takes one after the other. -/
def Receiver.breaksOver (receive : Receiver size σ) : List (Message size) → σ → Bool
  | [], _ => false
  | message :: rest, receiver =>
      (receive message receiver).2 || breaksOver receive rest (receive message receiver).1

theorem Receiver.breaksOver_append (receive : Receiver size σ) (front back : List (Message size))
    (receiver : σ) :
    receive.breaksOver (front ++ back) receiver =
      (receive.breaksOver front receiver ||
        receive.breaksOver back (Receiver.takeAll receive front receiver)) := by
  induction front generalizing receiver with
  | nil => rfl
  | cons message rest induction =>
      rw [List.cons_append, breaksOver, breaksOver, induction, Bool.or_assoc]
      rfl

/-- A queue at rest: no push and no pop is in progress. -/
structure Queue.Idle {α : Type} (queue : Queue α capacity) : Prop where
  /-- The waiting elements fit. -/
  sound : queue.Sound
  /-- No push is in progress. -/
  pushing_eq : queue.pushing = false
  /-- No pop is in progress. -/
  popping_eq : queue.popping = false

theorem Queue.idle_new {α : Type} (hcapacity : IsCapacity capacity) (blank : α) :
    (Queue.new hcapacity blank).Idle := ⟨Queue.sound_new hcapacity blank, rfl, rfl⟩

theorem Queue.waiting_new {α : Type} (hcapacity : IsCapacity capacity) (blank : α) :
    (Queue.new hcapacity blank).waiting = [] := by
  rw [Queue.waiting, Queue.count, Queue.length, Queue.new]
  simp

theorem Queue.pushWith_full {α : Type} {queue : Queue α capacity} (hfull : capacity ≤ queue.count)
    (fill : α → α × Bool) : queue.pushWith fill = (.refused, queue.countDrop) := by
  rw [pushWith, startPush_refused (.inr hfull)]

namespace Queue

variable {α : Type} {queue : Queue α capacity}

theorem pushWith_granted (hpushing : queue.pushing = false) (hroom : queue.count < capacity)
    (fill : α → α × Bool) :
    queue.pushWith fill =
      if (fill (queue.peek queue.writeIndex)).2 then
        (.brokeDown (), (queue.store queue.writeIndex (fill (queue.peek queue.writeIndex)).1).abandon)
      else
        (.finished (), (queue.store queue.writeIndex
          (fill (queue.peek queue.writeIndex)).1).publish queue.writeIndex) := by
  rw [pushWith, startPush_granted hpushing hroom]
  rfl

theorem waiting_abandon_store (hroom : queue.count < capacity) (element : α) :
    (queue.store queue.writeIndex element).abandon.waiting = queue.waiting :=
  waiting_store queue element hroom

theorem waiting_publish_store (hroom : queue.count < capacity) (element : α) :
    ((queue.store queue.writeIndex element).publish queue.writeIndex).waiting =
      queue.waiting ++ [element] := by
  let stored := queue.store queue.writeIndex element
  have hpublished := waiting_publish stored hroom
  have hlast : stored.peek stored.writeIndex = element := queue.peek_store_self _ _
  rw [hlast, waiting_store queue element hroom] at hpublished
  exact hpublished

namespace Idle

theorem countDrop (hidle : queue.Idle) : queue.countDrop.Idle :=
  ⟨⟨hidle.sound.count_le, hidle.sound.count_lt, hidle.sound.count_pos⟩, hidle.pushing_eq,
    hidle.popping_eq⟩

theorem pushWith_room (hidle : queue.Idle) (hroom : queue.count < capacity) {fill : α → α × Bool}
    (hfill : (fill (queue.peek queue.writeIndex)).2 = false) :
    ∃ pushed, queue.pushWith fill = (.finished (), pushed) ∧ pushed.Idle ∧
      pushed.waiting = queue.waiting ++ [(fill (queue.peek queue.writeIndex)).1] ∧
      pushed.dropped = queue.dropped := by
  let stored := queue.store queue.writeIndex (fill (queue.peek queue.writeIndex)).1
  have hstored : stored.count < capacity := hroom
  refine ⟨stored.publish stored.writeIndex, ?_, ⟨sound_publish hstored, rfl, hidle.popping_eq⟩,
    waiting_publish_store hroom _, rfl⟩
  rw [pushWith_granted hidle.pushing_eq hroom, hfill, if_neg Bool.false_ne_true]
  rfl

theorem pushWith_brokeDown (hidle : queue.Idle) (hroom : queue.count < capacity)
    {fill : α → α × Bool} (hfill : (fill (queue.peek queue.writeIndex)).2 = true) :
    ∃ abandoned, queue.pushWith fill = (.brokeDown (), abandoned) ∧ abandoned.Idle ∧
      abandoned.waiting = queue.waiting ∧ abandoned.dropped = queue.dropped := by
  let stored := queue.store queue.writeIndex (fill (queue.peek queue.writeIndex)).1
  have hstored : stored.Sound :=
    ⟨hidle.sound.count_le, hidle.sound.count_lt, hidle.sound.count_pos⟩
  refine ⟨stored.abandon, ?_, ⟨hstored.abandon, rfl, hidle.popping_eq⟩,
    waiting_abandon_store hroom _, rfl⟩
  rw [pushWith_granted hidle.pushing_eq hroom, hfill, if_pos rfl]

end Idle

end Queue

/-! ## Delivering -/

namespace Flow

variable {flow : Flow size capacity σ}

theorem deliver_of_refused (receive : Receiver size σ)
    (hrefused : flow.queue.popping = true ∨ flow.queue.count = 0) (limit : Nat) :
    flow.deliver receive (limit + 1) = (flow, false) := by
  rw [deliver, Queue.startPop_refused hrefused]

theorem deliver_of_granted (receive : Receiver size σ) (hpopping : flow.queue.popping = false)
    (hsome : 0 < flow.queue.count) (limit : Nat) :
    let received := receive (flow.queue.peek flow.queue.readIndex) flow.receiver
    flow.deliver receive (limit + 1) =
      if received.2 then (⟨flow.queue.keep, flow.clock, received.1⟩, true)
      else
        (⟨flow.queue.release flow.queue.readIndex, flow.clock, received.1⟩ :
          Flow size capacity σ).deliver receive limit := by
  rw [deliver, Queue.startPop_granted hpopping hsome]
  rfl

end Flow

namespace Flow

variable {receive : Receiver size σ} {flow : Flow size capacity σ} {limit : Nat}

theorem rest_idle (hidle : flow.queue.Idle) (hlimit : flow.queue.count = limit + 1) (receiver : σ) :
    let oldest := flow.queue.peek flow.queue.readIndex
    let rest : Flow size capacity σ :=
      ⟨flow.queue.release flow.queue.readIndex, flow.clock, receiver⟩
    rest.queue.Idle ∧ rest.queue.count = limit ∧ flow.queue.waiting = oldest :: rest.queue.waiting := by
  have hsome : 0 < flow.queue.count := by omega
  have hcount := flow.queue.count_release hsome
  refine ⟨⟨hidle.sound.release hsome, hidle.pushing_eq, rfl⟩, by simp only; omega, ?_⟩
  rw [flow.queue.waiting_release hsome, flow.queue.waiting_eq_cons hsome, List.tail_cons]

/-- Everything that waits is handed over, oldest first, if the receiver does not break down over it. -/
theorem deliver_calm (hcalm : receive.breaksOver flow.queue.waiting flow.receiver = false)
    (hidle : flow.queue.Idle) (hlimit : flow.queue.count = limit) :
    ∃ queue, flow.deliver receive limit =
        (⟨queue, flow.clock, Receiver.takeAll receive flow.queue.waiting flow.receiver⟩, false) ∧
      queue.Idle ∧ queue.waiting = [] ∧ queue.dropped = flow.queue.dropped := by
  induction limit generalizing flow with
  | zero =>
      have hnone := Queue.waiting_eq_nil hlimit
      exact ⟨flow.queue, by rw [hnone]; rfl, hidle, hnone, rfl⟩
  | succ limit induction =>
      let received := receive (flow.queue.peek flow.queue.readIndex) flow.receiver
      obtain ⟨hrest, hcount, hwaiting⟩ := rest_idle hidle hlimit received.1
      rw [hwaiting, Receiver.breaksOver, Bool.or_eq_false_iff] at hcalm
      obtain ⟨queue, hdeliver, hqueue, hempty, hdropped⟩ := induction hcalm.2 hrest hcount
      refine ⟨queue, ?_, hqueue, hempty, hdropped⟩
      rw [deliver_of_granted receive hidle.popping_eq (by omega), hcalm.1, if_neg Bool.false_ne_true,
        hdeliver, hwaiting]
      rfl

/-- The messages before the one that the receiver breaks down over are handed over, oldest first, then this
one; it stays in the queue with those behind it. -/
theorem deliver_broken (hbreaks : receive.breaksOver flow.queue.waiting flow.receiver = true)
    (hidle : flow.queue.Idle) (hlimit : flow.queue.count = limit) :
    ∃ queue front bad back, flow.queue.waiting = front ++ bad :: back ∧
      receive.breaksOver front flow.receiver = false ∧
      (receive bad (Receiver.takeAll receive front flow.receiver)).2 = true ∧
      flow.deliver receive limit =
        (⟨queue, flow.clock, Receiver.takeAll receive (front ++ [bad]) flow.receiver⟩, true) ∧
      queue.Idle ∧ queue.waiting = bad :: back ∧ queue.dropped = flow.queue.dropped := by
  induction limit generalizing flow with
  | zero =>
      have hnone := Queue.waiting_eq_nil hlimit
      rw [hnone] at hbreaks
      exact absurd hbreaks Bool.false_ne_true
  | succ limit induction =>
      let oldest := flow.queue.peek flow.queue.readIndex
      let received := receive oldest flow.receiver
      obtain ⟨hrest, hcount, hwaiting⟩ := rest_idle hidle hlimit received.1
      have hdeliver := @deliver_of_granted _ _ _ flow receive hidle.popping_eq (by omega) limit
      cases holdest : received.2 with
      | true =>
          refine ⟨flow.queue.keep, [], oldest, _, hwaiting, rfl, holdest, ?_,
            ⟨hidle.sound.keep, hidle.pushing_eq, rfl⟩, hwaiting, rfl⟩
          rw [hdeliver]
          exact if_pos holdest
      | false =>
          rw [hwaiting, Receiver.breaksOver] at hbreaks
          have hspared : ¬received.2 = true := fun htrue => Bool.false_ne_true (holdest.symm.trans htrue)
          let rest : Flow size capacity σ :=
            ⟨flow.queue.release flow.queue.readIndex, flow.clock, received.1⟩
          have hlater : receive.breaksOver rest.queue.waiting rest.receiver = true :=
            (Bool.or_eq_true_iff.1 hbreaks).resolve_left hspared
          obtain ⟨queue, front, bad, back, hsplit, hfront, hbad, hlast, hqueue, hkept, hdropped⟩ :=
            @induction rest hlater hrest hcount
          refine ⟨queue, oldest :: front, bad, back, ?_, ?_, hbad, ?_, hqueue, hkept, hdropped⟩
          · rw [hwaiting, hsplit, List.cons_append]
          · rw [Receiver.breaksOver, hfront, Bool.or_false]
            exact holdest
          · rw [hdeliver]
            exact (if_neg hspared).trans hlast

end Flow

theorem Receiver.takeAll_append (receive : Receiver size σ) (front back : List (Message size))
    (receiver : σ) :
    Receiver.takeAll receive (front ++ back) receiver =
      Receiver.takeAll receive back (Receiver.takeAll receive front receiver) :=
  List.foldl_append

theorem Queue.Idle.takeDropped {α : Type} {queue : Queue α capacity} (hidle : queue.Idle) :
    queue.takeDropped.2.Idle :=
  ⟨⟨hidle.sound.count_le, hidle.sound.count_lt, hidle.sound.count_pos⟩, hidle.pushing_eq,
    hidle.popping_eq⟩

/-! ## A whole pass -/

namespace Flow

/-- What a reader gets of the report about the refused calls. -/
def report (flow : Flow size capacity σ) : View :=
  ⟨.warning, flow.clock.now, reportText flow.queue.dropped.toNat⟩

/-- What a reader gets of the report about the refused calls, as far as it fits into a message. -/
def fittedReport (flow : Flow size capacity σ) : View :=
  ⟨.warning, flow.clock.now, (dropReport flow.queue.dropped).fitted (size - 1)⟩

theorem fittedReport_eq (hsize : 42 ≤ size) (flow : Flow size capacity σ) :
    flow.fittedReport = flow.report := by
  rw [fittedReport, fitted_dropReport hsize, report]

/-- How a pass over an idle queue can end. -/
inductive Drained (receive : Receiver size σ) (flow : Flow size capacity σ) :
    Flow size capacity σ × Bool → Prop
  /-- Everything that waits is handed over, and there is nothing to report. -/
  | silent (queue : Queue (Message size) capacity)
      (hcalm : receive.breaksOver flow.queue.waiting flow.receiver = false)
      (hnone : flow.queue.dropped = 0) (hidle : queue.Idle) (hempty : queue.waiting = [])
      (hzero : queue.dropped = 0) :
      Drained receive flow
        (⟨queue, flow.clock, receive.takeAll flow.queue.waiting flow.receiver⟩, false)
  /-- Everything that waits is handed over, and then the report; the receiver may break down over it. -/
  | reported (queue : Queue (Message size) capacity) (message : Message size)
      (hcalm : receive.breaksOver flow.queue.waiting flow.receiver = false)
      (hsome : flow.queue.dropped ≠ 0) (hview : message.view = flow.fittedReport)
      (hidle : queue.Idle) (hempty : queue.waiting = []) (hzero : queue.dropped = 0) :
      Drained receive flow
        (⟨queue, flow.clock.tick,
          receive.takeAll (flow.queue.waiting ++ [message]) flow.receiver⟩,
          (receive message (receive.takeAll flow.queue.waiting flow.receiver)).2)
  /-- The receiver breaks down over a message that waits. -/
  | stopped (queue : Queue (Message size) capacity) (front : List (Message size))
      (bad : Message size) (back : List (Message size))
      (hwaiting : flow.queue.waiting = front ++ bad :: back)
      (hcalm : receive.breaksOver front flow.receiver = false)
      (hbad : (receive bad (receive.takeAll front flow.receiver)).2 = true)
      (hidle : queue.Idle) (hkept : queue.waiting = bad :: back)
      (hdropped : queue.dropped = flow.queue.dropped) :
      Drained receive flow
        (⟨queue, flow.clock, receive.takeAll (front ++ [bad]) flow.receiver⟩, true)

/-- What a receiver leaves alone whatever it takes, delivering leaves alone. -/
theorem kept_deliver {τ : Type} {receive : Receiver size σ} (view : Clock → σ → τ)
    (hreceive : ∀ clock message receiver,
      view clock (receive message receiver).1 = view clock receiver)
    (limit : Nat) (flow : Flow size capacity σ) :
    view (flow.deliver receive limit).1.clock (flow.deliver receive limit).1.receiver =
      view flow.clock flow.receiver := by
  induction limit generalizing flow with
  | zero => rfl
  | succ limit induction =>
      rcases flow.queue.startPop_cases with ⟨hrefused, -⟩ | ⟨hpopping, hcount, -⟩
      · rw [deliver_of_refused receive hrefused]
      · rw [deliver_of_granted receive hpopping hcount]
        split
        · exact hreceive _ _ _
        · exact (induction _).trans (hreceive _ _ _)

/-- What a receiver leaves alone whatever it takes, a pass leaves alone, up to reading the clock. -/
theorem kept_drain {τ : Type} {receive : Receiver size σ} (view : Clock → σ → τ)
    (hreceive : ∀ clock message receiver,
      view clock (receive message receiver).1 = view clock receiver)
    (hclock : ∀ clock receiver, view clock.tick receiver = view clock receiver)
    (flow : Flow size capacity σ) :
    view (drain receive flow).1.clock (drain receive flow).1.receiver =
      view flow.clock flow.receiver := by
  have hdeliver := kept_deliver view hreceive flow.queue.length.toNat flow
  rw [drain]
  split
  · exact hdeliver
  · rw [← hdeliver, reportDrops]
    simp only
    split
    · rfl
    · exact (hclock _ _).trans (hreceive _ _ _)

/-- A pass ends at the message that the receiver breaks down over; calls refused so far are not reported. -/
theorem drain_broken {receive : Receiver size σ} {flow : Flow size capacity σ}
    (hbreaks : receive.breaksOver flow.queue.waiting flow.receiver = true)
    (hidle : flow.queue.Idle) :
    ∃ queue front bad back, flow.queue.waiting = front ++ bad :: back ∧
      receive.breaksOver front flow.receiver = false ∧
      (receive bad (receive.takeAll front flow.receiver)).2 = true ∧
      drain receive flow =
        (⟨queue, flow.clock, receive.takeAll (front ++ [bad]) flow.receiver⟩, true) ∧
      queue.Idle ∧ queue.waiting = bad :: back ∧ queue.dropped = flow.queue.dropped := by
  obtain ⟨queue, front, bad, back, hwaiting, hcalm, hbad, hdeliver, hqueue⟩ :=
    deliver_broken hbreaks hidle rfl
  have hcount : flow.queue.length.toNat = flow.queue.count := rfl
  refine ⟨queue, front, bad, back, hwaiting, hcalm, hbad, ?_, hqueue⟩
  rw [drain, hcount, hdeliver]
  rfl

theorem drained (receive : Receiver size σ) {flow : Flow size capacity σ} (hidle : flow.queue.Idle) :
    flow.Drained receive (drain receive flow) := by
  have hcount : flow.queue.length.toNat = flow.queue.count := rfl
  cases hbreaks : receive.breaksOver flow.queue.waiting flow.receiver with
  | true =>
      obtain ⟨queue, front, bad, back, hwaiting, hcalm, hbad, hdrain, hqueue, hkept, hdropped⟩ :=
        drain_broken hbreaks hidle
      rw [hdrain]
      exact .stopped queue front bad back hwaiting hcalm hbad hqueue hkept hdropped
  | false =>
      obtain ⟨queue, hdeliver, hqueue, hempty, hdropped⟩ := deliver_calm hbreaks hidle rfl
      rw [drain, hcount, hdeliver]
      simp only [Bool.false_eq_true, if_false, reportDrops, Queue.takeDropped, hdropped]
      split
      · next hnone => exact .silent queue.takeDropped.2 hbreaks hnone hqueue.takeDropped hempty rfl
      · next hsome =>
        let blank := Message.blank (queue.peek 0).size_pos
        let message := (blank.set .warning flow.clock.now (dropReport flow.queue.dropped)).1
        have hview : message.view = flow.fittedReport :=
          (blank.set_strict .warning flow.clock.now (isStrict_dropReport flow.queue.dropped)).2
        have hreported := Drained.reported queue.takeDropped.2 message hbreaks hsome hview
          hqueue.takeDropped hempty rfl
        rw [Receiver.takeAll_append] at hreported
        exact hreported

/-- A pass hands over everything that waits and then, if calls were refused, a report, unless the receiver
breaks down over one of these. -/
theorem drain_idle (hsize : 42 ≤ size) {receive : Receiver size σ} {flow : Flow size capacity σ}
    (hreceive : ∀ message, message ∈ flow.queue.waiting ∨
      (flow.queue.dropped ≠ 0 ∧ message.view = flow.report) →
        ∀ receiver, (receive message receiver).2 = false)
    (hidle : flow.queue.Idle) :
    ∃ queue reports, drain receive flow =
        (⟨queue, if flow.queue.dropped = 0 then flow.clock else flow.clock.tick,
          Receiver.takeAll receive (flow.queue.waiting ++ reports) flow.receiver⟩, false) ∧
      queue.Idle ∧ queue.waiting = [] ∧ queue.dropped = 0 ∧
      reports.map Message.view = if flow.queue.dropped = 0 then [] else [flow.report] := by
  have hdrained := drained receive hidle
  generalize drain receive flow = result at hdrained ⊢
  cases hdrained with
  | silent queue hcalm hnone hqueue hempty hzero =>
      refine ⟨queue, [], ?_, hqueue, hempty, hzero, by rw [if_pos hnone]; rfl⟩
      rw [if_pos hnone, List.append_nil]
  | reported queue message hcalm hsome hview hqueue hempty hzero =>
      rw [fittedReport_eq hsize] at hview
      refine ⟨queue, [message], ?_, hqueue, hempty, hzero, ?_⟩
      · rw [if_neg hsome, hreceive message (.inr ⟨hsome, hview⟩)]
      · rw [if_neg hsome, List.map_singleton, hview]
  | stopped queue front bad back hwaiting hcalm hbad =>
      have hmem : bad ∈ flow.queue.waiting := by
        rw [hwaiting]
        exact List.mem_append_right front List.mem_cons_self
      rw [hreceive bad (.inl hmem)] at hbad
      exact absurd hbad Bool.false_ne_true

end Flow

end LogRelay
