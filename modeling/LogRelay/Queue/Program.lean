import LogRelay.Queue

/-!
# Programs on a queue

A program is a run of calls on one queue in which every call may depend on the answers to the ones
before it. The work done inside a push or a pop is itself such a program, on the same queue. It has the
slot of that push or the element of that pop on loan, may write and read it at any time between its own
calls, and may break down.
-/

namespace LogRelay.Queue

/-- The counts that a queue shows. -/
structure Gauge where
  /-- Elements waiting. -/
  length : UInt64
  /-- Refused pushes since the count was last taken. -/
  dropped : UInt32
  /-- Whether no element is waiting. -/
  isEmpty : Bool
  /-- Whether every slot holds a waiting element. -/
  isFull : Bool
deriving DecidableEq, Repr

/-- How a program ends. -/
structure Close (ρ : Type) where
  /-- Whether it broke down. -/
  brokeDown : Bool
  /-- What it has to say about its run. -/
  note : ρ
deriving DecidableEq, Repr

/-- A run of calls on a queue. -/
inductive Program (α ρ : Type) where
  | close (result : Close ρ)
  | writeSlot (element : α) (next : Program α ρ)
  | readSlot (next : Option α → Program α ρ)
  | readHead (next : Option α → Program α ρ)
  | push (element : α) (next : Bool → Program α ρ)
  | pop (next : Option α → Program α ρ)
  | pushWith (fill : α → Program α ρ) (next : Outcome ρ → Program α ρ)
  | popWith (consume : α → Program α ρ) (next : Outcome ρ → Program α ρ)
  | takeDropped (next : UInt32 → Program α ρ)
  | observe (next : Gauge → Program α ρ)

/-- What the calls around a program have lent to it. -/
structure Loans where
  /-- The index whose slot it may write and read. -/
  slot : Option UInt64
  /-- The index whose element it may read. -/
  head : Option UInt64
deriving DecidableEq, Repr

/-- The loans of a program with no call around it. -/
def Loans.nothing : Loans := ⟨none, none⟩

variable {α ρ : Type} {capacity : Nat}

/-- The counts of a queue. -/
def gauge (queue : Queue α capacity) : Gauge :=
  ⟨queue.length, queue.dropped, queue.isEmpty, queue.isFull⟩

/-- Ends a push into the slot of an index as the program inside it ended. -/
def endPush (index : UInt64) (inner : Close ρ × Queue α capacity) :
    Outcome ρ × Queue α capacity :=
  if inner.1.brokeDown then (.brokeDown inner.1.note, inner.2.abandon)
  else (.finished inner.1.note, inner.2.publish index)

/-- Ends a pop of the element at an index as the program inside it ended. -/
def endPop (index : UInt64) (inner : Close ρ × Queue α capacity) :
    Outcome ρ × Queue α capacity :=
  if inner.1.brokeDown then (.brokeDown inner.1.note, inner.2.keep)
  else (.finished inner.1.note, inner.2.release index)

/-- Runs a program on a queue. -/
def Program.run : Program α ρ → Loans → Queue α capacity → Close ρ × Queue α capacity
  | .close result, _, queue => (result, queue)
  | .writeSlot element next, loans, queue =>
      next.run loans <|
        match loans.slot with
        | some index => queue.store index element
        | none => queue
  | .readSlot next, loans, queue => (next (loans.slot.map queue.peek)).run loans queue
  | .readHead next, loans, queue => (next (loans.head.map queue.peek)).run loans queue
  | .push element next, loans, queue =>
      let pushed := queue.push element
      (next pushed.1).run loans pushed.2
  | .pop next, loans, queue =>
      let popped := queue.pop?
      (next popped.1).run loans popped.2
  | .pushWith fill next, loans, queue =>
      match queue.startPush with
      | (none, refusing) => (next .refused).run loans refusing
      | (some index, started) =>
          let inner := (fill (started.peek index)).run { loans with slot := some index } started
          let ended := endPush index inner
          (next ended.1).run loans ended.2
  | .popWith consume next, loans, queue =>
      match queue.startPop with
      | (none, refusing) => (next .refused).run loans refusing
      | (some index, started) =>
          let inner := (consume (started.peek index)).run { loans with head := some index } started
          let ended := endPop index inner
          (next ended.1).run loans ended.2
  | .takeDropped next, loans, queue =>
      let taken := queue.takeDropped
      (next taken.1).run loans taken.2
  | .observe next, loans, queue => (next queue.gauge).run loans queue

end LogRelay.Queue
