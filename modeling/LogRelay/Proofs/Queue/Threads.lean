import LogRelay.Queue
import Mathlib.Logic.Function.Basic

/-!
# Threads that share a queue

Threads push and pop one step at a time. A call tries its lock, reads its own index, reads the other index,
works in its slot as long as it likes, stores its own index and gives the lock back; between any two of
these steps other threads take theirs. A call that no other thread interrupts is the call of the queue
itself.
-/

namespace LogRelay.Queue

variable {ι α : Type} {capacity : Nat}

/-! ## Single steps of the queue -/

/-- Stores the write index behind the slot of a push. -/
def advanceWrite (queue : Queue α capacity) (write : UInt64) : Queue α capacity :=
  { queue with writeIndex := write + 1 }

/-- Stores the read index behind the element of a pop. -/
def advanceRead (queue : Queue α capacity) (read : UInt64) : Queue α capacity :=
  { queue with readIndex := read + 1 }

theorem abandon_advanceWrite (queue : Queue α capacity) (write : UInt64) :
    (queue.advanceWrite write).abandon = queue.publish write := rfl

theorem keep_advanceRead (queue : Queue α capacity) (read : UInt64) :
    (queue.advanceRead read).keep = queue.release read := rfl

theorem keep_lockPop {queue : Queue α capacity} (hfree : queue.popping = false) :
    queue.lockPop.keep = queue := by
  obtain ⟨_, _, _, _, _, _, _⟩ := queue
  exact congrArg (Queue.mk _ _ _ _ _ · _) hfree.symm

theorem abandon_countDrop_lockPush {queue : Queue α capacity} (hfree : queue.pushing = false) :
    queue.lockPush.countDrop.abandon = queue.countDrop := by
  obtain ⟨_, _, _, _, _, _, _⟩ := queue
  exact congrArg (Queue.mk _ _ _ _ · _ _) hfree.symm

@[simp]
theorem writeIndex_lockPush (queue : Queue α capacity) :
    queue.lockPush.writeIndex = queue.writeIndex := rfl

@[simp]
theorem readIndex_lockPush (queue : Queue α capacity) :
    queue.lockPush.readIndex = queue.readIndex := rfl

@[simp]
theorem writeIndex_lockPop (queue : Queue α capacity) :
    queue.lockPop.writeIndex = queue.writeIndex := rfl

@[simp]
theorem readIndex_lockPop (queue : Queue α capacity) :
    queue.lockPop.readIndex = queue.readIndex := rfl

/-! ## Threads -/

/-- Where a thread stands in a call. -/
inductive Stage (α : Type) where
  /-- In no call. -/
  | idle
  /-- In a push that found the lock taken and has still to count itself. -/
  | barred
  /-- In a push that has its lock. -/
  | pushLocked
  /-- It has read the write index. -/
  | pushReady (write : UInt64)
  /-- It has read the read index, which may have moved on since. -/
  | pushChecking (write read : UInt64)
  /-- It found no free slot and has still to count itself. -/
  | crowded
  /-- It is at work in its slot, which holds an element. -/
  | filling (write : UInt64) (element : α)
  /-- It has only to give its lock back. -/
  | pushLeaving
  /-- In a pop that has its lock. -/
  | popLocked
  /-- It has read the read index. -/
  | popReady (read : UInt64)
  /-- It has read the write index, which may have moved on since. -/
  | popChecking (read write : UInt64)
  /-- It is at work on its element, of which it has seen what its slot held each time it looked. -/
  | consuming (read : UInt64) (seen : List α)
  /-- It has only to give its lock back. -/
  | popLeaving
deriving DecidableEq, Repr

namespace Stage

/-- Whether a thread has the lock of pushes. -/
def holdsPush : Stage α → Bool
  | pushLocked | pushReady _ | pushChecking _ _ | crowded | filling _ _ | pushLeaving => true
  | _ => false

/-- Whether a thread has the lock of pops. -/
def holdsPop : Stage α → Bool
  | popLocked | popReady _ | popChecking _ _ | consuming _ _ | popLeaving => true
  | _ => false

end Stage

/-- What a thread chooses to do: which call to make, and how long to work in a slot. Between these choices
there is only one next step. -/
inductive Move (α : Type) where
  | push
  | pop
  | takeDropped
  | write (element : α)
  | look
  | go
deriving DecidableEq, Repr

/-- A queue with the threads that share it, and what has become of their calls. A push is over once its
answer is settled, when all that is left to it is to give its lock back. -/
structure Crowd (ι α : Type) (capacity : Nat) where
  /-- The queue. -/
  queue : Queue α capacity
  /-- Where each thread stands. -/
  stage : ι → Stage α
  /-- What each push left in its slot, in the order in which the write index was stored. -/
  published : List α
  /-- What each pop found in its slot, in the order in which the read index was stored. -/
  consumed : List α
  /-- The answers of the pushes that are over. -/
  answers : List Bool
  /-- The counts of refused pushes that were taken, added up. -/
  taken : UInt32

namespace Crowd

variable [DecidableEq ι]

/-- Threads that have made no call on a new queue. -/
def start (hcapacity : IsCapacity capacity) (element : α) : Crowd ι α capacity :=
  ⟨.new hcapacity element, fun _ => .idle, [], [], [], 0⟩

/-- A thread goes on to a stage. -/
def goTo (thread : ι) (stage : Stage α) (crowd : Crowd ι α capacity) : Crowd ι α capacity :=
  { crowd with stage := Function.update crowd.stage thread stage }

/-- A push is refused and counted. -/
def refuse (crowd : Crowd ι α capacity) : Crowd ι α capacity :=
  { crowd with queue := crowd.queue.countDrop, answers := crowd.answers ++ [false] }

/-- A thread that is in no call begins one. -/
def begin (thread : ι) (crowd : Crowd ι α capacity) : Move α → Crowd ι α capacity
  | .push =>
      if crowd.queue.pushing then crowd.goTo thread .barred
      else { crowd with queue := crowd.queue.lockPush }.goTo thread .pushLocked
  | .pop =>
      if crowd.queue.popping then crowd
      else { crowd with queue := crowd.queue.lockPop }.goTo thread .popLocked
  | .takeDropped =>
      { crowd with
        queue := crowd.queue.takeDropped.2
        taken := crowd.taken + crowd.queue.takeDropped.1 }
  | _ => crowd

/-- A thread at work in the slot of a push writes to it, or is done. -/
def fill (thread : ι) (write : UInt64) (element : α) (crowd : Crowd ι α capacity) :
    Move α → Crowd ι α capacity
  | .write next =>
      { crowd with queue := crowd.queue.store write next }.goTo thread (.filling write next)
  | _ =>
      { crowd with
        queue := crowd.queue.advanceWrite write
        published := crowd.published ++ [element]
        answers := crowd.answers ++ [true] }.goTo thread .pushLeaving

/-- A thread at work on the element of a pop looks at it, or is done. -/
def consume (thread : ι) (read : UInt64) (seen : List α) (crowd : Crowd ι α capacity) :
    Move α → Crowd ι α capacity
  | .look => crowd.goTo thread (.consuming read (seen ++ [crowd.queue.peek read]))
  | _ =>
      { crowd with
        queue := crowd.queue.advanceRead read
        consumed := crowd.consumed ++ [crowd.queue.peek read] }.goTo thread .popLeaving

/-- A thread takes its next step. -/
def step (crowd : Crowd ι α capacity) (next : ι × Move α) : Crowd ι α capacity :=
  match crowd.stage next.1 with
  | .idle => crowd.begin next.1 next.2
  | .barred => crowd.refuse.goTo next.1 .idle
  | .pushLocked => crowd.goTo next.1 (.pushReady crowd.queue.writeIndex)
  | .pushReady write => crowd.goTo next.1 (.pushChecking write crowd.queue.readIndex)
  | .pushChecking write read =>
      crowd.goTo next.1 <|
        if capacity ≤ (write - read).toNat then .crowded
        else .filling write (crowd.queue.peek write)
  | .crowded => crowd.refuse.goTo next.1 .pushLeaving
  | .filling write element => crowd.fill next.1 write element next.2
  | .pushLeaving => { crowd with queue := crowd.queue.abandon }.goTo next.1 .idle
  | .popLocked => crowd.goTo next.1 (.popReady crowd.queue.readIndex)
  | .popReady read => crowd.goTo next.1 (.popChecking read crowd.queue.writeIndex)
  | .popChecking read write =>
      crowd.goTo next.1 (if read = write then .popLeaving else .consuming read [])
  | .consuming read seen => crowd.consume next.1 read seen next.2
  | .popLeaving => { crowd with queue := crowd.queue.keep }.goTo next.1 .idle

/-- Threads take steps in the order of a schedule. -/
def run (schedule : List (ι × Move α)) (crowd : Crowd ι α capacity) : Crowd ι α capacity :=
  schedule.foldl step crowd

/-! ## Calls that nothing interrupts -/

@[simp]
theorem stage_goTo (thread : ι) (stage : Stage α) (crowd : Crowd ι α capacity) :
    (crowd.goTo thread stage).stage thread = stage := Function.update_self _ _ _

@[simp]
theorem queue_goTo (thread : ι) (stage : Stage α) (crowd : Crowd ι α capacity) :
    (crowd.goTo thread stage).queue = crowd.queue := rfl

/-- The steps of a push that puts an element into its slot. -/
def pushAlone (thread : ι) (element : α) : List (ι × Move α) :=
  [.push, .go, .go, .go, .write element, .go, .go].map (thread, ·)

/-- The steps of a pop. -/
def popAlone (thread : ι) : List (ι × Move α) :=
  [.pop, .go, .go, .go, .go, .go].map (thread, ·)

variable {thread : ι} {crowd : Crowd ι α capacity}

/-- A push that nothing interrupts is a push on the queue. -/
theorem run_pushAlone (hidle : crowd.stage thread = .idle) (element : α) :
    let alone := run (pushAlone thread element) crowd
    let pushed := crowd.queue.push element
    alone.queue = pushed.2 ∧ alone.answers = crowd.answers ++ [pushed.1] ∧
      alone.stage thread = .idle := by
  intro alone pushed
  cases hbusy : crowd.queue.pushing with
  | true =>
      simp [alone, pushed, run, pushAlone, step, hidle, begin, hbusy, refuse, goTo, push, startPush]
  | false =>
      by_cases hfull : capacity ≤ (crowd.queue.writeIndex - crowd.queue.readIndex).toNat
      · have hisFull : crowd.queue.isFull = true := decide_eq_true hfull
        simp [alone, pushed, run, pushAlone, step, hidle, begin, hbusy, refuse, goTo, hfull,
          abandon_countDrop_lockPush hbusy, push, startPush, hisFull]
      · have hisFull : crowd.queue.isFull = false := decide_eq_false hfull
        simp [alone, pushed, run, pushAlone, step, hidle, begin, hbusy, fill, goTo, hfull,
          abandon_advanceWrite, push, startPush, hisFull]

/-- A pop that nothing interrupts is a pop on the queue. -/
theorem run_popAlone (hidle : crowd.stage thread = .idle) :
    let alone := run (popAlone thread) crowd
    let popped := crowd.queue.pop?
    alone.queue = popped.2 ∧ alone.consumed = crowd.consumed ++ popped.1.toList ∧
      alone.stage thread = .idle := by
  intro alone popped
  cases hbusy : crowd.queue.popping with
  | true => simp [alone, popped, run, popAlone, step, hidle, begin, hbusy, pop?, startPop]
  | false =>
      by_cases hempty : crowd.queue.readIndex = crowd.queue.writeIndex
      · simp [alone, popped, run, popAlone, step, hidle, begin, hbusy, goTo, hempty,
          keep_lockPop hbusy, pop?, startPop]
      · simp [alone, popped, run, popAlone, step, hidle, begin, hbusy, consume, goTo, hempty,
          keep_advanceRead, pop?, startPop]

end Crowd

end LogRelay.Queue
