/-!
# Bounded queues

A queue has a fixed number of slots, a power of two. Two indices count pushes and pops; they wrap at
the word size, which every capacity divides, so an index modulo the capacity is its slot. A push that
finds another push in progress or no free slot is refused and counted; a pop that finds another pop in
progress or no element is refused. A push or pop that breaks down leaves both indices as they were.
-/

namespace LogRelay

/-- Sizes that a queue can have. -/
def IsCapacity (capacity : Nat) : Prop := Nat.pow 2 capacity.log2 = capacity ∧ capacity.log2 < 64

instance (capacity : Nat) : Decidable (IsCapacity capacity) :=
  inferInstanceAs (Decidable (_ ∧ _))

theorem IsCapacity.pos {capacity : Nat} (hcapacity : IsCapacity capacity) : 0 < capacity :=
  hcapacity.1 ▸ Nat.two_pow_pos _

theorem IsCapacity.dvd {capacity : Nat} (hcapacity : IsCapacity capacity) :
    capacity ∣ Nat.pow 2 64 := by
  rw [← hcapacity.1]
  exact Nat.pow_dvd_pow 2 (Nat.le_of_lt hcapacity.2)

/-- A queue of elements in a fixed number of slots. -/
structure Queue (α : Type) (capacity : Nat) where
  /-- The storage. -/
  slots : Vector α capacity
  /-- Number of pushes so far, modulo the word size. -/
  writeIndex : UInt64
  /-- Number of pops so far, modulo the word size. -/
  readIndex : UInt64
  /-- Refused pushes since the count was last taken. -/
  dropped : UInt32
  /-- Whether a push is in progress. -/
  pushing : Bool
  /-- Whether a pop is in progress. -/
  popping : Bool
  /-- The capacity is a power of two within the word size. -/
  isCapacity : IsCapacity capacity

namespace Queue

variable {α : Type} {capacity : Nat}

/-- Complaint about a number of slots that no queue can have. -/
def capacityComplaint : String := "Queue capacity must be power of 2"

/-- An empty queue, all slots filled with the same element. -/
def new (hcapacity : IsCapacity capacity) (element : α) : Queue α capacity :=
  ⟨Vector.replicate capacity element, 0, 0, 0, false, false, hcapacity⟩

/-- An empty queue; there is none with a number of slots that is no power of two. -/
def new? (capacity : Nat) (element : α) : Option (Queue α capacity) :=
  if hcapacity : IsCapacity capacity then some (new hcapacity element) else none

/-- The slot of an index. -/
def slotOf (queue : Queue α capacity) (index : UInt64) : Fin capacity :=
  ⟨index.toNat % capacity, Nat.mod_lt _ queue.isCapacity.pos⟩

/-- The element in the slot of an index. -/
def peek (queue : Queue α capacity) (index : UInt64) : α := queue.slots.get (queue.slotOf index)

/-- Number of elements waiting. -/
def length (queue : Queue α capacity) : UInt64 := queue.writeIndex - queue.readIndex

/-- Whether no element is waiting. -/
def isEmpty (queue : Queue α capacity) : Bool := queue.length = 0

/-- Whether every slot holds a waiting element. -/
def isFull (queue : Queue α capacity) : Bool := capacity ≤ queue.length.toNat

/-- Counts one refused push. -/
def countDrop (queue : Queue α capacity) : Queue α capacity :=
  { queue with dropped := queue.dropped + 1 }

/-- The queue with another element in the slot of an index. -/
def store (queue : Queue α capacity) (index : UInt64) (element : α) : Queue α capacity :=
  { queue with slots := queue.slots.set (queue.slotOf index) element (queue.slotOf index).isLt }

/-- Marks a push as being in progress. -/
def lockPush (queue : Queue α capacity) : Queue α capacity := { queue with pushing := true }

/-- Marks a pop as being in progress. -/
def lockPop (queue : Queue α capacity) : Queue α capacity := { queue with popping := true }

/-- Starts a push: the index of the free slot, or a refusal. -/
def startPush (queue : Queue α capacity) : Option UInt64 × Queue α capacity :=
  if queue.pushing then (none, queue.countDrop)
  else if queue.isFull then (none, queue.countDrop)
  else (some queue.writeIndex, queue.lockPush)

/-- Ends a push into the slot of an index: the slot becomes visible to pops. -/
def publish (queue : Queue α capacity) (index : UInt64) : Queue α capacity :=
  { queue with writeIndex := index + 1, pushing := false }

/-- Ends a push that broke down: its slot stays free. -/
def abandon (queue : Queue α capacity) : Queue α capacity := { queue with pushing := false }

/-- Starts a pop: the index of the oldest element, or a refusal. -/
def startPop (queue : Queue α capacity) : Option UInt64 × Queue α capacity :=
  if queue.popping then (none, queue)
  else if queue.readIndex = queue.writeIndex then (none, queue)
  else (some queue.readIndex, queue.lockPop)

/-- Ends a pop of the element at an index: it leaves the queue. -/
def release (queue : Queue α capacity) (index : UInt64) : Queue α capacity :=
  { queue with readIndex := index + 1, popping := false }

/-- Ends a pop that broke down: the oldest element stays. -/
def keep (queue : Queue α capacity) : Queue α capacity := { queue with popping := false }

/-- Takes the count of refused pushes and starts it anew. -/
def takeDropped (queue : Queue α capacity) : UInt32 × Queue α capacity :=
  (queue.dropped, { queue with dropped := 0 })

/-- What became of a push or a pop. -/
inductive Outcome (ρ : Type) where
  | refused
  | finished (note : ρ)
  | brokeDown (note : ρ)
deriving DecidableEq, Repr

/-- Fills the next free slot in place. The filler gets the element left in the slot and gives its new
contents, and says whether it broke down. -/
def pushWith (queue : Queue α capacity) (fill : α → α × Bool) :
    Outcome Unit × Queue α capacity :=
  match queue.startPush with
  | (none, refusing) => (.refused, refusing)
  | (some index, started) =>
      let filled := fill (started.peek index)
      let stored := started.store index filled.1
      if filled.2 then (.brokeDown (), stored.abandon) else (.finished (), stored.publish index)

/-- Pushes an element. -/
def push (queue : Queue α capacity) (element : α) : Bool × Queue α capacity :=
  match queue.startPush with
  | (none, refusing) => (false, refusing)
  | (some index, started) => (true, (started.store index element).publish index)

/-- Pops the oldest element. -/
def pop? (queue : Queue α capacity) : Option α × Queue α capacity :=
  match queue.startPop with
  | (none, refusing) => (none, refusing)
  | (some index, started) => (some (started.peek index), started.release index)

end Queue

end LogRelay
