import LogRelay.Proofs.Queue.Window
import LogRelay.Queue.Program

/-!
# Queues as bounded lists

A bounded list keeps what waits, what the free places still hold, a count of refusals, and whether a push
or a pop is in progress. It has neither slots nor indices. Every program has the same answers on a queue
as on the bounded list that the queue spells, however deep calls are nested inside pushes and pops and
wherever they break down.
-/

namespace LogRelay.Queue

/-- A bounded list with a push and a pop that can be in progress. -/
structure Fifo (α : Type) (capacity : Nat) where
  /-- The elements waiting, oldest first. -/
  waiting : List α
  /-- What the free places still hold, in the order in which they are filled again. -/
  spare : List α
  /-- Refused pushes since the count was last taken. -/
  dropped : UInt32
  /-- Whether a push is in progress. -/
  pushing : Bool
  /-- Whether a pop is in progress. -/
  popping : Bool
deriving DecidableEq, Repr

namespace Fifo

variable {α ρ : Type} {capacity : Nat}

/-- Counts one refused push. -/
def countDrop (fifo : Fifo α capacity) : Fifo α capacity :=
  { fifo with dropped := fifo.dropped + 1 }

/-- Starts a push: what the next free place still holds, or a refusal. -/
def startPush (fifo : Fifo α capacity) : Option α × Fifo α capacity :=
  if fifo.pushing ∨ capacity ≤ fifo.waiting.length then (none, fifo.countDrop)
  else (fifo.spare.head?, { fifo with pushing := true })

/-- Puts an element into the place that a push fills. -/
def write (fifo : Fifo α capacity) (element : α) : Fifo α capacity :=
  { fifo with spare := element :: fifo.spare.tail }

/-- Ends a push: what its place holds is the newest element. -/
def publish (fifo : Fifo α capacity) : Fifo α capacity :=
  { fifo with
    waiting := fifo.waiting ++ fifo.spare.head?.toList
    spare := fifo.spare.tail
    pushing := false }

/-- Ends a push that broke down: no element is added. -/
def abandon (fifo : Fifo α capacity) : Fifo α capacity := { fifo with pushing := false }

/-- Starts a pop: the oldest element, or a refusal. -/
def startPop (fifo : Fifo α capacity) : Option α × Fifo α capacity :=
  if fifo.popping ∨ fifo.waiting = [] then (none, fifo)
  else (fifo.waiting.head?, { fifo with popping := true })

/-- Ends a pop: the oldest element leaves the list. -/
def release (fifo : Fifo α capacity) : Fifo α capacity :=
  { fifo with
    waiting := fifo.waiting.tail
    spare := fifo.spare ++ fifo.waiting.head?.toList
    popping := false }

/-- Ends a pop that broke down: the oldest element stays. -/
def keep (fifo : Fifo α capacity) : Fifo α capacity := { fifo with popping := false }

/-- Pushes an element. -/
def push (fifo : Fifo α capacity) (element : α) : Bool × Fifo α capacity :=
  match fifo.startPush with
  | (none, refusing) => (false, refusing)
  | (some _, started) => (true, (started.write element).publish)

/-- Pops the oldest element. -/
def pop? (fifo : Fifo α capacity) : Option α × Fifo α capacity :=
  match fifo.startPop with
  | (none, refusing) => (none, refusing)
  | (some element, started) => (some element, started.release)

/-- Takes the count of refused pushes and starts it anew. -/
def takeDropped (fifo : Fifo α capacity) : UInt32 × Fifo α capacity :=
  (fifo.dropped, { fifo with dropped := 0 })

/-- The counts that a bounded list shows. -/
def gauge (fifo : Fifo α capacity) : Gauge :=
  ⟨UInt64.ofNat fifo.waiting.length, fifo.dropped, fifo.waiting = [],
    capacity ≤ fifo.waiting.length⟩

/-- What the calls around a program have lent to it. -/
structure Loans where
  /-- Whether it may write and read the place that a push fills. -/
  slot : Bool
  /-- Whether it may read the element that a pop shows. -/
  head : Bool

/-- Every place holds a waiting element or is spare. -/
def Bounded (fifo : Fifo α capacity) : Prop :=
  fifo.waiting.length + fifo.spare.length = capacity

/-- A push is refused exactly when another one is in progress or the list is full. -/
theorem startPush_eq_none_iff {fifo : Fifo α capacity} (hbounded : fifo.Bounded) :
    fifo.startPush.1 = none ↔ fifo.pushing = true ∨ fifo.waiting.length = capacity := by
  have hplaces : fifo.waiting.length + fifo.spare.length = capacity := hbounded
  rw [startPush]
  split
  · next hrefused =>
    exact iff_of_true rfl (hrefused.imp_right fun hfull => by omega)
  · next hgranted =>
    have hspare : fifo.spare ≠ [] := by
      intro hnone
      rw [hnone, List.length_nil] at hplaces
      exact hgranted (.inr (by omega))
    have hroom : ¬(fifo.pushing = true ∨ fifo.waiting.length = capacity) := fun hbusy =>
      hgranted (hbusy.imp_right fun hfull => by omega)
    exact iff_of_false (by simpa using hspare) hroom

/-- A pop is refused exactly when another one is in progress or nothing waits. -/
theorem startPop_eq_none_iff (fifo : Fifo α capacity) :
    fifo.startPop.1 = none ↔ fifo.popping = true ∨ fifo.waiting = [] := by
  rw [startPop]
  split
  · next hrefused => exact iff_of_true rfl hrefused
  · next hgranted =>
    exact iff_of_false (by simpa using fun hnone => hgranted (.inr hnone)) hgranted

/-- Ends a push as the program inside it ended. -/
def endPush (inner : Close ρ × Fifo α capacity) : Outcome ρ × Fifo α capacity :=
  if inner.1.brokeDown then (.brokeDown inner.1.note, inner.2.abandon)
  else (.finished inner.1.note, inner.2.publish)

/-- Ends a pop as the program inside it ended. -/
def endPop (inner : Close ρ × Fifo α capacity) : Outcome ρ × Fifo α capacity :=
  if inner.1.brokeDown then (.brokeDown inner.1.note, inner.2.keep)
  else (.finished inner.1.note, inner.2.release)

/-- Runs a program on a bounded list. -/
def run : Program α ρ → Loans → Fifo α capacity → Close ρ × Fifo α capacity
  | .close result, _, fifo => (result, fifo)
  | .writeSlot element next, loans, fifo =>
      run next loans (if loans.slot then fifo.write element else fifo)
  | .readSlot next, loans, fifo =>
      run (next (if loans.slot then fifo.spare.head? else none)) loans fifo
  | .readHead next, loans, fifo =>
      run (next (if loans.head then fifo.waiting.head? else none)) loans fifo
  | .push element next, loans, fifo =>
      let pushed := fifo.push element
      run (next pushed.1) loans pushed.2
  | .pop next, loans, fifo =>
      let popped := fifo.pop?
      run (next popped.1) loans popped.2
  | .pushWith fill next, loans, fifo =>
      match fifo.startPush with
      | (none, refusing) => run (next .refused) loans refusing
      | (some left, started) =>
          let ended := endPush (run (fill left) { loans with slot := true } started)
          run (next ended.1) loans ended.2
  | .popWith consume next, loans, fifo =>
      match fifo.startPop with
      | (none, refusing) => run (next .refused) loans refusing
      | (some element, started) =>
          let ended := endPop (run (consume element) { loans with head := true } started)
          run (next ended.1) loans ended.2
  | .takeDropped next, loans, fifo =>
      let taken := fifo.takeDropped
      run (next taken.1) loans taken.2
  | .observe next, loans, fifo => run (next fifo.gauge) loans fifo

end Fifo

variable {α ρ : Type} {capacity : Nat}

/-- The bounded list that a queue spells. -/
def toFifo (queue : Queue α capacity) : Fifo α capacity :=
  ⟨queue.waiting, queue.spare, queue.dropped, queue.pushing, queue.popping⟩

/-- The loans as a bounded list sees them. -/
def Loans.toFifo (loans : Loans) : Fifo.Loans := ⟨loans.slot.isSome, loans.head.isSome⟩

/-- A queue and a bounded list give the same answer, after which the queue spells the list. -/
structure Agrees (onQueue : ρ × Queue α capacity) (onFifo : ρ × Fifo α capacity) : Prop where
  /-- The answers are the same. -/
  answer : onQueue.1 = onFifo.1
  /-- The queue spells the list. -/
  toFifo : onQueue.2.toFifo = onFifo.2
  /-- The indices are in order. -/
  sound : onQueue.2.Sound

/-! ## What a program cannot change -/

/-- While a push or a pop is in progress, whatever runs inside it leaves its index alone. -/
structure Holds (before after : Queue α capacity) : Prop where
  /-- A push in progress stays in progress, and no other is left in progress. -/
  pushing : after.pushing = before.pushing
  /-- A pop in progress stays in progress, and no other is left in progress. -/
  popping : after.popping = before.popping
  /-- A push in progress keeps its slot. -/
  writeIndex : before.pushing = true → after.writeIndex = before.writeIndex
  /-- A pop in progress keeps its element. -/
  readIndex : before.popping = true → after.readIndex = before.readIndex

theorem Holds.refl (queue : Queue α capacity) : Holds queue queue :=
  ⟨rfl, rfl, fun _ => rfl, fun _ => rfl⟩

theorem Holds.trans {first second third : Queue α capacity} (hfirst : Holds first second)
    (hsecond : Holds second third) : Holds first third where
  pushing := hsecond.pushing.trans hfirst.pushing
  popping := hsecond.popping.trans hfirst.popping
  writeIndex hpushing :=
    (hsecond.writeIndex (hfirst.pushing.trans hpushing)).trans (hfirst.writeIndex hpushing)
  readIndex hpopping :=
    (hsecond.readIndex (hfirst.popping.trans hpopping)).trans (hfirst.readIndex hpopping)

theorem startPush_refused {queue : Queue α capacity}
    (hrefused : queue.pushing = true ∨ capacity ≤ queue.count) :
    queue.startPush = (none, queue.countDrop) := by
  rw [startPush]
  by_cases hpushing : queue.pushing = true
  · rw [if_pos hpushing]
  · rw [if_neg hpushing, if_pos (queue.isFull_iff.2 (hrefused.resolve_left hpushing))]

theorem startPush_granted {queue : Queue α capacity} (hpushing : queue.pushing = false)
    (hcount : queue.count < capacity) :
    queue.startPush = (some queue.writeIndex, queue.lockPush) := by
  have hroom : ¬queue.isFull = true := by
    rw [isFull_iff]
    omega
  rw [startPush, if_neg (by simp [hpushing]), if_neg hroom]

theorem startPop_refused {queue : Queue α capacity}
    (hrefused : queue.popping = true ∨ queue.count = 0) : queue.startPop = (none, queue) := by
  rw [startPop]
  by_cases hpopping : queue.popping = true
  · rw [if_pos hpopping]
  · rw [if_neg hpopping,
      if_pos (queue.readIndex_eq_writeIndex_iff.2 (hrefused.resolve_left hpopping))]

theorem startPop_granted {queue : Queue α capacity} (hpopping : queue.popping = false)
    (hcount : 0 < queue.count) :
    queue.startPop = (some queue.readIndex, queue.lockPop) := by
  have hsome : ¬queue.readIndex = queue.writeIndex := by
    rw [readIndex_eq_writeIndex_iff]
    omega
  rw [startPop, if_neg (by simp [hpopping]), if_neg hsome]

theorem startPush_cases (queue : Queue α capacity) :
    ((queue.pushing = true ∨ capacity ≤ queue.count) ∧
      queue.startPush = (none, queue.countDrop)) ∨
    (queue.pushing = false ∧ queue.count < capacity ∧
      queue.startPush = (some queue.writeIndex, queue.lockPush)) := by
  by_cases hrefused : queue.pushing = true ∨ capacity ≤ queue.count
  · exact .inl ⟨hrefused, startPush_refused hrefused⟩
  · obtain ⟨hpushing, hcount⟩ := not_or.1 hrefused
    rw [Bool.not_eq_true] at hpushing
    exact .inr ⟨hpushing, by omega, startPush_granted hpushing (by omega)⟩

theorem startPop_cases (queue : Queue α capacity) :
    ((queue.popping = true ∨ queue.count = 0) ∧ queue.startPop = (none, queue)) ∨
    (queue.popping = false ∧ 0 < queue.count ∧
      queue.startPop = (some queue.readIndex, queue.lockPop)) := by
  by_cases hrefused : queue.popping = true ∨ queue.count = 0
  · exact .inl ⟨hrefused, startPop_refused hrefused⟩
  · obtain ⟨hpopping, hcount⟩ := not_or.1 hrefused
    rw [Bool.not_eq_true] at hpopping
    exact .inr ⟨hpopping, by omega, startPop_granted hpopping (by omega)⟩

theorem holds_push (queue : Queue α capacity) (element : α) :
    Holds queue (queue.push element).2 := by
  rcases queue.startPush_cases with ⟨_, hstart⟩ | ⟨hpushing, _, hstart⟩
  · rw [push, hstart]
    exact ⟨rfl, rfl, fun _ => rfl, fun _ => rfl⟩
  · rw [push, hstart]
    exact ⟨hpushing.symm, rfl, fun hbusy => absurd hbusy (by simp [hpushing]), fun _ => rfl⟩

theorem holds_pop? (queue : Queue α capacity) : Holds queue queue.pop?.2 := by
  rcases queue.startPop_cases with ⟨_, hstart⟩ | ⟨hpopping, _, hstart⟩
  · rw [pop?, hstart]
    exact .refl queue
  · rw [pop?, hstart]
    exact ⟨rfl, hpopping.symm, fun _ => rfl, fun hbusy => absurd hbusy (by simp [hpopping])⟩

theorem holds_endPush {queue : Queue α capacity} {inner : Close ρ × Queue α capacity}
    (hpushing : queue.pushing = false) (hinner : Holds queue.lockPush inner.2) (index : UInt64) :
    Holds queue (endPush index inner).2 := by
  rw [endPush]
  split
  · exact ⟨hpushing.symm, hinner.popping, fun hbusy => absurd hbusy (by simp [hpushing]),
      hinner.readIndex⟩
  · exact ⟨hpushing.symm, hinner.popping, fun hbusy => absurd hbusy (by simp [hpushing]),
      hinner.readIndex⟩

theorem holds_endPop {queue : Queue α capacity} {inner : Close ρ × Queue α capacity}
    (hpopping : queue.popping = false) (hinner : Holds queue.lockPop inner.2) (index : UInt64) :
    Holds queue (endPop index inner).2 := by
  rw [endPop]
  split
  · exact ⟨hinner.pushing, hpopping.symm, hinner.writeIndex,
      fun hbusy => absurd hbusy (by simp [hpopping])⟩
  · exact ⟨hinner.pushing, hpopping.symm, hinner.writeIndex,
      fun hbusy => absurd hbusy (by simp [hpopping])⟩

/-- No program moves the index of a push or a pop that it runs inside of. -/
theorem holds_run (program : Program α ρ) (loans : Loans) (queue : Queue α capacity) :
    Holds queue (program.run loans queue).2 := by
  induction program generalizing loans queue with
  | close result => exact .refl queue
  | writeSlot element next ih =>
    simp only [Program.run]
    cases loans.slot with
    | none => exact ih loans queue
    | some index =>
      have hstored : Holds queue (queue.store index element) :=
        ⟨rfl, rfl, fun _ => rfl, fun _ => rfl⟩
      exact hstored.trans (ih loans _)
  | readSlot next ih => exact ih _ loans queue
  | readHead next ih => exact ih _ loans queue
  | push element next ih => exact (holds_push queue element).trans (ih _ loans _)
  | pop next ih => exact (holds_pop? queue).trans (ih _ loans _)
  | pushWith fill next ihfill ihnext =>
    rcases queue.startPush_cases with ⟨_, hstart⟩ | ⟨hpushing, _, hstart⟩
    · have hcounted : Holds queue queue.countDrop := ⟨rfl, rfl, fun _ => rfl, fun _ => rfl⟩
      simp only [Program.run, hstart]
      exact hcounted.trans (ihnext _ loans _)
    · simp only [Program.run, hstart]
      have hinner := ihfill (queue.lockPush.peek queue.writeIndex)
        { loans with slot := some queue.writeIndex } queue.lockPush
      exact (holds_endPush hpushing hinner _).trans (ihnext _ loans _)
  | popWith consume next ihconsume ihnext =>
    rcases queue.startPop_cases with ⟨_, hstart⟩ | ⟨hpopping, _, hstart⟩
    · simp only [Program.run, hstart]
      exact ihnext _ loans queue
    · simp only [Program.run, hstart]
      have hinner := ihconsume (queue.lockPop.peek queue.readIndex)
        { loans with head := some queue.readIndex } queue.lockPop
      exact (holds_endPop hpopping hinner _).trans (ihnext _ loans _)
  | takeDropped next ih =>
    have htaken : Holds queue queue.takeDropped.2 := ⟨rfl, rfl, fun _ => rfl, fun _ => rfl⟩
    exact htaken.trans (ih _ loans _)
  | observe next ih => exact ih _ loans queue

/-! ## Steps on both sides -/

theorem sound_new (hcapacity : IsCapacity capacity) (element : α) :
    (new hcapacity element).Sound where
  count_le := by simp [count, length, new]
  count_lt hpushing := absurd hpushing (by simp [new])
  count_pos hpopping := absurd hpopping (by simp [new])

theorem toFifo_startPush_refused {queue : Queue α capacity}
    (hrefused : queue.pushing = true ∨ capacity ≤ queue.count) :
    queue.toFifo.startPush = (none, queue.countDrop.toFifo) := by
  have hrefuse : queue.toFifo.pushing = true ∨ capacity ≤ queue.toFifo.waiting.length :=
    hrefused.imp_right fun hcount => by simpa [toFifo] using hcount
  rw [Fifo.startPush, if_pos hrefuse]
  rfl

theorem toFifo_startPush_granted {queue : Queue α capacity} (hpushing : queue.pushing = false)
    (hcount : queue.count < capacity) :
    queue.toFifo.startPush =
      (some (queue.peek queue.writeIndex), queue.lockPush.toFifo) := by
  have hgrant : ¬(queue.toFifo.pushing = true ∨ capacity ≤ queue.toFifo.waiting.length) := by
    simp [toFifo, hpushing, hcount]
  rw [Fifo.startPush, if_neg hgrant]
  simp only [toFifo, spare_eq_cons queue hcount, List.head?_cons]
  rw [← spare_eq_cons queue hcount]
  rfl

theorem toFifo_startPop_refused {queue : Queue α capacity}
    (hrefused : queue.popping = true ∨ queue.count = 0) :
    queue.toFifo.startPop = (none, queue.toFifo) := by
  have hrefuse : queue.toFifo.popping = true ∨ queue.toFifo.waiting = [] :=
    hrefused.imp_right fun hcount => List.length_eq_zero_iff.1 (by simpa [toFifo] using hcount)
  rw [Fifo.startPop, if_pos hrefuse]

theorem toFifo_startPop_granted {queue : Queue α capacity} (hpopping : queue.popping = false)
    (hcount : 0 < queue.count) :
    queue.toFifo.startPop =
      (some (queue.peek queue.readIndex), queue.lockPop.toFifo) := by
  have hsome : queue.toFifo.waiting ≠ [] := by
    simp [toFifo, waiting_eq_cons queue hcount]
  rw [Fifo.startPop, if_neg (by simp [hsome]; exact hpopping)]
  simp only [toFifo, waiting_eq_cons queue hcount, List.head?_cons]
  rw [← waiting_eq_cons queue hcount]
  rfl

theorem toFifo_store (queue : Queue α capacity) (element : α) (hcount : queue.count < capacity) :
    (queue.store queue.writeIndex element).toFifo = queue.toFifo.write element := by
  rw [toFifo, waiting_store queue element hcount, spare_store queue element hcount]
  rfl

theorem toFifo_publish (queue : Queue α capacity) (hcount : queue.count < capacity) :
    (queue.publish queue.writeIndex).toFifo = queue.toFifo.publish := by
  have hleft : queue.spare.head? = some (queue.peek queue.writeIndex) := by
    rw [spare_eq_cons queue hcount, List.head?_cons]
  simp only [toFifo, Fifo.publish, hleft, waiting_publish queue hcount, spare_publish queue hcount]
  rfl

theorem toFifo_release {queue : Queue α capacity} (hsound : queue.Sound)
    (hcount : 0 < queue.count) :
    (queue.release queue.readIndex).toFifo = queue.toFifo.release := by
  have hhead : queue.waiting.head? = some (queue.peek queue.readIndex) := by
    rw [waiting_eq_cons queue hcount, List.head?_cons]
  simp only [toFifo, Fifo.release, hhead, waiting_release queue hcount,
    spare_release queue hsound hcount]
  rfl

theorem toFifo_gauge {queue : Queue α capacity} : queue.gauge = queue.toFifo.gauge := by
  have hlength : queue.length = UInt64.ofNat queue.waiting.length := by
    rw [length_waiting, count, UInt64.ofNat_toNat]
  have hempty : queue.isEmpty = decide (queue.waiting = []) := by
    rw [Bool.eq_iff_iff, isEmpty_iff, decide_eq_true_iff, ← List.length_eq_zero_iff, length_waiting]
  have hfull : queue.isFull = decide (capacity ≤ queue.waiting.length) := by
    rw [Bool.eq_iff_iff, isFull_iff, decide_eq_true_iff, length_waiting]
  rw [gauge, hlength, hempty, hfull]
  rfl

theorem Sound.startPush {queue : Queue α capacity} (hsound : queue.Sound)
    (hcount : queue.count < capacity) : queue.lockPush.Sound :=
  ⟨hsound.count_le, fun _ => hcount, hsound.count_pos⟩

theorem Sound.startPop {queue : Queue α capacity} (hsound : queue.Sound)
    (hcount : 0 < queue.count) : queue.lockPop.Sound :=
  ⟨hsound.count_le, hsound.count_lt, fun _ => hcount⟩

theorem sound_publish {queue : Queue α capacity}
    (hcount : queue.count < capacity) : (queue.publish queue.writeIndex).Sound := by
  have hnext := count_publish queue hcount
  refine ⟨by omega, ?_, fun _ => by omega⟩
  intro hpushing
  exact absurd hpushing (by simp [Queue.publish])

theorem Sound.abandon {queue : Queue α capacity} (hsound : queue.Sound) : queue.abandon.Sound :=
  ⟨hsound.count_le, fun hpushing => absurd hpushing (by simp [Queue.abandon]), hsound.count_pos⟩

theorem Sound.release {queue : Queue α capacity} (hsound : queue.Sound)
    (hcount : 0 < queue.count) : (queue.release queue.readIndex).Sound := by
  have hnext := count_release queue hcount
  have hle := hsound.count_le
  refine ⟨by omega, fun _ => by omega, ?_⟩
  intro hpopping
  exact absurd hpopping (by simp [Queue.release])

theorem Sound.keep {queue : Queue α capacity} (hsound : queue.Sound) : queue.keep.Sound :=
  ⟨hsound.count_le, hsound.count_lt, fun hpopping => absurd hpopping (by simp [Queue.keep])⟩

theorem agrees_push {queue : Queue α capacity} (hsound : queue.Sound) (element : α) :
    Agrees (queue.push element) (queue.toFifo.push element) := by
  rcases queue.startPush_cases with ⟨hrefused, hstart⟩ | ⟨hpushing, hcount, hstart⟩
  · rw [push, hstart, Fifo.push, toFifo_startPush_refused hrefused]
    exact ⟨rfl, rfl, ⟨hsound.count_le, hsound.count_lt, hsound.count_pos⟩⟩
  · rw [push, hstart, Fifo.push, toFifo_startPush_granted hpushing hcount]
    refine ⟨rfl, ?_, sound_publish hcount⟩
    have hstore := toFifo_store queue.lockPush element hcount
    simp only [← hstore]
    exact toFifo_publish (queue.lockPush.store queue.writeIndex element) hcount

theorem agrees_pop? {queue : Queue α capacity} (hsound : queue.Sound) :
    Agrees queue.pop? queue.toFifo.pop? := by
  rcases queue.startPop_cases with ⟨hrefused, hstart⟩ | ⟨hpopping, hcount, hstart⟩
  · rw [pop?, hstart, Fifo.pop?, toFifo_startPop_refused hrefused]
    exact ⟨rfl, rfl, hsound⟩
  · have hstarted := hsound.startPop hcount
    rw [pop?, hstart, Fifo.pop?, toFifo_startPop_granted hpopping hcount]
    exact ⟨rfl, toFifo_release hstarted hcount, hstarted.release hcount⟩

theorem agrees_endPush {queue : Queue α capacity} {inner : Close ρ × Queue α capacity}
    {innerFifo : Close ρ × Fifo α capacity} (hinner : Agrees inner innerFifo)
    (hheld : Holds queue.lockPush inner.2) :
    Agrees (endPush queue.writeIndex inner) (Fifo.endPush innerFifo) := by
  have hindex : inner.2.writeIndex = queue.writeIndex := hheld.writeIndex rfl
  have hcount := hinner.sound.count_lt hheld.pushing
  rw [endPush, Fifo.endPush, ← hinner.answer, ← hinner.toFifo]
  split
  · exact ⟨rfl, rfl, hinner.sound.abandon⟩
  · rw [← hindex]
    exact ⟨rfl, toFifo_publish _ hcount, sound_publish hcount⟩

theorem agrees_endPop {queue : Queue α capacity} {inner : Close ρ × Queue α capacity}
    {innerFifo : Close ρ × Fifo α capacity} (hinner : Agrees inner innerFifo)
    (hheld : Holds queue.lockPop inner.2) :
    Agrees (endPop queue.readIndex inner) (Fifo.endPop innerFifo) := by
  have hindex : inner.2.readIndex = queue.readIndex := hheld.readIndex rfl
  have hcount := hinner.sound.count_pos hheld.popping
  rw [endPop, Fifo.endPop, ← hinner.answer, ← hinner.toFifo]
  split
  · exact ⟨rfl, rfl, hinner.sound.keep⟩
  · rw [← hindex]
    exact ⟨rfl, toFifo_release hinner.sound hcount, hinner.sound.release hcount⟩

/-! ## Whole programs -/

/-- The loans of a program are the slot of the push and the element of the pop in progress. -/
structure Loans.Current (loans : Loans) (queue : Queue α capacity) : Prop where
  /-- Only a push in progress lends its slot. -/
  slot : ∀ index, loans.slot = some index → queue.pushing = true ∧ index = queue.writeIndex
  /-- Only a pop in progress lends its element. -/
  head : ∀ index, loans.head = some index → queue.popping = true ∧ index = queue.readIndex

theorem Loans.Current.of_holds {loans : Loans} {before after : Queue α capacity}
    (hcurrent : loans.Current before) (hholds : Holds before after) : loans.Current after where
  slot index hindex := by
    obtain ⟨hpushing, rfl⟩ := hcurrent.slot index hindex
    exact ⟨hholds.pushing.trans hpushing, (hholds.writeIndex hpushing).symm⟩
  head index hindex := by
    obtain ⟨hpopping, rfl⟩ := hcurrent.head index hindex
    exact ⟨hholds.popping.trans hpopping, (hholds.readIndex hpopping).symm⟩

theorem Loans.current_nothing (queue : Queue α capacity) : Loans.nothing.Current queue where
  slot index hindex := by cases hindex
  head index hindex := by cases hindex

theorem Loans.Current.readSlot {loans : Loans} {queue : Queue α capacity}
    (hcurrent : loans.Current queue) (hsound : queue.Sound) :
    loans.slot.map queue.peek =
      if loans.toFifo.slot then queue.toFifo.spare.head? else none := by
  cases hslot : loans.slot with
  | none => simp [Loans.toFifo, hslot]
  | some index =>
    obtain ⟨hpushing, rfl⟩ := hcurrent.slot index hslot
    simp [Loans.toFifo, hslot, Queue.toFifo, spare_eq_cons queue (hsound.count_lt hpushing)]

theorem Loans.Current.readHead {loans : Loans} {queue : Queue α capacity}
    (hcurrent : loans.Current queue) (hsound : queue.Sound) :
    loans.head.map queue.peek =
      if loans.toFifo.head then queue.toFifo.waiting.head? else none := by
  cases hhead : loans.head with
  | none => simp [Loans.toFifo, hhead]
  | some index =>
    obtain ⟨hpopping, rfl⟩ := hcurrent.head index hhead
    simp [Loans.toFifo, hhead, Queue.toFifo, waiting_eq_cons queue (hsound.count_pos hpopping)]

theorem Agrees.andThen {σ : Type} {next : σ → Program α ρ} {loans : Loans}
    {called : σ × Queue α capacity} {calledFifo : σ × Fifo α capacity}
    (hcalled : Agrees called calledFifo) (hcurrent : loans.Current called.2)
    (hnext : ∀ answer (queue : Queue α capacity), queue.Sound → loans.Current queue →
      Agrees ((next answer).run loans queue) (Fifo.run (next answer) loans.toFifo queue.toFifo)) :
    Agrees ((next called.1).run loans called.2)
      (Fifo.run (next calledFifo.1) loans.toFifo calledFifo.2) := by
  rw [← hcalled.answer, ← hcalled.toFifo]
  exact hnext _ _ hcalled.sound hcurrent

/-- A program has the same answers on a queue as on the bounded list that the queue spells.

The induction is on the program. Whatever runs inside a push or a pop finds its lock taken, so the index
loaded before it is still the current one when it is stored behind it. -/
theorem agrees_run (program : Program α ρ) (loans : Loans) (queue : Queue α capacity)
    (hsound : queue.Sound) (hcurrent : loans.Current queue) :
    Agrees (program.run loans queue) (Fifo.run program loans.toFifo queue.toFifo) := by
  induction program generalizing loans queue with
  | close result => exact ⟨rfl, rfl, hsound⟩
  | writeSlot element next ih =>
    simp only [Program.run, Fifo.run]
    cases hslot : loans.slot with
    | none =>
      have hnothing : loans.toFifo.slot = false := by simp [Loans.toFifo, hslot]
      rw [hnothing]
      exact ih loans queue hsound hcurrent
    | some index =>
      obtain ⟨hpushing, rfl⟩ := hcurrent.slot index hslot
      have hlent : loans.toFifo.slot = true := by simp [Loans.toFifo, hslot]
      rw [hlent, if_pos rfl, ← toFifo_store queue element (hsound.count_lt hpushing)]
      exact ih loans _ ⟨hsound.count_le, hsound.count_lt, hsound.count_pos⟩
        ⟨hcurrent.slot, hcurrent.head⟩
  | readSlot next ih =>
    simp only [Program.run, Fifo.run, hcurrent.readSlot hsound]
    exact ih _ loans queue hsound hcurrent
  | readHead next ih =>
    simp only [Program.run, Fifo.run, hcurrent.readHead hsound]
    exact ih _ loans queue hsound hcurrent
  | push element next ih =>
    exact (agrees_push hsound element).andThen (hcurrent.of_holds (holds_push queue element))
      fun answer => ih answer loans
  | pop next ih =>
    exact (agrees_pop? hsound).andThen (hcurrent.of_holds (holds_pop? queue))
      fun answer => ih answer loans
  | pushWith fill next ihfill ihnext =>
    rcases queue.startPush_cases with ⟨hrefused, hstart⟩ | ⟨hpushing, hcount, hstart⟩
    · simp only [Program.run, Fifo.run, hstart, toFifo_startPush_refused hrefused]
      exact ihnext _ loans _ ⟨hsound.count_le, hsound.count_lt, hsound.count_pos⟩
        ⟨hcurrent.slot, hcurrent.head⟩
    · have hlent : { loans with slot := some queue.writeIndex : Loans }.Current queue.lockPush :=
        ⟨fun index hindex => ⟨rfl, (Option.some.inj hindex).symm⟩, hcurrent.head⟩
      have hinner := ihfill (queue.peek queue.writeIndex) _ _ (hsound.startPush hcount) hlent
      have hheld := holds_run (fill (queue.peek queue.writeIndex))
        { loans with slot := some queue.writeIndex } queue.lockPush
      simp only [Program.run, Fifo.run, hstart, toFifo_startPush_granted hpushing hcount]
      exact (agrees_endPush hinner hheld).andThen
        (hcurrent.of_holds (holds_endPush hpushing hheld _)) fun answer => ihnext answer loans
  | popWith consume next ihconsume ihnext =>
    rcases queue.startPop_cases with ⟨hrefused, hstart⟩ | ⟨hpopping, hcount, hstart⟩
    · simp only [Program.run, Fifo.run, hstart, toFifo_startPop_refused hrefused]
      exact ihnext _ loans queue hsound hcurrent
    · have hlent : { loans with head := some queue.readIndex : Loans }.Current queue.lockPop :=
        ⟨hcurrent.slot, fun index hindex => ⟨rfl, (Option.some.inj hindex).symm⟩⟩
      have hinner := ihconsume (queue.peek queue.readIndex) _ _ (hsound.startPop hcount) hlent
      have hheld := holds_run (consume (queue.peek queue.readIndex))
        { loans with head := some queue.readIndex } queue.lockPop
      simp only [Program.run, Fifo.run, hstart, toFifo_startPop_granted hpopping hcount]
      exact (agrees_endPop hinner hheld).andThen
        (hcurrent.of_holds (holds_endPop hpopping hheld _)) fun answer => ihnext answer loans
  | takeDropped next ih =>
    exact ih _ loans _ ⟨hsound.count_le, hsound.count_lt, hsound.count_pos⟩
      ⟨hcurrent.slot, hcurrent.head⟩
  | observe next ih =>
    simp only [Program.run, Fifo.run, ← toFifo_gauge]
    exact ih _ loans queue hsound hcurrent

theorem Sound.bounded {queue : Queue α capacity} (hsound : queue.Sound) :
    queue.toFifo.Bounded := by
  have hle := hsound.count_le
  rw [Fifo.Bounded, toFifo, length_waiting, length_spare]
  omega

/-- A queue is a bounded list. A new queue is sound, and on a sound queue, wherever its indices stand, every
program gives the answers that it gives on the bounded list, and leaves a sound queue that spells what the
program leaves of the list. -/
theorem run_eq_run_fifo (hcapacity : IsCapacity capacity) :
    (∀ element : α, (new hcapacity element).Sound) ∧
      ∀ (queue : Queue α capacity) (program : Program α ρ), queue.Sound →
        queue.toFifo.Bounded ∧
          Agrees (program.run .nothing queue) (Fifo.run program ⟨false, false⟩ queue.toFifo) ∧
            (program.run .nothing queue).2.toFifo.Bounded := by
  refine ⟨sound_new hcapacity, ?_⟩
  intro queue program hsound
  have hagrees := agrees_run program .nothing queue hsound (Loans.current_nothing queue)
  exact ⟨hsound.bounded, hagrees, hagrees.sound.bounded⟩

/-- A full queue of two whose write index has wrapped. -/
def wrapped : Queue Nat 2 :=
  ⟨#v[20, 10], 1, 18446744073709551615, 0, false, false, by decide⟩

/-- A pop in which a push finds the queue full and a second pop finds the first one; then a push that breaks
down over its slot, one that keeps what it finds there and pushes inside itself, and two pops. -/
def entangled : Program Nat (List Nat) :=
  .popWith (fun head =>
      .push 30 fun pushed => .pop fun popped => .readHead fun again =>
        .close ⟨false, [head, pushed.toNat, popped.getD 0, again.getD 0]⟩) fun _ =>
    .pushWith (fun left => .writeSlot 40 (.close ⟨true, [left]⟩)) fun _ =>
      .pushWith (fun left => .push 50 fun pushed => .close ⟨false, [left, pushed.toNat]⟩) fun filled =>
        .pop fun first => .pop fun second => .takeDropped fun dropped =>
          .close ⟨filled = .finished [40, 0], [first.getD 0, second.getD 0, dropped.toNat]⟩

theorem wrapped_run_eq_run_fifo :
    wrapped.Sound ∧
      Agrees (entangled.run .nothing wrapped) (Fifo.run entangled ⟨false, false⟩ wrapped.toFifo) ∧
        Fifo.run entangled ⟨false, false⟩ wrapped.toFifo =
          (⟨true, [20, 40, 2]⟩, ⟨[], [20, 40], 0, false, false⟩) := by
  have hsound : wrapped.Sound := ⟨by decide, by decide, by decide⟩
  exact ⟨hsound, ((run_eq_run_fifo (by decide)).2 wrapped entangled hsound).2.1, by decide⟩

end LogRelay.Queue
