import LogRelay.Proofs.Queue.Threads
import LogRelay.Proofs.Queue.Window

/-!
# Threads that share a queue do not disturb each other

However the steps of pushes and pops are interleaved, a lock keeps a second thread out, and what a thread
has read of the other index stays good enough: while it works, the other side can only make more room or
bring more elements. So a push has its slot to itself until its index is stored, and pops find the elements
as pushes left them, in order.
-/

namespace LogRelay.Queue

variable {ι α : Type} {capacity : Nat}

/-! ## The lists and the steps -/

theorem count_advanceWrite (queue : Queue α capacity) (hcount : queue.count < capacity) :
    (queue.advanceWrite queue.writeIndex).count = queue.count + 1 := queue.count_publish hcount

theorem waiting_advanceWrite (queue : Queue α capacity) (hcount : queue.count < capacity) :
    (queue.advanceWrite queue.writeIndex).waiting = queue.waiting ++ [queue.peek queue.writeIndex] :=
  queue.waiting_publish hcount

theorem count_advanceRead (queue : Queue α capacity) (hcount : 0 < queue.count) :
    (queue.advanceRead queue.readIndex).count = queue.count - 1 := queue.count_release hcount

theorem waiting_advanceRead (queue : Queue α capacity) (hcount : 0 < queue.count) :
    (queue.advanceRead queue.readIndex).waiting = queue.waiting.tail := queue.waiting_release hcount

theorem slotOf_writeIndex_ne (queue : Queue α capacity) (hroom : queue.count < capacity)
    (hcount : 0 < queue.count) :
    queue.slotOf queue.writeIndex ≠ queue.slotOf queue.readIndex := by
  have hslots := @slotOf_add_ne _ _ queue queue.readIndex 0 queue.count hcount hroom
  rw [readIndex_add_count] at hslots
  simpa using hslots.symm

/-- Queues that differ at most in their locks and in the count of refused pushes. -/
structure SameElements (before after : Queue α capacity) : Prop where
  /-- The storage. -/
  slots_eq : after.slots = before.slots
  /-- The number of pushes. -/
  writeIndex_eq : after.writeIndex = before.writeIndex
  /-- The number of pops. -/
  readIndex_eq : after.readIndex = before.readIndex

theorem SameElements.count_eq {before after : Queue α capacity} (hsame : before.SameElements after) :
    after.count = before.count := by
  rw [count, count, length, length, hsame.writeIndex_eq, hsame.readIndex_eq]

theorem SameElements.waiting_eq {before after : Queue α capacity}
    (hsame : before.SameElements after) : after.waiting = before.waiting := by
  obtain ⟨slots, write, read, dropped, pushing, popping, hcapacity⟩ := after
  obtain ⟨rfl, rfl, rfl⟩ := hsame
  rfl

/-! ## Locks -/

/-- At most one thread is at a stage that needs a lock, and then the lock is taken. -/
structure Guarded (holds : Stage α → Bool) (locked : Bool) (stage : ι → Stage α) : Prop where
  /-- The lock is taken. -/
  locked_eq : ∀ thread, holds (stage thread) = true → locked = true
  /-- No two threads have it. -/
  unique : ∀ first second, holds (stage first) = true → holds (stage second) = true → first = second

namespace Guarded

variable [DecidableEq ι] {holds : Stage α → Bool} {locked : Bool} {stage : ι → Stage α}
  {thread : ι} {current next : Stage α}

omit [DecidableEq ι] in
theorem not_holds (hguarded : Guarded holds locked stage) (hstage : stage thread = current)
    (hown : holds current = true) {other : ι} (hother : other ≠ thread) :
    holds (stage other) = false := by
  rw [← Bool.not_eq_true]
  exact fun hheld => hother (hguarded.unique other thread hheld (hstage.symm ▸ hown))

theorem keep (hguarded : Guarded holds locked stage) (hstage : stage thread = current)
    (hsame : holds next = holds current) :
    Guarded holds locked (Function.update stage thread next) := by
  have hholds : ∀ other, holds (Function.update stage thread next other) = holds (stage other) := by
    intro other
    by_cases hother : other = thread
    · rw [hother, Function.update_self, hsame, hstage]
    · rw [Function.update_of_ne hother]
  refine ⟨fun other hheld => hguarded.locked_eq other (hholds other ▸ hheld), ?_⟩
  exact fun first second hfirst hsecond =>
    hguarded.unique first second (hholds first ▸ hfirst) (hholds second ▸ hsecond)

theorem take (hguarded : Guarded holds locked stage) (hfree : locked = false) :
    Guarded holds true (Function.update stage thread next) := by
  have hnone : ∀ other, holds (stage other) ≠ true := fun other hheld =>
    Bool.false_ne_true (hfree.symm.trans (hguarded.locked_eq other hheld))
  have hself : ∀ other, holds (Function.update stage thread next other) = true →
      other = thread := by
    intro other hheld
    by_contra hother
    rw [Function.update_of_ne hother] at hheld
    exact hnone other hheld
  exact ⟨fun _ _ => rfl, fun first second hfirst hsecond =>
    (hself first hfirst).trans (hself second hsecond).symm⟩

theorem give (hguarded : Guarded holds locked stage) (hstage : stage thread = current)
    (hown : holds current = true) (hnext : holds next = false) :
    Guarded holds false (Function.update stage thread next) := by
  have hnone : ∀ other, holds (Function.update stage thread next other) ≠ true := by
    intro other hheld
    by_cases hother : other = thread
    · rw [hother, Function.update_self, hnext] at hheld
      exact Bool.false_ne_true hheld
    · rw [Function.update_of_ne hother, hguarded.not_holds hstage hown hother] at hheld
      exact Bool.false_ne_true hheld
  exact ⟨fun other hheld => absurd hheld (hnone other),
    fun first _ hfirst => absurd hfirst (hnone first)⟩

end Guarded

/-! ## What a thread knows -/

/-- What a thread has read is right, or was and is still good enough. -/
def Stage.Knows (queue : Queue α capacity) : Stage α → Prop
  | pushReady write => write = queue.writeIndex
  | pushChecking write read =>
      write = queue.writeIndex ∧ ((write - read).toNat < capacity → queue.count < capacity)
  | filling write element =>
      write = queue.writeIndex ∧ queue.count < capacity ∧ queue.peek write = element
  | popReady read => read = queue.readIndex
  | popChecking read write => read = queue.readIndex ∧ (read ≠ write → 0 < queue.count)
  | consuming read seen =>
      read = queue.readIndex ∧ 0 < queue.count ∧ ∀ element ∈ seen, queue.peek read = element
  | _ => True

namespace Stage.Knows

variable {queue : Queue α capacity} {stage : Stage α}

theorem congr {after : Queue α capacity} (hknows : stage.Knows queue)
    (hsame : queue.SameElements after) : stage.Knows after := by
  obtain ⟨slots, write, read, dropped, pushing, popping, hcapacity⟩ := after
  obtain ⟨rfl, rfl, rfl⟩ := hsame
  cases stage <;> exact hknows

theorem store (hknows : stage.Knows queue) (hother : stage.holdsPush = false)
    (hroom : queue.count < capacity) (element : α) :
    stage.Knows (queue.store queue.writeIndex element) := by
  cases stage with
  | pushLocked | pushReady | pushChecking | crowded | filling | pushLeaving =>
      exact absurd hother (by simp [holdsPush])
  | consuming read seen =>
      obtain ⟨rfl, hcount, hseen⟩ := hknows
      refine ⟨rfl, hcount, ?_⟩
      rw [queue.peek_store_of_ne element (queue.slotOf_writeIndex_ne hroom hcount)]
      exact hseen
  | popReady | popChecking | idle | barred | popLocked | popLeaving => exact hknows

theorem advanceWrite (hknows : stage.Knows queue) (hother : stage.holdsPush = false)
    (hroom : queue.count < capacity) : stage.Knows (queue.advanceWrite queue.writeIndex) := by
  have hmore := queue.count_advanceWrite hroom
  cases stage with
  | pushLocked | pushReady | pushChecking | crowded | filling | pushLeaving =>
      exact absurd hother (by simp [holdsPush])
  | popChecking read write => exact ⟨hknows.1, fun _ => by omega⟩
  | consuming read seen => exact ⟨hknows.1, by omega, hknows.2.2⟩
  | popReady | idle | barred | popLocked | popLeaving => exact hknows

theorem advanceRead (hknows : stage.Knows queue) (hother : stage.holdsPop = false)
    (hcount : 0 < queue.count) : stage.Knows (queue.advanceRead queue.readIndex) := by
  have hless := queue.count_advanceRead hcount
  cases stage with
  | popLocked | popReady | popChecking | consuming | popLeaving =>
      exact absurd hother (by simp [holdsPop])
  | pushChecking write read =>
      refine ⟨hknows.1, fun hread => ?_⟩
      have hroom := hknows.2 hread
      omega
  | filling write element =>
      obtain ⟨hwrite, hroom, helement⟩ := hknows
      exact ⟨hwrite, by omega, helement⟩
  | pushReady | idle | barred | pushLocked | crowded | pushLeaving => exact hknows

end Stage.Knows

/-! ## Every step -/

namespace Crowd

/-- What holds of threads that share a queue, whatever steps they have taken. -/
structure Sound (crowd : Crowd ι α capacity) : Prop where
  /-- One push at a time has a slot. -/
  pushGuarded : Guarded Stage.holdsPush crowd.queue.pushing crowd.stage
  /-- One pop at a time has an element. -/
  popGuarded : Guarded Stage.holdsPop crowd.queue.popping crowd.stage
  /-- Every thread knows enough for its next step. -/
  knows : ∀ thread, (crowd.stage thread).Knows crowd.queue
  /-- No more elements wait than there are slots. -/
  count_le : crowd.queue.count ≤ capacity
  /-- The elements published are those consumed and those waiting. -/
  published_eq : crowd.published = crowd.consumed ++ crowd.queue.waiting
  /-- Every push that is over has published an element or is counted as refused. -/
  answers_eq : UInt32.ofNat crowd.answers.length =
    UInt32.ofNat crowd.published.length + crowd.taken + crowd.queue.dropped
  /-- The pushes that were granted are those that published an element. -/
  granted_eq : crowd.answers.count true = crowd.published.length

variable {crowd : Crowd ι α capacity} {thread : ι} {current stage : Stage α}

theorem Sound.refuse (hsound : crowd.Sound) : crowd.refuse.Sound := by
  refine ⟨hsound.pushGuarded, hsound.popGuarded, ?_, hsound.count_le, hsound.published_eq, ?_, ?_⟩
  · exact fun other => (hsound.knows other).congr ⟨rfl, rfl, rfl⟩
  · simp only [Crowd.refuse, countDrop, List.length_append, List.length_singleton]
    rw [UInt32.ofNat_add, hsound.answers_eq, UInt32.add_assoc]
    rfl
  · simp only [Crowd.refuse, List.count_append]
    simpa using hsound.granted_eq

theorem Sound.takeDropped (hsound : crowd.Sound) :
    Sound { crowd with
      queue := crowd.queue.takeDropped.2
      taken := crowd.taken + crowd.queue.takeDropped.1 } := by
  refine ⟨hsound.pushGuarded, hsound.popGuarded, ?_, hsound.count_le, hsound.published_eq, ?_,
    hsound.granted_eq⟩
  · exact fun other => (hsound.knows other).congr ⟨rfl, rfl, rfl⟩
  · simp only [Queue.takeDropped]
    rw [hsound.answers_eq, UInt32.add_zero, UInt32.add_assoc]

theorem sound_start (hcapacity : IsCapacity capacity) (element : α) :
    (start hcapacity element : Crowd ι α capacity).Sound := by
  have hempty : (Queue.new hcapacity element).count = 0 := by simp [count, length, new]
  refine ⟨⟨?_, ?_⟩, ⟨?_, ?_⟩, fun _ => trivial, hempty ▸ Nat.zero_le _, ?_, rfl, rfl⟩
  · exact fun _ hheld => absurd hheld Bool.false_ne_true
  · exact fun _ _ hheld => absurd hheld Bool.false_ne_true
  · exact fun _ hheld => absurd hheld Bool.false_ne_true
  · exact fun _ _ hheld => absurd hheld Bool.false_ne_true
  · exact (List.eq_nil_of_length_eq_zero ((length_waiting _).trans hempty)).symm

variable [DecidableEq ι]

theorem knows_goTo {queue : Queue α capacity} (hself : stage.Knows queue)
    (hothers : ∀ other ≠ thread, (crowd.stage other).Knows queue) (other : ι) :
    ((crowd.goTo thread stage).stage other).Knows queue := by
  rw [Crowd.goTo]
  by_cases hother : other = thread
  · simpa only [hother, Function.update_self] using hself
  · simpa only [Function.update_of_ne hother] using hothers other hother

theorem Sound.relock (hsound : crowd.Sound) {queue : Queue α capacity}
    (hsame : crowd.queue.SameElements queue) (hdropped : queue.dropped = crowd.queue.dropped)
    (hpush : Guarded Stage.holdsPush queue.pushing (Function.update crowd.stage thread stage))
    (hpop : Guarded Stage.holdsPop queue.popping (Function.update crowd.stage thread stage))
    (hknows : stage.Knows crowd.queue) :
    ({ crowd with queue := queue }.goTo thread stage).Sound := by
  refine ⟨hpush, hpop, ?_, ?_, ?_, ?_, hsound.granted_eq⟩
  · exact knows_goTo (hknows.congr hsame) fun other _ => (hsound.knows other).congr hsame
  · rw [queue_goTo, hsame.count_eq]
    exact hsound.count_le
  · exact hsame.waiting_eq ▸ hsound.published_eq
  · exact hdropped ▸ hsound.answers_eq

theorem Sound.goTo (hsound : crowd.Sound) (hstage : crowd.stage thread = current)
    (hpush : stage.holdsPush = current.holdsPush) (hpop : stage.holdsPop = current.holdsPop)
    (hknows : stage.Knows crowd.queue) : (crowd.goTo thread stage).Sound :=
  hsound.relock ⟨rfl, rfl, rfl⟩ rfl (hsound.pushGuarded.keep hstage hpush)
    (hsound.popGuarded.keep hstage hpop) hknows

/-- A thread begins a call if it gets the lock. -/
theorem Sound.begin (hsound : crowd.Sound) (hidle : crowd.stage thread = .idle) (move : Move α) :
    (crowd.begin thread move).Sound := by
  cases move with
  | push =>
      simp only [Crowd.begin]
      split
      · exact hsound.goTo hidle rfl rfl trivial
      · next hfree =>
        exact hsound.relock ⟨rfl, rfl, rfl⟩ rfl
          (hsound.pushGuarded.take (Bool.eq_false_of_not_eq_true hfree))
          (hsound.popGuarded.keep hidle rfl) trivial
  | pop =>
      simp only [Crowd.begin]
      split
      · exact hsound
      · next hfree =>
        exact hsound.relock ⟨rfl, rfl, rfl⟩ rfl (hsound.pushGuarded.keep hidle rfl)
          (hsound.popGuarded.take (Bool.eq_false_of_not_eq_true hfree)) trivial
  | takeDropped => exact hsound.takeDropped
  | write | look | go => exact hsound

/-- A push writes to its slot, or stores its index. -/
theorem Sound.fill (hsound : crowd.Sound) {write : UInt64} {element : α}
    (hstage : crowd.stage thread = .filling write element) (move : Move α) :
    (crowd.fill thread write element move).Sound := by
  have hknows := hsound.knows thread
  rw [hstage] at hknows
  obtain ⟨rfl, hroom, helement⟩ := hknows
  have hothers : ∀ other ≠ thread, (crowd.stage other).holdsPush = false :=
    fun other => hsound.pushGuarded.not_holds hstage rfl
  have hdone : Sound ({ crowd with
      queue := crowd.queue.advanceWrite crowd.queue.writeIndex
      published := crowd.published ++ [element]
      answers := crowd.answers ++ [true] }.goTo thread .pushLeaving) := by
    refine ⟨hsound.pushGuarded.keep hstage rfl, hsound.popGuarded.keep hstage rfl, ?_, ?_, ?_, ?_,
      ?_⟩
    · exact knows_goTo trivial fun other hother =>
        (hsound.knows other).advanceWrite (hothers other hother) hroom
    · exact (crowd.queue.count_advanceWrite hroom).trans_le hroom
    · change crowd.published ++ [element] = crowd.consumed ++ (crowd.queue.advanceWrite _).waiting
      rw [waiting_advanceWrite _ hroom, helement, hsound.published_eq, List.append_assoc]
    · change UInt32.ofNat (crowd.answers ++ [true]).length =
        UInt32.ofNat (crowd.published ++ [element]).length + crowd.taken + crowd.queue.dropped
      rw [List.length_append, List.length_append, UInt32.ofNat_add, UInt32.ofNat_add,
        hsound.answers_eq]
      grind
    · change (crowd.answers ++ [true]).count true = (crowd.published ++ [element]).length
      rw [List.count_append, List.length_append, hsound.granted_eq]
      rfl
  cases move with
  | write next =>
      refine ⟨hsound.pushGuarded.keep hstage rfl, hsound.popGuarded.keep hstage rfl, ?_,
        hsound.count_le, ?_, hsound.answers_eq, hsound.granted_eq⟩
      · exact knows_goTo ⟨rfl, hroom, crowd.queue.peek_store_self _ _⟩ fun other hother =>
          (hsound.knows other).store (hothers other hother) hroom next
      · exact (crowd.queue.waiting_store next hroom) ▸ hsound.published_eq
  | push | pop | takeDropped | look | go => exact hdone

/-- A pop looks at its element, or stores its index. -/
theorem Sound.consume (hsound : crowd.Sound) {read : UInt64} {seen : List α}
    (hstage : crowd.stage thread = .consuming read seen) (move : Move α) :
    (crowd.consume thread read seen move).Sound := by
  have hknows := hsound.knows thread
  rw [hstage] at hknows
  obtain ⟨rfl, hcount, hseen⟩ := hknows
  have hdone : Sound ({ crowd with
      queue := crowd.queue.advanceRead crowd.queue.readIndex
      consumed := crowd.consumed ++ [crowd.queue.peek crowd.queue.readIndex]
      }.goTo thread .popLeaving) := by
    refine ⟨hsound.pushGuarded.keep hstage rfl, hsound.popGuarded.keep hstage rfl, ?_, ?_, ?_,
      hsound.answers_eq, hsound.granted_eq⟩
    · exact knows_goTo trivial fun other hother =>
        (hsound.knows other).advanceRead (hsound.popGuarded.not_holds hstage rfl hother) hcount
    · change (crowd.queue.advanceRead _).count ≤ capacity
      rw [count_advanceRead _ hcount]
      exact Nat.le_trans (Nat.sub_le _ _) hsound.count_le
    · change crowd.published =
        crowd.consumed ++ [crowd.queue.peek _] ++ (crowd.queue.advanceRead _).waiting
      rw [waiting_advanceRead _ hcount, hsound.published_eq, waiting_eq_cons _ hcount,
        List.append_assoc]
      rfl
  cases move with
  | look =>
      refine hsound.goTo hstage rfl rfl ⟨rfl, hcount, ?_⟩
      intro element helement
      rcases List.mem_append.1 helement with hbefore | hlast
      · exact hseen element hbefore
      · exact (List.mem_singleton.1 hlast).symm
  | push | pop | takeDropped | write | go => exact hdone

/-- Every step of every thread keeps the queue sound. -/
theorem Sound.step (hsound : crowd.Sound) (next : ι × Move α) : (crowd.step next).Sound := by
  obtain ⟨thread, move⟩ := next
  have hknows := hsound.knows thread
  rw [Crowd.step]
  cases hstage : crowd.stage thread with
  | idle => exact hsound.begin hstage move
  | barred => exact hsound.refuse.goTo hstage rfl rfl trivial
  | pushLocked => exact hsound.goTo hstage rfl rfl rfl
  | pushReady write =>
      rw [hstage] at hknows
      obtain rfl : write = crowd.queue.writeIndex := hknows
      exact hsound.goTo hstage rfl rfl ⟨rfl, id⟩
  | pushChecking write read =>
      rw [hstage] at hknows
      obtain ⟨rfl, hroom⟩ := hknows
      simp only
      split
      · exact hsound.goTo hstage rfl rfl trivial
      · next hfits => exact hsound.goTo hstage rfl rfl ⟨rfl, hroom (Nat.lt_of_not_le hfits), rfl⟩
  | crowded => exact hsound.refuse.goTo hstage rfl rfl trivial
  | filling write element => exact hsound.fill hstage move
  | pushLeaving =>
      exact hsound.relock ⟨rfl, rfl, rfl⟩ rfl (hsound.pushGuarded.give hstage rfl rfl)
        (hsound.popGuarded.keep hstage rfl) trivial
  | popLocked => exact hsound.goTo hstage rfl rfl rfl
  | popReady read =>
      rw [hstage] at hknows
      obtain rfl : read = crowd.queue.readIndex := hknows
      refine hsound.goTo hstage rfl rfl ⟨rfl, fun hne => ?_⟩
      exact Nat.pos_of_ne_zero fun hempty => hne ((readIndex_eq_writeIndex_iff _).2 hempty)
  | popChecking read write =>
      rw [hstage] at hknows
      obtain ⟨rfl, hcount⟩ := hknows
      simp only
      split
      · exact hsound.goTo hstage rfl rfl trivial
      · next hne =>
        exact hsound.goTo hstage rfl rfl ⟨rfl, hcount hne, fun _ hnone => absurd hnone List.not_mem_nil⟩
  | consuming read seen => exact hsound.consume hstage move
  | popLeaving =>
      exact hsound.relock ⟨rfl, rfl, rfl⟩ rfl (hsound.pushGuarded.keep hstage rfl)
        (hsound.popGuarded.give hstage rfl rfl) trivial

theorem Sound.run (hsound : crowd.Sound) (schedule : List (ι × Move α)) :
    (Crowd.run schedule crowd).Sound := by
  induction schedule generalizing crowd with
  | nil => exact hsound
  | cons next rest induction => exact induction (hsound.step next)

/-- Threads share a queue safely. Whatever calls threads make on a new queue and however the steps of
these calls are interleaved: at most one thread is at work in the slot of a push and at most one on the
element of a pop, and never in the same slot. The indices are at most as far apart as there are slots. The
elements consumed are the first of those published, in order and as their pushes left them, and a pop at
work has never seen anything but the next of them. Every push that is over has published an element, and
then its answer was that it did, or is counted as refused. -/
theorem threads_share_safely (hcapacity : IsCapacity capacity) (element : α)
    (schedule : List (ι × Move α)) :
    let crowd := run schedule (start hcapacity element : Crowd ι α capacity)
    (∀ first second write other left right, crowd.stage first = .filling write left →
      crowd.stage second = .filling other right → first = second) ∧
    (∀ first second read other seen shown, crowd.stage first = .consuming read seen →
      crowd.stage second = .consuming other shown → first = second) ∧
    (∀ filler consumer write read left seen, crowd.stage filler = .filling write left →
      crowd.stage consumer = .consuming read seen →
        crowd.queue.slotOf write ≠ crowd.queue.slotOf read) ∧
    (crowd.queue.writeIndex - crowd.queue.readIndex).toNat ≤ capacity ∧
    crowd.consumed = crowd.published.take crowd.consumed.length ∧
    (∀ consumer read seen, crowd.stage consumer = .consuming read seen →
      ∀ shown ∈ seen, crowd.published[crowd.consumed.length]? = some shown) ∧
    crowd.answers.count true = crowd.published.length ∧
    UInt32.ofNat crowd.answers.length =
      UInt32.ofNat (crowd.answers.count true) + (crowd.taken + crowd.queue.dropped) := by
  intro crowd
  have hsound : crowd.Sound := (sound_start hcapacity element).run schedule
  have hknows : ∀ {thread stage}, crowd.stage thread = stage → stage.Knows crowd.queue :=
    fun hstage => hstage ▸ hsound.knows _
  refine ⟨?_, ?_, ?_, hsound.count_le, ?_, ?_, hsound.granted_eq, ?_⟩
  · intro first second write other left right hfirst hsecond
    exact hsound.pushGuarded.unique first second (hfirst ▸ rfl) (hsecond ▸ rfl)
  · intro first second read other seen shown hfirst hsecond
    exact hsound.popGuarded.unique first second (hfirst ▸ rfl) (hsecond ▸ rfl)
  · intro filler consumer write read left seen hfiller hconsumer
    obtain ⟨rfl, hroom, -⟩ := hknows hfiller
    obtain ⟨rfl, hcount, -⟩ := hknows hconsumer
    exact crowd.queue.slotOf_writeIndex_ne hroom hcount
  · rw [hsound.published_eq, List.take_left]
  · intro consumer read seen hconsumer shown hshown
    obtain ⟨rfl, hcount, hseen⟩ := hknows hconsumer
    rw [hsound.published_eq, List.getElem?_append_right (Nat.le_refl _), Nat.sub_self,
      waiting_eq_cons _ hcount, ← hseen shown hshown]
    rfl
  · rw [hsound.granted_eq, hsound.answers_eq, UInt32.add_assoc]

/-- While one thread looks at the first element, a second one is at work on its own push and a third one
finds the lock taken. -/
def contention : List (Fin 3 × Move Nat) :=
  pushAlone 0 7 ++
    [(1, .pop), (1, .go), (1, .go), (0, .push), (0, .go), (1, .go), (0, .go), (1, .look), (0, .go),
      (0, .write 8), (1, .look), (2, .push), (2, .go), (0, .write 9)]

/-- The first thread and the second are in different slots, and the second sees the element as it was
published. -/
theorem contention_is_safe :
    let crowd := run contention (start (by decide : IsCapacity 2) 0)
    IsCapacity 2 ∧ crowd.stage 0 = .filling 1 9 ∧ crowd.stage 1 = .consuming 0 [7, 7] ∧
      crowd.queue.slotOf 1 ≠ crowd.queue.slotOf 0 ∧
      crowd.published[crowd.consumed.length]? = some 7 ∧
      UInt32.ofNat crowd.answers.length =
        UInt32.ofNat (crowd.answers.count true) + (crowd.taken + crowd.queue.dropped) := by
  intro crowd
  have hfiller : crowd.stage 0 = .filling 1 9 := by decide +kernel
  have hconsumer : crowd.stage 1 = .consuming 0 [7, 7] := by decide +kernel
  obtain ⟨-, -, hslots, -, -, hseen, -, hanswers⟩ :=
    threads_share_safely (by decide : IsCapacity 2) 0 contention
  exact ⟨by decide, hfiller, hconsumer, hslots 0 1 1 0 9 [7, 7] hfiller hconsumer,
    hseen 1 0 [7, 7] hconsumer 7 List.mem_cons_self, hanswers⟩

end Crowd

end LogRelay.Queue
