import LogRelay.Proofs.Worker.Sound

/-!
# Stopping a worker

The last run of the job begins after the flag was cleared, as the thread has seen it clear, and nothing
follows it. A stop has two steps to take until it waits for the thread, the thread at most four until it is
over, as it does not wait again, and the stop then one more; so it returns if both go on.
-/

namespace LogRelay.Worker

/-- The number of steps to the end of a thread that does not stay in a wait, if the flag is clear. -/
def ThreadStage.rank : ThreadStage → Nat
  | draining last => if last then 1 else 4
  | parking | parked => 3
  | checking => 2
  | ended | brokeDown => 0

/-- The number of steps of a stop until it waits for the thread. -/
def OwnerStage.rank : OwnerStage → Nat
  | cleared _ => 2
  | holding _ => 1
  | _ => 0

namespace Move

variable {σ : Type}

/-- Whether the owner takes a step. -/
def isOwner : Move σ → Bool
  | owner _ => true
  | _ => false

/-- Whether the thread takes a step. -/
def isThread : Move σ → Bool
  | thread => true
  | _ => false

end Move

namespace Shift

variable {σ : Type} {job : Job σ} {name : String} {period : Duration} {shift : Shift σ}

/-! ## What a step can do -/

/-- What a step can do about the thread. -/
inductive Advances (shift next : Shift σ) : Prop where
  /-- Nothing. -/
  | keeps (hthread : next.thread = shift.thread) (hbegun : next.begun = shift.begun)
      (hends : next.ends = shift.ends)
  /-- The thread looks at the flag and begins a run of the job. -/
  | begins (hthread : shift.thread = .checking) (hnext : next.thread = .draining !shift.running)
      (hbegun : next.begun = shift.begun + 1) (hends : next.ends = shift.ends)
  /-- The run of the job is complete. -/
  | completes {last : Bool} (hthread : shift.thread = .draining last)
      (hnext : next.thread = if last then .ended else .parking) (hbegun : next.begun = shift.begun)
      (hends : next.ends = shift.ends ++ [false])
  /-- The job breaks down. -/
  | breaks {last : Bool} (hthread : shift.thread = .draining last) (hnext : next.thread = .brokeDown)
      (hbegun : next.begun = shift.begun) (hends : next.ends = shift.ends ++ [true])
  /-- The thread waits. -/
  | parks (hthread : shift.thread = .parking) (hnext : next.thread = .parked)
      (hbegun : next.begun = shift.begun) (hends : next.ends = shift.ends)
  /-- The wait of the thread is over. -/
  | resumes (hthread : shift.thread = .parking ∨ shift.thread = .parked)
      (hnext : next.thread = .checking) (hbegun : next.begun = shift.begun)
      (hends : next.ends = shift.ends)

theorem advances_work (job : Job σ) (shift : Shift σ) : Advances shift (shift.work job) := by
  unfold Shift.work
  cases hthread : shift.thread with
  | checking => exact .begins hthread rfl rfl rfl
  | draining last =>
      generalize job shift.state = done
      obtain ⟨next, broke⟩ := done
      cases broke with
      | true => exact .breaks hthread rfl rfl rfl
      | false => exact .completes hthread rfl rfl rfl
  | parking =>
      simp only
      split
      · exact .resumes (.inl hthread) rfl rfl rfl
      · exact .parks hthread rfl rfl rfl
  | parked =>
      simp only
      split
      · exact .resumes (.inr hthread) rfl rfl rfl
      · exact .keeps rfl rfl rfl
  | ended | brokeDown => exact .keeps rfl rfl rfl

theorem advances_step (job : Job σ) (shift : Shift σ) (move : Move σ) :
    Advances shift (shift.step job move) := by
  cases move with
  | thread => exact advances_work job shift
  | owner call =>
      change Advances shift (shift.act call)
      unfold Shift.act
      repeat' split
      all_goals exact .keeps rfl rfl rfl
  | wake =>
      change Advances shift (if shift.thread = .parked then shift.resume else shift)
      split
      · next hparked => exact .resumes (.inr hparked) rfl rfl rfl
      · exact .keeps rfl rfl rfl
  | signal | change _ => exact .keeps rfl rfl rfl

theorem step_of_isOver (hover : shift.thread.isOver = true) (move : Move σ) :
    (shift.step job move).thread = shift.thread ∧ (shift.step job move).begun = shift.begun ∧
      (shift.step job move).ends = shift.ends := by
  cases advances_step job shift move with
  | keeps hthread hbegun hends => exact ⟨hthread, hbegun, hends⟩
  | begins hthread | completes hthread | breaks hthread | parks hthread =>
      simp [hthread, ThreadStage.isOver] at hover
  | resumes hthread =>
      obtain hthread | hthread := hthread <;> simp [hthread, ThreadStage.isOver] at hover

theorem run_of_isOver (hover : shift.thread.isOver = true) (schedule : List (Move σ)) :
    (run job schedule shift).thread = shift.thread ∧ (run job schedule shift).begun = shift.begun ∧
      (run job schedule shift).ends = shift.ends := by
  induction schedule generalizing shift with
  | nil => exact ⟨rfl, rfl, rfl⟩
  | cons move rest induction =>
      obtain ⟨hthread, hbegun, hends⟩ := step_of_isOver hover move
      obtain ⟨hthreadRest, hbegunRest, hendsRest⟩ := induction (hthread ▸ hover)
      exact ⟨hthreadRest.trans hthread, hbegunRest.trans hbegun, hendsRest.trans hends⟩

/-! ## The last run of the job -/

/-- The last run of the job begins after a number of others. -/
structure Beyond (count : Nat) (shift : Shift σ) : Prop where
  /-- That many have begun. -/
  le_begun : count ≤ shift.begun
  /-- The last one is not among them. -/
  lt_begun : shift.thread.isLast = true → count < shift.begun

theorem Sound.beyond (hsound : shift.Sound name period) (hrunning : shift.running = true) :
    Beyond shift.begun shift :=
  ⟨Nat.le_refl _, fun hlast => absurd (hrunning.symm.trans (hsound.clear_of_isLast hlast)) (by decide)⟩

theorem Beyond.step {count : Nat} (hbeyond : Beyond count shift) (move : Move σ) :
    Beyond count (shift.step job move) := by
  obtain ⟨hle, hlt⟩ := hbeyond
  cases advances_step job shift move with
  | keeps hthread hbegun => exact ⟨hbegun ▸ hle, hbegun ▸ hthread ▸ hlt⟩
  | begins _ _ hbegun => exact ⟨by omega, fun _ => by omega⟩
  | completes hthread hnext hbegun =>
      refine ⟨hbegun ▸ hle, fun hlast => ?_⟩
      rw [hbegun]
      apply hlt
      rw [hnext] at hlast
      rw [hthread]
      split at hlast
      · next hclear => exact hclear
      · exact absurd hlast (by decide)
  | breaks _ hnext hbegun | parks _ hnext hbegun | resumes _ hnext hbegun =>
      exact ⟨hbegun ▸ hle, fun hlast => absurd (hnext ▸ hlast) (by decide)⟩

theorem Beyond.run {count : Nat} (hbeyond : Beyond count shift) (schedule : List (Move σ)) :
    Beyond count (Shift.run job schedule shift) := by
  induction schedule generalizing shift with
  | nil => exact hbeyond
  | cons move rest induction => exact induction (hbeyond.step move)

theorem Sound.lt_length_ends (hsound : shift.Sound name period) (hrunning : shift.running = true)
    {schedule : List (Move σ)} (hover : (Shift.run job schedule shift).thread.isOver = true)
    (hcalm : true ∉ (Shift.run job schedule shift).ends) :
    shift.begun < (Shift.run job schedule shift).ends.length := by
  have hafter : (Shift.run job schedule shift).Sound name period := hsound.run schedule
  have hlast : (Shift.run job schedule shift).thread.isLast = true := by
    rw [hafter.mem_ends_iff] at hcalm
    cases hthread : (Shift.run job schedule shift).thread with
    | ended => rfl
    | brokeDown => exact absurd hthread hcalm
    | checking | draining _ | parking | parked => simp [hthread, ThreadStage.isOver] at hover
  rw [← hafter.begun_eq_length hover]
  exact ((hsound.beyond hrunning).run schedule).lt_begun hlast

/-! ## Stops return -/

/-- Only the owner moves the owner on. -/
theorem step_of_not_isOwner (job : Job σ) (shift : Shift σ) {move : Move σ}
    (hother : move.isOwner = false) :
    (shift.step job move).owner = shift.owner ∧ (shift.step job move).returns = shift.returns := by
  cases move with
  | thread =>
      change (shift.work job).owner = _ ∧ (shift.work job).returns = _
      unfold Shift.work
      repeat' split
      all_goals exact ⟨rfl, rfl⟩
  | wake =>
      change Shift.owner (if shift.thread = .parked then shift.resume else shift) = _ ∧
        Shift.returns (if shift.thread = .parked then shift.resume else shift) = _
      split
      all_goals exact ⟨rfl, rfl⟩
  | signal | change _ => exact ⟨rfl, rfl⟩
  | owner _ => simp [Move.isOwner] at hother

theorem returns_le_step (job : Job σ) (shift : Shift σ) (move : Move σ) :
    shift.returns ≤ (shift.step job move).returns := by
  cases hmove : move.isOwner with
  | false => exact Nat.le_of_eq (step_of_not_isOwner job shift hmove).2.symm
  | true =>
      cases move with
      | owner call =>
          change shift.returns ≤ (shift.act call).returns
          unfold Shift.act
          repeat' split
          all_goals first | exact Nat.le_refl _ | exact Nat.le_succ _
      | thread | wake | signal | change _ => simp [Move.isOwner] at hmove

/-- If each step of one kind brings the end of a stop nearer, and no other step takes it further away, then
the end comes in time. -/
theorem run_nears (job : Job σ) {near : Nat → Shift σ → Prop} {counts : Move σ → Bool}
    (hnear : ∀ {count : Nat} {shift : Shift σ} (move : Move σ), shift.Sound name period →
      near count shift → shift.returns < (shift.step job move).returns ∨
        near (count - (counts move).toNat) (shift.step job move))
    (hsound : shift.Sound name period) {target count : Nat}
    (hreach : target ≤ shift.returns ∨ target ≤ shift.returns + 1 ∧ near count shift)
    {schedule : List (Move σ)} (hcount : count ≤ schedule.countP counts) :
    target ≤ (run job schedule shift).returns ∨
      target ≤ (run job schedule shift).returns + 1 ∧ near 0 (run job schedule shift) := by
  induction schedule generalizing shift count with
  | nil =>
      obtain rfl : count = 0 := Nat.le_zero.1 hcount
      exact hreach
  | cons move rest induction =>
      have hreturns := returns_le_step job shift move
      have hnext : target ≤ (shift.step job move).returns ∨
          target ≤ (shift.step job move).returns + 1 ∧ near (count - (counts move).toNat) (shift.step job move) := by
        obtain hdone | ⟨htarget, hnext⟩ := hreach
        · exact .inl (Nat.le_trans hdone hreturns)
        · obtain hmore | hnext := hnear move hsound hnext
          · exact .inl (by omega)
          · exact .inr ⟨by omega, hnext⟩
      refine induction (hsound.step move) hnext ?_
      rw [List.countP_cons] at hcount
      cases hmove : counts move <;> simp [hmove] at hcount ⊢ <;> omega

/-- A stop that has so many steps to take until it waits for the thread. -/
def Enters (count : Nat) (shift : Shift σ) : Prop :=
  shift.owner.pending = 1 ∧ shift.owner.rank ≤ count

/-- A stop that waits for a thread with so many steps to take. -/
def Waits (count : Nat) (shift : Shift σ) : Prop :=
  (∃ dropping, shift.owner = .joining dropping) ∧ shift.thread.rank ≤ count

/-- A stop that waits for a thread that is over, and so has this one step to take. -/
def Joins (count : Nat) (shift : Shift σ) : Prop :=
  (∃ dropping, shift.owner = .joining dropping) ∧ shift.thread.isOver = true ∧ 0 < count

theorem Enters.step {count : Nat} (henters : Enters count shift) (move : Move σ) :
    shift.returns < (shift.step job move).returns ∨
      Enters (count - move.isOwner.toNat) (shift.step job move) := by
  obtain ⟨hpending, hrank⟩ := henters
  cases hmove : move.isOwner with
  | false =>
      right
      rw [Enters, (step_of_not_isOwner job shift hmove).1]
      exact ⟨hpending, hrank⟩
  | true =>
      cases move with
      | owner call =>
          change shift.returns < (shift.act call).returns ∨ Enters (count - 1) (shift.act call)
          unfold Shift.act
          cases howner : shift.owner with
          | idle | looked _ | gone => simp [howner, OwnerStage.pending] at hpending
          | cleared dropping =>
              rw [howner] at hrank
              simp only
              split
              · exact .inr ⟨rfl, Nat.le_sub_one_of_lt hrank⟩
              · exact .inl (Nat.lt_succ_self _)
          | holding dropping => exact .inr ⟨rfl, Nat.zero_le _⟩
          | joining dropping =>
              simp only
              split
              · exact .inl (Nat.lt_succ_self _)
              · exact .inr ⟨hpending, by rw [howner]; exact Nat.zero_le _⟩
      | thread | wake | signal | change _ => simp [Move.isOwner] at hmove

/-- A thread that does not stay in a wait comes nearer to its end with every step, once the flag is clear. -/
theorem rank_work_le (job : Job σ) (hclear : shift.running = false) (hawake : shift.Awake) :
    (shift.work job).thread.rank ≤ shift.thread.rank - 1 := by
  have hwoken : shift.thread.leaves = false → shift.woken = true :=
    fun hwaits => hawake.resolve_right (by simp [hwaits])
  unfold Shift.work
  cases hthread : shift.thread with
  | checking => simp [hclear, ThreadStage.rank]
  | draining last =>
      simp only
      generalize (job shift.state).2 = broke
      cases broke <;> cases last <;> decide
  | parking | parked =>
      simp only [hwoken (by rw [hthread]; rfl), if_true]
      exact Nat.le_refl _
  | ended | brokeDown => simp [hthread, ThreadStage.rank]

theorem Waits.step {count : Nat} (hsound : shift.Sound name period) (hwaits : Waits count shift)
    (move : Move σ) :
    shift.returns < (shift.step job move).returns ∨
      Waits (count - move.isThread.toNat) (shift.step job move) := by
  obtain ⟨⟨dropping, howner⟩, hrank⟩ := hwaits
  have hknows := hsound.knows
  rw [howner] at hknows
  have hstops := hsound.stops_eq
  rw [howner] at hstops
  have hclear : shift.running = false := by
    rw [← Bool.not_eq_true, hsound.running_iff, hstops]
    exact Nat.succ_ne_zero _
  cases move with
  | owner call =>
      change shift.returns < (shift.act call).returns ∨ Waits count (shift.act call)
      unfold Shift.act
      rw [howner]
      simp only
      split
      · exact .inl (Nat.lt_succ_self _)
      · exact .inr ⟨⟨dropping, howner⟩, hrank⟩
  | thread =>
      obtain ⟨hsame, -⟩ := @step_of_not_isOwner _ job shift .thread rfl
      refine .inr ⟨⟨dropping, hsame.trans howner⟩, ?_⟩
      exact Nat.le_trans (rank_work_le job hclear hknows.2.2) (Nat.sub_le_sub_right hrank 1)
  | wake =>
      right
      change Waits count (if shift.thread = .parked then shift.resume else shift)
      split
      · next hparked =>
        rw [hparked] at hrank
        exact ⟨⟨dropping, howner⟩, Nat.le_of_succ_le hrank⟩
      · exact ⟨⟨dropping, howner⟩, hrank⟩
  | signal | change _ => exact .inr ⟨⟨dropping, howner⟩, hrank⟩

theorem Joins.step {count : Nat} (hjoins : Joins count shift) (move : Move σ) :
    shift.returns < (shift.step job move).returns ∨
      Joins (count - move.isOwner.toNat) (shift.step job move) := by
  obtain ⟨⟨dropping, howner⟩, hover, hcount⟩ := hjoins
  cases hmove : move.isOwner with
  | false =>
      refine .inr ⟨⟨dropping, ?_⟩, ?_, hcount⟩
      · rw [(step_of_not_isOwner job shift hmove).1, howner]
      · rw [(step_of_isOver hover move).1, hover]
  | true =>
      left
      cases move with
      | owner call =>
          change shift.returns < (shift.act call).returns
          unfold Shift.act
          rw [howner]
          simp only [hover, if_true]
          exact Nat.lt_succ_self _
      | thread | wake | signal | change _ => simp [Move.isOwner] at hmove

/-- Every stop returns, if the owner and the thread go on. -/
theorem Sound.stops_le_returns (hsound : shift.Sound name period) {enter work join : List (Move σ)}
    (henter : 2 ≤ enter.countP Move.isOwner) (hwork : 4 ≤ work.countP Move.isThread)
    (hjoin : 1 ≤ join.countP Move.isOwner) :
    shift.stops ≤ (Shift.run job (enter ++ work ++ join) shift).returns := by
  have hbefore : shift.stops ≤ shift.returns ∨ shift.stops ≤ shift.returns + 1 ∧ Enters 2 shift := by
    rw [hsound.stops_eq, Enters]
    cases shift.owner <;> simp [OwnerStage.pending, OwnerStage.rank]
  rw [run_append, run_append]
  have hentered := run_nears job (fun move _ henters => henters.step move) hsound hbefore henter
  have hsoundEntered : (Shift.run job enter shift).Sound name period := hsound.run enter
  generalize Shift.run job enter shift = entered at *
  have hwaiting : shift.stops ≤ entered.returns ∨
      shift.stops ≤ entered.returns + 1 ∧ Waits 4 entered := by
    refine hentered.imp_right fun ⟨htarget, hpending, hrank⟩ => ⟨htarget, ?_⟩
    constructor
    · cases howner : entered.owner with
      | joining dropping => exact ⟨dropping, rfl⟩
      | idle | looked _ | gone => simp [howner, OwnerStage.pending] at hpending
      | cleared _ | holding _ => simp [howner, OwnerStage.rank] at hrank
    · cases entered.thread with
      | draining last => cases last <;> decide
      | checking | parking | parked | ended | brokeDown => decide
  have hwaited :=
    run_nears job (fun move hsound hwaits => hwaits.step hsound move) hsoundEntered hwaiting hwork
  have hsoundWaited : (Shift.run job work entered).Sound name period := hsoundEntered.run work
  generalize Shift.run job work entered = waited at *
  have hjoining : shift.stops ≤ waited.returns ∨
      shift.stops ≤ waited.returns + 1 ∧ Joins 1 waited := by
    refine hwaited.imp_right fun ⟨htarget, howner, hrank⟩ => ⟨htarget, howner, ?_, Nat.one_pos⟩
    cases hthread : waited.thread with
    | ended | brokeDown => rfl
    | draining last => cases last <;> simp [hthread, ThreadStage.rank] at hrank
    | checking | parking | parked => simp [hthread, ThreadStage.rank] at hrank
  have hjoined := run_nears job (fun move _ hjoins => hjoins.step move) hsoundWaited hjoining hjoin
  exact hjoined.resolve_right fun ⟨_, _, _, hnone⟩ => absurd hnone (Nat.lt_irrefl 0)

/-! ## Looks -/

theorem of_answer? (hanswer : shift.answer? = some true) :
    shift.owner = .looked true ∧ shift.running = true := by
  unfold answer? at hanswer
  cases howner : shift.owner with
  | looked alive =>
      rw [howner] at hanswer
      obtain ⟨rfl, hrunning⟩ := Bool.and_eq_true_iff.1 (Option.some.inj hanswer)
      exact ⟨rfl, hrunning⟩
  | idle | cleared _ | holding _ | joining _ | gone => simp [howner] at hanswer

/-- Only a look that finds a thread that is not over sees it. -/
theorem looked_of_act {call : Call} (howner : (shift.act call).owner = .looked true) :
    shift.owner = .idle ∧ call = .look ∧ shift.thread.isOver = false := by
  unfold Shift.act at howner
  cases hstage : shift.owner with
  | idle =>
      cases call with
      | look =>
          rw [hstage] at howner
          exact ⟨rfl, rfl, by simpa using (Bool.and_eq_true_iff.1 (OwnerStage.looked.inj howner)).2⟩
      | stop | drop => simp [hstage, halt] at howner
  | looked _ | holding _ | gone => simp [hstage] at howner
  | cleared dropping =>
      cases hhandle : shift.hasHandle <;> cases dropping <;> simp [hstage, hhandle, leave] at howner
  | joining dropping =>
      cases hover : shift.thread.isOver <;> cases dropping <;> simp [hstage, hover, leave] at howner

/-- An owner that has seen the thread has looked since it took its last step, and the thread was not over
then. -/
theorem looked_of_run {schedule : List (Move σ)}
    (howner : (run job schedule shift).owner = .looked true) :
    (shift.owner = .looked true ∧ ∀ move ∈ schedule, move.isOwner = false) ∨
      ∃ front back, schedule = front ++ .owner .look :: back ∧
        (∀ move ∈ back, move.isOwner = false) ∧ (run job front shift).owner = .idle ∧
        (run job front shift).thread.isOver = false := by
  induction schedule generalizing shift with
  | nil => exact .inl ⟨howner, by simp⟩
  | cons move rest induction =>
      obtain ⟨hbefore, hrest⟩ | ⟨front, back, hsplit, hback, hidle, hthread⟩ := induction howner
      · cases hmove : move.isOwner with
        | false =>
            rw [(step_of_not_isOwner job shift hmove).1] at hbefore
            exact .inl ⟨hbefore, List.forall_mem_cons.2 ⟨hmove, hrest⟩⟩
        | true =>
            cases move with
            | owner call =>
                obtain ⟨hidle, rfl, hthread⟩ := looked_of_act hbefore
                exact .inr ⟨[], rest, rfl, hrest, hidle, hthread⟩
            | thread | wake | signal | change _ => simp [Move.isOwner] at hmove
      · exact .inr ⟨move :: front, back, by rw [hsplit, List.cons_append], hback, hidle, hthread⟩

end Shift

/-- Stopping a worker comes with a whole run of its job. However the steps of the thread and of its owner
are interleaved, whatever calls the owner makes and whatever others do: what is reported is the start and,
once a stop or drop has returned, one farewell, which says whether the job broke down. Once one has
returned, no run of the job begins and all are over; and if none of them broke down, more of them are
complete than had begun at any time at which the flag was set. If some run breaks down, it is the last that
ever begins. Every stop or drop returns, if the owner and the thread go on. A look says that the worker is
running only if no stop has begun and the thread was not over in that look, and the thread has not come to
its end since, unless the job broke down. -/
theorem stop_is_complete {σ : Type} (job : Job σ) (name : String) (period : Duration) (state : σ)
    (schedule : List (Move σ)) :
    let first := Shift.start name period state
    let shift := Shift.run job schedule first
    shift.events = .workerStarted name period :: (if shift.returns = 0 then []
      else if true ∈ shift.ends then [.workerBrokeDown name] else [.workerStopped name]) ∧
    (0 < shift.returns →
      (true ∉ shift.ends → shift.begun = shift.ends.length ∧
        ∀ front, front <+: schedule → (Shift.run job front first).running = true →
          (Shift.run job front first).begun < shift.ends.length) ∧
      ∀ more, (Shift.run job more shift).begun = shift.begun) ∧
    (∀ count, shift.ends[count]? = some true →
      ∀ more, (Shift.run job more shift).begun = count + 1) ∧
    (∀ enter work join, 2 ≤ enter.countP Move.isOwner → 4 ≤ work.countP Move.isThread →
      1 ≤ join.countP Move.isOwner →
        shift.stops ≤ (Shift.run job (enter ++ work ++ join) shift).returns) ∧
    (shift.answer? = some true → shift.stops = 0 ∧ shift.thread ≠ .ended ∧
      ∃ front back, schedule = front ++ .owner .look :: back ∧
        (∀ move ∈ back, move.isOwner = false) ∧ (Shift.run job front first).owner = .idle ∧
        (Shift.run job front first).thread.isOver = false) := by
  intro first shift
  have hfirst : first.Sound name period := Shift.sound_start name period state
  have hsound : shift.Sound name period := hfirst.run schedule
  refine ⟨?_, ?_, ?_, ?_, ?_⟩
  · rw [hsound.events_eq, hsound.farewell_eq]
    split
    · rfl
    · split <;> rfl
  · intro hreturned
    obtain ⟨-, hover⟩ := hsound.returned hreturned
    refine ⟨fun hcalm => ⟨hsound.begun_eq_length hover, ?_⟩,
      fun more => (Shift.run_of_isOver hover more).2.1⟩
    rintro front ⟨back, rfl⟩ hrunning
    have hsplit : shift = Shift.run job back (Shift.run job front first) :=
      Shift.run_append job front back first
    rw [hsplit] at hover hcalm ⊢
    exact (hfirst.run front).lt_length_ends hrunning hover hcalm
  · intro count hbroke more
    obtain ⟨hthread, hlength⟩ := hsound.of_getElem?_ends hbroke
    have hover : shift.thread.isOver = true := by rw [hthread]; rfl
    rw [(Shift.run_of_isOver hover more).2.1, hsound.begun_eq_length hover, hlength]
  · intro enter work join henter hwork hjoin
    exact hsound.stops_le_returns henter hwork hjoin
  · intro hanswer
    obtain ⟨howner, hrunning⟩ := Shift.of_answer? hanswer
    refine ⟨hsound.running_iff.1 hrunning, ?_, ?_⟩
    · intro hended
      have hclear := hsound.clear_of_isLast (by rw [hended]; rfl)
      exact absurd (hrunning.symm.trans hclear) (by decide)
    · obtain ⟨hstart, -⟩ | hlooked := Shift.looked_of_run howner
      · exact absurd hstart (by simp [first, Shift.start])
      · exact hlooked

/-- Counts down, and breaks down when nothing is left. -/
def countdown : Job Nat := fun left => (left - 1, left = 0)

/-- The thread runs its job and waits until its period has passed, and the owner sees it run the job again. -/
def secondRun : List (Move Nat) :=
  [.thread, .thread, .thread, .wake, .owner .look, .thread, .owner .look]

/-- During the second run the owner begins to stop the worker, so that the thread has been woken before it
comes to its wait. The owner drops the worker in the end. -/
def stoppedInRun : List (Move Nat) :=
  secondRun ++ [.owner .stop, .owner .stop, .owner .stop, .thread, .thread, .thread, .thread,
    .owner .stop, .owner .drop, .owner .drop]

/-- The third run has begun after the flag was cleared. When the job breaks down in the second one, there is
no third. -/
theorem countdown_stops :
    let first := fun left => Shift.start "drain" ⟨5⟩ left
    let calm := Shift.run countdown stoppedInRun (first 4)
    let broken := Shift.run countdown stoppedInRun (first 1)
    calm.returns = 2 ∧ calm.begun = 3 ∧
      (Shift.run countdown secondRun (first 4)).begun < calm.ends.length ∧
      calm.events = [.workerStarted "drain" ⟨5⟩, .workerStopped "drain"] ∧
      broken.returns = 2 ∧ (∀ more, (Shift.run countdown more broken).begun = 2) ∧
      broken.events = [.workerStarted "drain" ⟨5⟩, .workerBrokeDown "drain"] := by
  intro first calm broken
  have hends : calm.ends = [false, false, false] := by decide
  have hreturns : calm.returns = 2 := by decide
  obtain ⟨hevents, hcalm, -⟩ := stop_is_complete countdown "drain" ⟨5⟩ 4 stoppedInRun
  obtain ⟨⟨hbegun, hlater⟩, -⟩ :=
    (hcalm (by decide)).imp_left fun hover => hover (by decide)
  have hbrokenEnds : broken.ends[1]? = some true := by decide
  obtain ⟨hbrokenEvents, -, hbroken, -⟩ := stop_is_complete countdown "drain" ⟨5⟩ 1 stoppedInRun
  exact ⟨hreturns, hbegun.trans (congrArg List.length hends), hlater secondRun ⟨_, rfl⟩ (by decide),
    hevents, by decide, hbroken 1 hbrokenEnds, hbrokenEvents⟩

end LogRelay.Worker
