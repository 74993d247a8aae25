import LogRelay.Proofs.Worker.Shift

/-!
# What holds of a worker at work

However the steps of a thread and of its owner are interleaved, the thread comes to its last run of the job
only after it has seen the flag clear. An owner that has the handle has cleared the flag and wakes the thread
before it waits for it; and the handle is there once, so there is one farewell.
-/

namespace LogRelay.Worker

namespace ThreadStage

/-- The number of runs of the job that have begun and are not complete. -/
def pending : ThreadStage → Nat
  | draining _ | brokeDown => 1
  | _ => 0

/-- How the run of the job ended that broke down. -/
def breakdown : ThreadStage → List Bool
  | brokeDown => [true]
  | _ => []

/-- Whether the thread has seen the flag clear. -/
def isLast : ThreadStage → Bool
  | draining last => last
  | ended => true
  | _ => false

/-- Whether the thread does not wait again if the flag is clear. -/
def leaves : ThreadStage → Bool
  | checking | draining true | ended | brokeDown => true
  | _ => false

end ThreadStage

/-- The thread does not stay in a wait if the flag is clear. -/
def Shift.Awake {σ : Type} (shift : Shift σ) : Prop := shift.woken = true ∨ shift.thread.leaves = true

namespace OwnerStage

/-- The number of stops and drops that have begun and have not returned. -/
def pending : OwnerStage → Nat
  | cleared _ | holding _ | joining _ => 1
  | _ => 0

/-- What the owner knows of the worker. -/
def Knows {σ : Type} (shift : Shift σ) : OwnerStage → Prop
  | idle | looked _ | cleared _ => shift.hasHandle = false → 0 < shift.returns
  | holding _ => shift.hasHandle = false ∧ shift.returns = 0
  | joining _ => shift.hasHandle = false ∧ shift.returns = 0 ∧ shift.Awake
  | gone => 0 < shift.returns

theorem Knows.congr {σ : Type} {before after : Shift σ} {stage : OwnerStage}
    (hknows : stage.Knows before) (hhandle : after.hasHandle = before.hasHandle)
    (hreturns : after.returns = before.returns)
    (hawake : stage.pending = 1 → before.Awake → after.Awake) : stage.Knows after := by
  cases stage with
  | joining dropping =>
      exact ⟨hhandle.trans hknows.1, hreturns.trans hknows.2.1, hawake rfl hknows.2.2⟩
  | idle | looked _ | cleared _ | holding _ | gone =>
      simp only [Knows, hhandle, hreturns]
      exact hknows

end OwnerStage

namespace Shift

variable {σ : Type} {job : Job σ} {name : String} {period : Duration} {shift : Shift σ}

/-- What holds of a worker whatever steps have been taken. -/
structure Sound (name : String) (period : Duration) (shift : Shift σ) : Prop where
  /-- The name stays. -/
  name_eq : shift.name = name
  /-- The flag is clear once a stop has begun. -/
  running_iff : shift.running = true ↔ shift.stops = 0
  /-- Of the stops at most one has not returned. -/
  stops_eq : shift.stops = shift.returns + shift.owner.pending
  /-- Of the runs of the job at most one is not complete. -/
  begun_eq : shift.begun = shift.ends.count false + shift.thread.pending
  /-- Only the run that ended the thread may have broken down. -/
  ends_eq : shift.ends = List.replicate (shift.ends.count false) false ++ shift.thread.breakdown
  /-- In its last run the thread has seen the flag clear. -/
  clear_of_isLast : shift.thread.isLast = true → shift.running = false
  /-- A stop returns after the thread. -/
  returned : 0 < shift.returns → shift.hasHandle = false ∧ shift.thread.isOver = true
  /-- There is one farewell, when the first stop returns. -/
  events_eq : shift.events =
    .workerStarted name period :: if shift.returns = 0 then [] else [shift.farewell]
  /-- The owner is right in what it knows. -/
  knows : shift.owner.Knows shift

theorem sound_start (name : String) (period : Duration) (state : σ) :
    (start name period state).Sound name period where
  name_eq := rfl
  running_iff := by simp [start]
  stops_eq := rfl
  begun_eq := rfl
  ends_eq := rfl
  clear_of_isLast := by simp [start, ThreadStage.isLast]
  returned := by simp [start]
  events_eq := rfl
  knows := by simp [start, OwnerStage.Knows]

/-! ## Steps of the thread -/

theorem Sound.returns_eq_zero (hsound : shift.Sound name period) (hover : shift.thread.isOver = false) :
    shift.returns = 0 := by
  refine Nat.eq_zero_of_not_pos fun hpos => ?_
  exact absurd (hover.symm.trans (hsound.returned hpos).2) Bool.false_ne_true

theorem Sound.goOn (hsound : shift.Sound name period) (hover : shift.thread.isOver = false)
    {thread : ThreadStage} {begun : Nat} {ends : List Bool} (state : σ) {woken : Bool}
    (hbegun : begun = ends.count false + thread.pending)
    (hends : ends = List.replicate (ends.count false) false ++ thread.breakdown)
    (hlast : thread.isLast = true → shift.running = false)
    (hawake : shift.running = false → shift.Awake → woken = true ∨ thread.leaves = true) :
    Sound name period { shift with thread, begun, ends, state, woken } := by
  have hzero := hsound.returns_eq_zero hover
  refine ⟨hsound.name_eq, hsound.running_iff, hsound.stops_eq, hbegun, hends, hlast, ?_, ?_, ?_⟩
  · exact fun hpos => absurd hzero (Nat.ne_of_gt hpos)
  · rw [hsound.events_eq, if_pos hzero, if_pos hzero]
  · refine hsound.knows.congr rfl rfl fun hpending => hawake ?_
    rw [← Bool.not_eq_true, hsound.running_iff, hsound.stops_eq, hpending]
    exact Nat.succ_ne_zero _

theorem Sound.resume (hsound : shift.Sound name period)
    (hstage : shift.thread = .parking ∨ shift.thread = .parked) : shift.resume.Sound name period := by
  have hbegun := hsound.begun_eq
  have hends := hsound.ends_eq
  obtain hthread | hthread := hstage <;> rw [hthread] at hbegun hends <;>
    exact hsound.goOn (by rw [hthread]; rfl) shift.state hbegun hends
      (by simp [ThreadStage.isLast]) (fun _ _ => .inr rfl)

theorem Sound.breakDown (hsound : shift.Sound name period) {last : Bool}
    (hthread : shift.thread = .draining last) (next : σ) :
    Sound name period { shift with
      thread := .brokeDown, state := next, ends := shift.ends ++ [true] } := by
  have hbegun := hsound.begun_eq
  have hends := hsound.ends_eq
  rw [hthread] at hbegun hends
  have hcalm : shift.ends = List.replicate (shift.ends.count false) false :=
    hends.trans (List.append_nil _)
  refine hsound.goOn (by rw [hthread]; rfl) next ?_ ?_ (by simp [ThreadStage.isLast])
    (fun _ _ => .inr rfl)
  · simp [hbegun, ThreadStage.pending]
  · simp [← hcalm, ThreadStage.breakdown]

/-- A run of the job that is complete ends the thread if it is the last one, and lets it wait
otherwise. -/
theorem Sound.complete (hsound : shift.Sound name period) {last : Bool}
    (hthread : shift.thread = .draining last) (next : σ) :
    Sound name period { shift with
      thread := if last then .ended else .parking, state := next, ends := shift.ends ++ [false] } := by
  have hbegun := hsound.begun_eq
  have hends := hsound.ends_eq
  have hlast := hsound.clear_of_isLast
  rw [hthread] at hbegun hends hlast
  have hover : shift.thread.isOver = false := by rw [hthread]; rfl
  have hcount : (shift.ends ++ [false]).count false = shift.ends.count false + 1 := by simp
  have hmore : shift.ends ++ [false] =
      List.replicate ((shift.ends ++ [false]).count false) false := by
    rw [hcount, List.replicate_succ']
    exact congrArg (· ++ [false]) (hends.trans (List.append_nil _))
  cases last with
  | true =>
      exact hsound.goOn hover next (hbegun.trans hcount.symm)
        (hmore.trans (List.append_nil _).symm) (fun _ => hlast rfl) (fun _ _ => .inr rfl)
  | false =>
      refine hsound.goOn hover next (hbegun.trans hcount.symm)
        (hmore.trans (List.append_nil _).symm) (by simp [ThreadStage.isLast]) ?_
      exact fun _ hawake => .inl (hawake.resolve_right (by rw [hthread]; decide))

/-- Every step of the thread keeps the worker sound. -/
theorem Sound.work (hsound : shift.Sound name period) (job : Job σ) :
    (shift.work job).Sound name period := by
  have hbegun := hsound.begun_eq
  have hends := hsound.ends_eq
  unfold Shift.work
  cases hthread : shift.thread with
  | checking =>
      rw [hthread] at hbegun hends
      refine hsound.goOn (by rw [hthread]; rfl) shift.state ?_ hends ?_ ?_
      · rw [hbegun]
        rfl
      · simp [ThreadStage.isLast]
      · intro hclear hawake
        simp [hclear, ThreadStage.leaves]
  | draining last =>
      generalize job shift.state = done
      obtain ⟨next, broke⟩ := done
      cases broke with
      | true => exact hsound.breakDown hthread next
      | false => exact hsound.complete hthread next
  | parking =>
      rw [hthread] at hbegun hends
      simp only
      split
      · exact hsound.resume (.inl hthread)
      · next hcalm =>
        refine hsound.goOn (by rw [hthread]; rfl) shift.state hbegun hends ?_ ?_
        · simp [ThreadStage.isLast]
        · exact fun _ hawake => .inl (hawake.resolve_right (by rw [hthread]; decide))
  | parked =>
      simp only
      split
      · exact hsound.resume (.inr hthread)
      · exact hsound
  | ended | brokeDown => exact hsound

/-! ## Steps of the owner -/

theorem Sound.turn (hsound : shift.Sound name period) {owner : OwnerStage} {hasHandle woken : Bool}
    (state : σ) (hpending : owner.pending = shift.owner.pending)
    (hreturned : 0 < shift.returns → hasHandle = false)
    (hknows : owner.Knows { shift with hasHandle, woken, owner, state }) :
    Sound name period { shift with hasHandle, woken, owner, state } :=
  ⟨hsound.name_eq, hsound.running_iff, hpending ▸ hsound.stops_eq, hsound.begun_eq, hsound.ends_eq,
    hsound.clear_of_isLast, fun hpos => ⟨hreturned hpos, (hsound.returned hpos).2⟩, hsound.events_eq,
    hknows⟩

theorem Sound.halt (hsound : shift.Sound name period) (hidle : shift.owner = .idle) (dropping : Bool) :
    (shift.halt dropping).Sound name period := by
  have hknows := hsound.knows
  have hstops := hsound.stops_eq
  rw [hidle] at hknows hstops
  refine ⟨hsound.name_eq, ?_, ?_, hsound.begun_eq, hsound.ends_eq, fun _ => rfl, hsound.returned,
    hsound.events_eq, hknows⟩
  · simp [Shift.halt]
  · exact congrArg (· + 1) hstops

theorem Sound.leave (hsound : shift.Sound name period) (hpending : shift.owner.pending = 1)
    (hhandle : shift.hasHandle = false) (hover : shift.thread.isOver = true) {events : List Event}
    (hevents : events = [.workerStarted name period, shift.farewell]) (dropping : Bool) :
    (Shift.leave dropping { shift with events }).Sound name period := by
  have hstops := hsound.stops_eq
  rw [hpending] at hstops
  refine ⟨hsound.name_eq, hsound.running_iff, ?_, hsound.begun_eq, hsound.ends_eq,
    hsound.clear_of_isLast, fun _ => ⟨hhandle, hover⟩, hevents, ?_⟩
  · cases dropping <;> exact hstops
  · cases dropping with
    | true => exact Nat.succ_pos _
    | false => exact fun _ => Nat.succ_pos _

/-- Every step of the owner keeps the worker sound. -/
theorem Sound.act (hsound : shift.Sound name period) (call : Call) :
    (shift.act call).Sound name period := by
  have hknows := hsound.knows
  have htaken : 0 < shift.returns → shift.hasHandle = false := fun hpos => (hsound.returned hpos).1
  unfold Shift.act
  cases howner : shift.owner with
  | idle =>
      cases call with
      | look =>
          rw [howner] at hknows
          exact hsound.turn shift.state (by rw [howner]; rfl) htaken hknows
      | stop => exact hsound.halt howner false
      | drop => exact hsound.halt howner true
  | looked alive =>
      rw [howner] at hknows
      exact hsound.turn shift.state (by rw [howner]; rfl) htaken hknows
  | cleared dropping =>
      rw [howner] at hknows
      simp only
      split
      · next hhandle =>
        have hzero : shift.returns = 0 := by
          refine Nat.eq_zero_of_not_pos fun hpos => ?_
          exact absurd (hhandle.symm.trans (htaken hpos)) (by decide)
        exact hsound.turn shift.state (by rw [howner]; rfl) (fun _ => rfl) ⟨rfl, hzero⟩
      · next hgone =>
        have hhandle : shift.hasHandle = false := by simpa using hgone
        have hpos := hknows hhandle
        refine hsound.leave (by rw [howner]; rfl) hhandle (hsound.returned hpos).2 ?_ dropping
        rw [hsound.events_eq, if_neg (Nat.ne_of_gt hpos)]
  | holding dropping =>
      rw [howner] at hknows
      exact hsound.turn shift.state (by rw [howner]; rfl) htaken ⟨hknows.1, hknows.2, .inl rfl⟩
  | joining dropping =>
      rw [howner] at hknows
      simp only
      split
      · next hover =>
        refine hsound.leave (by rw [howner]; rfl) hknows.1 hover ?_ dropping
        rw [hsound.events_eq, if_pos hknows.2.1]
        rfl
      · exact hsound
  | gone => exact hsound

/-! ## Runs -/

/-- Every step keeps the worker sound. -/
theorem Sound.step (hsound : shift.Sound name period) (move : Move σ) :
    (shift.step job move).Sound name period := by
  cases move with
  | thread => exact hsound.work job
  | owner call => exact hsound.act call
  | wake =>
      change Sound name period (if shift.thread = .parked then shift.resume else shift)
      split
      · next hparked => exact hsound.resume (.inr hparked)
      · exact hsound
  | signal =>
      exact hsound.turn shift.state rfl (fun hpos => (hsound.returned hpos).1)
        (hsound.knows.congr rfl rfl fun _ _ => .inl rfl)
  | change state =>
      exact hsound.turn state rfl (fun hpos => (hsound.returned hpos).1)
        (hsound.knows.congr rfl rfl fun _ hawake => hawake)

theorem Sound.run (hsound : shift.Sound name period) (schedule : List (Move σ)) :
    (Shift.run job schedule shift).Sound name period := by
  induction schedule generalizing shift with
  | nil => exact hsound
  | cons move rest induction => exact induction (hsound.step move)

/-! ## Runs of the job -/

/-- The run of the job that broke down is the last, and ended the thread. -/
theorem Sound.of_getElem?_ends (hsound : shift.Sound name period) {count : Nat}
    (hbroke : shift.ends[count]? = some true) :
    shift.thread = .brokeDown ∧ shift.ends.length = count + 1 := by
  have hends := hsound.ends_eq
  rw [hends, List.getElem?_append, List.length_replicate] at hbroke
  split at hbroke
  · rw [List.getElem?_replicate] at hbroke
    split at hbroke <;> simp at hbroke
  · cases hthread : shift.thread with
    | brokeDown =>
        have hlength := congrArg List.length hends
        rw [hthread] at hlength hbroke
        have hlast := (List.getElem?_eq_some_iff.1 hbroke).1
        simp only [ThreadStage.breakdown, List.length_append, List.length_replicate,
          List.length_singleton] at hlength hlast
        exact ⟨rfl, by omega⟩
    | checking | draining _ | parking | parked | ended =>
        simp [hthread, ThreadStage.breakdown] at hbroke

theorem Sound.mem_ends_iff (hsound : shift.Sound name period) :
    true ∈ shift.ends ↔ shift.thread = .brokeDown := by
  constructor
  · intro hmem
    obtain ⟨count, hbroke⟩ := List.mem_iff_getElem?.1 hmem
    exact (hsound.of_getElem?_ends hbroke).1
  · intro hthread
    rw [hsound.ends_eq, hthread]
    simp [ThreadStage.breakdown]

theorem Sound.begun_eq_length (hsound : shift.Sound name period) (hover : shift.thread.isOver = true) :
    shift.begun = shift.ends.length := by
  have hlength := congrArg List.length hsound.ends_eq
  have hbegun := hsound.begun_eq
  rw [List.length_append, List.length_replicate] at hlength
  cases hthread : shift.thread with
  | ended | brokeDown =>
      rw [hthread] at hlength hbegun
      exact hbegun.trans hlength.symm
  | checking | draining _ | parking | parked => simp [hthread, ThreadStage.isOver] at hover

theorem Sound.farewell_eq (hsound : shift.Sound name period) :
    shift.farewell = if true ∈ shift.ends then .workerBrokeDown name else .workerStopped name := by
  simp only [hsound.mem_ends_iff, farewell, hsound.name_eq]
  cases shift.thread <;> rfl

end Shift

end LogRelay.Worker
