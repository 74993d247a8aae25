import LogRelay.Proofs.Message.Fitting
import Mathlib.Algebra.Ring.Nat

/-!
# The ledger of a capture

A ledger says what becomes of every call of a capture, without slots, indices or buffers: which calls the
threshold lets through, which of them are refused because the queue is full, and what each pass hands
over. Every call let through is handed over once, refused and counted in one report, or still open.
-/

namespace LogRelay

/-- What is done with a capture. -/
inductive CaptureStep where
  | log (level : Level) (payload : Payload)
  | setLevel (levelText : String)
  | pass
deriving DecidableEq, Repr

/-- The payload of a call stops at its first failed piece and does not break down. -/
def CaptureStep.IsStrict : CaptureStep → Prop
  | log _ payload => payload.IsStrict
  | _ => True

instance (step : CaptureStep) : Decidable step.IsStrict :=
  match step with
  | .log _ payload => inferInstanceAs (Decidable payload.IsStrict)
  | .setLevel _ => inferInstanceAs (Decidable True)
  | .pass => inferInstanceAs (Decidable True)

/-- A call that the threshold let through. -/
structure EnabledCall where
  /-- What it asks to be handed over. -/
  view : View
  /-- Whether the queue was full. -/
  refused : Bool
deriving DecidableEq, Repr

/-- What is handed over: a call, or a report about refused calls. -/
inductive Delivery where
  | call (view : View)
  | report (time : Duration) (count : Nat)
deriving DecidableEq, Repr

namespace Delivery

/-- What is handed over, as a reader gets it. -/
def view : Delivery → View
  | call view => view
  | report time count => ⟨.warning, time, reportText count⟩

/-- The call that is handed over. -/
def call? : Delivery → Option View
  | call view => some view
  | report _ _ => none

/-- The number of refused calls that is reported. -/
def count : Delivery → Nat
  | call _ => 0
  | report _ count => count

end Delivery

theorem Delivery.filterMap_call (views : List View) :
    (views.map Delivery.call).filterMap Delivery.call? = views := by
  induction views with
  | nil => rfl
  | cons view rest induction =>
      have hview : Delivery.call? (.call view) = some view := rfl
      rw [List.map_cons, List.filterMap_cons_some hview, induction]

theorem Delivery.sum_count_call (views : List View) :
    ((views.map Delivery.call).map Delivery.count).sum = 0 := by
  induction views with
  | nil => rfl
  | cons view rest induction =>
      rw [List.map_cons, List.map_cons, List.sum_cons, induction]
      rfl

/-- What has become of the calls of a capture. -/
structure Ledger where
  /-- The least urgent level that is let through. -/
  threshold : Level
  /-- The clock that stamps calls and reports. -/
  clock : Clock
  /-- The calls let through, in order. -/
  enabled : List EnabledCall
  /-- The calls waiting, oldest first. -/
  waiting : List View
  /-- Number of calls refused since the last report. -/
  refused : Nat
  /-- What has been handed over, in order. -/
  delivered : List Delivery

namespace Ledger

/-- A ledger without calls. -/
def start (threshold : Level) (clock : Clock) : Ledger := ⟨threshold, clock, [], [], 0, []⟩

/-- Enters a call: it is refused when the queue is full and waits otherwise. -/
def enter (capacity : Nat) (view : View) (ledger : Ledger) : Ledger :=
  if ledger.waiting.length = capacity then
    { ledger with
      clock := ledger.clock.tick
      enabled := ledger.enabled ++ [⟨view, true⟩]
      refused := ledger.refused + 1 }
  else
    { ledger with
      clock := ledger.clock.tick
      enabled := ledger.enabled ++ [⟨view, false⟩]
      waiting := ledger.waiting ++ [view] }

/-- Hands over everything that waits. -/
def handOver (ledger : Ledger) : Ledger :=
  { ledger with
    waiting := []
    delivered := ledger.delivered ++ ledger.waiting.map .call }

/-- Reports the refused calls, if there are any. -/
def report (ledger : Ledger) : Ledger :=
  if ledger.refused = 0 then ledger
  else
    { ledger with
      clock := ledger.clock.tick
      refused := 0
      delivered := ledger.delivered ++ [.report ledger.clock.now ledger.refused] }

/-- The ledger of a queue and messages of some size after a step. -/
def step (capacity room : Nat) : CaptureStep → Ledger → Ledger
  | .log level payload, ledger =>
      if level.passes ledger.threshold then
        ledger.enter capacity ⟨level, ledger.clock.now, payload.fitted room⟩
      else ledger
  | .setLevel levelText, ledger => { ledger with threshold := Level.parseOrInfo levelText }
  | .pass, ledger => ledger.handOver.report

/-- The ledger after some steps. -/
def run (capacity room : Nat) (steps : List CaptureStep) (ledger : Ledger) : Ledger :=
  steps.foldl (fun ledger step => ledger.step capacity room step) ledger

theorem report_handOver (ledger : Ledger) :
    ledger.handOver.report =
      ⟨ledger.threshold, if ledger.refused = 0 then ledger.clock else ledger.clock.tick,
        ledger.enabled, [], 0,
        ledger.delivered ++ (ledger.waiting.map .call ++
          if ledger.refused = 0 then [] else [.report ledger.clock.now ledger.refused])⟩ := by
  unfold report
  split
  · next hnone =>
    have hrefused : ledger.refused = 0 := hnone
    simp [handOver, hrefused]
  · next hsome =>
    have hrefused : ¬ledger.refused = 0 := hsome
    simp [handOver, hrefused]

/-! ## Accounting -/

/-- The calls let through and not refused. -/
def accepted (ledger : Ledger) : List View :=
  (ledger.enabled.filter fun call => !call.refused).map EnabledCall.view

/-- Number of calls let through and refused. -/
def refusals (ledger : Ledger) : Nat := ledger.enabled.countP EnabledCall.refused

/-- The accepted calls are those handed over and those waiting, in this order; the refused calls are those
reported and those to be reported. -/
structure Balanced (ledger : Ledger) (capacity : Nat) : Prop where
  /-- No accepted call is lost, handed over twice or out of its turn. -/
  accepted_eq : ledger.accepted = ledger.delivered.filterMap Delivery.call? ++ ledger.waiting
  /-- No refused call is left out or counted twice. -/
  refusals_eq : ledger.refusals = (ledger.delivered.map Delivery.count).sum + ledger.refused
  /-- No report is empty. -/
  report_ne_zero : ∀ time, .report time 0 ∉ ledger.delivered
  /-- No more calls wait than the queue holds. -/
  length_le : ledger.waiting.length ≤ capacity

variable {ledger : Ledger} {capacity room : Nat}

theorem balanced_start (threshold : Level) (clock : Clock) (capacity : Nat) :
    (start threshold clock).Balanced capacity :=
  ⟨rfl, rfl, by simp [start], Nat.zero_le _⟩

theorem Balanced.enter (hbalanced : ledger.Balanced capacity) (view : View) :
    (ledger.enter capacity view).Balanced capacity := by
  obtain ⟨haccepted, hrefusals, hreport, hlength⟩ := hbalanced
  unfold Ledger.enter
  split
  · refine ⟨?_, ?_, hreport, hlength⟩
    · simpa [accepted] using haccepted
    · simp only [refusals, List.countP_append, List.countP_singleton] at hrefusals ⊢
      rw [hrefusals]
      simp [Nat.add_assoc]
  · next hroom =>
    refine ⟨?_, ?_, hreport, ?_⟩
    · simp only [accepted, List.filter_append, List.map_append] at haccepted ⊢
      rw [haccepted]
      simp
    · simpa [refusals] using hrefusals
    · simp only [List.length_append, List.length_singleton]
      omega

theorem Balanced.handOver (hbalanced : ledger.Balanced capacity) :
    ledger.handOver.Balanced capacity := by
  obtain ⟨haccepted, hrefusals, hreport, hlength⟩ := hbalanced
  refine ⟨?_, ?_, ?_, Nat.zero_le _⟩
  · change ledger.accepted = (ledger.delivered ++ ledger.waiting.map Delivery.call).filterMap
      Delivery.call? ++ []
    rw [haccepted, List.filterMap_append, Delivery.filterMap_call, List.append_nil]
  · change ledger.refusals =
      ((ledger.delivered ++ ledger.waiting.map Delivery.call).map Delivery.count).sum +
        ledger.refused
    rw [hrefusals, List.map_append, List.sum_append, Delivery.sum_count_call, Nat.add_zero]
  · intro time hmem
    rcases List.mem_append.1 hmem with hbefore | hnew
    · exact hreport time hbefore
    · simp at hnew

theorem Balanced.report (hbalanced : ledger.Balanced capacity) : ledger.report.Balanced capacity := by
  obtain ⟨haccepted, hrefusals, hreport, hlength⟩ := hbalanced
  unfold Ledger.report
  split
  · exact ⟨haccepted, hrefusals, hreport, hlength⟩
  · next hsome =>
    refine ⟨?_, ?_, ?_, hlength⟩
    · have hnone : [Delivery.report ledger.clock.now ledger.refused].filterMap Delivery.call? = [] :=
        rfl
      simpa [accepted, hnone] using haccepted
    · simpa [refusals, Delivery.count] using hrefusals
    · intro time hmem
      rcases List.mem_append.1 hmem with hbefore | hnew
      · exact hreport time hbefore
      · obtain ⟨-, hzero⟩ := Delivery.report.inj (List.mem_singleton.1 hnew)
        exact hsome hzero.symm

theorem Balanced.step (hbalanced : ledger.Balanced capacity) (step : CaptureStep) :
    (ledger.step capacity room step).Balanced capacity := by
  cases step with
  | log level payload =>
      rw [Ledger.step]
      split
      · exact hbalanced.enter _
      · exact hbalanced
  | setLevel levelText =>
      exact ⟨hbalanced.accepted_eq, hbalanced.refusals_eq, hbalanced.report_ne_zero,
        hbalanced.length_le⟩
  | pass => exact hbalanced.handOver.report

theorem Balanced.run (hbalanced : ledger.Balanced capacity) (steps : List CaptureStep) :
    (ledger.run capacity room steps).Balanced capacity := by
  induction steps generalizing ledger with
  | nil => exact hbalanced
  | cons step rest induction => exact induction (hbalanced.step step)

end Ledger

end LogRelay
