import LogRelay.Proofs.Message.Orderly
import Mathlib.Data.List.Induction
import Mathlib.Logic.Function.Basic

/-!
# Messages over time

Messages are made, set, reset and copied, one thing after the other. All of them stay in order exactly if no
payload that breaks down upsets the layout of the message that it is written to.
-/

namespace LogRelay.Message

variable {size : Nat}

/-- What is done to messages kept side by side. -/
inductive Deed where
  | renew (slot : Nat)
  | set (slot : Nat) (level : Level) (timestamp : Duration) (payload : Payload)
  | reset (slot : Nat)
  | copy (source target : Nat)
deriving DecidableEq, Repr

/-- Messages kept side by side. -/
abbrev Slots (size : Nat) := Nat → Message size

namespace Slots

/-- Empty messages. -/
def fresh (hsize : 0 < size) : Slots size := fun _ => blank hsize

/-- Does what is to be done. A payload that breaks down leaves its message as far as it got. -/
def serve (slots : Slots size) : Deed → Slots size
  | .renew slot => Function.update slots slot (blank (slots slot).size_pos)
  | .set slot level timestamp payload =>
      Function.update slots slot ((slots slot).set level timestamp payload).1
  | .reset slot => Function.update slots slot (slots slot).reset
  | .copy source target => Function.update slots target (slots source)

/-- Does what is to be done, one after the other. -/
def run (deeds : List Deed) (slots : Slots size) : Slots size := deeds.foldl serve slots

/-- All messages are in order. -/
def Orderly (slots : Slots size) : Prop := ∀ slot, (slots slot).Orderly

/-- A payload that breaks down spares the layout of the message that it is written to. -/
def Spares (slots : Slots size) : Deed → Prop
  | .set slot level timestamp payload =>
      ((slots slot).set level timestamp payload).2 = true → (slots slot).Spares payload
  | _ => True

theorem run_concat (front : List Deed) (deed : Deed) (slots : Slots size) :
    run (front ++ [deed]) slots = (run front slots).serve deed := List.foldl_append

theorem orderly_fresh (hsize : 0 < size) : (fresh hsize).Orderly := fun _ => orderly_blank hsize

variable {slots : Slots size}

theorem Orderly.update_iff (horderly : slots.Orderly) (slot : Nat) (message : Message size) :
    Slots.Orderly (Function.update slots slot message) ↔ message.Orderly := by
  constructor
  · intro hafter
    have hslot := hafter slot
    rwa [Function.update_self] at hslot
  · intro hmessage other
    by_cases hsame : other = slot
    · rwa [hsame, Function.update_self]
    · rw [Function.update_of_ne hsame]
      exact horderly other

/-- Messages in order stay so exactly if what is done spares them. -/
theorem Orderly.serve_iff (horderly : slots.Orderly) (deed : Deed) :
    (slots.serve deed).Orderly ↔ slots.Spares deed := by
  cases deed with
  | renew slot =>
      exact (horderly.update_iff slot _).trans (iff_of_true (orderly_blank _) trivial)
  | reset slot =>
      exact (horderly.update_iff slot _).trans (iff_of_true (orderly_reset _) trivial)
  | copy source target =>
      exact (horderly.update_iff target _).trans (iff_of_true (horderly source) trivial)
  | set slot level timestamp payload =>
      refine (horderly.update_iff slot _).trans ?_
      simp only [Spares]
      by_cases hbroke : ((slots slot).set level timestamp payload).2 = true
      · rw [(horderly slot).set_iff hbroke]
        exact ⟨fun hspares _ => hspares, fun hspares => hspares hbroke⟩
      · exact iff_of_true (orderly_set (Bool.eq_false_iff.2 hbroke)) fun hsame => absurd hsame hbroke

theorem Orderly.run_iff (horderly : slots.Orderly) (deeds : List Deed) :
    (∀ front, front <+: deeds → (run front slots).Orderly) ↔
      ∀ front deed, front ++ [deed] <+: deeds → (run front slots).Spares deed := by
  constructor
  · intro hall front deed hfront
    rw [← (hall front ((List.prefix_append _ _).trans hfront)).serve_iff, ← run_concat]
    exact hall _ hfront
  · intro hspares front
    induction front using List.reverseRecOn with
    | nil => exact fun _ => horderly
    | append_singleton earlier last induction =>
        intro hfront
        rw [run_concat, (induction ((List.prefix_append _ _).trans hfront)).serve_iff]
        exact hspares earlier last hfront

/-- Whatever is done to messages, each of them has room for its terminator. After everything that is done
each has its terminator behind a text that is well formed to the end exactly if every payload that breaks
down ends, in what it wrote, where a character of the old text ends, or wrote a zero where the terminator
stands. The text then has as many bytes as the stored length says, and up to the terminator it reads as far as
its first zero. -/
theorem orderly_throughout_iff (hsize : 0 < size) (deeds : List Deed) :
    ((∀ front, front <+: deeds → ∀ slot, (run front (fresh hsize) slot).Orderly) ↔
      ∀ front slot level timestamp payload,
        front ++ [.set slot level timestamp payload] <+: deeds →
        let message := run front (fresh hsize) slot
        (message.set level timestamp payload).2 = true → message.Spares payload) ∧
    ∀ slot, let message := run deeds (fresh hsize) slot
      message.length ≤ size - 1 ∧
        (message.Orderly → (Utf8.bytes message.text).length = message.length ∧
          message.terminated = (Utf8.bytes message.text).takeWhile (· ≠ 0)) := by
  refine ⟨?_, fun slot => ⟨length_le _, fun horderly => ?_⟩⟩
  · refine ((orderly_fresh hsize).run_iff deeds).trans ⟨?_, ?_⟩
    · intro hspares front slot level timestamp payload hfront
      exact hspares front _ hfront
    · intro hspares front deed hfront
      cases deed with
      | set slot level timestamp payload => exact hspares front slot level timestamp payload hfront
      | renew slot | reset slot | copy source target => trivial
  · exact ⟨horderly.length_bytes_text, horderly.terminated_eq⟩

/-- A payload that breaks down at the end of a character of the old text leaves the rest of that text. -/
theorem break_between_characters_spares :
    let deeds : List Deed := [.set 0 .info .zero (.ofText "aéb"),
      .set 0 .error .zero [⟨[.text "xyz", .breakdown], false⟩], .copy 0 1]
    (∀ front, front <+: deeds → ∀ slot, (run front (@fresh 8 (by decide)) slot).Orderly) ∧
      (run deeds (@fresh 8 (by decide)) 1).text = "xyzb" := by
  intro deeds
  refine ⟨(orderly_throughout_iff _ deeds).1.2 ?_, by decide +kernel⟩
  intro front slot level timestamp payload hfront message hbroke
  rcases front with _ | ⟨first, _ | ⟨second, _ | ⟨third, others⟩⟩⟩ <;>
    simp only [deeds, List.nil_append, List.cons_append, List.cons_prefix_cons, List.nil_prefix,
      List.prefix_nil, Deed.set.injEq, reduceCtorEq, and_true, and_false, List.append_eq_nil_iff,
      List.cons_ne_nil] at hfront
  · obtain ⟨rfl, rfl, rfl, rfl⟩ := hfront
    exact absurd hbroke (by decide +kernel)
  · obtain ⟨rfl, rfl, rfl, rfl, rfl⟩ := hfront
    have hspares : message.Spares [⟨[.text "xyz", .breakdown], false⟩] := by decide +kernel
    exact hspares

/-- A payload that breaks down behind the old text writes over the terminator, so that up to the length
nothing is terminated; one that breaks down inside a character of it leaves a text that is not well formed. -/
theorem break_upsets_layout :
    let deeds : List Deed := [.set 0 .info .zero (.ofText "abc"),
      .set 0 .info .zero [⟨[.text "xyzw", .breakdown], false⟩], .set 1 .info .zero (.ofText "é"),
      .set 1 .info .zero [⟨[.text "a", .breakdown], false⟩]]
    let slots := run deeds (@fresh 8 (by decide))
    ((slots 0).length = 3 ∧ (slots 0).buffer[3]? = some 119 ∧ (slots 0).text = "xyz" ∧
        (slots 0).terminated = [] ∧ ¬(slots 0).Orderly) ∧
      (slots 1).length = 2 ∧ (slots 1).text = "a" ∧ ¬(slots 1).Orderly := by
  intro deeds slots
  have hletter : (slots 0).length = 3 ∧ (slots 0).buffer[3]? = some 119 := by decide +kernel
  have hlength : (slots 1).length = 2 := by decide +kernel
  have htext : (slots 1).text = "a" := by decide +kernel
  refine ⟨⟨hletter.1, hletter.2, by decide +kernel, by decide +kernel, ?_⟩, hlength, htext, ?_⟩
  · intro horderly
    have hzero := horderly.terminator
    rw [hletter.1, hletter.2] at hzero
    exact absurd hzero (by decide)
  · intro horderly
    have hbytes := horderly.length_bytes_text
    rw [htext, hlength] at hbytes
    exact absurd hbytes (by decide +kernel)

end Slots

end LogRelay.Message
