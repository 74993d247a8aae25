import LogRelay.RealtimeFlag
import Mathlib.Data.List.Induction

/-!
# Guards over time

A guard can be dropped at any time, whatever has become of the guards made before and after it. Every drop
takes the flag back to where its guard found it. So the flag tells whether a guard is alive exactly as long
as the oldest of the guards alive is the last one to go.
-/

namespace LogRelay

namespace RealtimeFlag

/-- What happens on a thread: a guard is made, or one is dropped. Guards are told by their places in the
order in which they were made. -/
inductive Act where
  | raise
  | drop (place : Nat)
deriving DecidableEq, Repr

/-- The flag of a thread with all guards ever made on the thread. -/
structure Watch where
  /-- The flag. -/
  flag : RealtimeFlag
  /-- The guards, in the order in which they were made. -/
  made : List RealtimeGuard
  /-- The places of the guards that were dropped. -/
  dropped : List Nat
deriving DecidableEq, Repr

namespace Watch

/-- A thread on which no guard was ever made. -/
def fresh : Watch := ⟨.fresh, [], []⟩

/-- Makes a guard. -/
def raise (watch : Watch) : Watch :=
  let raised := watch.flag.raise
  ⟨raised.2, watch.made ++ [raised.1], watch.dropped⟩

/-- Drops a guard. Nobody can drop one that was dropped before. -/
def drop (watch : Watch) (place : Nat) : Watch :=
  match watch.made[place]? with
  | none => watch
  | some guard =>
      if place ∈ watch.dropped then watch
      else ⟨watch.flag.drop guard, watch.made, place :: watch.dropped⟩

/-- Does what happens. -/
def serve (watch : Watch) : Act → Watch
  | .raise => watch.raise
  | .drop place => watch.drop place

/-- Does what happens, one after the other. -/
def run (acts : List Act) (watch : Watch) : Watch := acts.foldl serve watch

/-- What the thread is told about itself. -/
def isRealtime (watch : Watch) : Bool := Probe.threadFlag.ask watch.flag

/-- The guard at a place was made and has not been dropped. -/
def Alive (watch : Watch) (place : Nat) : Prop := place < watch.made.length ∧ place ∉ watch.dropped

instance (watch : Watch) (place : Nat) : Decidable (watch.Alive place) :=
  inferInstanceAs (Decidable (_ ∧ _))

/-- The thread is told that it is real-time exactly if a guard is alive. -/
def Tells (watch : Watch) : Prop := watch.isRealtime = true ↔ ∃ place, watch.Alive place

/-- The guard at a place is the oldest of those alive. -/
structure IsOldest (watch : Watch) (place : Nat) : Prop where
  /-- It is alive. -/
  alive : watch.Alive place
  /-- All others were made later. -/
  le : ∀ other, watch.Alive other → place ≤ other

/-- The oldest guard alive does not go while there are others. -/
def Spares (watch : Watch) : Act → Prop
  | .raise => True
  | .drop place => watch.IsOldest place → ∀ other, watch.Alive other → other = place

variable {watch : Watch} {place : Nat}

theorem run_append (front back : List Act) (watch : Watch) :
    run (front ++ back) watch = run back (run front watch) := List.foldl_append

theorem run_concat (front : List Act) (act : Act) (watch : Watch) :
    run (front ++ [act]) watch = (run front watch).serve act := run_append front [act] watch

/-! ## Who is alive -/

theorem alive_raise {other : Nat} :
    watch.raise.Alive other ↔
      watch.Alive other ∨ (other = watch.made.length ∧ other ∉ watch.dropped) := by
  simp only [Alive, raise, List.length_append, List.length_singleton, Nat.lt_succ_iff_lt_or_eq]
  constructor
  · rintro ⟨hlt | heq, hkept⟩
    · exact .inl ⟨hlt, hkept⟩
    · exact .inr ⟨heq, hkept⟩
  · rintro (⟨hlt, hkept⟩ | ⟨heq, hkept⟩)
    · exact ⟨.inl hlt, hkept⟩
    · exact ⟨.inr heq, hkept⟩

theorem drop_of_alive {guard : RealtimeGuard} (hguard : watch.made[place]? = some guard)
    (hkept : place ∉ watch.dropped) :
    watch.drop place = ⟨watch.flag.drop guard, watch.made, place :: watch.dropped⟩ := by
  simp [drop, hguard, hkept]

theorem drop_of_not_alive (hgone : ¬watch.Alive place) : watch.drop place = watch := by
  unfold drop
  split
  · rfl
  · next guard hguard =>
    have hlt := (List.getElem?_eq_some_iff.1 hguard).1
    rw [if_pos (Classical.not_not.1 fun hkept => hgone ⟨hlt, hkept⟩)]

theorem alive_drop {other : Nat} (halive : watch.Alive place) :
    (watch.drop place).Alive other ↔ watch.Alive other ∧ other ≠ place := by
  rw [drop_of_alive (List.getElem?_eq_getElem halive.1) halive.2]
  simp only [Alive, List.mem_cons, not_or, and_assoc]
  exact and_congr_right fun _ => and_comm

theorem exists_isOldest (halive : watch.Alive place) : ∃ oldest, watch.IsOldest oldest := by
  induction place using Nat.strongRecOn with
  | ind place induction =>
      by_cases hearlier : ∃ other, watch.Alive other ∧ other < place
      · obtain ⟨other, hother, hlt⟩ := hearlier
        exact induction other hlt hother
      · refine ⟨place, halive, fun other hother => ?_⟩
        exact Nat.le_of_not_lt fun hlt => hearlier ⟨other, hother, hlt⟩

/-! ## What guards remember -/

/-- The flag tells whether a guard is alive, and among the guards alive only the oldest found the flag
down. -/
structure Sound (watch : Watch) : Prop where
  /-- The flag tells. -/
  tells : watch.Tells
  /-- Only the oldest guard alive puts the flag down. -/
  previous_iff : ∀ place guard, watch.made[place]? = some guard → watch.Alive place →
    (guard.previous = false ↔ watch.IsOldest place)
  /-- Only guards that were made are dropped. -/
  dropped_lt : ∀ place ∈ watch.dropped, place < watch.made.length

theorem sound_fresh : fresh.Sound := by
  refine ⟨?_, ?_, ?_⟩
  · refine iff_of_false (by decide) ?_
    rintro ⟨place, hlt, -⟩
    exact absurd hlt (Nat.not_lt_zero place)
  · intro place guard hguard
    exact absurd hguard (by simp [fresh])
  · exact fun place hplace => absurd hplace List.not_mem_nil

theorem Sound.alive_raise_iff (hsound : watch.Sound) {other : Nat} :
    watch.raise.Alive other ↔ watch.Alive other ∨ other = watch.made.length := by
  rw [alive_raise]
  refine or_congr_right ⟨fun hboth => hboth.1, fun heq => ⟨heq, fun hmem => ?_⟩⟩
  exact absurd (hsound.dropped_lt _ hmem) (heq ▸ Nat.lt_irrefl _)

theorem Sound.isOldest_raise_iff (hsound : watch.Sound) (halive : watch.Alive place) :
    watch.raise.IsOldest place ↔ watch.IsOldest place := by
  constructor
  · rintro ⟨-, hle⟩
    exact ⟨halive, fun other hother => hle other (hsound.alive_raise_iff.2 (.inl hother))⟩
  · rintro ⟨-, hle⟩
    refine ⟨hsound.alive_raise_iff.2 (.inl halive), fun other hother => ?_⟩
    rcases hsound.alive_raise_iff.1 hother with hold | rfl
    · exact hle other hold
    · exact Nat.le_of_lt halive.1

theorem Sound.isOldest_new_iff (hsound : watch.Sound) :
    watch.raise.IsOldest watch.made.length ↔ watch.isRealtime = false := by
  have htells : watch.isRealtime = true ↔ _ := hsound.tells
  rw [← Bool.not_eq_true, htells]
  constructor
  · rintro ⟨-, hle⟩ ⟨other, hother⟩
    exact absurd (hle other (hsound.alive_raise_iff.2 (.inl hother))) (Nat.not_le.2 hother.1)
  · intro hnone
    refine ⟨hsound.alive_raise_iff.2 (.inr rfl), fun other hother => ?_⟩
    rcases hsound.alive_raise_iff.1 hother with hold | rfl
    · exact absurd ⟨other, hold⟩ hnone
    · exact Nat.le_refl _

theorem Sound.raise (hsound : watch.Sound) : watch.raise.Sound := by
  refine ⟨?_, ?_, ?_⟩
  · exact iff_of_true rfl ⟨watch.made.length, hsound.alive_raise_iff.2 (.inr rfl)⟩
  · intro place guard hguard hplace
    rcases hsound.alive_raise_iff.1 hplace with hold | rfl
    · rw [hsound.isOldest_raise_iff hold]
      apply hsound.previous_iff place guard _ hold
      rwa [Watch.raise, List.getElem?_append_left hold.1] at hguard
    · obtain rfl : (⟨watch.flag.raised⟩ : RealtimeGuard) = guard := by
        simpa [Watch.raise, RealtimeFlag.raise] using hguard
      exact hsound.isOldest_new_iff.symm
  · intro place hplace
    exact Nat.lt_of_lt_of_le (hsound.dropped_lt place hplace) (by simp [Watch.raise])

theorem Sound.isRealtime_drop (hsound : watch.Sound) (halive : watch.Alive place) :
    (watch.drop place).isRealtime = false ↔ watch.IsOldest place := by
  have hguard := List.getElem?_eq_getElem halive.1
  rw [drop_of_alive hguard halive.2]
  exact hsound.previous_iff place _ hguard halive

theorem Sound.tells_drop (hsound : watch.Sound) (halive : watch.Alive place)
    (hspares : watch.Spares (.drop place)) : (watch.drop place).Tells := by
  rw [Tells, ← Bool.not_eq_false, hsound.isRealtime_drop halive]
  constructor
  · intro hyounger
    obtain ⟨oldest, holdest⟩ := exists_isOldest halive
    refine ⟨oldest, (alive_drop halive).2 ⟨holdest.alive, ?_⟩⟩
    rintro rfl
    exact hyounger holdest
  · rintro ⟨other, hother⟩ holdest
    obtain ⟨hother, hne⟩ := (alive_drop halive).1 hother
    exact hne (hspares holdest other hother)

/-- The oldest guard stays the oldest when another one is dropped that spares it. -/
theorem isOldest_drop_iff (halive : watch.Alive place) (hspares : watch.Spares (.drop place))
    {other : Nat} (hother : watch.Alive other) (hne : other ≠ place) :
    (watch.drop place).IsOldest other ↔ watch.IsOldest other := by
  constructor
  · rintro ⟨-, hle⟩
    refine ⟨hother, fun third hthird => ?_⟩
    by_cases hsame : third = place
    · subst hsame
      refine Nat.le_of_not_lt fun hlt => hne (hspares ⟨hthird, ?_⟩ other hother)
      intro fourth hfourth
      by_cases heq : fourth = third
      · exact Nat.le_of_eq heq.symm
      · have hfourthLe := hle fourth ((alive_drop halive).2 ⟨hfourth, heq⟩)
        omega
    · exact hle third ((alive_drop halive).2 ⟨hthird, hsame⟩)
  · rintro ⟨-, hle⟩
    exact ⟨(alive_drop halive).2 ⟨hother, hne⟩,
      fun third hthird => hle third ((alive_drop halive).1 hthird).1⟩

/-- A drop that spares the others leaves the flag telling. -/
theorem Sound.drop (hsound : watch.Sound) (hspares : watch.Spares (.drop place)) :
    (watch.drop place).Sound := by
  by_cases halive : watch.Alive place
  · have hdrop := drop_of_alive (List.getElem?_eq_getElem halive.1) halive.2
    refine ⟨hsound.tells_drop halive hspares, ?_, ?_⟩
    · intro other guard hguard hkept
      obtain ⟨hother, hne⟩ := (alive_drop halive).1 hkept
      have hmade : watch.made[other]? = some guard := by
        rwa [hdrop] at hguard
      rw [isOldest_drop_iff halive hspares hother hne]
      exact hsound.previous_iff other guard hmade hother
    · rw [hdrop]
      intro other hother
      rcases List.mem_cons.1 hother with rfl | hbefore
      · exact halive.1
      · exact hsound.dropped_lt other hbefore
  · rwa [drop_of_not_alive halive]

theorem Sound.not_tells_drop (hsound : watch.Sound) (hspares : ¬watch.Spares (.drop place)) :
    ¬(watch.drop place).Tells := by
  simp only [Spares, Classical.not_imp, Classical.not_forall] at hspares
  obtain ⟨holdest, other, hother, hne⟩ := hspares
  intro htells
  have hdown := (hsound.isRealtime_drop holdest.alive).2 holdest
  have hup := htells.2 ⟨other, (alive_drop holdest.alive).2 ⟨hother, hne⟩⟩
  exact Bool.noConfusion (hdown.symm.trans hup)

theorem Sound.serve (hsound : watch.Sound) {act : Act} (hspares : watch.Spares act) :
    (watch.serve act).Sound := by
  cases act with
  | raise => exact hsound.raise
  | drop place => exact hsound.drop hspares

theorem Sound.spares_of_tells (hsound : watch.Sound) {act : Act} (htells : (watch.serve act).Tells) :
    watch.Spares act := by
  cases act with
  | raise => trivial
  | drop place => exact Classical.not_not.1 fun hspares => hsound.not_tells_drop hspares htells

theorem sound_run {acts : List Act}
    (hspares : ∀ front act, front ++ [act] <+: acts → (run front fresh).Spares act) :
    (run acts fresh).Sound := by
  induction acts using List.reverseRecOn with
  | nil => exact sound_fresh
  | append_singleton earlier last induction =>
      have hearlier : (run earlier fresh).Sound := induction fun front act hfront =>
        hspares front act (hfront.trans (List.prefix_append _ _))
      rw [run_concat]
      exact hearlier.serve (hspares earlier last (List.prefix_refl _))

/-- As long as the flag tells, every act spares the oldest guard. -/
theorem spares_of_tells {acts : List Act}
    (htells : ∀ front, front <+: acts → (run front fresh).Tells) :
    ∀ front act, front ++ [act] <+: acts → (run front fresh).Spares act := by
  induction acts using List.reverseRecOn with
  | nil => exact fun front act hfront => absurd (List.prefix_nil.1 hfront) (by simp)
  | append_singleton earlier last induction =>
      have hearlier := induction fun front hfront =>
        htells front (hfront.trans (List.prefix_append _ _))
      intro front act hfront
      rcases List.prefix_concat_iff.1 hfront with hwhole | hbefore
      · obtain ⟨rfl, hact⟩ := List.append_inj' hwhole rfl
        obtain rfl := List.singleton_inj.1 hact
        apply (sound_run hearlier).spares_of_tells
        rw [← run_concat]
        exact htells _ (List.prefix_refl _)
      · exact hearlier front act hbefore

/-! ## Going back -/

theorem made_isPrefix_run (acts : List Act) (watch : Watch) : watch.made <+: (run acts watch).made := by
  induction acts using List.reverseRecOn with
  | nil => exact List.prefix_refl _
  | append_singleton earlier last induction =>
      rw [run_concat]
      refine induction.trans ?_
      cases last with
      | raise => exact List.prefix_append _ _
      | drop place =>
          simp only [serve, drop]
          split
          · exact List.prefix_refl _
          · split <;> exact List.prefix_refl _

theorem flag_drop_of_made {later : Watch} (hmade : watch.raise.made <+: later.made)
    (halive : later.Alive watch.made.length) :
    (later.drop watch.made.length).flag = watch.flag := by
  have hguard : later.made[watch.made.length]? = some ⟨watch.flag.raised⟩ := by
    obtain ⟨rest, hrest⟩ := hmade
    rw [← hrest, Watch.raise, List.append_assoc, List.getElem?_append_right (Nat.le_refl _),
      Nat.sub_self]
    rfl
  rw [drop_of_alive hguard halive.2]
  rfl

/-- The flag tells whether a guard is alive after every act exactly if the oldest guard alive is never
dropped while there are others. Whatever happens, a guard that is dropped takes the flag back to where it
was before the guard was made. -/
theorem tells_iff_oldest_goes_last (acts : List Act) :
    ((∀ front, front <+: acts →
        ((run front fresh).isRealtime = true ↔ ∃ place, (run front fresh).Alive place)) ↔
      ∀ front place, front ++ [.drop place] <+: acts → (run front fresh).IsOldest place →
        ∀ other, (run front fresh).Alive other → other = place) ∧
    ∀ front later, acts = front ++ .raise :: later →
      let place := (run front fresh).made.length
      (run acts fresh).Alive place →
        (run (acts ++ [.drop place]) fresh).flag = (run front fresh).flag := by
  refine ⟨⟨?_, ?_⟩, ?_⟩
  · intro htells front place hfront
    exact spares_of_tells htells front (.drop place) hfront
  · intro hspares front hfront
    refine (sound_run fun earlier act hearlier => ?_).tells
    cases act with
    | raise => trivial
    | drop place => exact hspares earlier place (hearlier.trans hfront)
  · rintro front later rfl place halive
    rw [run_concat]
    apply flag_drop_of_made _ halive
    rw [List.append_cons, run_append, run_concat]
    exact made_isPrefix_run later _

/-- Of two guards the first is dropped before the second. While the second is alive, the thread is told
that it is not real-time; once both are gone, it is told that it is. -/
theorem first_guard_dropped_first :
    let oneLeft := run [.raise, .raise, .drop 0] fresh
    let noneLeft := run [.raise, .raise, .drop 0, .drop 1] fresh
    (oneLeft.Alive 1 ∧ oneLeft.isRealtime = false) ∧
      ((∀ place, ¬noneLeft.Alive place) ∧ noneLeft.isRealtime = true) ∧
      ¬∀ acts, (run acts fresh).isRealtime = true ↔ ∃ place, (run acts fresh).Alive place := by
  intro oneLeft noneLeft
  have halive : oneLeft.Alive 1 := by decide
  have hdown : oneLeft.isRealtime = false := by decide
  refine ⟨⟨halive, hdown⟩, ⟨?_, by decide⟩, fun htells => ?_⟩
  · rintro place ⟨hlt, hkept⟩
    change place < 2 at hlt
    change place ∉ [1, 0] at hkept
    simp only [List.mem_cons, List.not_mem_nil] at hkept
    omega
  · have hup : oneLeft.isRealtime = true := (htells [.raise, .raise, .drop 0]).2 ⟨1, halive⟩
    exact Bool.noConfusion (hdown.symm.trans hup)

end Watch

end RealtimeFlag

end LogRelay
