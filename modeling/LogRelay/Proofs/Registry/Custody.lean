import LogRelay.Proofs.Registry.Holders
import Mathlib.Algebra.Group.Nat.Defs

/-!
# Claims over time

A claim stays with whoever it was granted to, and may be dropped long after its name went to another one.
A name is held exactly while the claim granted last on it has not been dropped; what becomes of all older
claims on it does not matter. This rests on the numbers of the claims, which are all different until they
run out.
-/

namespace LogRelay

namespace Registry

/-- What is asked of a registry: a name, or to take back a claim. Claims are told by their places in the
order in which they were granted. -/
inductive Request where
  | claim (name : String) (replace : Bool)
  | drop (place : Nat)
deriving DecidableEq, Repr

/-- A registry with all claims that it ever granted. -/
structure Custody where
  /-- The registry. -/
  registry : Registry
  /-- The claims, in the order in which they were granted. -/
  granted : List Claim
  /-- The places of the claims that were dropped. -/
  dropped : List Nat
deriving DecidableEq, Repr

namespace Custody

/-- A registry that was never asked for anything. -/
def fresh : Custody := ⟨.empty, [], []⟩

/-- Claims a name, and keeps the claim if it is granted. -/
def claim (custody : Custody) (name : String) (replace : Bool) : Option Claim × Custody :=
  let claimed := custody.registry.claim name replace
  (claimed.1, ⟨claimed.2.1, custody.granted ++ claimed.1.toList, custody.dropped⟩)

/-- Drops a claim. Nobody can drop one that was dropped before. -/
def drop (custody : Custody) (place : Nat) : Custody :=
  match custody.granted[place]? with
  | none => custody
  | some claim =>
      if place ∈ custody.dropped then custody
      else ⟨(custody.registry.drop claim).1, custody.granted, place :: custody.dropped⟩

/-- Does what is asked. -/
def serve (custody : Custody) : Request → Custody
  | .claim name replace => (custody.claim name replace).2
  | .drop place => custody.drop place

/-- Does what is asked, one after the other. -/
def run (requests : List Request) (custody : Custody) : Custody := requests.foldl serve custody

/-- The claim at a place is the last one granted on a name. -/
structure IsLatest (custody : Custody) (name : String) (place : Nat) : Prop where
  /-- The claim is on the name. -/
  name_eq : custody.granted[place]?.map Claim.name = some name
  /-- No claim granted later is. -/
  name_ne : ∀ later > place, custody.granted[later]?.map Claim.name ≠ some name

/-- The last claim granted on a name is not dropped. -/
def Keeps (custody : Custody) (name : String) (place : Nat) : Prop :=
  custody.IsLatest name place ∧ place ∉ custody.dropped

/-- The number of the claim at a place, if numbers are given out from one on. -/
def numberAt (place : Nat) : UInt64 := UInt64.ofNat (place + 1)

/-- Claims are numbered by their places, and names are held by the last claims on them. -/
structure Sound (custody : Custody) : Prop where
  /-- The next claim has the number of its place. -/
  nextNumber_eq : custody.registry.nextNumber = numberAt custody.granted.length
  /-- So has every claim. -/
  number_eq : ∀ place claim, custody.granted[place]? = some claim → claim.number = numberAt place
  /-- Only claims that were granted are dropped. -/
  dropped_lt : ∀ place ∈ custody.dropped, place < custody.granted.length
  /-- A name is held by the last claim on it until that is dropped. -/
  holder?_iff : ∀ name number, custody.registry.holder? name = some number ↔
    ∃ place, custody.Keeps name place ∧ number = numberAt place

variable {custody : Custody} {name other : String} {place : Nat}

theorem IsLatest.lt_length (hlatest : custody.IsLatest name place) :
    place < custody.granted.length := by
  obtain ⟨claim, hclaim, -⟩ := Option.map_eq_some_iff.1 hlatest.name_eq
  exact (List.getElem?_eq_some_iff.1 hclaim).1

theorem IsLatest.unique {second : Nat} (hfirst : custody.IsLatest name place)
    (hsecond : custody.IsLatest name second) : place = second := by
  rcases Nat.lt_trichotomy place second with hlt | heq | hgt
  · exact absurd hsecond.name_eq (hfirst.name_ne second hlt)
  · exact heq
  · exact absurd hfirst.name_eq (hsecond.name_ne place hgt)

theorem IsLatest.congr {after : Custody} (hsame : after.granted = custody.granted) :
    after.IsLatest name place ↔ custody.IsLatest name place := by
  constructor <;> rintro ⟨hname, hlater⟩
  · exact ⟨hsame ▸ hname, hsame ▸ hlater⟩
  · exact ⟨hsame.symm ▸ hname, hsame.symm ▸ hlater⟩

/-- One more claim is the last one on its name, and changes nothing about any other name. -/
theorem isLatest_concat {after : Custody} {claim : Claim}
    (hgranted : after.granted = custody.granted ++ [claim]) :
    after.IsLatest other place ↔
      if other = claim.name then place = custody.granted.length else custody.IsLatest other place := by
  have hnew : after.granted[custody.granted.length]? = some claim := by
    rw [hgranted, List.getElem?_concat_length]
  have hold : ∀ earlier : Nat, earlier ≠ custody.granted.length →
      after.granted[earlier]? = custody.granted[earlier]? := by
    intro earlier hne
    rw [hgranted]
    rcases Nat.lt_or_gt_of_ne hne with hlt | hgt
    · exact List.getElem?_append_left hlt
    · rw [List.getElem?_eq_none (by simpa using Nat.succ_le_of_lt hgt),
        List.getElem?_eq_none (Nat.le_of_lt hgt)]
  split
  · next hname =>
    subst hname
    have hlast : after.IsLatest claim.name custody.granted.length := by
      refine ⟨by rw [hnew, Option.map_some], ?_⟩
      intro later hlater
      rw [hold later (Nat.ne_of_gt hlater), List.getElem?_eq_none (Nat.le_of_lt hlater)]
      exact (Option.some_ne_none _).symm
    exact ⟨fun hlatest => hlatest.unique hlast, fun hplace => hplace ▸ hlast⟩
  · next hname =>
    have hnames : ∀ earlier : Nat, after.granted[earlier]?.map Claim.name = some other ↔
        custody.granted[earlier]?.map Claim.name = some other := by
      intro earlier
      by_cases hend : earlier = custody.granted.length
      · subst hend
        rw [hnew, List.getElem?_eq_none (Nat.le_refl _)]
        simpa using Ne.symm hname
      · rw [hold earlier hend]
    constructor <;> rintro ⟨hfound, hlater⟩
    · exact ⟨(hnames _).1 hfound, fun later hgt hsome => hlater later hgt ((hnames _).2 hsome)⟩
    · exact ⟨(hnames _).2 hfound, fun later hgt hsome => hlater later hgt ((hnames _).1 hsome)⟩

theorem sound_fresh : fresh.Sound := by
  refine ⟨rfl, ?_, ?_, ?_⟩
  · intro place claim hclaim
    exact absurd hclaim (by simp [fresh])
  · exact fun place hplace => absurd hplace List.not_mem_nil
  · intro name number
    refine iff_of_false (Option.some_ne_none _).symm ?_
    rintro ⟨place, ⟨hlatest, -⟩, -⟩
    exact absurd hlatest.lt_length (Nat.not_lt_zero _)

theorem claim_eq_none_iff (custody : Custody) (name : String) (replace : Bool) :
    (custody.claim name replace).1 = none ↔
      custody.registry.isHeld name = true ∧ replace = false := by
  refine ⟨fun hnone => (claim_of_none hnone).2, ?_⟩
  rintro ⟨hheld, rfl⟩
  simp [Custody.claim, Registry.claim, hheld]

theorem claim_eq_self {replace : Bool} (hnone : (custody.registry.claim name replace).1 = none) :
    (custody.claim name replace).2 = custody := by
  rw [Custody.claim, hnone, (claim_of_none hnone).1, Option.toList_none, List.append_nil]

/-- A name that is granted is held by the new claim, which is the last one on it. -/
theorem Sound.grant (hsound : custody.Sound) (name : String) :
    let granted := custody.registry.grant name
    Sound ⟨granted.2, custody.granted ++ [granted.1], custody.dropped⟩ := by
  intro granted
  have hfresh : custody.granted.length ∉ custody.dropped := fun hmem =>
    Nat.lt_irrefl _ (hsound.dropped_lt _ hmem)
  refine ⟨?_, ?_, ?_, ?_⟩
  · change custody.registry.nextNumber + 1 = _
    rw [hsound.nextNumber_eq, numberAt, numberAt, List.length_append, List.length_singleton]
    exact (UInt64.ofNat_add _ 1).symm
  · intro place claim hclaim
    rcases Nat.lt_or_ge place custody.granted.length with hlt | hge
    · rw [List.getElem?_append_left hlt] at hclaim
      exact hsound.number_eq place claim hclaim
    · have hlast : place < custody.granted.length + 1 := by
        simpa using (List.getElem?_eq_some_iff.1 hclaim).1
      obtain rfl : place = custody.granted.length := by omega
      rw [List.getElem?_concat_length] at hclaim
      obtain rfl := Option.some.inj hclaim
      exact hsound.nextNumber_eq
  · intro place hplace
    exact Nat.lt_of_lt_of_le (hsound.dropped_lt place hplace) (by simp)
  · intro other number
    have hlatest : ∀ place, IsLatest
        ⟨granted.2, custody.granted ++ [granted.1], custody.dropped⟩ other place ↔
          if other = name then place = custody.granted.length else custody.IsLatest other place :=
      fun place => @isLatest_concat custody other place _ granted.1 rfl
    simp only [granted, holder?_grant, Keeps, hlatest]
    split
    · next hname =>
      rw [hsound.nextNumber_eq, Option.some.injEq]
      constructor
      · rintro rfl
        exact ⟨_, ⟨rfl, hfresh⟩, rfl⟩
      · rintro ⟨place, ⟨rfl, -⟩, rfl⟩
        rfl
    · exact hsound.holder?_iff other number

theorem Sound.claim (hsound : custody.Sound) (name : String) (replace : Bool) :
    (custody.claim name replace).2.Sound := by
  cases hclaim : (custody.registry.claim name replace).1 with
  | none => rwa [claim_eq_self hclaim]
  | some claim =>
      obtain ⟨rfl, hregistry, -⟩ := claim_of_some hclaim
      rw [Custody.claim, hclaim, hregistry]
      exact hsound.grant name

theorem numberAt_injective {first second : Nat} (hfirst : first + 1 < 2 ^ 64)
    (hsecond : second + 1 < 2 ^ 64) (hsame : numberAt first = numberAt second) :
    first = second := by
  have hvalues := congrArg UInt64.toNat hsame
  rw [numberAt, numberAt, UInt64.toNat_ofNat', UInt64.toNat_ofNat', Nat.mod_eq_of_lt hfirst,
    Nat.mod_eq_of_lt hsecond] at hvalues
  omega

theorem Sound.holds_iff (hsound : custody.Sound) (hcount : custody.granted.length < 2 ^ 64)
    {claim : Claim} (hclaim : custody.granted[place]? = some claim) :
    custody.registry.holder? claim.name = some claim.number ↔ custody.Keeps claim.name place := by
  have hlt := (List.getElem?_eq_some_iff.1 hclaim).1
  rw [hsound.holder?_iff, hsound.number_eq place claim hclaim]
  constructor
  · rintro ⟨found, hkeeps, hnumber⟩
    have hfound := hkeeps.1.lt_length
    obtain rfl : place = found := numberAt_injective (by omega) (by omega) hnumber
    exact hkeeps
  · exact fun hkeeps => ⟨place, hkeeps, rfl⟩

theorem Sound.holder?_drop (hsound : custody.Sound) (hcount : custody.granted.length < 2 ^ 64)
    {claim : Claim} (hclaim : custody.granted[place]? = some claim) (other : String) :
    (other = claim.name ∧ custody.Keeps claim.name place →
        (custody.registry.drop claim).1.holder? other = none) ∧
      (¬(other = claim.name ∧ custody.Keeps claim.name place) →
        (custody.registry.drop claim).1.holder? other = custody.registry.holder? other) := by
  rw [Registry.holder?_drop, ← hsound.holds_iff hcount hclaim]
  exact ⟨fun hlast => if_pos hlast, fun hother => if_neg hother⟩

/-- A claim that is dropped frees its name if it is the last one on it. -/
theorem Sound.drop (hsound : custody.Sound) (hcount : custody.granted.length < 2 ^ 64)
    (place : Nat) : (custody.drop place).Sound := by
  rw [Custody.drop]
  cases hclaim : custody.granted[place]? with
  | none => exact hsound
  | some claim =>
      have hlt := (List.getElem?_eq_some_iff.1 hclaim).1
      simp only
      split
      · exact hsound
      · refine ⟨?_, hsound.number_eq, ?_, ?_⟩
        · exact (nextNumber_drop _ _).trans hsound.nextNumber_eq
        · intro found hfound
          rcases List.mem_cons.1 hfound with rfl | hbefore
          · exact hlt
          · exact hsound.dropped_lt found hbefore
        · intro other number
          have hlatest : ∀ found, IsLatest
              ⟨(custody.registry.drop claim).1, custody.granted, place :: custody.dropped⟩ other found ↔
                custody.IsLatest other found := fun found => IsLatest.congr rfl
          obtain ⟨hfree, hkept⟩ := hsound.holder?_drop hcount hclaim other
          simp only [Keeps, hlatest, List.mem_cons, not_or]
          by_cases hlast : other = claim.name ∧ custody.Keeps claim.name place
          · rw [hfree hlast]
            obtain ⟨rfl, hlast, -⟩ := hlast
            refine iff_of_false (Option.some_ne_none _).symm ?_
            rintro ⟨found, ⟨hfound, hother, -⟩, -⟩
            exact hother (hfound.unique hlast)
          · rw [hkept hlast, hsound.holder?_iff]
            have hne : ∀ found, custody.Keeps other found → found ≠ place := by
              rintro found hkeeps rfl
              have hname : claim.name = other := by
                simpa [hclaim] using hkeeps.1.name_eq
              exact hlast ⟨hname.symm, hname ▸ hkeeps⟩
            constructor
            · rintro ⟨found, hkeeps, hnumber⟩
              exact ⟨found, ⟨hkeeps.1, hne found hkeeps, hkeeps.2⟩, hnumber⟩
            · rintro ⟨found, ⟨hfound, -, hkeeps⟩, hnumber⟩
              exact ⟨found, ⟨hfound, hkeeps⟩, hnumber⟩

theorem length_le_serve (custody : Custody) (request : Request) :
    custody.granted.length ≤ (custody.serve request).granted.length := by
  cases request with
  | claim name replace => simp [serve, Custody.claim]
  | drop place =>
      simp only [serve, Custody.drop]
      split
      · exact Nat.le_refl _
      · split <;> exact Nat.le_refl _

theorem length_le_run (requests : List Request) (custody : Custody) :
    custody.granted.length ≤ (run requests custody).granted.length := by
  induction requests generalizing custody with
  | nil => exact Nat.le_refl _
  | cons request rest induction =>
      exact Nat.le_trans (length_le_serve custody request) (induction (custody.serve request))

theorem Sound.run (hsound : custody.Sound) {requests : List Request}
    (hcount : (Custody.run requests custody).granted.length < 2 ^ 64) :
    (Custody.run requests custody).Sound := by
  induction requests generalizing custody with
  | nil => exact hsound
  | cons request rest induction =>
      have hbefore := length_le_run (request :: rest) custody
      refine induction ?_ hcount
      cases request with
      | claim name replace => exact hsound.claim name replace
      | drop place => exact hsound.drop (by omega) place

theorem Sound.isHeld_iff (hsound : custody.Sound) (name : String) :
    custody.registry.isHeld name = true ↔
      ∃ place, custody.IsLatest name place ∧ place ∉ custody.dropped := by
  rw [isHeld, Option.isSome_iff_exists]
  simp only [hsound.holder?_iff]
  constructor
  · rintro ⟨_, place, hkeeps, -⟩
    exact ⟨place, hkeeps⟩
  · rintro ⟨place, hkeeps⟩
    exact ⟨numberAt place, place, hkeeps, rfl⟩

theorem Sound.isHeld_drop_of_superseded (hsound : custody.Sound)
    (hcount : custody.granted.length < 2 ^ 64) {claim : Claim}
    (hclaim : custody.granted[place]? = some claim)
    (hold : ¬custody.IsLatest claim.name place) (other : String) :
    (custody.drop place).registry.isHeld other = custody.registry.isHeld other := by
  simp only [Custody.drop, hclaim]
  split
  · rfl
  · exact congrArg Option.isSome
      ((hsound.holder?_drop hcount hclaim other).2 fun hlast => hold hlast.2.1)

/-- Names are held by the last claims on them. After any requests a name is held exactly if the last claim
granted on it was not dropped. A claim that is granted is on the name asked for. One that is not to take
its name over is refused exactly while the name is held, and then changes nothing; one that is to take it
over is never refused. Dropping a claim that is not the last one on its name changes nothing about which
names are held. -/
theorem name_held_by_last_claim (requests : List Request)
    (hcount : (run requests fresh).granted.length < 2 ^ 64) :
    let custody := run requests fresh
    (∀ name, custody.registry.isHeld name = true ↔
      ∃ place, custody.IsLatest name place ∧ place ∉ custody.dropped) ∧
    (∀ name replace claim, (custody.claim name replace).1 = some claim → claim.name = name) ∧
    (∀ name, (custody.claim name false).1 = none ↔ custody.registry.isHeld name = true) ∧
    (∀ name, (custody.claim name false).1 = none → (custody.claim name false).2 = custody) ∧
    (∀ name, ∃ claim, (custody.claim name true).1 = some claim) ∧
    (∀ place claim, custody.granted[place]? = some claim → ¬custody.IsLatest claim.name place →
      ∀ other, (custody.drop place).registry.isHeld other = custody.registry.isHeld other) := by
  intro custody
  have hsound : custody.Sound := sound_fresh.run hcount
  refine ⟨hsound.isHeld_iff, ?_, ?_, fun _ hnone => claim_eq_self hnone, ?_, ?_⟩
  · intro name replace claim hclaim
    obtain ⟨rfl, -, -⟩ := claim_of_some hclaim
    rfl
  · intro name
    simp [claim_eq_none_iff]
  · intro name
    rw [← Option.ne_none_iff_exists', ne_eq, claim_eq_none_iff]
    exact fun hrefused => Bool.noConfusion hrefused.2
  · exact fun place claim hclaim hold => hsound.isHeld_drop_of_superseded hcount hclaim hold

/-- A name is taken over, freed, claimed and taken over again, while its first claim is still kept. -/
def takeovers : List Request :=
  [.claim "app" false, .claim "app" true, .drop 1, .claim "app" false, .claim "app" true,
    .claim "app" false]

/-- The fourth claim holds the name, whatever becomes of the first, until it is dropped itself. -/
theorem takeovers_hold_name :
    let custody := run takeovers fresh
    custody.granted.length < 2 ^ 64 ∧ custody.IsLatest "app" 3 ∧ 3 ∉ custody.dropped ∧
      custody.registry.isHeld "app" = true ∧ (custody.drop 0).registry.isHeld "app" = true ∧
      (custody.drop 3).registry.isHeld "app" = false := by
  intro custody
  have hlength : custody.granted.length < 2 ^ 64 := by decide +kernel
  have hgranted : custody.granted = [⟨"app", 1⟩, ⟨"app", 2⟩, ⟨"app", 3⟩, ⟨"app", 4⟩] := by decide +kernel
  have hdropped : 3 ∉ custody.dropped := by decide +kernel
  have hnone : ∀ later > 3, custody.granted[later]? = none := by
    intro later hlater
    rw [hgranted]
    exact List.getElem?_eq_none hlater
  have hlatest : custody.IsLatest "app" 3 :=
    ⟨by rw [hgranted]; rfl, fun later hlater => by simp [hnone later hlater]⟩
  have hold : ¬custody.IsLatest "app" 0 := fun hfirst => absurd (hfirst.unique hlatest) (by decide)
  obtain ⟨hheld, -, -, -, -, hdrop⟩ := name_held_by_last_claim takeovers hlength
  have happ : custody.registry.isHeld "app" = true := (hheld "app").2 ⟨3, hlatest, hdropped⟩
  refine ⟨hlength, hlatest, hdropped, happ, ?_, by decide +kernel⟩
  exact (hdrop 0 ⟨"app", 1⟩ (by rw [hgranted]; rfl) hold "app").trans happ

end Custody

end Registry

end LogRelay
