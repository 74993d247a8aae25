import LogRelay.Proofs.Json.Scanning

/-!
# The tokens of a tree

A tree in which nothing is torn or missing spells tokens, and these are arranged into the tree again, with what
stands behind them left over. Three steps for each token are enough: an item takes one to be looked at, one to
be begun, and those of its value. Conversely, tokens that are arranged into such a tree are those that it
spells.
-/

namespace LogRelay.Json

/-! ## Complete trees -/

namespace Tree

/-- Whether nothing is torn or missing in a tree. -/
def isComplete : {layer : Layer} → Tree layer → Bool
  | _, .null | _, .bool _ | _, .number _ | _, .string _ | _, .noItems | _, .noMembers => true
  | _, .array items => isComplete items
  | _, .object members => isComplete members
  | _, .item value rest | _, .member _ value rest => isComplete value && isComplete rest
  | _, _ => false

theorem spelled_cons {value : Tree .value} (hcomplete : value.isComplete = true) :
    ∃ first rest, value.spelled false = first :: rest ∧ first ≠ .closeArray := by
  cases value with
  | tornNumber _ | torn _ | absent _ => exact absurd hcomplete Bool.false_ne_true
  | null | bool _ | number _ | string _ | array _ | object _ => exact ⟨_, _, rfl, by simp⟩

end Tree

theorem arrangeItems_first (fuel : Nat) {first : Token} (hfirst : first ≠ .closeArray)
    (rest : List Token) :
    arrangeItems (fuel + 1) .first (first :: rest) = arrangeItem fuel (first :: rest) := by
  cases first <;> first | rfl | exact absurd rfl hfirst

theorem arrangeItems_later (fuel : Nat) {first : Token} (hfirst : first ≠ .closeArray)
    (rest : List Token) :
    arrangeItems (fuel + 1) .later (.comma :: first :: rest) = arrangeItem fuel (first :: rest) := by
  cases first <;> first | rfl | exact absurd rfl hfirst

/-- Where items or members are met. -/
def Place.of (following : Bool) : Place := if following then .later else .first

/-! ## Arranging what a tree spells -/

/-- The tokens that a tree spells are arranged into it, if there are three steps for each of them and for the
closing bracket. -/
def Arranges : {layer : Layer} → Tree layer → Prop
  | .value, tree => ∀ fuel rest, 3 * (tree.spelled false).length ≤ fuel →
      arrangeValue fuel (tree.spelled false ++ rest) = (tree, rest)
  | .items, tree => ∀ following fuel rest, 3 * ((tree.spelled following).length + 1) ≤ fuel →
      arrangeItems fuel (.of following) (tree.spelled following ++ .closeArray :: rest) = (tree, rest)
  | .members, tree => ∀ following fuel rest, 3 * ((tree.spelled following).length + 1) ≤ fuel →
      arrangeMembers fuel (.of following) (tree.spelled following ++ .closeObject :: rest) = (tree, rest)

theorem arrangeItem_eq {value : Tree .value} {later : Tree .items} (hcomplete : value.isComplete = true)
    (hvalue : Arranges value) (hlater : Arranges later) (fuel : Nat) (rest : List Token)
    (hfuel : 3 * ((value.spelled false).length + (later.spelled true).length + 1) ≤ fuel + 2) :
    arrangeItem (fuel + 1) (value.spelled false ++ (later.spelled true ++ .closeArray :: rest)) =
      (.item value later, rest) := by
  obtain ⟨first, more, hspelled, -⟩ := Tree.spelled_cons hcomplete
  have hsome : 0 < (value.spelled false).length := by
    rw [hspelled]
    exact Nat.zero_lt_succ _
  have htail : arrangeItems fuel .later (later.spelled true ++ .closeArray :: rest) = (later, rest) :=
    hlater true fuel rest (by omega)
  rw [arrangeItem, hvalue fuel _ (by omega)]
  simp only
  rw [htail]

theorem arrangeMember_eq (name : StringText) {value : Tree .value} {later : Tree .members}
    (hvalue : Arranges value) (hlater : Arranges later) (fuel : Nat) (rest : List Token)
    (hfuel : 3 * ((value.spelled false).length + (later.spelled true).length + 1) ≤ fuel) :
    arrangeMember (fuel + 1) name
        (.colon :: (value.spelled false ++ (later.spelled true ++ .closeObject :: rest))) =
      (.member name value later, rest) := by
  have htail : arrangeMembers fuel .later (later.spelled true ++ .closeObject :: rest) = (later, rest) :=
    hlater true fuel rest (by omega)
  rw [arrangeMember, hvalue fuel _ (by omega)]
  simp only
  rw [htail]

/-- A complete tree is arranged from the tokens that it spells. -/
theorem arranges {layer : Layer} {tree : Tree layer} (hcomplete : tree.isComplete = true) : Arranges tree := by
  induction tree with
  | null | bool value | number text | string text =>
      intro fuel rest hfuel
      cases fuel with
      | zero => exact absurd hfuel (by simp [Tree.spelled])
      | succ fuel => rfl
  | array items induction =>
      intro fuel rest hfuel
      simp only [Tree.spelled, List.cons_append, List.length_cons, List.length_append,
        List.length_nil] at hfuel
      obtain ⟨fuel, rfl⟩ := Nat.exists_eq_add_of_le' (show 1 ≤ fuel by omega)
      have hitems : arrangeItems fuel .first (items.spelled false ++ .closeArray :: rest) = (items, rest) :=
        induction hcomplete false fuel rest (by omega)
      simp only [Tree.spelled, List.cons_append, List.append_assoc, List.nil_append, arrangeValue, hitems]
  | object members induction =>
      intro fuel rest hfuel
      simp only [Tree.spelled, List.cons_append, List.length_cons, List.length_append,
        List.length_nil] at hfuel
      obtain ⟨fuel, rfl⟩ := Nat.exists_eq_add_of_le' (show 1 ≤ fuel by omega)
      have hmembers : arrangeMembers fuel .first (members.spelled false ++ .closeObject :: rest) =
          (members, rest) := induction hcomplete false fuel rest (by omega)
      simp only [Tree.spelled, List.cons_append, List.append_assoc, List.nil_append, arrangeValue, hmembers]
  | noItems | noMembers =>
      intro following fuel rest hfuel
      obtain ⟨fuel, rfl⟩ := Nat.exists_eq_add_of_le' (show 1 ≤ fuel by omega)
      cases following <;> rfl
  | item value later value_induction later_induction =>
      obtain ⟨hvalue, hlater⟩ := Bool.and_eq_true_iff.1 hcomplete
      intro following fuel rest hfuel
      simp only [Tree.spelled, List.length_append] at hfuel
      obtain ⟨fuel, rfl⟩ := Nat.exists_eq_add_of_le' (show 2 ≤ fuel by omega)
      have hitem := arrangeItem_eq hvalue (value_induction hvalue) (later_induction hlater) fuel rest
        (by omega)
      obtain ⟨first, more, hspelled, hfirst⟩ := Tree.spelled_cons hvalue
      simp only [Tree.spelled, List.append_assoc]
      rw [hspelled, List.cons_append] at hitem ⊢
      cases following with
      | false => exact (arrangeItems_first (fuel + 1) hfirst _).trans hitem
      | true => exact (arrangeItems_later (fuel + 1) hfirst _).trans hitem
  | member name value later value_induction later_induction =>
      obtain ⟨hvalue, hlater⟩ := Bool.and_eq_true_iff.1 hcomplete
      intro following fuel rest hfuel
      simp only [Tree.spelled, List.length_append, List.length_cons] at hfuel
      obtain ⟨fuel, rfl⟩ := Nat.exists_eq_add_of_le' (show 2 ≤ fuel by omega)
      have hmember := arrangeMember_eq name (value_induction hvalue) (later_induction hlater) fuel rest
        (by omega)
      simp only [Tree.spelled, List.append_assoc, List.cons_append]
      cases following with
      | false => exact hmember
      | true => exact hmember
  | tornNumber _ | torn _ | absent _ | itemsCut _ | itemsDangling _ | misnamed _ | membersCut _
  | membersDangling _ => exact absurd hcomplete Bool.false_ne_true

theorem ofText_of_tokens {text : String} {tree : Tree .value} (hcomplete : tree.isComplete = true)
    (htokens : tokens text.toList = tree.spelled false) : Document.ofText text = ⟨tree, false⟩ := by
  have harranged : arrangeValue (3 * (tree.spelled false).length + 3) (tree.spelled false) = (tree, []) := by
    have hvalue : arrangeValue (3 * (tree.spelled false).length + 3) (tree.spelled false ++ []) = (tree, []) :=
      arranges hcomplete _ [] (Nat.le_add_right _ 3)
    rwa [List.append_nil] at hvalue
  simp only [Document.ofText, htokens, harranged]
  rfl

/-! ## Tokens of what has been arranged -/

/-- What the tokens are that have been arranged into a complete tree, at one number of steps. -/
structure Arranged (fuel : Nat) : Prop where
  /-- Those of a value are the ones that it spells. -/
  value : ∀ {tokens tree rest}, arrangeValue fuel tokens = (tree, rest) → tree.isComplete = true →
    tokens = tree.spelled false ++ rest
  /-- Those of an item and of the items behind it have a bracket behind them. -/
  item : ∀ {tokens tree rest}, arrangeItem fuel tokens = (tree, rest) → tree.isComplete = true →
    tokens = tree.spelled false ++ .closeArray :: rest ∧ tree.spelled true = .comma :: tree.spelled false
  /-- So have those of items. -/
  items : ∀ following {tokens tree rest}, arrangeItems fuel (.of following) tokens = (tree, rest) →
    tree.isComplete = true → tokens = tree.spelled following ++ .closeArray :: rest
  /-- Those of a member and of the members behind it have a brace behind them. -/
  member : ∀ {name tokens tree rest}, arrangeMember fuel name tokens = (tree, rest) →
    tree.isComplete = true → .string name :: tokens = tree.spelled false ++ .closeObject :: rest ∧
      tree.spelled true = .comma :: tree.spelled false
  /-- So have those of members. -/
  members : ∀ following {tokens tree rest}, arrangeMembers fuel (.of following) tokens = (tree, rest) →
    tree.isComplete = true → tokens = tree.spelled following ++ .closeObject :: rest

namespace Arranged

variable {fuel : Nat} {tokens rest : List Token}

theorem value_succ (harranged : Arranged fuel) {tree : Tree .value}
    (harrange : arrangeValue (fuel + 1) tokens = (tree, rest)) (hcomplete : tree.isComplete = true) :
    tokens = tree.spelled false ++ rest := by
  cases tokens with
  | nil =>
      obtain ⟨rfl, rfl⟩ := Prod.mk.inj harrange
      exact absurd hcomplete Bool.false_ne_true
  | cons token tokens =>
      cases token with
      | null | bool _ | number _ | string _ =>
          obtain ⟨rfl, rfl⟩ := Prod.mk.inj harrange
          rfl
      | openArray =>
          obtain ⟨rfl, rfl⟩ := Prod.mk.inj harrange
          have hitems := harranged.items false rfl hcomplete
          exact congrArg (Token.openArray :: ·) (hitems.trans (List.append_cons _ _ _))
      | openObject =>
          obtain ⟨rfl, rfl⟩ := Prod.mk.inj harrange
          have hmembers := harranged.members false rfl hcomplete
          exact congrArg (Token.openObject :: ·) (hmembers.trans (List.append_cons _ _ _))
      | closeArray | closeObject | comma | colon | tornNumber _ | torn _ =>
          obtain ⟨rfl, rfl⟩ := Prod.mk.inj harrange
          exact absurd hcomplete Bool.false_ne_true

theorem item_succ (harranged : Arranged fuel) {tree : Tree .items}
    (harrange : arrangeItem (fuel + 1) tokens = (tree, rest)) (hcomplete : tree.isComplete = true) :
    tokens = tree.spelled false ++ .closeArray :: rest ∧ tree.spelled true = .comma :: tree.spelled false := by
  rw [arrangeItem] at harrange
  obtain ⟨rfl, rfl⟩ := Prod.mk.inj harrange
  obtain ⟨hhead, htail⟩ := Bool.and_eq_true_iff.1 hcomplete
  have hvalue := harranged.value rfl hhead
  have hrest := harranged.items true rfl htail
  refine ⟨?_, rfl⟩
  rw [hrest] at hvalue
  exact hvalue.trans (List.append_assoc _ _ _).symm

theorem items_succ (harranged : Arranged fuel) (following : Bool) {tree : Tree .items}
    (harrange : arrangeItems (fuel + 1) (.of following) tokens = (tree, rest))
    (hcomplete : tree.isComplete = true) : tokens = tree.spelled following ++ .closeArray :: rest := by
  have hbehind : ∀ later, arrangeItems (fuel + 1) .later (.comma :: later) = (tree, rest) →
      .comma :: later = tree.spelled true ++ .closeArray :: rest := by
    intro later hlater
    cases later with
    | nil =>
        obtain ⟨rfl, rfl⟩ := Prod.mk.inj hlater
        exact absurd hcomplete Bool.false_ne_true
    | cons first later =>
        by_cases hclose : first = .closeArray
        · subst hclose
          obtain ⟨rfl, rfl⟩ := Prod.mk.inj hlater
          exact absurd hcomplete Bool.false_ne_true
        · rw [arrangeItems_later fuel hclose] at hlater
          obtain ⟨htokens, hcomma⟩ := harranged.item hlater hcomplete
          rw [htokens, hcomma, List.cons_append]
  cases tokens with
  | nil =>
      have hcut : arrangeItems (fuel + 1) (.of following) [] = (.itemsCut .truncated, []) := by
        cases following <;> rfl
      obtain ⟨rfl, rfl⟩ := Prod.mk.inj (hcut.symm.trans harrange)
      exact absurd hcomplete Bool.false_ne_true
  | cons token tokens =>
      cases following with
      | false =>
          by_cases hclose : token = .closeArray
          · subst hclose
            obtain ⟨rfl, rfl⟩ := Prod.mk.inj harrange
            rfl
          · exact (harranged.item ((arrangeItems_first fuel hclose tokens).symm.trans harrange) hcomplete).1
      | true =>
          cases token with
          | closeArray =>
              obtain ⟨rfl, rfl⟩ := Prod.mk.inj harrange
              rfl
          | comma => exact hbehind tokens harrange
          | null | bool _ | number _ | string _ | openArray | openObject | closeObject | colon | tornNumber _
          | torn _ =>
              obtain ⟨rfl, rfl⟩ := Prod.mk.inj harrange
              exact absurd hcomplete Bool.false_ne_true

theorem member_succ (harranged : Arranged fuel) {name : StringText} {tree : Tree .members}
    (harrange : arrangeMember (fuel + 1) name tokens = (tree, rest)) (hcomplete : tree.isComplete = true) :
    .string name :: tokens = tree.spelled false ++ .closeObject :: rest ∧
      tree.spelled true = .comma :: tree.spelled false := by
  by_cases hcolon : ∃ later, tokens = .colon :: later
  · obtain ⟨later, rfl⟩ := hcolon
    obtain ⟨rfl, rfl⟩ := Prod.mk.inj harrange
    obtain ⟨hhead, htail⟩ := Bool.and_eq_true_iff.1 hcomplete
    have hvalue := harranged.value rfl hhead
    have hrest := harranged.members true rfl htail
    refine ⟨?_, rfl⟩
    rw [hrest] at hvalue
    have hlater := hvalue.trans (List.append_assoc _ _ _).symm
    exact congrArg (fun later => Token.string name :: Token.colon :: later) hlater
  · have hmissing : arrangeMember (fuel + 1) name tokens =
        (.member name (.absent (faultAt tokens)) .noMembers, []) := by
      rw [arrangeMember]
      exact fun later hlater => hcolon ⟨later, hlater⟩
    obtain ⟨rfl, rfl⟩ := Prod.mk.inj (hmissing.symm.trans harrange)
    exact absurd hcomplete Bool.false_ne_true

theorem members_succ (harranged : Arranged fuel) (following : Bool) {tree : Tree .members}
    (harrange : arrangeMembers (fuel + 1) (.of following) tokens = (tree, rest))
    (hcomplete : tree.isComplete = true) : tokens = tree.spelled following ++ .closeObject :: rest := by
  have hbehind : ∀ later, arrangeMembers (fuel + 1) .later (.comma :: later) = (tree, rest) →
      .comma :: later = tree.spelled true ++ .closeObject :: rest := by
    intro later hlater
    by_cases hname : ∃ name behind, later = .string name :: behind
    · obtain ⟨name, behind, rfl⟩ := hname
      obtain ⟨htokens, hcomma⟩ := harranged.member hlater hcomplete
      rw [htokens, hcomma, List.cons_append]
    · have hdangling : arrangeMembers (fuel + 1) .later (.comma :: later) =
          (.membersDangling (faultAt later), []) := by
        rw [arrangeMembers]
        exact fun name behind hlater => hname ⟨name, behind, hlater⟩
      obtain ⟨rfl, rfl⟩ := Prod.mk.inj (hdangling.symm.trans hlater)
      exact absurd hcomplete Bool.false_ne_true
  cases tokens with
  | nil =>
      have hcut : arrangeMembers (fuel + 1) (.of following) [] = (.membersCut .truncated, []) := by
        cases following <;> rfl
      obtain ⟨rfl, rfl⟩ := Prod.mk.inj (hcut.symm.trans harrange)
      exact absurd hcomplete Bool.false_ne_true
  | cons token tokens =>
      cases token with
      | closeObject =>
          cases following with
          | false | true =>
              obtain ⟨rfl, rfl⟩ := Prod.mk.inj harrange
              rfl
      | string name =>
          cases following with
          | false => exact (harranged.member harrange hcomplete).1
          | true =>
              obtain ⟨rfl, rfl⟩ := Prod.mk.inj harrange
              exact absurd hcomplete Bool.false_ne_true
      | comma =>
          cases following with
          | false =>
              obtain ⟨rfl, rfl⟩ := Prod.mk.inj harrange
              exact absurd hcomplete Bool.false_ne_true
          | true => exact hbehind tokens harrange
      | null | bool _ | number _ | openArray | openObject | closeArray | colon | tornNumber _ | torn _ =>
          cases following with
          | false | true =>
              obtain ⟨rfl, rfl⟩ := Prod.mk.inj harrange
              exact absurd hcomplete Bool.false_ne_true

end Arranged

theorem arranged (fuel : Nat) : Arranged fuel := by
  induction fuel with
  | zero =>
      constructor
      all_goals
        intros
        rename_i harrange hcomplete
        obtain ⟨rfl, rfl⟩ := Prod.mk.inj harrange
        exact absurd hcomplete Bool.false_ne_true
  | succ fuel induction =>
      exact ⟨induction.value_succ, induction.item_succ, fun following => induction.items_succ following,
        induction.member_succ, fun following => induction.members_succ following⟩

theorem tokens_of_ofText {text : String} {tree : Tree .value} (hdocument : Document.ofText text = ⟨tree, false⟩)
    (hcomplete : tree.isComplete = true) : tokens text.toList = tree.spelled false := by
  rw [Document.ofText] at hdocument
  obtain ⟨hroot, htrailing⟩ := Document.mk.inj hdocument
  have hrest := of_decide_eq_false htrailing
  have htokens := (arranged _).value (Prod.ext hroot (Decidable.not_not.1 hrest)) hcomplete
  rwa [List.append_nil] at htokens

/-! ## Printed values -/

theorem isComplete_tree {layer : Layer} (json : Json layer) : (tree json).isComplete = true := by
  induction json with
  | null | bool _ | number _ | string _ | noItems | noMembers => rfl
  | array parts induction | object parts induction => exact induction
  | item value rest value_induction rest_induction | member name value rest value_induction rest_induction =>
      exact Bool.and_eq_true_iff.2 ⟨value_induction, rest_induction⟩

end LogRelay.Json
