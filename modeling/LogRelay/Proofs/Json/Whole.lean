import LogRelay.Proofs.Json.Reading

/-!
# Trees that can be read

A tree is read in full exactly if it is whole and nests no deeper than there is room: nothing in it is torn
or missing, no number is beyond all doubles, and the code units of every string make up characters. What can
be read can be skipped.
-/

namespace LogRelay.Json

/-- Whether the code units in a string make up characters. -/
def isPaired : List Glyph → Bool
  | [] => true
  | .plain _ :: rest => isPaired rest
  | .coded unit :: rest =>
      if isLowUnit unit then false
      else if isHighUnit unit then
        match rest with
        | .coded low :: later => isLowUnit low && isPaired later
        | _ => false
      else isPaired rest

theorem isOk_map {α β : Type} (attempt : Except Fault α) (change : α → β) :
    (attempt.map change).isOk = attempt.isOk := by cases attempt <;> rfl

theorem exists_of_isOk {α : Type} {attempt : Except Fault α} (hok : attempt.isOk = true) :
    ∃ value, attempt = .ok value := by
  cases attempt with
  | error fault => exact absurd hok Bool.false_ne_true
  | ok value => exact ⟨value, rfl⟩

theorem isOk_both {α β γ : Type} (first : Except Fault α) (second : Except Fault β) (join : α → β → γ) :
    (do let left ← first
        let right ← second
        return join left right).isOk = (first.isOk && second.isOk) := by
  cases first <;> cases second <;> rfl

theorem isOk_decodeGlyphs (fault : Option Fault) (glyphs : List Glyph) :
    (decodeGlyphs fault glyphs).isOk = (fault.isNone && isPaired glyphs) := by
  fun_induction isPaired glyphs with
  | case1 => cases fault <;> rfl
  | case2 char rest induction => rw [decodeGlyphs, isOk_map, induction]
  | case3 unit rest hlow =>
      rw [decodeGlyphs.eq_def]
      simp [hlow, Except.isOk, Except.toBool]
  | case4 unit hlow hhigh low later induction =>
      rw [decodeGlyphs.eq_def]
      cases hpair : isLowUnit low with
      | true => simp [hlow, hhigh, hpair, isOk_map, induction]
      | false => simp [hlow, hhigh, hpair, Except.isOk, Except.toBool]
  | case5 unit rest hlow hhigh hunpaired =>
      rw [decodeGlyphs.eq_def]
      cases rest with
      | nil => simp [hlow, hhigh, Except.isOk, Except.toBool]
      | cons glyph later =>
          cases glyph with
          | plain char => simp [hlow, hhigh, Except.isOk, Except.toBool]
          | coded low => exact absurd rfl (hunpaired low later)
  | case6 unit rest hlow hhigh induction =>
      rw [decodeGlyphs.eq_def]
      simp [hlow, hhigh, isOk_map, induction]

/-- Whether a string can be read. -/
def StringText.isWhole (spelled : StringText) : Bool := spelled.fault.isNone && isPaired spelled.glyphs

theorem StringText.isOk_decode (spelled : StringText) : spelled.decode.isOk = spelled.isWhole := by
  rw [decode, isOk_map, isOk_decodeGlyphs, isWhole]

namespace Tree

/-- Whether nothing is torn or missing in a tree, no number is beyond all doubles, and all strings can be
read. -/
def isWhole : {layer : Layer} → Tree layer → Bool
  | _, .null => true
  | _, .bool _ => true
  | _, .number spelled => spelled.number?.isSome
  | _, .string spelled => spelled.isWhole
  | _, .array items => isWhole items
  | _, .object members => isWhole members
  | _, .noItems => true
  | _, .item value rest => isWhole value && isWhole rest
  | _, .noMembers => true
  | _, .member name value rest => name.isWhole && isWhole value && isWhole rest
  | _, _ => false

/-- How deeply arrays and objects are nested. -/
def depth : {layer : Layer} → Tree layer → Nat
  | _, .array items => depth items + 1
  | _, .object members => depth members + 1
  | _, .item value rest => max (depth value) (depth rest)
  | _, .member _ value rest => max (depth value) (depth rest)
  | _, _ => 0

/-- What is whole and not nested too deeply is read. -/
theorem isOk_read {layer : Layer} (tree : Tree layer) (room : Nat) :
    (tree.read room).isOk = (tree.isWhole && decide (tree.depth ≤ room)) := by
  induction tree generalizing room with
  | null | bool value | noItems | noMembers => simp [read, isWhole, depth, Except.isOk, Except.toBool]
  | number spelled =>
      rw [read, isOk_map, NumberText.read, isWhole]
      cases spelled.number? <;> simp [depth, Except.isOk, Except.toBool]
  | string spelled =>
      rw [read, isOk_map, spelled.isOk_decode, isWhole]
      simp [depth]
  | array parts induction | object parts induction =>
      cases room with
      | zero => simp [read, depth, Except.isOk, Except.toBool]
      | succ room => simp [read, isOk_map, induction, isWhole, depth]
  | item value rest value_induction rest_induction =>
      refine (isOk_both (read room value) (read room rest) Json.item).trans ?_
      rw [value_induction, rest_induction]
      simp only [isWhole, depth, Nat.max_le, Bool.decide_and]
      ac_rfl
  | member name value rest value_induction rest_induction =>
      have hparts : ((member name value rest).read room).isOk =
          (name.decode.isOk && ((read room value).isOk && (read room rest).isOk)) := by
        rw [read]
        cases name.decode with
        | error fault => rfl
        | ok text => exact isOk_both (read room value) (read room rest) fun found later => insert text found later
      rw [hparts, name.isOk_decode, value_induction, rest_induction]
      simp only [isWhole, depth, Nat.max_le, Bool.decide_and]
      ac_rfl
  | tornNumber atEnd | torn fault | absent fault | itemsCut fault | itemsDangling fault
  | misnamed found | membersCut fault | membersDangling fault =>
      simp [read, isWhole, Except.isOk, Except.toBool]

theorem read_of_isWhole {layer : Layer} {tree : Tree layer} {room : Nat} (hwhole : tree.isWhole = true)
    (hdepth : tree.depth ≤ room) : ∃ json, tree.read room = .ok json := by
  apply exists_of_isOk
  rw [isOk_read, hwhole, decide_eq_true hdepth]
  rfl

theorem isWhole_of_read {layer : Layer} {tree : Tree layer} {room : Nat} {json : Json layer}
    (hread : tree.read room = .ok json) : tree.isWhole = true ∧ tree.depth ≤ room := by
  have hok := tree.isOk_read room
  rw [hread] at hok
  exact (Bool.and_eq_true_iff.1 hok.symm).imp_right of_decide_eq_true

/-- What is whole can be skipped. -/
theorem skip_of_isWhole {layer : Layer} {tree : Tree layer} (hwhole : tree.isWhole = true) :
    tree.skip = .ok () := by
  induction tree with
  | null | bool value | number spelled | noItems | noMembers => rfl
  | string spelled =>
      have hclosed := (Bool.and_eq_true_iff.1 hwhole).1
      rw [skip, Option.isNone_iff_eq_none.1 hclosed]
  | array parts induction | object parts induction => exact induction hwhole
  | item value rest value_induction rest_induction =>
      obtain ⟨hvalue, hrest⟩ := Bool.and_eq_true_iff.1 hwhole
      rw [skip, value_induction hvalue, rest_induction hrest]
      rfl
  | member name value rest value_induction rest_induction =>
      obtain ⟨hname, hrest⟩ := Bool.and_eq_true_iff.1 hwhole
      obtain ⟨hname, hvalue⟩ := Bool.and_eq_true_iff.1 hname
      have hclosed := Option.isNone_iff_eq_none.1 (Bool.and_eq_true_iff.1 hname).1
      rw [skip, hclosed, value_induction hvalue, rest_induction hrest]
      rfl
  | tornNumber atEnd | torn fault | absent fault | itemsCut fault | itemsDangling fault
  | misnamed found | membersCut fault | membersDangling fault => exact absurd hwhole Bool.false_ne_true

end Tree

end LogRelay.Json
