import LogRelay.Proofs.Json.Arranging
import Mathlib.Data.String.Basic

/-!
# Reading printed values back

Values that are read have their members in the order of their names. A value with its members in order and
with whole numbers only is read back as it was printed if it is not nested too deeply, and refused otherwise.
-/

namespace LogRelay.Json

/-! ## Strings and numbers -/

theorem decodeGlyphs_of_makesUp {glyphs : List Glyph} {chars : List Char} (hmakes : MakesUp glyphs chars) :
    decodeGlyphs none glyphs = .ok chars := by
  induction hmakes with
  | nil => rfl
  | plain _ induction =>
      rw [decodeGlyphs, induction]
      rfl
  | @coded char glyphs chars _ induction =>
      have hvalid := char.valid
      simp only [UInt32.isValidChar, Nat.isValidChar] at hvalid
      have hlow : isLowUnit char.toNat = false := by
        simp only [isLowUnit, Bool.and_eq_false_iff, decide_eq_false_iff_not, Char.toNat]
        omega
      have hhigh : isHighUnit char.toNat = false := by
        simp only [isHighUnit, Bool.and_eq_false_iff, decide_eq_false_iff_not, Char.toNat]
        omega
      rw [decodeGlyphs.eq_def]
      simp only [hlow, hhigh, Bool.false_eq_true, if_false, induction, Char.ofNat_toNat]
      rfl
  | @pair char high low glyphs chars hhigh hlow hchar _ induction =>
      have hfirst : isLowUnit (0xd800 + high) = false := by
        simp only [isLowUnit, Bool.and_eq_false_iff, decide_eq_false_iff_not]
        omega
      have hbegins : isHighUnit (0xd800 + high) = true := by
        simp only [isHighUnit, Bool.and_eq_true, decide_eq_true_eq]
        omega
      have hends : isLowUnit (0xdc00 + low) = true := by
        simp only [isLowUnit, Bool.and_eq_true, decide_eq_true_eq]
        omega
      have hjoin : joinUnits (0xd800 + high) (0xdc00 + low) = char := by
        rw [joinUnits, Nat.add_sub_cancel_left, Nat.add_sub_cancel_left, ← hchar, Char.ofNat_toNat]
      rw [decodeGlyphs.eq_def]
      simp only [hfirst, hbegins, hends, hjoin, Bool.false_eq_true, if_false, if_true, induction]
      rfl

theorem decode_of_makesUp {glyphs : List Glyph} {text : String} (hmakes : MakesUp glyphs text.toList) :
    StringText.decode ⟨glyphs, none⟩ = .ok text := by
  rw [StringText.decode, decodeGlyphs_of_makesUp hmakes]
  exact congrArg Except.ok String.ofList_toList

theorem makesUp_glyph (chars : List Char) : MakesUp (chars.map glyph) chars := by
  induction chars with
  | nil => exact .nil
  | cons char chars induction =>
      rw [List.map_cons, glyph]
      split
      · exact .plain induction
      · split
        · exact .coded induction
        · exact .plain induction

theorem decode_ofText (text : String) : (StringText.ofText text).decode = .ok text :=
  decode_of_makesUp (makesUp_glyph _)

theorem number?_ofNumber {value : Number} (hfits : fits (.number value) = true) :
    (NumberText.ofNumber value).number? = some value := by
  cases value with
  | double bits => exact absurd hfits Bool.false_ne_true
  | whole value =>
      simp only [fits, Bool.and_eq_true, decide_eq_true_eq] at hfits
      have hword : value.natAbs < 1 <<< 64 := by omega
      simp only [NumberText.ofNumber, NumberText.number?, Digits.toNat_decimal, true_and, hword,
        if_true, decide_eq_true_eq]
      split
      · have hsize : 0 < value.natAbs ∧ value.natAbs ≤ 1 <<< 63 := by omega
        rw [if_pos hsize]
        exact congrArg (some ∘ Number.whole) (by omega)
      · exact congrArg (some ∘ Number.whole) (by omega)

theorem read_ofNumber {value : Number} (hfits : fits (.number value) = true) :
    (NumberText.ofNumber value).read = .ok value := by
  rw [NumberText.read, number?_ofNumber hfits]

/-! ## Order and depth -/

/-- The name of the first member, if there is one. -/
def firstName? : {layer : Layer} → Json layer → Option String
  | _, .member name _ _ => some name
  | _, _ => none

/-- All members stand in the order of their names, and no name stands twice. -/
def Sorted : {layer : Layer} → Json layer → Prop
  | _, .array items => Sorted items
  | _, .object members => Sorted members
  | _, .item value rest => Sorted value ∧ Sorted rest
  | _, .member name value rest =>
      (∀ later ∈ firstName? rest, name < later) ∧ Sorted value ∧ Sorted rest
  | _, _ => True

/-- How many arrays and objects are nested. -/
def depth : {layer : Layer} → Json layer → Nat
  | _, .array items => depth items + 1
  | _, .object members => depth members + 1
  | _, .item value rest | _, .member _ value rest => max (depth value) (depth rest)
  | _, _ => 0

theorem firstName?_insert {layer : Layer} (name : String) (value : Json .value) (json : Json layer) :
    ∀ later ∈ firstName? (insert name value json), later = name ∨ later ∈ firstName? json := by
  cases json with
  | noMembers => simp [insert, firstName?]
  | member other found rest =>
      intro later hlater
      rw [insert] at hlater
      split at hlater
      · exact .inl (Option.some.inj hlater).symm
      · split at hlater <;> exact .inr hlater
  | _ => exact fun later hlater => .inr hlater

theorem sorted_insert {layer : Layer} (name : String) {value : Json .value} (hvalue : value.Sorted)
    {json : Json layer} (hjson : json.Sorted) : (insert name value json).Sorted := by
  induction json with
  | noMembers => exact ⟨fun later hlater => absurd hlater (by simp [firstName?]), hvalue, trivial⟩
  | member other found rest _ induction =>
      obtain ⟨hfirst, hfound, hrest⟩ := hjson
      rw [insert]
      split
      · next hlt =>
        refine ⟨?_, hvalue, hfirst, hfound, hrest⟩
        intro later hlater
        rwa [← Option.some.inj hlater]
      · next hle =>
        split
        · exact ⟨hfirst, hfound, hrest⟩
        · next hne =>
          refine ⟨?_, hfound, induction hrest⟩
          intro later hlater
          rcases firstName?_insert name value rest later hlater with rfl | hold
          · exact lt_of_le_of_ne (not_lt.1 hle) (Ne.symm hne)
          · exact hfirst later hold
  | _ => exact hjson

theorem insert_of_lt {name : String} {rest : Json .members}
    (hfirst : ∀ later ∈ firstName? rest, name < later) (value : Json .value) :
    insert name value rest = .member name value rest := by
  cases rest with
  | noMembers => rfl
  | member other found rest =>
      have hlt : name < other := hfirst other rfl
      rw [insert, if_pos hlt]

theorem map_eq_ok {α β : Type} {attempt : Except Fault α} {change : α → β} {result : β}
    (hdone : attempt.map change = .ok result) :
    ∃ value, attempt = .ok value ∧ result = change value := by
  cases attempt with
  | error fault => exact absurd hdone (by simp [Except.map])
  | ok value => exact ⟨value, rfl, (Except.ok.inj hdone).symm⟩

theorem bind_eq_ok {α β : Type} {attempt : Except Fault α} {next : α → Except Fault β} {result : β}
    (hdone : attempt >>= next = .ok result) : ∃ value, attempt = .ok value ∧ next value = .ok result := by
  cases attempt with
  | error fault => exact absurd hdone (by simp [bind, Except.bind])
  | ok value => exact ⟨value, rfl, hdone⟩

theorem depth_insert_le {layer : Layer} (name : String) (value : Json .value) (json : Json layer) :
    (insert name value json).depth ≤ max value.depth json.depth := by
  induction json with
  | noMembers => exact Nat.le_refl _
  | member other found rest _ induction =>
      rw [insert]
      split
      · exact Nat.le_refl _
      · split
        · exact Nat.le_max_right _ _
        · simp only [depth]
          omega
  | _ => exact Nat.le_max_right _ _

/-- What is read has its members in order and nests no deeper than there is room. -/
theorem sorted_and_depth_le_of_read {layer : Layer} {tree : Tree layer} {room : Nat} {json : Json layer}
    (hread : tree.read room = .ok json) : json.Sorted ∧ json.depth ≤ room := by
  induction tree generalizing room with
  | null | bool value | noItems | noMembers =>
      obtain rfl := Except.ok.inj hread
      exact ⟨trivial, Nat.zero_le _⟩
  | number spelled | string spelled =>
      rw [Tree.read] at hread
      obtain ⟨value, -, rfl⟩ := map_eq_ok hread
      exact ⟨trivial, Nat.zero_le _⟩
  | array parts induction | object parts induction =>
      cases room with
      | zero => simp [Tree.read] at hread
      | succ room =>
          rw [Tree.read] at hread
          obtain ⟨found, hfound, rfl⟩ := map_eq_ok hread
          obtain ⟨hsorted, hdepth⟩ := induction hfound
          exact ⟨hsorted, Nat.succ_le_succ hdepth⟩
  | item value rest value_induction rest_induction =>
      rw [Tree.read] at hread
      obtain ⟨found, hfound, hread⟩ := bind_eq_ok hread
      obtain ⟨later, hlater, hread⟩ := bind_eq_ok hread
      obtain rfl := Except.ok.inj hread
      obtain ⟨hvalueSorted, hvalueDepth⟩ := value_induction hfound
      obtain ⟨hrestSorted, hrestDepth⟩ := rest_induction hlater
      exact ⟨⟨hvalueSorted, hrestSorted⟩, Nat.max_le.2 ⟨hvalueDepth, hrestDepth⟩⟩
  | member name value rest value_induction rest_induction =>
      rw [Tree.read] at hread
      obtain ⟨text, -, hread⟩ := bind_eq_ok hread
      obtain ⟨found, hfound, hread⟩ := bind_eq_ok hread
      obtain ⟨later, hlater, hread⟩ := bind_eq_ok hread
      obtain rfl := Except.ok.inj hread
      obtain ⟨hvalueSorted, hvalueDepth⟩ := value_induction hfound
      obtain ⟨hrestSorted, hrestDepth⟩ := rest_induction hlater
      exact ⟨sorted_insert text hvalueSorted hrestSorted,
        Nat.le_trans (depth_insert_le text found later) (Nat.max_le.2 ⟨hvalueDepth, hrestDepth⟩)⟩
  | tornNumber atEnd | torn fault | absent fault | itemsCut fault | itemsDangling fault
  | misnamed found | membersCut fault | membersDangling fault => simp [Tree.read] at hread

/-- A printed value is read back, if there is room for it. -/
theorem read_tree {layer : Layer} {json : Json layer} (hfits : json.fits = true)
    (hsorted : json.Sorted) (room : Nat) :
    (tree json).read room = if json.depth ≤ room then .ok json else .error .malformed := by
  induction json generalizing room with
  | null | bool value | noItems | noMembers => rfl
  | number value =>
      rw [tree, Tree.read, read_ofNumber hfits]
      rfl
  | string text =>
      rw [tree, Tree.read, decode_ofText]
      rfl
  | array parts induction | object parts induction =>
      cases room with
      | zero => rfl
      | succ room =>
          rw [tree, Tree.read, induction hfits hsorted, depth]
          by_cases hdepth : parts.depth ≤ room <;> simp [hdepth, Except.map]
  | item value rest value_induction rest_induction =>
      obtain ⟨hvalue, hrest⟩ := Bool.and_eq_true_iff.1 hfits
      rw [tree, Tree.read, value_induction hvalue hsorted.1, rest_induction hrest hsorted.2, depth]
      by_cases hfirst : value.depth ≤ room <;> by_cases hlater : rest.depth ≤ room <;>
        simp [hfirst, hlater, bind, Except.bind, pure, Except.pure]
  | member name value rest value_induction rest_induction =>
      obtain ⟨hvalue, hrest⟩ := Bool.and_eq_true_iff.1 hfits
      obtain ⟨hname, hvalueSorted, hrestSorted⟩ := hsorted
      rw [tree, Tree.read, decode_ofText, value_induction hvalue hvalueSorted,
        rest_induction hrest hrestSorted, depth]
      by_cases hfirst : value.depth ≤ room <;> by_cases hlater : rest.depth ≤ room <;>
        simp [hfirst, hlater, insert_of_lt hname, bind, Except.bind, pure, Except.pure]

theorem ofText_print {json : Json .value} (hfits : json.fits = true) :
    Document.ofText (String.ofList json.print) = ⟨tree json, false⟩ := by
  have htokens : tokens json.print = spell false json := by
    have hprinted := tokens_printFrom false json hfits stopsNumber_nil
    rwa [List.append_nil, tokens_nil, List.append_nil] at hprinted
  refine ofText_of_tokens (isComplete_tree json) ?_
  rw [String.toList_ofList, htokens, spelled_tree]

theorem parse_print {json : Json .value} (hfits : json.fits = true) (hsorted : json.Sorted) :
    parse (String.ofList json.print) =
      if json.depth ≤ depthLimit then .ok json else .error .malformed := by
  rw [parse, ofText_print hfits, Document.read, read_tree hfits hsorted]
  by_cases hdepth : json.depth ≤ depthLimit <;> simp [hdepth]

theorem read_of_parse {text : String} {value : Json .value} (hparse : parse text = .ok value) :
    (Document.ofText text).root.read depthLimit = .ok value := by
  rw [parse, Document.read] at hparse
  split at hparse
  · next found hread =>
    split at hparse
    · exact absurd hparse (by simp)
    · obtain rfl := Except.ok.inj hparse
      exact hread
  · exact absurd hparse (by simp)

theorem sorted_of_parse {text : String} {value : Json .value} (hparse : parse text = .ok value) :
    value.Sorted := (sorted_and_depth_le_of_read (read_of_parse hparse)).1

theorem depth_le_of_parse {text : String} {value : Json .value} (hparse : parse text = .ok value) :
    value.depth ≤ depthLimit := (sorted_and_depth_le_of_read (read_of_parse hparse)).2

end LogRelay.Json
