import LogRelay.Proofs.Json.Lines
import LogRelay.Proofs.Json.Printing
import LogRelay.Proofs.Text.Order

/-!
# JSON lines are single lines with canonical data

The text between the name of the data and the comma behind it is the compact text of the value that a message
spells, or of the message as a string. It depends on that value alone, so a message that is itself such a text
is repeated as it stands.
-/

namespace LogRelay

namespace Json

/-! ## The order of members -/

theorem pairwise_names : ∀ members : Json .members, members.Sorted →
    members.names.Pairwise (· < ·)
  | .noMembers, _ => by
      rw [names]
      exact .nil
  | .member name _ rest, hsorted => by
      obtain ⟨hfirst, -, hrest⟩ := hsorted
      have hlater := pairwise_names rest hrest
      rw [names]
      refine List.pairwise_cons.2 ⟨?_, hlater⟩
      cases rest with
      | noMembers => simp [names]
      | member next _ behind =>
          have hnext : name < next := hfirst next rfl
          rw [names] at hlater ⊢
          refine List.forall_mem_cons.2 ⟨hnext, fun other hother => ?_⟩
          exact lt_trans hnext ((List.pairwise_cons.1 hlater).1 other hother)

/-- The names of members as they are spelled. -/
def Tree.spelledNames : {layer : Layer} → Tree layer → List StringText
  | _, .member name _ rest => name :: spelledNames rest
  | _, _ => []

/-- Every object lists its members in the order of the bytes of their names, and no name twice. -/
def Tree.ListsInOrder : {layer : Layer} → Tree layer → Prop
  | _, .array items => ListsInOrder items
  | _, .object members =>
      (∃ names : List String, members.spelledNames.map StringText.decode = names.map .ok ∧
        (names.map Utf8.bytes).Pairwise (· < ·)) ∧ ListsInOrder members
  | _, .item value rest | _, .member _ value rest => ListsInOrder value ∧ ListsInOrder rest
  | _, _ => True

/-- A value with its members in order, and nothing behind it. -/
structure Document.InOrder (document : Document) : Prop where
  /-- Every object lists its members in order. -/
  listsInOrder : document.root.ListsInOrder
  /-- Nothing follows the value. -/
  complete : document.trailing = false

theorem spelledNames_tree : ∀ members : Json .members,
    (tree members).spelledNames = members.names.map .ofText
  | .noMembers => by
      rw [names]
      rfl
  | .member name _ rest => by
      rw [names, List.map_cons, ← spelledNames_tree rest]
      rfl

theorem listsInOrder_tree {layer : Layer} {json : Json layer} (hsorted : json.Sorted) :
    (tree json).ListsInOrder := by
  induction json with
  | array items induction => exact induction hsorted
  | object members induction =>
      refine ⟨⟨members.names, ?_, ?_⟩, induction hsorted⟩
      · rw [spelledNames_tree, List.map_map]
        exact List.map_congr_left fun name _ => decode_ofText name
      · exact List.pairwise_map.2 ((pairwise_names members hsorted).imp Utf8.bytes_lt)
  | item value rest value_induction rest_induction =>
      exact ⟨value_induction hsorted.1, rest_induction hsorted.2⟩
  | member name value rest value_induction rest_induction =>
      exact ⟨value_induction hsorted.2.1, rest_induction hsorted.2.2⟩
  | null | bool | number | string | noItems | noMembers => trivial

end Json

namespace Record

/-- The text of the value that a JSON line holds for a text. -/
def dataText (text : String) : List Char := (data text).print

theorem depth_data_le (text : String) : (data text).depth ≤ Json.depthLimit := by
  rw [data]
  split
  · next value hparse => exact Json.depth_le_of_parse hparse
  · exact Nat.zero_le _

section

variable {text : String} (hnumbers : ∀ value, Json.parse text = .ok value → value.fits = true)

include hnumbers

theorem parse_dataText : Json.parse (String.ofList (dataText text)) = .ok (data text) := by
  rw [dataText, Json.parse_print (fits_data hnumbers) (sorted_data text), if_pos (depth_data_le text)]

theorem dataText_dataText : dataText (String.ofList (dataText text)) = dataText text := by
  rw [dataText, data, parse_dataText hnumbers]
  rfl

theorem inOrder_dataText : (Json.Document.ofText (String.ofList (dataText text))).InOrder := by
  rw [dataText, Json.ofText_print (fits_data hnumbers)]
  exact ⟨Json.listsInOrder_tree (sorted_data text), rfl⟩

end

/-- What stands behind the data in a JSON line, up to the closing brace. -/
def behindData (name : String) (origin : Origin) (record : Record) : List Char :=
  Json.printFrom true
    (.member "level" (.string record.severity.name) <|
      .member "name" (.string name) <|
      .member "process" (.number (.whole origin.process)) <|
      .member "thread" (.number (.whole origin.thread)) <|
      .member "time" (.string (String.ofList record.time.jsonStamp)) .noMembers) ++ ['\x7d']

theorem behindData_text (name : String) (origin : Origin) (record : Record) (text : String) :
    behindData name origin { record with text := text } = behindData name origin record := rfl

theorem print_toJson (name : String) (origin : Origin) (record : Record) :
    (record.toJson name origin).print =
      "\x7b\"data\":".toList ++ dataText record.text ++ behindData name origin record := by
  simp only [behindData, dataText, Json.print, ← List.append_assoc]
  rfl

theorem line?_text (name : String) (origin : Origin) {record : Record}
    (htime : record.time.civil.InRange) (text : String) :
    ({ record with text := text } : Record).line? .json name origin =
      some ("\x7b\"data\":".toList ++ dataText text ++ behindData name origin record ++ ['\n']) := by
  have hline := @line?_json name origin { record with text := text } htime
  rwa [print_toJson, behindData_text] at hline

/-- A JSON line has one line feed, at its end, and no other control character. Its data is canonical: outside
strings it has plain characters only, its objects list their members in the order of the bytes of their names,
and a message that consists of the data of a line has that line. -/
theorem line_is_canonical (name : String) (origin : Origin) {record : Record}
    (htime : record.time.civil.InRange) :
    let spelled := dataText record.text
    let line := "\x7b\"data\":".toList ++ spelled ++ behindData name origin record
    record.line? .json name origin = some (line ++ ['\n']) ∧
      (∀ char ∈ line, 32 ≤ char.toNat) ∧
      (∀ char ∈ Json.unquoted spelled, Json.isPlain char = true) ∧
      ((∀ value, Json.parse record.text = .ok value → value.fits = true) →
        (Json.Document.ofText (String.ofList spelled)).InOrder ∧
          Json.parse (String.ofList spelled) = .ok (data record.text) ∧
          ({ record with text := String.ofList spelled } : Record).line? .json name origin =
            some (line ++ ['\n'])) := by
  intro spelled line
  have hprint : (record.toJson name origin).print = line := print_toJson name origin record
  refine ⟨?_, ?_, Json.isPlain_of_mem_unquoted_print (data record.text), fun hnumbers => ?_⟩
  · exact line?_text name origin htime record.text
  · rw [← hprint]
    exact Json.ge_of_mem_printFrom false (record.toJson name origin)
  · have hagain : dataText (String.ofList spelled) = spelled := dataText_dataText hnumbers
    refine ⟨inOrder_dataText hnumbers, parse_dataText hnumbers, ?_⟩
    rw [line?_text name origin htime, hagain]

theorem dataText_unordered :
    dataText unordered.text = "\x7b\"a\":null,\"b\":true\x7d".toList := by
  have hprint : ordered.print = "\x7b\"a\":null,\"b\":true\x7d".toList := by decide +kernel
  rw [dataText, data, parse_unordered, ← hprint]

/-- The members of the unordered text are put in order once and for all. -/
theorem unordered_line_is_canonical :
    let spelled := "\x7b\"a\":null,\"b\":true\x7d".toList
    let line := "\x7b\"data\":".toList ++ spelled ++ behindData "n" ⟨1, 1⟩ unordered
    unordered.line? .json "n" ⟨1, 1⟩ = some (line ++ ['\n']) ∧
      Json.unquoted spelled = "\x7b:null,:true\x7d".toList ∧
      (Json.Document.ofText (String.ofList spelled)).InOrder ∧
      Json.parse (String.ofList spelled) = .ok ordered ∧
      ({ unordered with text := String.ofList spelled } : Record).line? .json "n" ⟨1, 1⟩ =
        some (line ++ ['\n']) := by
  have hdata : data unordered.text = ordered := by rw [data, parse_unordered]
  have hnumbers : ∀ value, Json.parse unordered.text = .ok value → value.fits = true := by
    intro value hsome
    obtain rfl := Except.ok.inj (parse_unordered.symm.trans hsome)
    rfl
  obtain ⟨hline, -, -, hcanonical⟩ := @line_is_canonical "n" ⟨1, 1⟩ unordered (by decide)
  obtain ⟨horder, hparse, hagain⟩ := hcanonical hnumbers
  rw [dataText_unordered] at hline horder hparse hagain
  rw [hdata] at hparse
  exact ⟨hline, by decide +kernel, horder, hparse, hagain⟩

end Record

end LogRelay
