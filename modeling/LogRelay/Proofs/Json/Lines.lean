import LogRelay.Proofs.Json.Reading
import LogRelay.Record

/-!
# JSON lines are read back

A JSON line is one object around the value that its text spells, so it nests one deeper than that value does.
Whoever reads it with the reader that looks for values in texts gets its six members, unless the value is
already nested as deeply as that reader allows.
-/

namespace LogRelay.Record

theorem sorted_data (text : String) : (data text).Sorted := by
  rw [data]
  split
  · next value hparse => exact Json.sorted_of_parse hparse
  · trivial

theorem fits_data {text : String}
    (hnumbers : ∀ value, Json.parse text = .ok value → value.fits = true) :
    (data text).fits = true := by
  rw [data]
  split
  · next value hparse => exact hnumbers value hparse
  · rfl

variable {name : String} {origin : Origin} {record : Record}

theorem sorted_toJson : (record.toJson name origin).Sorted := by
  refine ⟨?_, sorted_data record.text, ?_, trivial, ?_, trivial, ?_, trivial, ?_, trivial, ?_, trivial,
    trivial⟩
  all_goals
    intro later hlater
    simp only [Json.firstName?, Option.mem_def, Option.some.injEq, reduceCtorEq] at hlater
  all_goals
    subst hlater
    decide +kernel

theorem fits_toJson (hprocess : origin.process < 2 ^ 64) (hthread : origin.thread < 2 ^ 64)
    (hnumbers : ∀ value, Json.parse record.text = .ok value → value.fits = true) :
    (record.toJson name origin).fits = true := by
  simp only [toJson, Json.fits, fits_data hnumbers, Bool.and_true, Bool.true_and, Bool.and_eq_true,
    decide_eq_true_eq]
  omega

theorem depth_toJson : (record.toJson name origin).depth = (data record.text).depth + 1 := by
  simp [toJson, Json.depth]

theorem line?_json (htime : record.time.civil.InRange) :
    record.line? .json name origin = some ((record.toJson name origin).print ++ ['\n']) := by
  rw [line?, if_pos htime]
  rfl

theorem parse_line (hprocess : origin.process < 2 ^ 64) (hthread : origin.thread < 2 ^ 64)
    (hnumbers : ∀ value, Json.parse record.text = .ok value → value.fits = true) :
    Json.parse (String.ofList (record.toJson name origin).print) =
      if (data record.text).depth < Json.depthLimit then .ok (record.toJson name origin)
      else .error .malformed := by
  rw [Json.parse_print (fits_toJson hprocess hthread hnumbers) sorted_toJson, depth_toJson]
  rfl

/-- A JSON line without its line feed is read back as an object of six members: the name, the name of the
severity, and the value that the text spells, or the text itself if it spells none, are among them. It is
refused only if that value leaves no room for one more layer. -/
theorem line_reads_back (name : String) {origin : Origin} (hprocess : origin.process < 2 ^ 64)
    (hthread : origin.thread < 2 ^ 64) {record : Record} (htime : record.time.civil.InRange)
    (hnumbers : ∀ value, Json.parse record.text = .ok value → value.fits = true) :
    ∃ line members, record.line? .json name origin = some (line ++ ['\n']) ∧
      Json.parse (String.ofList line) =
        (if (data record.text).depth < Json.depthLimit then .ok (.object members)
          else .error .malformed) ∧
      members.names = ["data", "level", "name", "process", "thread", "time"] ∧
      (∀ value, Json.parse record.text = .ok value → members.find? "data" = some value) ∧
      (∀ fault, Json.parse record.text = .error fault →
        members.find? "data" = some (.string record.text)) ∧
      members.find? "level" = some (.string record.severity.name) ∧
      members.find? "name" = some (.string name) := by
  obtain ⟨members, hmembers⟩ : ∃ members, record.toJson name origin = .object members := ⟨_, rfl⟩
  have hdata : members.find? "data" = some (data record.text) := by
    obtain rfl := Json.object.inj hmembers
    simp [Json.find?]
  refine ⟨(record.toJson name origin).print, members, line?_json htime, ?_, ?_, ?_, ?_, ?_, ?_⟩
  · rw [parse_line hprocess hthread hnumbers, hmembers]
  · obtain rfl := Json.object.inj hmembers
    simp [Json.names]
  · intro value hvalue
    rw [hdata, data, hvalue]
  · intro fault hfault
    rw [hdata, data, hfault]
  · obtain rfl := Json.object.inj hmembers
    simp [Json.find?]
  · obtain rfl := Json.object.inj hmembers
    simp [Json.find?]

/-- A text whose members are neither in order nor all different. -/
def unordered : Record :=
  ⟨.warning, "\x7b \"b\": [1, -2], \"a\": null, \"b\": true \x7d", .ofDuration (.ofMillis 0)⟩

/-- What it spells: its members in order, the last of two that have one name being the one that counts. -/
def ordered : Json .value := .object (.member "a" .null (.member "b" (.bool true) .noMembers))

open Json in
theorem parse_unordered : Json.parse unordered.text = .ok ordered := by
  let items : Json .value := .array (.item (.number (.whole 1)) (.item (.number (.whole (-2))) .noItems))
  have hfits : items.fits = true := by decide
  have hsorted : items.Sorted := ⟨trivial, trivial, trivial⟩
  have htokens : tokens unordered.text.toList =
      .openObject :: .string (.ofText "b") :: .colon :: (spell false items ++
        [.comma, .string (.ofText "a"), .colon, .null, .comma, .string (.ofText "b"), .colon,
          .bool true, .closeObject]) := by decide +kernel
  have hdocument : Document.ofText unordered.text =
      ⟨.object (.member (.ofText "b") (tree items)
        (.member (.ofText "a") .null (.member (.ofText "b") (.bool true) .noMembers))), false⟩ := by
    rw [Document.ofText, htokens]
    rfl
  have hitems : ∀ room, (tree items).read (room + 1) = .ok items := by
    intro room
    have hdepth : items.depth ≤ room + 1 := Nat.le_add_left 1 room
    rw [read_tree hfits hsorted, if_pos hdepth]
  have hbefore : "a" < "b" := by decide +kernel
  have hbehind : ¬"b" < "a" := by decide +kernel
  have hsame : ¬"b" < "b" := by decide +kernel
  have hother : "b" ≠ "a" := by decide
  have hinsert : Json.insert "b" items (Json.insert "a" .null (Json.insert "b" (.bool true) .noMembers)) =
      .member "a" .null (.member "b" (.bool true) .noMembers) := by
    rw [Json.insert, Json.insert, if_pos hbefore, Json.insert, if_neg hbehind, if_neg hother, Json.insert,
      if_neg hsame, if_pos rfl]
  rw [parse, hdocument, Document.read, depthLimit]
  simp only [Tree.read, decode_ofText, hitems, bind, Except.bind, pure, Except.pure, Except.map, hinsert]
  rfl

/-- The line of the unordered text carries its members in order. -/
theorem unordered_line_reads_back :
    ∃ line members, unordered.line? .json "n" ⟨1, 1⟩ = some (line ++ ['\n']) ∧
      Json.parse (String.ofList line) = .ok (.object members) ∧
      members.names = ["data", "level", "name", "process", "thread", "time"] ∧
      members.find? "data" = some ordered := by
  have hdata : data unordered.text = ordered := by rw [data, parse_unordered]
  obtain ⟨line, members, hline, hread, hnames, hvalue, -⟩ := @line_reads_back "n" ⟨1, 1⟩ (by decide)
    (by decide) unordered (by decide) fun value hsome => by
      obtain rfl := Except.ok.inj (parse_unordered.symm.trans hsome)
      rfl
  rw [hdata, if_pos (by decide)] at hread
  exact ⟨line, members, hline, hread, hnames, hvalue _ parse_unordered⟩

/-! ## Arrays in arrays -/

/-- Arrays in arrays, so many around the innermost one. -/
def nested : Nat → Json .value
  | 0 => .array .noItems
  | depth + 1 => .array (.item (nested depth) .noItems)

theorem print_nested (depth : Nat) :
    (nested depth).print = List.replicate (depth + 1) '[' ++ List.replicate (depth + 1) ']' := by
  rw [Json.print]
  induction depth with
  | zero => rfl
  | succ depth induction =>
      have hinner : Json.printFrom false (nested (depth + 1)) =
          '[' :: ([] ++ Json.printFrom false (nested depth) ++ []) ++ [']'] := rfl
      rw [hinner, induction, @List.replicate_succ _ '[' (depth + 1),
        @List.replicate_succ' (depth + 1) _ ']']
      simp

theorem fits_nested (depth : Nat) : (nested depth).fits = true := by
  induction depth with
  | zero => rfl
  | succ depth induction => simp [nested, Json.fits, induction]

theorem sorted_nested (depth : Nat) : (nested depth).Sorted := by
  induction depth with
  | zero => trivial
  | succ depth induction => exact ⟨induction, trivial⟩

theorem depth_nested (depth : Nat) : (nested depth).depth = depth + 1 := by
  induction depth with
  | zero => rfl
  | succ depth induction => simp [nested, Json.depth, induction]

theorem parse_nested {depth : Nat} (hdepth : depth < Json.depthLimit) :
    Json.parse (String.ofList (List.replicate (depth + 1) '[' ++ List.replicate (depth + 1) ']')) =
      .ok (nested depth) := by
  rw [← print_nested, Json.parse_print (fits_nested depth) (sorted_nested depth), depth_nested,
    if_pos (Nat.succ_le_of_lt hdepth)]

theorem parse_line_of_full {value : Json .value} (hprocess : origin.process < 2 ^ 64)
    (hthread : origin.thread < 2 ^ 64) (hparse : Json.parse record.text = .ok value)
    (hfits : value.fits = true) (hfull : Json.depthLimit ≤ value.depth) :
    Json.parse (String.ofList (record.toJson name origin).print) = .error .malformed := by
  have hdata : data record.text = value := by rw [data, hparse]
  rw [parse_line hprocess hthread, hdata, if_neg (Nat.not_lt.mpr hfull)]
  intro other hother
  obtain rfl := Except.ok.inj (hparse.symm.trans hother)
  exact hfits

/-- A text of as many arrays as the reader allows has a line that it refuses. -/
theorem nested_line_is_refused :
    let text := String.ofList (List.replicate 127 '[' ++ List.replicate 127 ']')
    let record : Record := ⟨.info, text, .ofDuration (.ofMillis 0)⟩
    let line := (record.toJson "n" ⟨1, 1⟩).print
    record.line? .json "n" ⟨1, 1⟩ = some (line ++ ['\n']) ∧
      Json.parse text = .ok (nested 126) ∧ (nested 126).fits = true ∧
      Json.parse (String.ofList line) = .error .malformed := by
  intro text record line
  have htext : Json.parse text = .ok (nested 126) := parse_nested (by decide)
  have hfull : Json.depthLimit ≤ (nested 126).depth := by
    rw [depth_nested]
    decide
  exact ⟨line?_json (by decide), htext, fits_nested 126,
    parse_line_of_full (by decide) (by decide) htext (fits_nested 126) hfull⟩

end LogRelay.Record
