import LogRelay.Proofs.Config.Gathered

/-!
# Configurations that are written differently

The members of a configuration may stand in any order, with other members between them, and the text may use
any blanks and escapes: it is read as the same configuration. What a text says is what the fields gather from
its members, and this is the same for all of them.
-/

namespace LogRelay

open Json

/-! ## Members put differently -/

/-- Whether a name is that of no field, neither of a configuration nor of its sink options. -/
def IsForeign (name : String) : Prop :=
  (∀ field : ConfigField, name ≠ field.key) ∧ ∀ field : OptionField, name ≠ field.key

/-- Members that come from others by changing their order and by adding and leaving out members that are no
fields. What is added must not be nested more deeply than can be read. -/
inductive Rearranges : List (String × Json .value) → List (String × Json .value) → Prop where
  | permute {entries others : List (String × Json .value)} (hperm : entries.Perm others) :
      Rearranges entries others
  | insert {entries : List (String × Json .value)} {name : String} {json : Json .value}
      (hname : IsForeign name) (hdepth : json.depth < depthLimit) : Rearranges entries ((name, json) :: entries)
  | remove {entries : List (String × Json .value)} {name : String} {json : Json .value}
      (hname : IsForeign name) : Rearranges ((name, json) :: entries) entries
  | trans {entries between others : List (String × Json .value)} (hfirst : Rearranges entries between)
      (hsecond : Rearranges between others) : Rearranges entries others

theorem Fields.Gathers.rearranged {Field : Type} [DecidableEq Field] {fields : Fields Field}
    {settings final : Field → Option Setting} {entries others : List (String × Json .value)}
    (hforeign : ∀ name, IsForeign name → fields.ofKey? name = none)
    (hadmits : ∀ json, json.depth < depthLimit → fields.Admits json)
    (hgathers : fields.Gathers settings entries final) (hrearranges : Rearranges entries others) :
    fields.Gathers settings others final := by
  induction hrearranges with
  | permute hperm => exact hgathers.perm hperm
  | insert hname hdepth => exact .other (hforeign _ hname) (hadmits _ hdepth) hgathers
  | remove hname => exact hgathers.of_cons (hforeign _ hname)
  | trans _ _ first_induction second_induction => exact second_induction (first_induction hgathers)

theorem ConfigField.ofKey?_of_isForeign {name : String} (hname : IsForeign name) : ofKey? name = none := by
  cases hfield : ofKey? name with
  | none => rfl
  | some field => exact absurd (ofKey?_eq_some_iff.1 hfield) (hname.1 field)

theorem OptionField.ofKey?_of_isForeign {name : String} (hname : IsForeign name) : ofKey? name = none := by
  rw [ofKey?, List.find?_eq_none]
  intro field _ hkey
  exact hname.2 field (of_decide_eq_true hkey).symm

/-! ## Configurations of objects -/

/-- The configuration of the settings in drafts, open fields taking their standard values. -/
def ConfigDraft.assemble (own : ConfigDraft) (sink : OptionDraft) : LoggerConfig :=
  ⟨own.level.getD LoggerConfig.standard.level, own.format.getD LoggerConfig.standard.format,
    own.poll.getD LoggerConfig.standard.pollMillis, sink.options⟩

/-- An object is read as a configuration if both its own fields and the sink options can be read from its
members. -/
theorem LoggerConfig.ofTree_object_iff {members : Tree .members} {config : LoggerConfig} :
    LoggerConfig.ofTree (.object members) = .ok config ↔
      ∃ own sink, ConfigDraft.ofMembers .blank members = .ok own ∧
        OptionDraft.ofMembers .blank members = .ok sink ∧ config = own.assemble sink := by
  constructor
  · intro hconfig
    obtain ⟨own, hown, hconfig⟩ := bind_eq_ok hconfig
    obtain ⟨sink, hsink, hreturn⟩ := bind_eq_ok hconfig
    obtain rfl := Except.ok.inj hreturn
    obtain ⟨entries, hothers, hentries⟩ := ConfigDraft.ofEntries_eq_ofMembers hown
    rw [show own.others = entries from hothers, hentries] at hsink
    exact ⟨own, sink, hown, hsink, rfl⟩
  · rintro ⟨own, sink, hown, hsink, rfl⟩
    obtain ⟨entries, hothers, hentries⟩ := ConfigDraft.ofEntries_eq_ofMembers hown
    rw [← hentries, ← show own.others = entries from hothers] at hsink
    simp only [ofTree, hown, Except.bind, ConfigDraft.config, hsink, bind]
    rfl

/-- What is read as a configuration is whole. -/
theorem ConfigDraft.isWhole_of_ofMembers {draft final : ConfigDraft} {members : Tree .members}
    (hmembers : ofMembers draft members = .ok final) : members.isWhole = true := by
  induction draft, members using ofMembers.induct with
  | case1 draft => rfl
  | case2 draft spelled value rest field_induction other_induction =>
      obtain ⟨name, next, hname, htakes, hrest⟩ := takes_of_ofMembers hmembers
      have hspelled : spelled.isWhole = true := by
        rw [← spelled.isOk_decode, hname]
        rfl
      cases htakes with
      | field hfield hopen hassign =>
          rw [Tree.isWhole, hspelled, (of_assign hassign).2.1, field_induction next hrest]
          rfl
      | @other json hfield hread =>
          rw [Tree.isWhole, hspelled, (Tree.isWhole_of_read hread).1, other_induction name json hrest]
          rfl
  | case3 draft found | case4 draft fault | case5 draft fault => simp [ofMembers] at hmembers

/-- What members say about a configuration: its own fields and those of the sink options gather their settings
from them, and what stays open has its standard value. -/
def Describes (entries : List (String × Json .value)) (config : LoggerConfig) : Prop :=
  ∃ (own : ConfigDraft) (sink : OptionDraft),
    ConfigField.fields.Gathers ConfigDraft.blank.get entries own.get ∧
      OptionField.fields.Gathers OptionDraft.blank.get entries sink.get ∧ config = own.assemble sink

theorem Describes.rearranged {entries others : List (String × Json .value)} {config : LoggerConfig}
    (hdescribes : Describes entries config) (hrearranges : Rearranges entries others) :
    Describes others config := by
  obtain ⟨own, sink, hown, hsink, hconfig⟩ := hdescribes
  refine ⟨own, sink, ?_, ?_, hconfig⟩
  · exact hown.rearranged (fun name => ConfigField.ofKey?_of_isForeign) (fun json hdepth => hdepth) hrearranges
  · exact hsink.rearranged (fun name => OptionField.ofKey?_of_isForeign) (fun json hdepth => trivial) hrearranges

namespace LoggerConfig

variable {config : LoggerConfig}

theorem ofTree_eq_ok_iff {tree : Tree .members} {members : Json .members} (hholds : tree.Holds members) :
    ofTree (.object tree) = .ok config ↔ Describes members.entries config := by
  rw [ofTree_object_iff]
  constructor
  · rintro ⟨own, sink, hown, hsink, hconfig⟩
    exact ⟨own, sink, ConfigDraft.gathers_of_ofMembers hholds hown,
      OptionDraft.gathers_of_ofMembers hholds hsink, hconfig⟩
  · rintro ⟨own, sink, hown, hsink, rfl⟩
    obtain ⟨found, hfound, hget⟩ := ConfigDraft.ofMembers_of_gathers hholds hown
    obtain ⟨options, hoptions, hgetOptions⟩ := OptionDraft.ofMembers_of_gathers hholds hsink
    obtain rfl := OptionDraft.get_injective hgetOptions
    obtain ⟨hlevel, hformat, hpoll⟩ := ConfigDraft.eq_of_get hget
    refine ⟨found, options, hfound, hoptions, ?_⟩
    rw [ConfigDraft.assemble, ConfigDraft.assemble, hlevel, hformat, hpoll]

theorem parse_eq_ok_iff {members : Json .members} {text : String} (htext : IsText (.object members) text) :
    LoggerConfig.parse text = .ok config ↔ Describes members.entries config := by
  obtain ⟨_, hholds, hdocument⟩ := htext.document
  cases hholds with
  | object hmembers =>
      rw [LoggerConfig.parse, hdocument, Document.read_eq_ok_iff, ofTree_eq_ok_iff hmembers]
      exact and_iff_left rfl

theorem exists_object {tree : Tree .value} (hconfig : ofTree tree = .ok config) :
    ∃ members, tree = .object members ∧ members.isWhole = true := by
  cases tree with
  | object members =>
      obtain ⟨own, sink, hown, -⟩ := ofTree_object_iff.1 hconfig
      exact ⟨members, rfl, ConfigDraft.isWhole_of_ofMembers hown⟩
  | null | bool _ | number _ | tornNumber _ | string _ | torn _ | absent _ | array _ =>
      simp [ofTree] at hconfig

/-- A configuration does not depend on how its object is written down. A text that is read as a configuration
is a text of an object; and if the members of the object are put in another order, and members that are no
fields are added or left out, every text of the outcome is read as the same configuration. -/
theorem parse_rearranged {text : String} (hparse : LoggerConfig.parse text = .ok config) :
    (∃ members, IsText (.object members) text) ∧
      ∀ members others other, IsText (.object members) text →
        Rearranges members.entries others.entries → IsText (.object others) other →
          LoggerConfig.parse other = .ok config := by
  constructor
  · obtain ⟨hconfig, htrailing⟩ := Document.read_eq_ok_iff.1 hparse
    obtain ⟨tree, hroot, hwhole⟩ := exists_object hconfig
    have hdocument : Document.ofText text = ⟨.object tree, false⟩ := by rw [← htrailing, ← hroot]
    obtain ⟨json, hholds, htext⟩ := isText_of_document hdocument hwhole
    cases hholds with
    | object _ => exact ⟨_, htext⟩
  · intro members others other htext hrearranges hother
    exact (parse_eq_ok_iff hother).2 (((parse_eq_ok_iff htext).1 hparse).rearranged hrearranges)

end LoggerConfig

/-! ## An object put differently -/

/-- An object with a field of the configuration and one of the sink options. -/
def Json.plainTable : Json .members :=
  .member "format" (.string "json") <| .member "max_files" (.number (.whole 2)) .noMembers

/-- The same fields in another order, with a note between them. -/
def Json.notedTable : Json .members :=
  .member "max_files" (.number (.whole 2)) <|
    .member "note" (.array (.item .null .noItems)) <| .member "format" (.string "json") .noMembers

theorem Json.rearranges_notedTable : Rearranges plainTable.entries notedTable.entries := by
  have hforeign : IsForeign "note" :=
    ⟨fun field => by cases field <;> decide, fun field => by cases field <;> decide⟩
  have hdepth : (.array (.item .null .noItems) : Json .value).depth < depthLimit := by decide
  simp only [plainTable, notedTable, entries]
  exact .trans (.insert hforeign hdepth) (.permute (@List.perm_middle _ _ [_, _] []))

/-- A tree that holds these members, with one character of the name and one of the value of the format written
as a code unit. -/
def Json.notedTree : Tree .members :=
  .member (.ofText "max_files") (tree (.number (.whole 2))) <|
    .member (.ofText "note") (.array (.item .null .noItems)) <|
      .member ⟨.coded 'f'.toNat :: ['o', 'r', 'm', 'a', 't'].map glyph, none⟩
        (.string ⟨glyph 'j' :: .coded 's'.toNat :: ['o', 'n'].map glyph, none⟩) .noMembers

theorem Json.holds_notedTree : notedTree.Holds notedTable := by
  have hformat : Tree.Holds _ (Json.member "format" (.string "json") .noMembers) :=
    .member (.coded (makesUp_glyph _)) (.string (.plain (.coded (makesUp_glyph _)))) .noMembers
  have hnote : Tree.Holds _ (Json.array (.item .null .noItems)) := .array (.item .null .noItems)
  exact .member (makesUp_glyph _) (holds_tree (by decide)) (.member (makesUp_glyph _) hnote hformat)

/-- The same configuration, written with blanks and escapes. -/
theorem LoggerConfig.notedTable_read_alike :
    let config : LoggerConfig :=
      { standard with format := .json, sink := { SinkOptions.standard with maxFiles := 2 } }
    let text := "\x7b\"format\":\"json\",\"max_files\":2\x7d"
    let other := "\x7b \"max_files\": 2,\n\"note\": [null],\n\"\\u0066ormat\": \"j\\u0073on\" \x7d\n"
    LoggerConfig.parse text = .ok config ∧ LoggerConfig.parse other = .ok config := by
  intro config text other
  have hprint : text = String.ofList (Json.object plainTable).print := by decide +kernel
  have htext : IsText (.object plainTable) text := by
    rw [hprint]
    exact isText_print (by decide)
  have hother : IsText (.object notedTable) other :=
    isText_of_tokens (.object holds_notedTree) (by decide +kernel)
  have hparse : LoggerConfig.parse text = .ok config := by
    have hformat : ConfigField.ofKey? "format" = some .format := by decide
    have hown : ConfigDraft.ofMembers .blank (tree plainTable) =
        .ok ⟨none, some .json, none, [("max_files", .number (.whole 2))]⟩ := by
      simp only [plainTable, tree]
      rw [ConfigDraft.ofMembers_of_takes (decode_ofText _) (.field hformat rfl rfl),
        ConfigDraft.ofMembers_of_takes (decode_ofText _) (.other (by decide) rfl), ConfigDraft.ofMembers]
      rfl
    have hsink : OptionDraft.ofMembers .blank (tree plainTable) =
        .ok { OptionDraft.blank with maxFiles := some 2 } := by
      simp only [plainTable, tree]
      rw [OptionDraft.ofMembers_member (decode_ofText _) rfl]
      change OptionDraft.ofMembers .blank _ = _
      rw [OptionDraft.ofMembers_member (decode_ofText _) rfl]
      change OptionDraft.ofMembers { OptionDraft.blank with maxFiles := some 2 } _ = _
      rw [OptionDraft.ofMembers]
    have hobject := LoggerConfig.ofTree_object_iff.2 ⟨_, _, hown, hsink, rfl⟩
    rw [hprint, LoggerConfig.parse, ofText_print (by decide)]
    exact Document.read_eq_ok_iff.2 ⟨hobject, rfl⟩
  obtain ⟨-, hrearranged⟩ := LoggerConfig.parse_rearranged hparse
  exact ⟨hparse, hrearranged _ _ _ htext rearranges_notedTable hother⟩

end LogRelay
