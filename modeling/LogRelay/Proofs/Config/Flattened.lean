import LogRelay.Config.Reader
import LogRelay.Proofs.Json.Whole

/-!
# Sink options inside a configuration

A configuration reads the members it does not know in full and looks for the sink options among them at the
end; sink options alone are read member by member, and what they do not know is skipped. Both find the same
options, as a value that can be read in full gives the same readings before and after, and as no field of the
configuration is a field of the options.
-/

namespace LogRelay

open Json

/-! ## Values -/

/-- A value that is read in full has the same readings before and after. -/
theorem Json.Tree.reading_of_read {tree : Tree .value} {room : Nat} {json : Json .value}
    (hread : tree.read room = .ok json) : tree.reading = json.reading := by
  cases tree with
  | null | bool _ =>
      obtain rfl := Except.ok.inj hread
      rfl
  | number spelled =>
      rw [Tree.read] at hread
      obtain ⟨value, hvalue, rfl⟩ := map_eq_ok hread
      simp only [Tree.reading, Json.reading, Tree.unexpected, hvalue]
      rfl
  | string spelled =>
      rw [Tree.read] at hread
      obtain ⟨text, htext, rfl⟩ := map_eq_ok hread
      simp only [Tree.reading, Json.reading, Tree.unexpected, htext]
  | array parts | object parts =>
      cases room with
      | zero => simp [Tree.read] at hread
      | succ room =>
          rw [Tree.read] at hread
          obtain ⟨found, -, rfl⟩ := map_eq_ok hread
          rfl
  | tornNumber _ | torn _ | absent _ => simp [Tree.read] at hread

theorem Json.Tree.isWhole_of_text {tree : Tree .value} {text : String}
    (htext : tree.reading.text = .ok text) : tree.isWhole = true := by
  cases tree with
  | string spelled =>
      have hdecode : spelled.decode = .ok text := htext
      rw [isWhole, ← spelled.isOk_decode, hdecode]
      rfl
  | null | bool _ | number _ | tornNumber _ | torn _ | absent _ | array _ | object _ =>
      simp [reading] at htext

theorem Json.Tree.isWhole_of_count {tree : Tree .value} {count : Nat}
    (hcount : tree.reading.count = .ok count) : tree.isWhole = true := by
  cases tree with
  | number spelled =>
      obtain ⟨value, hread, -⟩ := bind_eq_ok hcount
      rw [NumberText.read] at hread
      rw [isWhole]
      cases hvalue : spelled.number? with
      | some value => rfl
      | none => simp [hvalue] at hread
  | null | bool _ | string _ | tornNumber _ | torn _ | absent _ | array _ | object _ =>
      simp [reading] at hcount

theorem LogFormat.isWhole_of_named {name : StringText} {format : LogFormat}
    (hnamed : LogFormat.named name = .ok format) : name.isWhole = true := by
  obtain ⟨text, htext, -⟩ := bind_eq_ok hnamed
  rw [← name.isOk_decode, htext]
  rfl

/-- A value that is a format is whole. -/
theorem LogFormat.isWhole_of_ofTree {tree : Tree .value} {format : LogFormat}
    (hformat : LogFormat.ofTree tree = .ok format) : tree.isWhole = true := by
  cases tree with
  | string name => exact isWhole_of_named hformat
  | object members =>
      cases members with
      | member name value rest =>
          obtain ⟨found, hnamed, hparts⟩ := bind_eq_ok hformat
          have hname := isWhole_of_named hnamed
          cases value with
          | null =>
              cases rest with
              | noMembers => simp [Tree.isWhole, hname]
              | member _ _ _ | misnamed _ | membersCut _ | membersDangling _ => simp at hparts
          | bool _ | number _ | tornNumber _ | string _ | torn _ | absent _ | array _ | object _ =>
              simp at hparts
      | noMembers | misnamed _ | membersCut _ | membersDangling _ => simp [ofTree] at hformat
  | null | bool _ | number _ | tornNumber _ | torn _ | absent _ | array _ => simp [ofTree] at hformat

/-! ## Fields -/

namespace ConfigField

/-- Whether a value can be the value of a field. -/
def accepts (value : Tree .value) : ConfigField → Bool
  | level => value.reading.text.isOk
  | format => (LogFormat.ofTree value).isOk
  | poll => value.reading.count.isOk

theorem ofKey?_eq_some_iff {text : String} {field : ConfigField} :
    ofKey? text = some field ↔ text = field.key := by
  constructor
  · intro hfound
    have hkey := List.find?_some hfound
    exact (of_decide_eq_true hkey).symm
  · rintro rfl
    cases field <;> decide

theorem optionField_ofKey? {text : String} {field : ConfigField} (hfield : ofKey? text = some field) :
    OptionField.ofKey? text = none := by
  obtain rfl := ofKey?_eq_some_iff.1 hfield
  cases field <;> decide

end ConfigField

namespace ConfigDraft

variable {draft next final : ConfigDraft} {field : ConfigField} {value : Tree .value}

theorem of_assign (hassign : draft.assign field value = .ok next) :
    next.others = draft.others ∧ value.isWhole = true ∧
      ∀ other, next.has other = (draft.has other || decide (other = field)) := by
  cases field with
  | level =>
      obtain ⟨text, htext, rfl⟩ := map_eq_ok hassign
      exact ⟨rfl, Tree.isWhole_of_text htext, fun other => by cases other <;> simp [has]⟩
  | format =>
      obtain ⟨format, hformat, rfl⟩ := map_eq_ok hassign
      exact ⟨rfl, LogFormat.isWhole_of_ofTree hformat, fun other => by cases other <;> simp [has]⟩
  | poll =>
      obtain ⟨count, hcount, rfl⟩ := map_eq_ok hassign
      exact ⟨rfl, Tree.isWhole_of_count hcount, fun other => by cases other <;> simp [has]⟩

theorem assign_of_accepts (haccepts : field.accepts value = true) (draft : ConfigDraft) :
    ∃ next, draft.assign field value = .ok next := by
  apply exists_of_isOk
  cases field <;> rw [assign, isOk_map] <;> exact haccepts

/-- What becomes of a configuration that takes a member. -/
inductive Takes (draft : ConfigDraft) (name : String) (value : Tree .value) : ConfigDraft → Prop where
  /-- A field that is open gets its value. -/
  | field {field : ConfigField} {next : ConfigDraft} (hfield : ConfigField.ofKey? name = some field)
      (hopen : draft.has field = false) (hassign : draft.assign field value = .ok next) :
      Takes draft name value next
  /-- Another member is read in full and kept. -/
  | other {json : Json .value} (hfield : ConfigField.ofKey? name = none)
      (hread : value.read (depthLimit - 1) = .ok json) :
      Takes draft name value { draft with others := draft.others ++ [(name, json)] }

variable {spelled : StringText} {name : String} {rest : Tree .members}

theorem ofMembers_of_takes (hname : spelled.decode = .ok name) (htakes : Takes draft name value next) :
    ofMembers draft (.member spelled value rest) = ofMembers next rest := by
  rw [ofMembers, hname]
  cases htakes with
  | field hfield hopen hassign => simp [bind, Except.bind, hfield, hopen, hassign]
  | other hfield hread => simp [bind, Except.bind, hfield, hread]

theorem takes_of_ofMembers (hmembers : ofMembers draft (.member spelled value rest) = .ok final) :
    ∃ name next, spelled.decode = .ok name ∧ Takes draft name value next ∧
      ofMembers next rest = .ok final := by
  rw [ofMembers] at hmembers
  obtain ⟨name, hname, hmembers⟩ := bind_eq_ok hmembers
  cases hfield : ConfigField.ofKey? name with
  | some field =>
      simp only [hfield] at hmembers
      split at hmembers
      · exact absurd hmembers (by simp)
      · next hopen =>
        obtain ⟨next, hassign, hrest⟩ := bind_eq_ok hmembers
        exact ⟨name, next, hname, .field hfield (Bool.eq_false_of_not_eq_true hopen) hassign, hrest⟩
  | none =>
      simp only [hfield] at hmembers
      obtain ⟨json, hread, hrest⟩ := bind_eq_ok hmembers
      exact ⟨name, _, hname, .other hfield hread, hrest⟩

end ConfigDraft

namespace OptionDraft

variable {draft final : OptionDraft} {value : Tree .value} {spelled : StringText} {name : String}
  {rest : Tree .members}

theorem ofMembers_member (hname : spelled.decode = .ok name) (hskip : value.skip = .ok ()) :
    ofMembers draft (.member spelled value rest) =
      match OptionField.ofKey? name with
      | some field => draft.assignOnce field value.reading >>= fun next => ofMembers next rest
      | none => ofMembers draft rest := by
  rw [ofMembers, hname]
  cases hfield : OptionField.ofKey? name with
  | some field => simp [bind, Except.bind, hfield]
  | none => simp [bind, Except.bind, hfield, hskip]

theorem of_ofMembers (hmembers : ofMembers draft (.member spelled value rest) = .ok final) :
    ∃ name next, spelled.decode = .ok name ∧ ofMembers next rest = .ok final := by
  rw [ofMembers] at hmembers
  obtain ⟨name, hname, hmembers⟩ := bind_eq_ok hmembers
  cases hfield : OptionField.ofKey? name with
  | some field =>
      simp only [hfield] at hmembers
      obtain ⟨next, -, hrest⟩ := bind_eq_ok hmembers
      exact ⟨name, next, hname, hrest⟩
  | none =>
      simp only [hfield] at hmembers
      obtain ⟨_, -, hrest⟩ := bind_eq_ok hmembers
      exact ⟨name, draft, hname, hrest⟩

end OptionDraft

/-! ## Objects -/

/-- The members that a configuration keeps are picked from as the members themselves are. -/
theorem ConfigDraft.ofEntries_eq_ofMembers {draft final : ConfigDraft} {members : Tree .members}
    (hmembers : ofMembers draft members = .ok final) :
    ∃ entries, final.others = draft.others ++ entries ∧
      ∀ options, OptionDraft.ofEntries options entries = OptionDraft.ofMembers options members := by
  induction draft, members using ofMembers.induct with
  | case1 draft =>
      rw [ofMembers] at hmembers
      obtain rfl := Except.ok.inj hmembers
      refine ⟨[], (List.append_nil _).symm, fun options => ?_⟩
      rw [OptionDraft.ofEntries, OptionDraft.ofMembers]
  | case2 draft spelled value rest field_induction other_induction =>
      obtain ⟨name, next, hname, htakes, hrest⟩ := takes_of_ofMembers hmembers
      cases htakes with
      | field hfield hopen hassign =>
          obtain ⟨hothers, hwhole, -⟩ := of_assign hassign
          obtain ⟨entries, hfinal, hentries⟩ := field_induction next hrest
          refine ⟨entries, hothers ▸ hfinal, fun options => ?_⟩
          rw [hentries, OptionDraft.ofMembers_member hname (Tree.skip_of_isWhole hwhole),
            ConfigField.optionField_ofKey? hfield]
      | @other json hfield hread =>
          have hskip := Tree.skip_of_isWhole (Tree.isWhole_of_read hread).1
          obtain ⟨entries, hfinal, hentries⟩ := other_induction name json hrest
          refine ⟨(name, json) :: entries, by simpa using hfinal, fun options => ?_⟩
          rw [OptionDraft.ofMembers_member hname hskip, Tree.reading_of_read hread]
          cases hoption : OptionField.ofKey? name with
          | some option => simp [OptionDraft.ofEntries, hoption, hentries]
          | none => simp [OptionDraft.ofEntries, hoption, hentries]
  | case3 draft found | case4 draft fault | case5 draft fault => simp [ofMembers] at hmembers

/-- The members with their names, as far as these can be read. -/
def Json.Tree.entries : Tree .members → List (String × Tree .value)
  | .member spelled value rest =>
      match spelled.decode with
      | .ok name => (name, value) :: entries rest
      | .error _ => entries rest
  | _ => []

/-- Each field of a configuration has at most one member, with a value that it accepts, and the values of
all other members are whole and, with the object around them, not nested too deeply. -/
structure Json.Tree.SuitsConfig (members : Tree .members) : Prop where
  /-- No field is repeated. -/
  once : ∀ field : ConfigField, members.entries.countP (fun entry => entry.1 = field.key) ≤ 1
  /-- Fields have values of their kind. -/
  accepted : ∀ (field : ConfigField) (value : Tree .value),
    (field.key, value) ∈ members.entries → field.accepts value = true
  /-- All other members can be read in full. -/
  whole : ∀ entry ∈ members.entries, ConfigField.ofKey? entry.1 = none →
    entry.2.isWhole = true ∧ entry.2.depth < depthLimit

theorem Json.Tree.SuitsConfig.of_member {spelled : StringText} {name : String} {value : Tree .value}
    {rest : Tree .members} (hname : spelled.decode = .ok name)
    (hsuits : (Tree.member spelled value rest).SuitsConfig) : rest.SuitsConfig := by
  have hentries : (Tree.member spelled value rest).entries = (name, value) :: rest.entries := by
    rw [Tree.entries, hname]
  have hbehind : ∀ entry ∈ rest.entries, entry ∈ (Tree.member spelled value rest).entries := by
    intro entry hmem
    rw [hentries]
    exact .tail _ hmem
  refine ⟨fun field => ?_, fun field value hmem => hsuits.accepted field value (hbehind _ hmem),
    fun entry hmem => hsuits.whole entry (hbehind _ hmem)⟩
  have hcount := hsuits.once field
  rw [hentries, List.countP_cons] at hcount
  omega

/-- A configuration takes all members that suit it and that sink options take. -/
theorem ConfigDraft.ofMembers_of_suits {options found : OptionDraft} {draft : ConfigDraft}
    {members : Tree .members} (hoptions : OptionDraft.ofMembers options members = .ok found)
    (honce : ∀ field, (draft.has field).toNat +
      members.entries.countP (fun entry => entry.1 = field.key) ≤ 1)
    (hsuits : members.SuitsConfig) : ∃ final, ofMembers draft members = .ok final := by
  induction draft, members using ofMembers.induct generalizing options with
  | case1 draft => exact ⟨draft, by rw [ofMembers]⟩
  | case2 draft spelled value rest field_induction other_induction =>
      obtain ⟨name, later, hname, hlater⟩ := OptionDraft.of_ofMembers hoptions
      have hentries : (Tree.member spelled value rest).entries = (name, value) :: rest.entries := by
        rw [Tree.entries, hname]
      have hrest := hsuits.of_member hname
      obtain ⟨-, haccepted, hwhole⟩ := hsuits
      rw [hentries] at honce haccepted hwhole
      cases hfield : ConfigField.ofKey? name with
      | none =>
          obtain ⟨hvalue, hdepth⟩ := hwhole _ List.mem_cons_self hfield
          obtain ⟨json, hread⟩ := Tree.read_of_isWhole hvalue (Nat.le_sub_one_of_lt hdepth)
          rw [ofMembers_of_takes hname (.other hfield hread)]
          refine other_induction name json hlater (fun field => ?_) hrest
          have hcount := honce field
          rw [List.countP_cons] at hcount
          cases field <;> simp only [has] at hcount ⊢ <;> omega
      | some field =>
          have hkey : name = field.key := ConfigField.ofKey?_eq_some_iff.1 hfield
          have hcount := honce field
          simp only [List.countP_cons, hkey, decide_true, if_true] at hcount
          have hopen : draft.has field = false := by
            cases hhas : draft.has field with
            | false => rfl
            | true =>
                rw [hhas, Bool.toNat_true] at hcount
                omega
          obtain ⟨next, hassign⟩ :=
            assign_of_accepts (haccepted field value (hkey ▸ List.mem_cons_self)) draft
          obtain ⟨-, -, hhas⟩ := of_assign hassign
          rw [ofMembers_of_takes hname (.field hfield hopen hassign)]
          refine field_induction next hlater (fun other => ?_) hrest
          rw [hhas]
          by_cases hother : other = field
          · subst hother
            have hle := Bool.toNat_le (draft.has other || decide (other = other))
            omega
          · have hcountOther := honce other
            rw [List.countP_cons] at hcountOther
            rw [decide_eq_false hother, Bool.or_false]
            omega
  | case3 draft found | case4 draft fault | case5 draft fault =>
      simp [OptionDraft.ofMembers] at hoptions

theorem Json.Document.read_eq_ok_iff {α : Type} {document : Document}
    {read : Tree .value → Except Fault α} {value : α} :
    document.read read = .ok value ↔ read document.root = .ok value ∧ document.trailing = false := by
  rw [Document.read]
  cases read document.root <;> cases document.trailing <;> simp

theorem ConfigDraft.config_eq_ok {draft : ConfigDraft} {config : LoggerConfig}
    (hconfig : draft.config = .ok config) :
    ∃ options, OptionDraft.ofEntries .blank draft.others = .ok options ∧
      config.sink = options.options := by
  obtain ⟨options, hoptions, hreturn⟩ := bind_eq_ok hconfig
  obtain rfl := Except.ok.inj hreturn
  exact ⟨options, hoptions, rfl⟩

theorem ConfigDraft.config_of_ofEntries {draft : ConfigDraft} {options : OptionDraft}
    (hoptions : OptionDraft.ofEntries .blank draft.others = .ok options) :
    ∃ config, draft.config = .ok config ∧ config.sink = options.options := by
  simp only [config, hoptions, bind, Except.bind]
  exact ⟨_, rfl, rfl⟩

/-- The sink options of a configuration are those of its text. If a text is read as a configuration, it is
read as sink options too, and these are the ones of the configuration. Conversely, an object that is read
as sink options and suits a configuration is read as a configuration with these options. -/
theorem LoggerConfig.options_read_alike (text : String) :
    (∀ config, LoggerConfig.parse text = .ok config → SinkOptions.parse text = .ok config.sink) ∧
      ∀ members options, (Document.ofText text).root = .object members →
        SinkOptions.parse text = .ok options → members.SuitsConfig →
          ∃ config, LoggerConfig.parse text = .ok config ∧ config.sink = options := by
  simp only [LoggerConfig.parse, SinkOptions.parse, Document.read_eq_ok_iff]
  constructor
  · rintro config ⟨hconfig, htrailing⟩
    refine ⟨?_, htrailing⟩
    cases hroot : (Document.ofText text).root with
    | object members =>
        rw [hroot] at hconfig
        obtain ⟨draft, hmembers, hconfig⟩ := bind_eq_ok hconfig
        obtain ⟨options, hoptions, hsink⟩ := ConfigDraft.config_eq_ok hconfig
        obtain ⟨entries, hothers, hentries⟩ := ConfigDraft.ofEntries_eq_ofMembers hmembers
        rw [show draft.others = entries from hothers, hentries] at hoptions
        rw [SinkOptions.ofTree, hoptions, hsink]
        rfl
    | null | bool _ | number _ | tornNumber _ | string _ | torn _ | absent _ | array _ =>
        simp [hroot, LoggerConfig.ofTree] at hconfig
  · rintro members options hroot ⟨hoptions, htrailing⟩ hsuits
    rw [hroot] at hoptions ⊢
    obtain ⟨found, hfound, rfl⟩ := map_eq_ok hoptions
    have honce : ∀ field, (ConfigDraft.blank.has field).toNat +
        members.entries.countP (fun entry => entry.1 = field.key) ≤ 1 := by
      intro field
      have hblank : ConfigDraft.blank.has field = false := by cases field <;> rfl
      rw [hblank, Bool.toNat_false, Nat.zero_add]
      exact hsuits.once field
    obtain ⟨draft, hmembers⟩ := ConfigDraft.ofMembers_of_suits hfound honce hsuits
    obtain ⟨entries, hothers, hentries⟩ := ConfigDraft.ofEntries_eq_ofMembers hmembers
    rw [← hentries, ← show draft.others = entries from hothers] at hfound
    obtain ⟨config, hconfig, hsink⟩ := ConfigDraft.config_of_ofEntries hfound
    refine ⟨config, ⟨?_, htrailing⟩, hsink⟩
    rw [LoggerConfig.ofTree, hmembers]
    exact hconfig

/-- An object with a member that sink options skip and one that belongs to the configuration. -/
def Json.mixedTable : Json .members :=
  .member "max_files" (.number (.whole 3)) <|
    .member "note" (.array (.item .null .noItems)) <|
      .member "poll_period_ms" (.number (.whole 20)) .noMembers

theorem Json.entries_mixedTable : (tree mixedTable).entries =
    [("max_files", tree (.number (.whole 3))), ("note", tree (.array (.item .null .noItems))),
      ("poll_period_ms", tree (.number (.whole 20)))] := by
  simp [mixedTable, tree, Tree.entries, decode_ofText]

theorem Json.suitsConfig_mixedTable : (tree mixedTable).SuitsConfig := by
  constructor
  · intro field
    rw [entries_mixedTable]
    cases field <;> decide
  · intro field value hmem
    rw [entries_mixedTable] at hmem
    cases field with
    | level | format => simp [ConfigField.key] at hmem
    | poll =>
        have hvalue : value = tree (.number (.whole 20)) := by simpa [ConfigField.key] using hmem
        rw [hvalue]
        decide
  · rw [entries_mixedTable]
    decide

/-- The configuration skips nothing, and finds the number of rotated files all the same. -/
theorem LoggerConfig.mixedTable_read_alike :
    let text := "\x7b\"max_files\":3,\"note\":[null],\"poll_period_ms\":20\x7d"
    let options : SinkOptions := { SinkOptions.standard with maxFiles := 3 }
    SinkOptions.parse text = .ok options ∧
      ∃ config, LoggerConfig.parse text = .ok config ∧ config.sink = options := by
  intro text options
  have htext : text = String.ofList (Json.object Json.mixedTable).print := by decide +kernel
  have hdocument : Document.ofText text = ⟨.object (tree Json.mixedTable), false⟩ := by
    rw [htext]
    exact ofText_print (by decide)
  have hoptions : SinkOptions.parse text = .ok options := by
    have hmembers : OptionDraft.ofMembers .blank (tree Json.mixedTable) =
        .ok { OptionDraft.blank with maxFiles := some 3 } := by
      simp only [Json.mixedTable, tree]
      rw [OptionDraft.ofMembers_member (decode_ofText _) rfl]
      change OptionDraft.ofMembers { OptionDraft.blank with maxFiles := some 3 } _ = _
      rw [OptionDraft.ofMembers_member (decode_ofText _) rfl]
      change OptionDraft.ofMembers { OptionDraft.blank with maxFiles := some 3 } _ = _
      rw [OptionDraft.ofMembers_member (decode_ofText _) rfl]
      change OptionDraft.ofMembers { OptionDraft.blank with maxFiles := some 3 } _ = _
      rw [OptionDraft.ofMembers]
    rw [SinkOptions.parse, hdocument, Document.read_eq_ok_iff, SinkOptions.ofTree, hmembers]
    exact ⟨rfl, rfl⟩
  obtain ⟨-, hconverse⟩ := LoggerConfig.options_read_alike text
  exact ⟨hoptions, hconverse _ _ (by rw [hdocument]) hoptions Json.suitsConfig_mixedTable⟩

end LogRelay
