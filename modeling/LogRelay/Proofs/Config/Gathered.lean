import LogRelay.Proofs.Config.Flattened
import LogRelay.Proofs.Json.Accepted
import Mathlib.Logic.Function.Basic

/-!
# Settings that are gathered from members

A configuration and its sink options are read from the same members in the same way: a member whose name is
that of an open field gives the field its setting, and all others are passed over. What is gathered in this way
does not depend on the order of the members, as no field can be given twice.
-/

namespace LogRelay

open Json

/-! ## Settings -/

/-- The members with their names, in order. -/
def Json.entries : Json .members → List (String × Json .value)
  | .noMembers => []
  | .member name value rest => (name, value) :: entries rest

/-- What a field can be set to. -/
inductive Setting where
  | text (text : String)
  | format (format : LogFormat)
  | count (count : Nat)
  | flag (flag : Bool)

theorem Setting.map_text_injective : Function.Injective (Option.map Setting.text) :=
  Option.map_injective fun _ _ => text.inj

theorem Setting.map_format_injective : Function.Injective (Option.map Setting.format) :=
  Option.map_injective fun _ _ => format.inj

theorem Setting.map_count_injective : Function.Injective (Option.map Setting.count) :=
  Option.map_injective fun _ _ => count.inj

theorem Setting.map_flag_injective : Function.Injective (Option.map Setting.flag) :=
  Option.map_injective fun _ _ => flag.inj

/-- Fields that are read from members. -/
structure Fields (Field : Type) where
  /-- The field with a name. -/
  ofKey? : String → Option Field
  /-- What a value sets a field to. -/
  setting? : Field → Json .value → Option Setting
  /-- Whether the value of a member can be passed over. -/
  Admits : Json .value → Prop

namespace Fields

variable {Field : Type} [DecidableEq Field] {fields : Fields Field} {settings final : Field → Option Setting}
  {entries others : List (String × Json .value)}

/-- What becomes of settings, some of them still open, as members are gathered one after the other. -/
inductive Gathers (fields : Fields Field) :
    (Field → Option Setting) → List (String × Json .value) → (Field → Option Setting) → Prop where
  | nil {settings : Field → Option Setting} : Gathers fields settings [] settings
  | field {settings final : Field → Option Setting} {name : String} {json : Json .value}
      {rest : List (String × Json .value)} {field : Field} {setting : Setting}
      (hfield : fields.ofKey? name = some field) (hopen : settings field = none)
      (hsetting : fields.setting? field json = some setting)
      (hrest : Gathers fields (Function.update settings field (some setting)) rest final) :
      Gathers fields settings ((name, json) :: rest) final
  | other {settings final : Field → Option Setting} {name : String} {json : Json .value}
      {rest : List (String × Json .value)} (hfield : fields.ofKey? name = none) (hadmits : fields.Admits json)
      (hrest : Gathers fields settings rest final) : Gathers fields settings ((name, json) :: rest) final

namespace Gathers

/-- Two members in front may change places: if both are fields, they are different ones. -/
theorem swap {first second : String × Json .value}
    (hgathers : fields.Gathers settings (first :: second :: entries) final) :
    fields.Gathers settings (second :: first :: entries) final := by
  cases hgathers with
  | @field _ _ _ _ _ field setting hfield hopen hsetting hrest =>
      cases hrest with
      | @field _ _ _ _ _ other found hother hfree hfound hrest =>
          have hne : other ≠ field := by
            rintro rfl
            rw [Function.update_self] at hfree
            exact absurd hfree (by simp)
          rw [Function.update_of_ne hne] at hfree
          rw [Function.update_comm hne.symm] at hrest
          refine .field hother hfree hfound (.field hfield ?_ hsetting hrest)
          rwa [Function.update_of_ne hne.symm]
      | other hother hadmits hrest => exact .other hother hadmits (.field hfield hopen hsetting hrest)
  | other hfield hadmits hrest =>
      cases hrest with
      | field hother hopen hsetting hrest => exact .field hother hopen hsetting (.other hfield hadmits hrest)
      | other hother hadmitsOther hrest => exact .other hother hadmitsOther (.other hfield hadmits hrest)

theorem perm (hgathers : fields.Gathers settings entries final) (hperm : entries.Perm others) :
    fields.Gathers settings others final := by
  induction hperm generalizing settings with
  | nil => exact hgathers
  | cons entry _ induction =>
      cases hgathers with
      | field hfield hopen hsetting hrest => exact .field hfield hopen hsetting (induction hrest)
      | other hfield hadmits hrest => exact .other hfield hadmits (induction hrest)
  | swap first second rest => exact hgathers.swap
  | trans _ _ first_induction second_induction => exact second_induction (first_induction hgathers)

theorem of_cons {entry : String × Json .value} (hgathers : fields.Gathers settings (entry :: entries) final)
    (hother : fields.ofKey? entry.1 = none) : fields.Gathers settings entries final := by
  cases hgathers with
  | field hfield _ _ _ => exact absurd (hother.symm.trans hfield) (by simp)
  | other _ _ hrest => exact hrest

end Gathers

end Fields

/-! ## Values that trees hold -/

theorem Json.Tree.Holds.reading_eq {tree : Tree .value} {json : Json .value} (hholds : tree.Holds json) :
    tree.reading = json.reading := by
  cases hholds with
  | null | bool | array _ | object _ => rfl
  | number hvalue => simp [Tree.reading, Json.reading, Tree.unexpected, NumberText.read, hvalue, Except.bind]
  | string htext => simp [Tree.reading, Json.reading, Tree.unexpected, decode_of_makesUp htext]

/-- The format that a value stands for. -/
def LogFormat.ofJson? : Json .value → Option LogFormat
  | .string name => ofName? name
  | .object (.member name .null .noMembers) => ofName? name
  | _ => none

theorem LogFormat.named_eq_ok_iff {glyphs : List Glyph} {name : String} {format : LogFormat}
    (hname : MakesUp glyphs name.toList) : named ⟨glyphs, none⟩ = .ok format ↔ ofName? name = some format := by
  rw [named, decode_of_makesUp hname]
  cases hformat : ofName? name <;> simp [hformat, bind, Except.bind, pure, Except.pure]

theorem LogFormat.ofTree_eq_ok_iff {tree : Tree .value} {json : Json .value} {format : LogFormat}
    (hholds : tree.Holds json) : ofTree tree = .ok format ↔ ofJson? json = some format := by
  cases hholds with
  | null | bool | number _ | array _ => simp [ofTree, ofJson?]
  | string hname => exact named_eq_ok_iff hname
  | object hmembers =>
      cases hmembers with
      | noMembers => simp [ofTree, ofJson?]
      | @member glyphs _ _ name _ _ hname hvalue hrest =>
          have hrefused : ∀ fault, ¬(named ⟨glyphs, none⟩ >>= fun _ => .error fault) = .ok format := by
            intro fault haccepted
            obtain ⟨_, -, herror⟩ := bind_eq_ok haccepted
            exact absurd herror (by simp)
          cases hvalue with
          | null =>
              cases hrest with
              | noMembers =>
                  refine Iff.trans ?_ (named_eq_ok_iff hname)
                  rw [ofTree]
                  simp
              | member _ _ _ => exact iff_of_false (hrefused _) (by simp [ofJson?])
          | bool | number _ | string _ | array _ | object _ =>
              exact iff_of_false (hrefused _) (by simp [ofJson?])

/-! ## Fields -/

namespace ConfigField

/-- What a value sets a field of a configuration to. -/
def setting? (field : ConfigField) (json : Json .value) : Option Setting :=
  match field with
  | .level => json.reading.text.toOption.map .text
  | .format => (LogFormat.ofJson? json).map .format
  | .poll => json.reading.count.toOption.map .count

/-- The fields of a configuration; the values of other members are kept and must not be nested too deeply. -/
def fields : Fields ConfigField := ⟨ofKey?, setting?, fun json => json.depth < depthLimit⟩

end ConfigField

namespace OptionField

/-- What a value sets a field of the sink options to. -/
def setting? (field : OptionField) (json : Json .value) : Option Setting :=
  match field with
  | .path | .name => json.reading.text.toOption.map .text
  | .flush | .maxFiles | .maxSize => json.reading.count.toOption.map .count
  | .replace => json.reading.flag.toOption.map .flag

/-- The fields of the sink options; the values of other members are skipped. -/
def fields : Fields OptionField := ⟨ofKey?, setting?, fun _ => True⟩

end OptionField

theorem exists_of_toOption {α : Type} {attempt : Except Fault α} {value : α}
    (hsome : attempt.toOption = some value) : attempt = .ok value := by
  cases attempt with
  | error fault => exact absurd hsome (by simp [Except.toOption])
  | ok found => exact congrArg Except.ok (Option.some.inj hsome)

namespace ConfigDraft

/-- The settings of a draft. -/
def get (draft : ConfigDraft) : ConfigField → Option Setting
  | .level => draft.level.map .text
  | .format => draft.format.map .format
  | .poll => draft.poll.map .count

variable {draft next final : ConfigDraft} {field : ConfigField} {value : Tree .value} {json : Json .value}

theorem has_eq (draft : ConfigDraft) (field : ConfigField) : draft.has field = (draft.get field).isSome := by
  cases field <;> simp [has, get]

/-- A field that takes a value is set to what the value says, and the others stay as they are. -/
theorem get_of_assign (hholds : value.Holds json) (hassign : draft.assign field value = .ok next) :
    ∃ setting, field.setting? json = some setting ∧
      next.get = Function.update draft.get field (some setting) := by
  cases field with
  | level =>
      obtain ⟨text, htext, rfl⟩ := map_eq_ok hassign
      rw [hholds.reading_eq] at htext
      exact ⟨.text text, by simp [ConfigField.setting?, htext, Except.toOption],
        funext fun other => by cases other <;> simp [get]⟩
  | format =>
      obtain ⟨format, hformat, rfl⟩ := map_eq_ok hassign
      rw [LogFormat.ofTree_eq_ok_iff hholds] at hformat
      exact ⟨.format format, by simp [ConfigField.setting?, hformat],
        funext fun other => by cases other <;> simp [get]⟩
  | poll =>
      obtain ⟨count, hcount, rfl⟩ := map_eq_ok hassign
      rw [hholds.reading_eq] at hcount
      exact ⟨.count count, by simp [ConfigField.setting?, hcount, Except.toOption],
        funext fun other => by cases other <;> simp [get]⟩

/-- A field takes a value that says something. -/
theorem assign_of_setting (hholds : value.Holds json) {setting : Setting}
    (hsetting : field.setting? json = some setting) (draft : ConfigDraft) :
    ∃ next, draft.assign field value = .ok next := by
  apply assign_of_accepts
  cases field with
  | level =>
      obtain ⟨text, htext, -⟩ := Option.map_eq_some_iff.1 hsetting
      rw [ConfigField.accepts, hholds.reading_eq, exists_of_toOption htext]
      rfl
  | format =>
      obtain ⟨format, hformat, -⟩ := Option.map_eq_some_iff.1 hsetting
      rw [ConfigField.accepts, (LogFormat.ofTree_eq_ok_iff hholds).2 hformat]
      rfl
  | poll =>
      obtain ⟨count, hcount, -⟩ := Option.map_eq_some_iff.1 hsetting
      rw [ConfigField.accepts, hholds.reading_eq, exists_of_toOption hcount]
      rfl

theorem eq_of_get {other : ConfigDraft} (hget : draft.get = other.get) :
    draft.level = other.level ∧ draft.format = other.format ∧ draft.poll = other.poll :=
  ⟨Setting.map_text_injective (congrFun hget .level), Setting.map_format_injective (congrFun hget .format),
    Setting.map_count_injective (congrFun hget .poll)⟩

/-- What a configuration takes from the members of an object is what its fields gather from them. -/
theorem gathers_of_ofMembers {tree : Tree .members} {members : Json .members} (hholds : tree.Holds members)
    (hmembers : ofMembers draft tree = .ok final) :
    ConfigField.fields.Gathers draft.get members.entries final.get := by
  induction members using Json.entries.induct generalizing draft tree with
  | case1 =>
      cases hholds
      rw [ofMembers] at hmembers
      obtain rfl := Except.ok.inj hmembers
      rw [Json.entries]
      exact .nil
  | case2 name json rest induction =>
      cases hholds with
      | member hname hvalue hrest =>
          obtain ⟨found, next, hfound, htakes, hlater⟩ := takes_of_ofMembers hmembers
          obtain rfl := Except.ok.inj (hfound.symm.trans (decode_of_makesUp hname))
          have hgathers := induction hrest hlater
          rw [Json.entries]
          cases htakes with
          | field hfield hopen hassign =>
              obtain ⟨setting, hsetting, hget⟩ := get_of_assign hvalue hassign
              rw [has_eq, Option.isSome_eq_false_iff, Option.isNone_iff_eq_none] at hopen
              rw [hget] at hgathers
              exact .field hfield hopen hsetting hgathers
          | other hfield hread =>
              have hdepth := (Tree.isWhole_of_read hread).2
              rw [hvalue.depth_eq] at hdepth
              exact .other hfield (Nat.lt_of_le_sub_one (by decide) hdepth) hgathers

/-- What the fields of a configuration gather is what it takes from the members. -/
theorem ofMembers_of_gathers {tree : Tree .members} {members : Json .members} (hholds : tree.Holds members)
    {settings : ConfigField → Option Setting}
    (hgathers : ConfigField.fields.Gathers draft.get members.entries settings) :
    ∃ final, ofMembers draft tree = .ok final ∧ final.get = settings := by
  induction members using Json.entries.induct generalizing draft tree with
  | case1 =>
      cases hholds
      rw [Json.entries] at hgathers
      cases hgathers
      exact ⟨draft, by rw [ofMembers], rfl⟩
  | case2 name json rest induction =>
      cases hholds with
      | member hname hvalue hrest =>
          have hdecode := decode_of_makesUp hname
          rw [Json.entries] at hgathers
          cases hgathers with
          | @field _ _ _ _ _ field setting hfield hopen hsetting hlater =>
              obtain ⟨next, hassign⟩ := assign_of_setting hvalue hsetting draft
              obtain ⟨found, hfound, hget⟩ := get_of_assign hvalue hassign
              obtain rfl := Option.some.inj (hfound.symm.trans hsetting)
              have hhas : draft.has field = false := by rw [has_eq, hopen, Option.isSome_none]
              rw [← hget] at hlater
              rw [ofMembers_of_takes hdecode (.field hfield hhas hassign)]
              exact induction hrest hlater
          | other hfield hadmits hlater =>
              have hdepth := Nat.le_sub_one_of_lt hadmits
              rw [← hvalue.depth_eq] at hdepth
              obtain ⟨read, hread⟩ := Tree.read_of_isWhole hvalue.isWhole hdepth
              rw [ofMembers_of_takes hdecode (.other hfield hread)]
              exact induction hrest hlater

end ConfigDraft

namespace OptionDraft

/-- The settings of a draft. -/
def get (draft : OptionDraft) : OptionField → Option Setting
  | .path => draft.path.map .text
  | .name => draft.name.map .text
  | .flush => draft.flush.map .count
  | .replace => draft.replace.map .flag
  | .maxFiles => draft.maxFiles.map .count
  | .maxSize => draft.maxSize.map .count

variable {draft next final : OptionDraft} {field : OptionField} {json : Json .value}

theorem has_eq (draft : OptionDraft) (field : OptionField) : draft.has field = (draft.get field).isSome := by
  cases field <;> simp [has, get]

/-- A field that takes a value is set to what the value says, and the others stay as they are. -/
theorem get_of_assign (hassign : draft.assign field json.reading = .ok next) :
    ∃ setting, field.setting? json = some setting ∧
      next.get = Function.update draft.get field (some setting) := by
  cases field with
  | path | name =>
      obtain ⟨text, htext, rfl⟩ := map_eq_ok hassign
      exact ⟨.text text, by simp [OptionField.setting?, htext, Except.toOption],
        funext fun other => by cases other <;> simp [get]⟩
  | flush | maxFiles | maxSize =>
      obtain ⟨count, hcount, rfl⟩ := map_eq_ok hassign
      exact ⟨.count count, by simp [OptionField.setting?, hcount, Except.toOption],
        funext fun other => by cases other <;> simp [get]⟩
  | replace =>
      obtain ⟨flag, hflag, rfl⟩ := map_eq_ok hassign
      exact ⟨.flag flag, by simp [OptionField.setting?, hflag, Except.toOption],
        funext fun other => by cases other <;> simp [get]⟩

theorem assign_of_setting {setting : Setting} (hsetting : field.setting? json = some setting)
    (draft : OptionDraft) : ∃ next, draft.assign field json.reading = .ok next := by
  cases field with
  | path | name | flush | replace | maxFiles | maxSize =>
      obtain ⟨found, hfound, -⟩ := Option.map_eq_some_iff.1 hsetting
      rw [assign, exists_of_toOption hfound]
      exact ⟨_, rfl⟩

theorem get_injective : Function.Injective get := by
  intro draft other hget
  cases draft
  cases other
  rw [mk.injEq]
  exact ⟨Setting.map_text_injective (congrFun hget .path), Setting.map_text_injective (congrFun hget .name),
    Setting.map_count_injective (congrFun hget .flush), Setting.map_flag_injective (congrFun hget .replace),
    Setting.map_count_injective (congrFun hget .maxFiles), Setting.map_count_injective (congrFun hget .maxSize)⟩

/-- What sink options take from the members of an object is what their fields gather from them. -/
theorem gathers_of_ofMembers {tree : Tree .members} {members : Json .members} (hholds : tree.Holds members)
    (hmembers : ofMembers draft tree = .ok final) :
    OptionField.fields.Gathers draft.get members.entries final.get := by
  induction members using Json.entries.induct generalizing draft tree with
  | case1 =>
      cases hholds
      rw [ofMembers] at hmembers
      obtain rfl := Except.ok.inj hmembers
      rw [Json.entries]
      exact .nil
  | case2 name json rest induction =>
      cases hholds with
      | member hname hvalue hrest =>
          have hskip := Tree.skip_of_isWhole hvalue.isWhole
          rw [ofMembers_member (decode_of_makesUp hname) hskip, hvalue.reading_eq] at hmembers
          rw [Json.entries]
          cases hfield : OptionField.ofKey? name with
          | none =>
              rw [hfield] at hmembers
              exact .other hfield trivial (induction hrest hmembers)
          | some field =>
              rw [hfield] at hmembers
              obtain ⟨next, hassign, hlater⟩ := bind_eq_ok hmembers
              rw [assignOnce] at hassign
              split at hassign
              · exact absurd hassign (by simp)
              · next hopen =>
                obtain ⟨setting, hsetting, hget⟩ := get_of_assign hassign
                have hgathers := induction hrest hlater
                rw [has_eq, Option.not_isSome_iff_eq_none] at hopen
                rw [hget] at hgathers
                exact .field hfield hopen hsetting hgathers

/-- What the fields of the sink options gather is what these take from the members. -/
theorem ofMembers_of_gathers {tree : Tree .members} {members : Json .members} (hholds : tree.Holds members)
    {settings : OptionField → Option Setting}
    (hgathers : OptionField.fields.Gathers draft.get members.entries settings) :
    ∃ final, ofMembers draft tree = .ok final ∧ final.get = settings := by
  induction members using Json.entries.induct generalizing draft tree with
  | case1 =>
      cases hholds
      rw [Json.entries] at hgathers
      cases hgathers
      exact ⟨draft, by rw [ofMembers], rfl⟩
  | case2 name json rest induction =>
      cases hholds with
      | member hname hvalue hrest =>
          have hskip := Tree.skip_of_isWhole hvalue.isWhole
          rw [ofMembers_member (decode_of_makesUp hname) hskip, hvalue.reading_eq]
          rw [Json.entries] at hgathers
          cases hgathers with
          | @field _ _ _ _ _ field setting hfield hopen hsetting hlater =>
              obtain ⟨next, hassign⟩ := assign_of_setting hsetting draft
              obtain ⟨found, hfound, hget⟩ := get_of_assign hassign
              obtain rfl := Option.some.inj (hfound.symm.trans hsetting)
              have hofKey : OptionField.ofKey? name = some field := hfield
              have hhas : draft.has field = false := by rw [has_eq, hopen, Option.isSome_none]
              have honce : draft.assignOnce field json.reading = .ok next := by simp [assignOnce, hhas, hassign]
              rw [← hget] at hlater
              simp only [hofKey, honce, bind, Except.bind]
              exact induction hrest hlater
          | other hfield _ hlater =>
              have hofKey : OptionField.ofKey? name = none := hfield
              rw [hofKey]
              exact induction hrest hlater

end OptionDraft

end LogRelay
