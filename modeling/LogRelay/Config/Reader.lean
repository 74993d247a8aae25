import LogRelay.Config
import LogRelay.Json.Reader

/-!
# Reading configurations

Sink options are read from an object, member by member, or from an array of the fields in order. A
configuration is an object: its own fields are checked as they are met; members it does not know are
read in full and kept, and the sink options are picked out of them at the end. A repeated field is a
mismatch in both; a missing one takes its standard value.
-/

namespace LogRelay

open Json

/-- The fault of a value that is not of the wanted kind. Scalars are read before they are refused. -/
def Json.Tree.unexpected : Tree .value → Fault
  | .null => .mismatch
  | .bool _ => .mismatch
  | .number spelled =>
      match spelled.read with
      | .ok _ => .mismatch
      | .error fault => fault
  | .tornNumber atEnd => tornNumberFault atEnd
  | .string spelled =>
      match spelled.decode with
      | .ok _ => .mismatch
      | .error fault => fault
  | .torn fault => fault
  | .absent fault => fault
  | .array _ => .mismatch
  | .object _ => .mismatch

/-- A value as each of the kinds that a field can ask for. -/
structure Reading where
  /-- The value as a text. -/
  text : Except Fault String
  /-- The value as a truth value. -/
  flag : Except Fault Bool
  /-- The value as a number without sign that fits a word. -/
  count : Except Fault Nat

/-- A number as a count. -/
def Json.Number.count : Number → Except Fault Nat
  | .whole value => if 0 ≤ value then .ok value.toNat else .error .mismatch
  | .double _ => .error .mismatch

/-- The readings of a value still to be read. -/
def Json.Tree.reading (tree : Tree .value) : Reading where
  text :=
    match tree with
    | .string spelled => spelled.decode
    | other => .error other.unexpected
  flag :=
    match tree with
    | .bool value => .ok value
    | other => .error other.unexpected
  count :=
    match tree with
    | .number spelled => spelled.read.bind Number.count
    | other => .error other.unexpected

/-- The readings of a value already read. -/
def Json.reading (json : Json .value) : Reading where
  text :=
    match json with
    | .string text => .ok text
    | _ => .error .mismatch
  flag :=
    match json with
    | .bool value => .ok value
    | _ => .error .mismatch
  count :=
    match json with
    | .number value => value.count
    | _ => .error .mismatch

/-- A field of the sink options. -/
inductive OptionField where
  | path
  | name
  | flush
  | replace
  | maxFiles
  | maxSize
deriving DecidableEq, Repr

namespace OptionField

/-- All fields in the order in which an array lists them. -/
def all : List OptionField := [path, name, flush, replace, maxFiles, maxSize]

/-- The name of a field. -/
def key : OptionField → String
  | path => "log_file_path"
  | name => "logger_name"
  | flush => "flush_interval_secs"
  | replace => "drop_logger_if_duplicate"
  | maxFiles => "max_files"
  | maxSize => "max_file_size"

/-- The field with a name. -/
def ofKey? (text : String) : Option OptionField := all.find? fun field => field.key = text

end OptionField

/-- Sink options of which some fields are still open. -/
structure OptionDraft where
  /-- Path of the log file. -/
  path : Option String
  /-- Name of the logger. -/
  name : Option String
  /-- Seconds between periodic flushes. -/
  flush : Option Nat
  /-- Whether to take the name over from its holder. -/
  replace : Option Bool
  /-- Number of rotated files. -/
  maxFiles : Option Nat
  /-- Size that the active file may not exceed. -/
  maxSize : Option Nat
deriving DecidableEq, Repr

namespace OptionDraft

/-- Options with every field open. -/
def blank : OptionDraft := ⟨none, none, none, none, none, none⟩

/-- Whether a field has its value. -/
def has (draft : OptionDraft) : OptionField → Bool
  | .path => draft.path.isSome
  | .name => draft.name.isSome
  | .flush => draft.flush.isSome
  | .replace => draft.replace.isSome
  | .maxFiles => draft.maxFiles.isSome
  | .maxSize => draft.maxSize.isSome

/-- Gives a field its value. -/
def assign (draft : OptionDraft) (field : OptionField) (value : Reading) :
    Except Fault OptionDraft :=
  match field with
  | .path => value.text.map fun text => { draft with path := some text }
  | .name => value.text.map fun text => { draft with name := some text }
  | .flush => value.count.map fun count => { draft with flush := some count }
  | .replace => value.flag.map fun flag => { draft with replace := some flag }
  | .maxFiles => value.count.map fun count => { draft with maxFiles := some count }
  | .maxSize => value.count.map fun count => { draft with maxSize := some count }

/-- Gives a field its value, unless it has one. -/
def assignOnce (draft : OptionDraft) (field : OptionField) (value : Reading) :
    Except Fault OptionDraft :=
  if draft.has field then .error .mismatch else draft.assign field value

/-- The options, open fields taking their standard values. -/
def options (draft : OptionDraft) : SinkOptions :=
  let standard := SinkOptions.standard
  ⟨draft.path.getD standard.path, draft.name.getD standard.name,
    draft.flush.getD standard.flushSeconds, draft.replace.getD standard.replace,
    draft.maxFiles.getD standard.maxFiles, draft.maxSize.getD standard.maxSize⟩

/-- Takes the fields from the items of an array, in order. -/
def ofItems : List OptionField → OptionDraft → Tree .items → Except Fault OptionDraft
  | [], draft, .noItems => .ok draft
  | [], _, .itemsCut fault => .error fault
  | [], _, _ => .error .malformed
  | _ :: _, draft, .noItems => .ok draft
  | field :: fields, draft, .item value rest => do
      let draft ← draft.assign field value.reading
      ofItems fields draft rest
  | _ :: _, _, .itemsCut fault => .error fault
  | _ :: _, _, .itemsDangling fault => .error fault

/-- Takes the fields from the members of an object, skipping the members it does not know. -/
def ofMembers : OptionDraft → Tree .members → Except Fault OptionDraft
  | draft, .noMembers => .ok draft
  | draft, .member name value rest => do
      let name ← name.decode
      match OptionField.ofKey? name with
      | some field =>
          let draft ← draft.assignOnce field value.reading
          ofMembers draft rest
      | none =>
          value.skip
          ofMembers draft rest
  | _, .misnamed _ => .error .malformed
  | _, .membersCut fault => .error fault
  | _, .membersDangling fault => .error fault

/-- Picks the fields out of members that have been read. -/
def ofEntries : OptionDraft → List (String × Json .value) → Except Fault OptionDraft
  | draft, [] => .ok draft
  | draft, entry :: rest =>
      match OptionField.ofKey? entry.1 with
      | some field => do
          let draft ← draft.assignOnce field entry.2.reading
          ofEntries draft rest
      | none => ofEntries draft rest

end OptionDraft

/-- Reads sink options. -/
def SinkOptions.ofTree : Tree .value → Except Fault SinkOptions
  | .array items => (OptionDraft.ofItems OptionField.all .blank items).map OptionDraft.options
  | .object members => (OptionDraft.ofMembers .blank members).map OptionDraft.options
  | other => .error other.unexpected

/-- Reads the sink options that a text spells. -/
def SinkOptions.parse (text : String) : Except Fault SinkOptions :=
  (Document.ofText text).read SinkOptions.ofTree

/-- The format with a name; a name of no format is a mismatch. -/
def LogFormat.named (name : StringText) : Except Fault LogFormat := do
  let name ← name.decode
  match LogFormat.ofName? name with
  | some format => return format
  | none => .error .mismatch

/-- Reads a format: its name, or an object whose only member has that name and no value. -/
def LogFormat.ofTree : Tree .value → Except Fault LogFormat
  | .string name => LogFormat.named name
  | .object .noMembers => .error .malformed
  | .object (.membersCut fault) => .error fault
  | .object (.membersDangling _) => .error .malformed
  | .object (.misnamed found) => .error found.unexpected
  | .object (.member name value rest) => do
      let format ← LogFormat.named name
      match value, rest with
      | .null, .noMembers => return format
      | .null, .membersCut fault => .error fault
      | .null, _ => .error .malformed
      | other, _ => .error other.unexpected
  | .absent fault => .error fault
  | _ => .error .malformed

/-- Reads the format that a text spells. -/
def LogFormat.parse (text : String) : Except Fault LogFormat :=
  (Document.ofText text).read LogFormat.ofTree

/-- A configuration of which some fields are still open. -/
structure ConfigDraft where
  /-- Name of the least severe level. -/
  level : Option String
  /-- How lines are written. -/
  format : Option LogFormat
  /-- Milliseconds between two passes of the worker. -/
  poll : Option Nat
  /-- Members that are no fields of the configuration itself. -/
  others : List (String × Json .value)

/-- A field of the configuration itself. -/
inductive ConfigField where
  | level
  | format
  | poll
deriving DecidableEq, Repr

namespace ConfigField

/-- The name of a field. -/
def key : ConfigField → String
  | level => "min_log_level"
  | format => "format"
  | poll => "poll_period_ms"

/-- The field with a name. -/
def ofKey? (text : String) : Option ConfigField :=
  [level, format, poll].find? fun field => field.key = text

end ConfigField

namespace ConfigDraft

/-- A configuration with every field open. -/
def blank : ConfigDraft := ⟨none, none, none, []⟩

/-- Whether a field has its value. -/
def has (draft : ConfigDraft) : ConfigField → Bool
  | .level => draft.level.isSome
  | .format => draft.format.isSome
  | .poll => draft.poll.isSome

/-- Gives a field its value. -/
def assign (draft : ConfigDraft) (field : ConfigField) (value : Tree .value) :
    Except Fault ConfigDraft :=
  match field with
  | .level => value.reading.text.map fun text => { draft with level := some text }
  | .format => (LogFormat.ofTree value).map fun format => { draft with format := some format }
  | .poll => value.reading.count.map fun count => { draft with poll := some count }

/-- Takes the fields from the members of an object and keeps the other members. -/
def ofMembers : ConfigDraft → Tree .members → Except Fault ConfigDraft
  | draft, .noMembers => .ok draft
  | draft, .member name value rest => do
      let name ← name.decode
      match ConfigField.ofKey? name with
      | some field =>
          if draft.has field then .error .mismatch
          else
            let draft ← draft.assign field value
            ofMembers draft rest
      | none =>
          let value ← value.read (depthLimit - 1)
          ofMembers { draft with others := draft.others ++ [(name, value)] } rest
  | _, .misnamed _ => .error .malformed
  | _, .membersCut fault => .error fault
  | _, .membersDangling fault => .error fault

/-- The configuration, open fields taking their standard values. -/
def config (draft : ConfigDraft) : Except Fault LoggerConfig := do
  let standard := LoggerConfig.standard
  let sink ← OptionDraft.ofEntries .blank draft.others
  return ⟨draft.level.getD standard.level, draft.format.getD standard.format,
    draft.poll.getD standard.pollMillis, sink.options⟩

end ConfigDraft

/-- Reads a configuration. -/
def LoggerConfig.ofTree : Tree .value → Except Fault LoggerConfig
  | .object members => (ConfigDraft.ofMembers .blank members).bind ConfigDraft.config
  | other => .error other.unexpected

/-- Reads the configuration that a text spells. -/
def LoggerConfig.parse (text : String) : Except Fault LoggerConfig :=
  (Document.ofText text).read LoggerConfig.ofTree

end LogRelay
