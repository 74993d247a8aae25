import LogRelay.Json.Reader
import LogRelay.Severity
import LogRelay.Time.Stamp

/-!
# Records and their lines

A record is a rendered text with a severity and a time. A text line stamps it; a JSON line is an object
of six members in the order of their names, of which `data` is the text read as JSON, or the text itself
where it is no JSON. A record whose year no stamp can spell has no line.
-/

namespace LogRelay

/-- How lines are written. -/
inductive LogFormat where
  | text
  | json
deriving DecidableEq, Repr, Inhabited

/-- Name of a format. -/
def LogFormat.name : LogFormat → String
  | text => "text"
  | json => "json"

/-- The name as a constructor is spelled in debugging output. -/
def LogFormat.label : LogFormat → String
  | text => "Text"
  | json => "Json"

/-- The format with a name. -/
def LogFormat.ofName? (name : String) : Option LogFormat :=
  if name = "text" then some .text else if name = "json" then some .json else none

/-- A rendered text on its way to a sink. -/
structure Record where
  /-- How severe it is. -/
  severity : Severity
  /-- The rendered text. -/
  text : String
  /-- When it happened. -/
  time : Instant
deriving DecidableEq, Repr

/-- Who writes a line: the numbers of the process and of the thread. -/
structure Origin where
  /-- Number of the process. -/
  process : Nat
  /-- Number of the thread. -/
  thread : Nat
deriving DecidableEq, Repr

namespace Record

/-- The value that a JSON line holds for a text. -/
def data (text : String) : Json .value :=
  match Json.parse text with
  | .ok value => value
  | .error _ => .string text

/-- The object of a JSON line. -/
def toJson (name : String) (origin : Origin) (record : Record) : Json .value :=
  .object <|
    .member "data" (data record.text) <|
    .member "level" (.string record.severity.name) <|
    .member "name" (.string name) <|
    .member "process" (.number (.whole origin.process)) <|
    .member "thread" (.number (.whole origin.thread)) <|
    .member "time" (.string (String.ofList record.time.jsonStamp)) .noMembers

/-- The text of a text line, without the line feed. -/
def toText (record : Record) : List Char :=
  '[' :: record.time.textStamp ++ [']', ' ', '['] ++ record.severity.name.toList ++ [']', ' '] ++
    record.text.toList

/-- The characters of a line, the line feed included. -/
def lineChars (format : LogFormat) (name : String) (origin : Origin) (record : Record) :
    List Char :=
  (match format with
    | .text => record.toText
    | .json => (record.toJson name origin).print) ++ ['\n']

/-- The line of a record, if a stamp can spell its year. -/
def line? (format : LogFormat) (name : String) (origin : Origin) (record : Record) :
    Option (List Char) :=
  if record.time.civil.InRange then some (record.lineChars format name origin) else none

end Record

end LogRelay
