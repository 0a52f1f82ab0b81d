import Playbook.Step.Call
import Playbook.Json.Record

/-!
# Step calls in JSON documents

A call is written as an object with the name of the step and then its arguments in order; what is
left out of optional arguments is written `null`. Reading takes the arguments in any order, or a
list that starts with the name of the step. All of a document waits for the name of its step, so
every part of it has to be meaningful, even where it is not an argument.
-/

namespace Playbook

open Json Json.Written

/-! ## Arguments -/

namespace Table

/-- The JSON form of a table. -/
def toJson (table : Table) : Json :=
  .object [("header", .ofTexts table.header), ("rows", .array (table.rows.map .ofTexts))]

/-- The table of a document. -/
def ofWritten? (document : Written) : Option Table := do
  let fields ← document.fields? ["header", "rows"]
  some {
    header := ← defaulted? fields "header" [] texts?
    rows := ← defaulted? fields "rows" [] (list? texts?) }

end Table

namespace DateParts

/-- The JSON form of a date. -/
def toJson (date : DateParts) : Json :=
  .object [("year", .ofInt32 date.year), ("month", .ofUInt32 date.month),
    ("day", .ofUInt32 date.day)]

/-- The date of a document. -/
def ofWritten? (document : Written) : Option DateParts := do
  let fields ← document.fields? ["year", "month", "day"]
  some {
    year := ← required? fields "year" int32?
    month := ← required? fields "month" uint32?
    day := ← required? fields "day" uint32? }

end DateParts

namespace TimeParts

/-- The JSON form of a time of day. -/
def toJson (time : TimeParts) : Json :=
  .object [("hour", .ofUInt32 time.hour), ("minute", .ofUInt32 time.minute),
    ("second", .ofUInt32 time.second), ("millisecond", .ofUInt32 time.millisecond)]

/-- The time of day of a document. -/
def ofWritten? (document : Written) : Option TimeParts := do
  let fields ← document.fields? ["hour", "minute", "second", "millisecond"]
  some {
    hour := ← required? fields "hour" uint32?
    minute := ← required? fields "minute" uint32?
    second := ← defaulted? fields "second" 0 uint32?
    millisecond := ← defaulted? fields "millisecond" 0 uint32? }

end TimeParts

namespace Shift

/-- The JSON form of a shift. -/
def toJson (shift : Shift) : Json :=
  .object [("years", .ofUInt32 shift.years), ("months", .ofUInt32 shift.months),
    ("days", .ofUInt64 shift.days)]

/-- The shift of a document. -/
def ofWritten? (document : Written) : Option Shift := do
  let fields ← document.fields? ["years", "months", "days"]
  some {
    years := ← defaulted? fields "years" 0 uint32?
    months := ← defaulted? fields "months" 0 uint32?
    days := ← defaulted? fields "days" 0 uint64? }

end Shift

namespace Direction

/-- The directions with their names. -/
def tags : List (String × Direction) := [("past", .past), ("future", .future)]

/-- The name of a direction. -/
def tag : Direction → String
  | .past => "past"
  | .future => "future"

end Direction

namespace Charset

/-- The sets of characters with their names. -/
def tags : List (String × Charset) :=
  [("letters", .letters), ("digits", .digits), ("alphanumeric", .alphanumeric)]

/-- The name of a set of characters. -/
def tag : Charset → String
  | .letters => "letters"
  | .digits => "digits"
  | .alphanumeric => "alphanumeric"

end Charset

namespace FileRow

/-- The JSON form of a row. -/
def toJson (row : FileRow) : Json :=
  .object [("name", .string row.name), ("path", .ofOption .string row.path),
    ("content", .string row.content)]

/-- The row of a document. -/
def ofWritten? (document : Written) : Option FileRow := do
  let fields ← document.fields? ["name", "path", "content"]
  some {
    name := ← textField? fields "name"
    path := ← optionalTextField? fields "path"
    content := ← defaulted? fields "content" "" text? }

end FileRow

/-! ## Calls -/

namespace StepCall

/-- The arguments of a call, in order. -/
def arguments : StepCall → List (String × Json)
  | .storeText text name => [("text", .string text), ("name", .string name)]
  | .storeMultilineText name lines => [("name", .string name), ("lines", .ofTexts lines)]
  | .storeXmlText name xml => [("name", .string name), ("xml", .string xml)]
  | .storeNumber text name => [("number", .string text), ("name", .string name)]
  | .changeVariable name value => [("name", .string name), ("value", .string value)]
  | .emptyVariable name => [("name", .string name)]
  | .deleteVariable name => [("name", .string name)]
  | .copyValue source target => [("from", .string source), ("to", .string target)]
  | .copyText source target => [("from", .string source), ("to", .string target)]
  | .substituteVariable name template target =>
    [("name", .string name), ("template", .string template), ("to", .string target)]
  | .storeSequence name table => [("name", .string name), ("table", table.toJson)]
  | .storeTypedSequence kind name table =>
    [("kind", .string kind), ("name", .string name), ("table", table.toJson)]
  | .storeRandomElement collection name =>
    [("collection", .string collection), ("name", .string name)]
  | .storeElementAt collection index name =>
    [("collection", .string collection), ("index", .string index), ("name", .string name)]
  | .splitIntoSequence name separators target =>
    [("name", .string name), ("separators", .string separators), ("to", .string target)]
  | .storeMapping name table => [("name", .string name), ("table", table.toJson)]
  | .storeRandomValue mapping name => [("mapping", .string mapping), ("name", .string name)]
  | .storeValueByKey mapping key name =>
    [("mapping", .string mapping), ("key", .string key), ("name", .string name)]
  | .assertText name check expected =>
    [("name", .string name), ("check", .string check.tag), ("expected", .string expected)]
  | .assertNull name => [("name", .string name)]
  | .assertNotNull name => [("name", .string name)]
  | .assertEmpty name => [("name", .string name)]
  | .assertNotEmpty name => [("name", .string name)]
  | .storeDate date format name =>
    [("date", date.toJson), ("format", .ofOption .string format), ("name", .string name)]
  | .storeTime time format name =>
    [("time", time.toJson), ("format", .ofOption .string format), ("name", .string name)]
  | .storeDatetime date time format name =>
    [("date", date.toJson), ("time", time.toJson), ("format", .ofOption .string format),
      ("name", .string name)]
  | .storeCurrentDate format name => [("format", .ofOption .string format), ("name", .string name)]
  | .storeRandomDate format name => [("format", .ofOption .string format), ("name", .string name)]
  | .storeShiftedDate shift direction start format name =>
    [("shift", shift.toJson), ("direction", .string direction.tag),
      ("from", .ofOption .string start), ("format", .ofOption .string format),
      ("name", .string name)]
  | .storeRandomText charset length before after name =>
    [("charset", .string charset.tag), ("length", .ofUInt64 length),
      ("prefix", .ofOption .string before), ("postfix", .ofOption .string after),
      ("name", .string name)]
  | .storeUuid name => [("name", .string name)]
  | .storeRandomPhone mask name => [("mask", .string mask), ("name", .string name)]
  | .storeRandomMonth name => [("name", .string name)]
  | .storeRandomWeekday name => [("name", .string name)]
  | .storeRandomEmail provider name => [("provider", .string provider), ("name", .string name)]
  | .storeRandomIp name => [("name", .string name)]
  | .storeRandomUrl name => [("name", .string name)]
  | .createFiles files => [("files", .array (files.map FileRow.toJson))]
  | .assertFilesExist files => [("files", .array (files.map FileRow.toJson))]
  | .storeFileContent path name => [("path", .string path), ("name", .string name)]
  | .writeVariableToFile name path => [("name", .string name), ("path", .string path)]

/-- The JSON form of a call. -/
def toJson (call : StepCall) : Json :=
  .object (("step", .string call.stepName) :: call.arguments)

/-- The call of the named step with the arguments in a document. -/
def ofArguments? (step : String) (document : Written) : Option StepCall :=
  match step with
  | "storeText" => do
    let fields ← document.fields? ["text", "name"]
    some (.storeText (← textField? fields "text") (← textField? fields "name"))
  | "storeMultilineText" => do
    let fields ← document.fields? ["name", "lines"]
    some (.storeMultilineText (← textField? fields "name") (← required? fields "lines" texts?))
  | "storeXmlText" => do
    let fields ← document.fields? ["name", "xml"]
    some (.storeXmlText (← textField? fields "name") (← textField? fields "xml"))
  | "storeNumber" => do
    let fields ← document.fields? ["number", "name"]
    some (.storeNumber (← textField? fields "number") (← textField? fields "name"))
  | "changeVariable" => do
    let fields ← document.fields? ["name", "value"]
    some (.changeVariable (← textField? fields "name") (← textField? fields "value"))
  | "emptyVariable" => do
    let fields ← document.fields? ["name"]
    some (.emptyVariable (← textField? fields "name"))
  | "deleteVariable" => do
    let fields ← document.fields? ["name"]
    some (.deleteVariable (← textField? fields "name"))
  | "copyValue" => do
    let fields ← document.fields? ["from", "to"]
    some (.copyValue (← textField? fields "from") (← textField? fields "to"))
  | "copyText" => do
    let fields ← document.fields? ["from", "to"]
    some (.copyText (← textField? fields "from") (← textField? fields "to"))
  | "substituteVariable" => do
    let fields ← document.fields? ["name", "template", "to"]
    some (.substituteVariable (← textField? fields "name") (← textField? fields "template")
      (← textField? fields "to"))
  | "storeSequence" => do
    let fields ← document.fields? ["name", "table"]
    some (.storeSequence (← textField? fields "name") (← required? fields "table" Table.ofWritten?))
  | "storeTypedSequence" => do
    let fields ← document.fields? ["kind", "name", "table"]
    some (.storeTypedSequence (← textField? fields "kind") (← textField? fields "name")
      (← required? fields "table" Table.ofWritten?))
  | "storeRandomElement" => do
    let fields ← document.fields? ["collection", "name"]
    some (.storeRandomElement (← textField? fields "collection") (← textField? fields "name"))
  | "storeElementAt" => do
    let fields ← document.fields? ["collection", "index", "name"]
    some (.storeElementAt (← textField? fields "collection") (← textField? fields "index")
      (← textField? fields "name"))
  | "splitIntoSequence" => do
    let fields ← document.fields? ["name", "separators", "to"]
    some (.splitIntoSequence (← textField? fields "name") (← textField? fields "separators")
      (← textField? fields "to"))
  | "storeMapping" => do
    let fields ← document.fields? ["name", "table"]
    some (.storeMapping (← textField? fields "name") (← required? fields "table" Table.ofWritten?))
  | "storeRandomValue" => do
    let fields ← document.fields? ["mapping", "name"]
    some (.storeRandomValue (← textField? fields "mapping") (← textField? fields "name"))
  | "storeValueByKey" => do
    let fields ← document.fields? ["mapping", "key", "name"]
    some (.storeValueByKey (← textField? fields "mapping") (← textField? fields "key")
      (← textField? fields "name"))
  | "assertText" => do
    let fields ← document.fields? ["name", "check", "expected"]
    some (.assertText (← textField? fields "name")
      (← required? fields "check" (choice? true TextCheck.tags)) (← textField? fields "expected"))
  | "assertNull" => do
    let fields ← document.fields? ["name"]
    some (.assertNull (← textField? fields "name"))
  | "assertNotNull" => do
    let fields ← document.fields? ["name"]
    some (.assertNotNull (← textField? fields "name"))
  | "assertEmpty" => do
    let fields ← document.fields? ["name"]
    some (.assertEmpty (← textField? fields "name"))
  | "assertNotEmpty" => do
    let fields ← document.fields? ["name"]
    some (.assertNotEmpty (← textField? fields "name"))
  | "storeDate" => do
    let fields ← document.fields? ["date", "format", "name"]
    some (.storeDate (← required? fields "date" DateParts.ofWritten?)
      (← optionalTextField? fields "format") (← textField? fields "name"))
  | "storeTime" => do
    let fields ← document.fields? ["time", "format", "name"]
    some (.storeTime (← required? fields "time" TimeParts.ofWritten?)
      (← optionalTextField? fields "format") (← textField? fields "name"))
  | "storeDatetime" => do
    let fields ← document.fields? ["date", "time", "format", "name"]
    some (.storeDatetime (← required? fields "date" DateParts.ofWritten?)
      (← required? fields "time" TimeParts.ofWritten?) (← optionalTextField? fields "format")
      (← textField? fields "name"))
  | "storeCurrentDate" => do
    let fields ← document.fields? ["format", "name"]
    some (.storeCurrentDate (← optionalTextField? fields "format") (← textField? fields "name"))
  | "storeRandomDate" => do
    let fields ← document.fields? ["format", "name"]
    some (.storeRandomDate (← optionalTextField? fields "format") (← textField? fields "name"))
  | "storeShiftedDate" => do
    let fields ← document.fields? ["shift", "direction", "from", "format", "name"]
    some (.storeShiftedDate (← defaulted? fields "shift" .zero Shift.ofWritten?)
      (← required? fields "direction" (choice? true Direction.tags))
      (← optionalTextField? fields "from") (← optionalTextField? fields "format")
      (← textField? fields "name"))
  | "storeRandomText" => do
    let fields ← document.fields? ["charset", "length", "prefix", "postfix", "name"]
    some (.storeRandomText (← required? fields "charset" (choice? true Charset.tags))
      (← required? fields "length" uint64?) (← optionalTextField? fields "prefix")
      (← optionalTextField? fields "postfix") (← textField? fields "name"))
  | "storeUuid" => do
    let fields ← document.fields? ["name"]
    some (.storeUuid (← textField? fields "name"))
  | "storeRandomPhone" => do
    let fields ← document.fields? ["mask", "name"]
    some (.storeRandomPhone (← textField? fields "mask") (← textField? fields "name"))
  | "storeRandomMonth" => do
    let fields ← document.fields? ["name"]
    some (.storeRandomMonth (← textField? fields "name"))
  | "storeRandomWeekday" => do
    let fields ← document.fields? ["name"]
    some (.storeRandomWeekday (← textField? fields "name"))
  | "storeRandomEmail" => do
    let fields ← document.fields? ["provider", "name"]
    some (.storeRandomEmail (← textField? fields "provider") (← textField? fields "name"))
  | "storeRandomIp" => do
    let fields ← document.fields? ["name"]
    some (.storeRandomIp (← textField? fields "name"))
  | "storeRandomUrl" => do
    let fields ← document.fields? ["name"]
    some (.storeRandomUrl (← textField? fields "name"))
  | "createFiles" => do
    let fields ← document.fields? ["files"]
    some (.createFiles (← required? fields "files" (list? FileRow.ofWritten?)))
  | "assertFilesExist" => do
    let fields ← document.fields? ["files"]
    some (.assertFilesExist (← required? fields "files" (list? FileRow.ofWritten?)))
  | "storeFileContent" => do
    let fields ← document.fields? ["path", "name"]
    some (.storeFileContent (← textField? fields "path") (← textField? fields "name"))
  | "writeVariableToFile" => do
    let fields ← document.fields? ["name", "path"]
    some (.writeVariableToFile (← textField? fields "name") (← textField? fields "path"))
  | _ => none

/-- The call of a document that is at most `depth` deep. -/
def ofWritten? (depth : Nat) (document : Written) : Option StepCall :=
  if document.sound depth then
    match document with
    | .object members => do
      let fields ← fieldsOfMembers? ["step"] members
      ofArguments? (← textField? fields "step") document
    | .array (step :: arguments) => do ofArguments? (← step.text?) (.array arguments)
    | _ => none
  else none

end StepCall
end Playbook
