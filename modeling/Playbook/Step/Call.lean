import Playbook.Step.Table
import Playbook.Data
import Playbook.Calendar.Shift
import Playbook.Calendar.Parts
import Playbook.TextCheck

/-!
# Step calls

The steps a scenario is made of. A step that stores something names the variable that is new with
it; texts may have placeholders unless a step says otherwise.
-/

namespace Playbook

/-- A row of a table of files. -/
structure FileRow where
  /-- The name of the file. -/
  name : String
  /-- The directory of the file. -/
  path : Option String
  /-- What the file holds. -/
  content : String
  deriving DecidableEq

/-- A call of a step. -/
inductive StepCall where
  /-- Stores a text. -/
  | storeText (text name : String)
  /-- Stores lines as one text. -/
  | storeMultilineText (name : String) (lines : List String)
  /-- Stores a well-formed XML document. -/
  | storeXmlText (name xml : String)
  /-- Stores a number. -/
  | storeNumber (number name : String)
  /-- Gives a variable another text, as it stands. -/
  | changeVariable (name value : String)
  /-- Makes a variable null. -/
  | emptyVariable (name : String)
  /-- Removes a variable. -/
  | deleteVariable (name : String)
  /-- Stores the value of another variable. -/
  | copyValue (source target : String)
  /-- Stores the text of another variable. -/
  | copyText (source target : String)
  /-- Stores a template, as it stands, with the text of a variable in the place of its name. -/
  | substituteVariable (name template target : String)
  /-- Stores the cells of a table of one row. -/
  | storeSequence (name : String) (table : Table)
  /-- Stores the cells of a table of one row as values of a kind. -/
  | storeTypedSequence (kind name : String) (table : Table)
  /-- Stores an item of a sequence at random. -/
  | storeRandomElement (collection name : String)
  /-- Stores the item at a place in a sequence. -/
  | storeElementAt (collection index name : String)
  /-- Stores the pieces of a text between separators. -/
  | splitIntoSequence (name separators target : String)
  /-- Stores a table of keys and values. -/
  | storeMapping (name : String) (table : Table)
  /-- Stores a value of a mapping at random. -/
  | storeRandomValue (mapping name : String)
  /-- Stores the value under a key of a mapping. -/
  | storeValueByKey (mapping key name : String)
  /-- Compares the text of a variable. -/
  | assertText (name : String) (check : TextCheck) (expected : String)
  /-- Demands null. -/
  | assertNull (name : String)
  /-- Demands something other than null. -/
  | assertNotNull (name : String)
  /-- Demands null or a blank text. -/
  | assertEmpty (name : String)
  /-- Demands a text that is not blank. -/
  | assertNotEmpty (name : String)
  /-- Stores the start of a day. -/
  | storeDate (date : DateParts) (format : Option String) (name : String)
  /-- Stores a time on the first day of the year 1. -/
  | storeTime (time : TimeParts) (format : Option String) (name : String)
  /-- Stores a moment. -/
  | storeDatetime (date : DateParts) (time : TimeParts) (format : Option String) (name : String)
  /-- Stores the moment it is. -/
  | storeCurrentDate (format : Option String) (name : String)
  /-- Stores the start of a day at random. -/
  | storeRandomDate (format : Option String) (name : String)
  /-- Stores a moment some way from another, or from the one it is. -/
  | storeShiftedDate (shift : Shift) (direction : Direction) (start : Option String)
      (format : Option String) (name : String)
  /-- Stores characters at random between two texts. -/
  | storeRandomText (charset : Charset) (length : UInt64) (before after : Option String)
      (name : String)
  /-- Stores a new identifier. -/
  | storeUuid (name : String)
  /-- Stores a telephone number by a mask. -/
  | storeRandomPhone (mask name : String)
  /-- Stores the name of a month at random. -/
  | storeRandomMonth (name : String)
  /-- Stores the name of a weekday at random. -/
  | storeRandomWeekday (name : String)
  /-- Stores a mail address at random. -/
  | storeRandomEmail (provider name : String)
  /-- Stores a network address at random. -/
  | storeRandomIp (name : String)
  /-- Stores the address of a site at random. -/
  | storeRandomUrl (name : String)
  /-- Writes files and stores their paths under their names. -/
  | createFiles (files : List FileRow)
  /-- Demands that files be there. -/
  | assertFilesExist (files : List FileRow)
  /-- Stores the text of a file. -/
  | storeFileContent (path name : String)
  /-- Writes the text of a variable to a file. -/
  | writeVariableToFile (name path : String)
  deriving DecidableEq

/-- The name of a step. -/
def StepCall.stepName : StepCall → String
  | .storeText .. => "storeText"
  | .storeMultilineText .. => "storeMultilineText"
  | .storeXmlText .. => "storeXmlText"
  | .storeNumber .. => "storeNumber"
  | .changeVariable .. => "changeVariable"
  | .emptyVariable .. => "emptyVariable"
  | .deleteVariable .. => "deleteVariable"
  | .copyValue .. => "copyValue"
  | .copyText .. => "copyText"
  | .substituteVariable .. => "substituteVariable"
  | .storeSequence .. => "storeSequence"
  | .storeTypedSequence .. => "storeTypedSequence"
  | .storeRandomElement .. => "storeRandomElement"
  | .storeElementAt .. => "storeElementAt"
  | .splitIntoSequence .. => "splitIntoSequence"
  | .storeMapping .. => "storeMapping"
  | .storeRandomValue .. => "storeRandomValue"
  | .storeValueByKey .. => "storeValueByKey"
  | .assertText .. => "assertText"
  | .assertNull .. => "assertNull"
  | .assertNotNull .. => "assertNotNull"
  | .assertEmpty .. => "assertEmpty"
  | .assertNotEmpty .. => "assertNotEmpty"
  | .storeDate .. => "storeDate"
  | .storeTime .. => "storeTime"
  | .storeDatetime .. => "storeDatetime"
  | .storeCurrentDate .. => "storeCurrentDate"
  | .storeRandomDate .. => "storeRandomDate"
  | .storeShiftedDate .. => "storeShiftedDate"
  | .storeRandomText .. => "storeRandomText"
  | .storeUuid .. => "storeUuid"
  | .storeRandomPhone .. => "storeRandomPhone"
  | .storeRandomMonth .. => "storeRandomMonth"
  | .storeRandomWeekday .. => "storeRandomWeekday"
  | .storeRandomEmail .. => "storeRandomEmail"
  | .storeRandomIp .. => "storeRandomIp"
  | .storeRandomUrl .. => "storeRandomUrl"
  | .createFiles .. => "createFiles"
  | .assertFilesExist .. => "assertFilesExist"
  | .storeFileContent .. => "storeFileContent"
  | .writeVariableToFile .. => "writeVariableToFile"

end Playbook
