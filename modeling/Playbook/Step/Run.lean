import Playbook.Step.Call
import Playbook.Step.Services
import Playbook.Coercion
import Playbook.Collection
import Playbook.File.Path
import Playbook.Xml.Document

/-!
# Running steps

What a step does to its scope and to the world. Almost all steps are of one of five forms: `create`
computes the value of a new variable, `replace` gives one that exists another value, `remove` takes
one away, `inspect` looks and changes no variable, and all of them change at most one variable, and
that last. Only the step that writes several files stores a variable after each of them.

`StepCall.run` says what a step does that comes to its end. A step may also panic, which happens
before it has done anything (`StepCall.attempt`).
-/

namespace Playbook

/-- What running a step does: it succeeds or fails, and leaves a stage behind in either case. -/
abbrev StepRun (σ : Type) := StateM (Stage σ) (Except StepError Unit)

namespace StepRun

variable {σ : Type}

/-- Fails or succeeds and changes nothing. -/
def done (result : Except StepError Unit) : StepRun σ := fun stage ↦ (result, stage)

/-- Puts a value into the store. -/
def put (name : String) (value : Value) : StepRun σ := fun stage ↦
  match stage.scope.store.set name value with
  | .ok store => (.ok (), { stage with scope := { stage.scope with store } })
  | .error e => (.error (.ofVariable e), stage)

/-- Goes on if a demand on the scope is met. -/
def demand (check : Scope → Except StepError Unit) (next : StepRun σ) : StepRun σ := fun stage ↦
  match check stage.scope with
  | .ok () => next stage
  | .error e => (.error e, stage)

/-- Goes on with what a computation yields. -/
def compute {α : Type} (work : Scope → Work σ α) (next : α → StepRun σ) : StepRun σ := fun stage ↦
  match stage.run (work stage.scope) with
  | (.ok a, stage) => next a stage
  | (.error e, stage) => (.error e, stage)

/-- The demand that the scope be active and have no such variable. -/
def absent (name : String) (scope : Scope) : Except StepError Unit :=
  StepError.lift do
    scope.requireActive
    scope.store.requireAbsent name

/-- The demand that the scope be active and have such a variable. -/
def present (name : String) (scope : Scope) : Except StepError Unit :=
  StepError.lift do
    scope.requireActive
    scope.store.requireExists name

/-- Stores a computed value in a new variable. -/
def create (name : String) (work : Scope → Work σ Value) : StepRun σ :=
  demand (absent name) (compute work (put name))

/-- Gives a variable that exists another value. -/
def replace (name : String) (value : Value) : StepRun σ := demand (present name) (put name value)

/-- Takes a variable away. -/
def remove (name : String) : StepRun σ := demand (present name) fun stage ↦
  match stage.scope.store.delete name with
  | .ok store => (.ok (), { stage with scope := { stage.scope with store } })
  | .error e => (.error (.ofVariable e), stage)

/-- Looks at an active scope and changes no variable. -/
def inspect (work : Scope → Work σ Unit) : StepRun σ :=
  demand (fun scope ↦ StepError.lift scope.requireActive)
    (compute work fun () ↦ done (.ok ()))

end StepRun

/-! ## What steps compute -/

namespace Scope

variable (scope : Scope)

/-- A text with its placeholders resolved, or the default if there is no text. -/
def resolveOr (default : String) : Option String → Except VariableError String
  | none => .ok default
  | some text => scope.resolve text

/-- The text of a variable that exists, or a failed assertion if it is null. -/
def textOf (name : String) (missing : String → FailedAssertion) : Except StepError String := do
  StepError.lift (scope.store.requireExists name)
  match scope.store.text? name with
  | some text => .ok text
  | none => .error (.assertion (missing name))

/-- The value of a variable that is not null. -/
def valueToCopy (name : String) : Except StepError Value := do
  let v ← StepError.lift (scope.store.get name)
  if v.value.isNull then .error (.assertion (.noValueToCopy name)) else .ok v.value

/-- A template with the text of a variable in the place of its name in braces. -/
def substituted (name template : String) : Except StepError String := do
  StepError.lift (scope.store.requireExists name)
  let text := (scope.store.text? name).getD ""
  .ok (String.ofList
    (Text.replaceAll (Placeholder.written name) text.toList template.toList))

/-- A text that is a well-formed XML document once its placeholders are resolved. -/
def xmlText (xml : String) : Except StepError String := do
  let text ← StepError.lift (scope.resolve xml)
  if Xml.isDocument text.toList then .ok text else .error (.invalidXml text)

/-- The item at a place of a sequence, the place given as a text with placeholders. -/
def elementAt (collection index : String) : Except StepError Value := do
  let resolved ← StepError.lift (scope.resolve index)
  match Number.index? (Text.trim resolved.toList) with
  | none => .error (.invalidIndex resolved)
  | some position => StepError.lift do (← scope.store.get collection).atIndex position

/-- The value under a key of a mapping, the key given as a text with placeholders. -/
def valueByKey (mapping key : String) : Except StepError Value :=
  StepError.lift do
    let key ← scope.resolveOrLiteral key
    (← scope.store.get mapping).byKey key

/-- The comparison of the text of a variable with a text with placeholders. -/
def compareText (name : String) (check : TextCheck) (expected : String) :
    Except StepError Unit := do
  StepError.lift (scope.store.requireExists name)
  let expected ← StepError.lift (scope.resolveOrLiteral expected)
  match scope.store.text? name with
  | none => .error (.assertion (.nullText name check expected))
  | some actual =>
    if check.holds actual.toList expected.toList then .ok ()
    else .error (.assertion (.otherText name actual check expected))

/-- The demand that a variable be null. -/
def demandNull (name : String) : Except StepError Unit := do
  let v ← StepError.lift (scope.store.get name)
  if v.value.isNull then .ok () else .error (.assertion (.notNull name))

/-- The demand that a variable not be null. -/
def demandNotNull (name : String) : Except StepError Unit := do
  let v ← StepError.lift (scope.store.get name)
  if v.value.isNull then .error (.assertion (.null name)) else .ok ()

/-- The text of a variable that exists, if it is neither null nor blank. -/
def visibleText? (name : String) : Except StepError (Option String) := do
  StepError.lift (scope.store.requireExists name)
  .ok ((scope.store.text? name).filter fun text ↦ !Text.allBlank text.toList)

/-- The demand that a variable be null or blank. -/
def demandEmpty (name : String) : Except StepError Unit := do
  match ← scope.visibleText? name with
  | some text => .error (.assertion (.notEmpty name text))
  | none => .ok ()

/-- The demand that a variable be neither null nor blank. -/
def demandNotEmpty (name : String) : Except StepError Unit := do
  match ← scope.visibleText? name with
  | some _ => .ok ()
  | none => .error (.assertion (.empty name))

end Scope

/-! ### Dates -/

/-- A moment as it is stored: as a text if there is a format for it. -/
def Moment.stored (m : Moment) (format : Option String) : Except StepError Value :=
  match format with
  | none => .ok (.dateTime m)
  | some format =>
    match m.format? format with
    | some text => .ok (.string text)
    | none => .error (.date (.badFormat format))

/-- The date with the given parts. -/
def DateParts.date (parts : DateParts) : Except StepError Date :=
  match parts.date? with
  | some date => .ok date
  | none => .error (.date (.noDate parts))

/-- The time of day with the given parts. -/
def TimeParts.time (parts : TimeParts) : Except StepError Time :=
  match parts.time? with
  | some time => .ok time
  | none => .error (.date (.noTime parts))

/-- The moment moved by a shift. -/
def Shift.move (shift : Shift) (direction : Direction) (m : Moment) : Except StepError Moment :=
  match shift.move? direction m with
  | some m => .ok m
  | none => .error (.date (.shiftedOut m shift))

namespace Scope

variable {σ : Type} (scope : Scope) (services : Services σ)

/-- The moment of a text with placeholders, or the one it is if there is no text. -/
def momentOrNow : Option String → Work σ Moment
  | none => Work.ask services.now
  | some text => Work.ofVariables do Moment.parse (← scope.resolve text) none

/-- Characters at random between two texts with placeholders. The characters are drawn first. -/
def randomText (charset : Charset) (length : UInt64) (before after : Option String) :
    Work σ Value := do
  let body ← Work.draw (services.data.characters charset length.toNat)
  let before ← Work.ofVariables (scope.resolveOr "" before)
  let after ← Work.ofVariables (scope.resolveOr "" after)
  return .string (before ++ body ++ after)

/-! ### Files -/

/-- The variable with the directory of files that come without one. -/
def userDirectory : String := "USER_DIR"

/-- The name of the file in a row, and its path. -/
def location (row : FileRow) : Except VariableError (String × String) := do
  let name ← scope.resolve row.name
  match row.path with
  | some path => return (name, Path.join (← scope.resolve path) name)
  | none => return (name, Path.join ((scope.store.text? userDirectory).getD ".") name)

/-- Writes the file of a row, and yields its name and path. -/
def createFile (row : FileRow) : Work σ (String × String) := do
  let (name, path) ← Work.ofVariables (scope.location row)
  let content ← Work.ofVariables (scope.resolve row.content)
  Work.askChecked (services.files.write path content)
  return (name, path)

/-- Demands that the files of all rows be there. -/
def demandFiles : List FileRow → Work σ Unit
  | [] => return ()
  | row :: rest => do
    let (_, path) ← Work.ofVariables (scope.location row)
    if ← Work.ask (services.files.isFile path) then demandFiles rest
    else Work.of (.error (.assertion (.fileMissing path)))

/-- Reads a file whose path has placeholders. -/
def fileContent (path : String) : Work σ Value := do
  let path ← Work.ofVariables (scope.resolve path)
  return .string (← Work.askChecked (services.files.read path))

/-- Writes the text of a variable to a file whose path has placeholders; null writes nothing into
it. -/
def writeVariable (name path : String) : Work σ Unit := do
  Work.ofVariables (scope.store.requireExists name)
  let path ← Work.ofVariables (scope.resolve path)
  Work.askChecked (services.files.write path ((scope.store.text? name).getD ""))

end Scope

/-! ## Steps -/

namespace StepRun

variable {σ : Type}

/-- Stores a value that takes no random words and nothing of the world. -/
def createFrom (name : String) (value : Scope → Except StepError Value) : StepRun σ :=
  create name fun scope ↦ Work.of (value scope)

/-- Stores a text that is drawn. -/
def createDrawn (name : String) (text : Draw String) : StepRun σ :=
  create name fun _ ↦ do return .string (← Work.draw text)

/-- Resolves a text before anything else. -/
def resolving (text : String) (next : String → StepRun σ) : StepRun σ :=
  compute (fun scope ↦ Work.ofVariables (scope.resolve text)) next

/-- Writes the files of the rows one after the other, and stores the path of each under its name. -/
def createFiles (services : Services σ) : List FileRow → StepRun σ
  | [] => done (.ok ())
  | row :: rest =>
    compute (fun scope ↦ scope.createFile services row) fun (name, path) stage ↦
      match put name (.string path) stage with
      | (.ok (), stage) => createFiles services rest stage
      | (.error e, stage) => (.error e, stage)

end StepRun

open StepRun

/-- Runs a step. -/
def StepCall.run {σ : Type} (services : Services σ) : StepCall → StepRun σ
  | .storeText text name =>
    createFrom name fun scope ↦ StepError.lift do return .string (← scope.resolve text)
  | .storeMultilineText name lines =>
    createFrom name fun scope ↦
      StepError.lift do return .string (← scope.resolve ("\n".intercalate lines))
  | .storeXmlText name xml => createFrom name fun scope ↦ do return .string (← scope.xmlText xml)
  | .storeNumber number name =>
    createFrom name fun scope ↦ StepError.lift do Value.parseNumber (← scope.resolve number)
  | .changeVariable name value => replace name (.string value)
  | .emptyVariable name => replace name .null
  | .deleteVariable name => remove name
  | .copyValue source target => createFrom target fun scope ↦ scope.valueToCopy source
  | .copyText source target =>
    createFrom target fun scope ↦ do
      return .string (← scope.textOf source .noTextToCopy)
  | .substituteVariable name template target =>
    createFrom target fun scope ↦ do return .string (← scope.substituted name template)
  | .storeSequence name table =>
    createFrom name fun scope ↦ do
      let cells ← table.cells scope
      StepError.lift (Value.ofItems .object (cells.map .string))
  | .storeTypedSequence kind name table =>
    match Kind.ofName? kind with
    | none => done (.error (.ofVariable (.unknownKind kind)))
    | some kind =>
      createFrom name fun scope ↦ do
        let cells ← table.cells scope
        StepError.lift (Value.parseCells cells kind)
  | .storeRandomElement collection name =>
    create name fun scope ↦ do
      let v ← Work.ofVariables (scope.store.get collection)
      Work.drawChecked v.randomItem
  | .storeElementAt collection index name =>
    createFrom name fun scope ↦ scope.elementAt collection index
  | .splitIntoSequence name separators target =>
    createFrom target fun scope ↦ do
      return Value.split (← scope.textOf name .noTextToSplit) separators
  | .storeMapping name table =>
    createFrom name fun scope ↦ do
      let pairs ← table.pairs scope
      StepError.lift (Value.ofEntries .object (pairs.map fun (key, text) ↦ (key, .string text)))
  | .storeRandomValue mapping name =>
    create name fun scope ↦ do
      let v ← Work.ofVariables (scope.store.get mapping)
      Work.drawChecked v.randomValue
  | .storeValueByKey mapping key name => createFrom name fun scope ↦ scope.valueByKey mapping key
  | .assertText name check expected =>
    inspect fun scope ↦ Work.of (scope.compareText name check expected)
  | .assertNull name => inspect fun scope ↦ Work.of (scope.demandNull name)
  | .assertNotNull name => inspect fun scope ↦ Work.of (scope.demandNotNull name)
  | .assertEmpty name => inspect fun scope ↦ Work.of (scope.demandEmpty name)
  | .assertNotEmpty name => inspect fun scope ↦ Work.of (scope.demandNotEmpty name)
  | .storeDate date format name =>
    createFrom name fun _ ↦ do Moment.stored ⟨← date.date, .midnight⟩ format
  | .storeTime time format name =>
    createFrom name fun _ ↦ do Moment.stored ⟨.dayOne, ← time.time⟩ format
  | .storeDatetime date time format name =>
    createFrom name fun _ ↦ do Moment.stored ⟨← date.date, ← time.time⟩ format
  | .storeCurrentDate format name =>
    create name fun _ ↦ do
      let now ← Work.ask services.now
      Work.of (now.stored format)
  | .storeRandomDate format name =>
    create name fun _ ↦ do
      let instant ← Work.draw services.data.instant
      Work.of (Moment.stored ⟨instant.date, .midnight⟩ format)
  | .storeShiftedDate shift direction start format name =>
    create name fun scope ↦ do
      let start ← scope.momentOrNow services start
      Work.of do (← shift.move direction start).stored format
  | .storeRandomText charset length before after name =>
    create name fun scope ↦ scope.randomText services charset length before after
  | .storeUuid name =>
    createDrawn name do return String.ofList (← services.data.uuid).text
  | .storeRandomPhone mask name =>
    resolving mask fun mask ↦ createDrawn name (services.data.phone mask)
  | .storeRandomMonth name => createDrawn name services.data.month
  | .storeRandomWeekday name => createDrawn name services.data.weekday
  | .storeRandomEmail provider name =>
    resolving provider fun provider ↦ createDrawn name (services.data.email provider)
  | .storeRandomIp name =>
    createDrawn name do return String.ofList (← services.data.ip).text
  | .storeRandomUrl name => createDrawn name services.data.url
  | .createFiles files =>
    demand (fun scope ↦ StepError.lift scope.requireActive) (StepRun.createFiles services files)
  | .assertFilesExist [] => done (.ok ())
  | .assertFilesExist (file :: files) =>
    inspect fun scope ↦ scope.demandFiles services (file :: files)
  | .storeFileContent path name => create name fun scope ↦ scope.fileContent services path
  | .writeVariableToFile name path =>
    inspect fun scope ↦ scope.writeVariable services name path

/-! ## Steps that panic -/

/-- Whether a step panics: it asks for a random text that there is no room for. By then it has seen
that its scope is active and has no such variable, and it has drawn nothing. -/
def StepCall.panics {σ : Type} (services : Services σ) (scope : Scope) : StepCall → Bool
  | .storeRandomText _ length _ _ name =>
    services.data.capacity < length.toNat && (absent name scope).toBool
  | _ => false

/-- Runs a step to its end. A step that panics comes to none, and it leaves everything as it was. -/
def StepCall.attempt {σ : Type} (services : Services σ) (call : StepCall) (stage : Stage σ) :
    Option (Except StepError Unit × Stage σ) :=
  if call.panics services stage.scope then none else some (call.run services stage)

namespace StepCall

variable {σ : Type} {services : Services σ} {call : StepCall} {stage : Stage σ}

theorem attempt_eq_some_iff {ended : Except StepError Unit × Stage σ} :
    call.attempt services stage = some ended ↔
      call.panics services stage.scope = false ∧ call.run services stage = ended := by
  rw [attempt]
  split <;> simp_all

end StepCall

end Playbook
