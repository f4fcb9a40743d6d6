import M1nd.Control.Policy
import M1nd.Library.TextLines

namespace M1nd.Mcp

open M1nd.Control
open M1nd.Library.Json (utf8)
open M1nd.Library.TextLines

section Letters

structure Letter where
  id : String
  ts : String
  agent : String
  class_ : String
  repo : String
  brain : String
  tool : String
  what : String
  expected : String
  snippet : String
  answers : List String
  kind : Option String
  raw : Text
deriving DecidableEq

-- What serde_json reads of a letter's line.
class LetterJson where
  fromStr : Text → Option Letter

def CLASS_MEMORY_MISDELIVERY : String := "memory_misdelivery"
def CLASS_TRIAGE : String := "triage"
def KIND_MISSION : String := "mission"

def isLineEnd (c : Char) : Bool :=
  c = '\n' || c = '\r'

variable [Sha256]

def letterId (rawLine : Text) : String :=
  let bytes := utf8 (String.ofList (rawLine.rdropWhile isLineEnd))
  String.ofList ((hexLower (Sha256.finalize bytes).toList).toList.take 12)

variable [LetterJson]

def parseLetter (rawLine : Text) : Option Letter :=
  let trimmed := trim isWhiteSpace rawLine
  if trimmed = [] then none
  else (LetterJson.fromStr trimmed).map fun letter =>
    { letter with id := letterId rawLine, raw := trimmed }

def readLetters (text : Text) : List Letter :=
  (lines text).filterMap parseLetter

end Letters

section Paths

-- What `PathBuf` compares: no empty component, and no "." but a leading one.
structure Place where
  hasRoot : Bool
  components : List Text
deriving DecidableEq

def Place.of (path : Text) : Place :=
  let names := (path.splitOn '/').filter (· ≠ [])
  let leading := if path.head? = some '/' then [] else names.take 1
  { hasRoot := path.head? = some '/'
    components := leading ++ (names.drop leading.length).filter (· ≠ ['.']) }

namespace Place

def join (place : Place) (components : List Text) : Place :=
  { place with components := place.components ++ components }

def parent (place : Place) : Place :=
  { place with components := place.components.dropLast }

def isPrefix (place other : Place) : Bool :=
  place.hasRoot = other.hasRoot && place.components.isPrefixOf other.components

def fileName (place : Place) : Option Text :=
  match place.components.getLast? with
  | some name => if name = ['.'] ∨ name = ['.', '.'] then none else some name
  | none => none

end Place

-- `PathBuf::join` on the texts of two paths.
def joinPath (path other : Text) : Text :=
  if other.head? = some '/' ∨ path = [] then other
  else if path.getLast? = some '/' then path ++ other
  else path ++ '/' :: other

end Paths

section Routing

inductive BoxTarget
  | Project (repoDir : Text)
  | Medulla
  | Pending (name : Text)
deriving DecidableEq

-- What `distribute` is told of the machine, with the home directory of the environment.
structure Routes where
  ownerRuntimeRoot : Text
  worktreeBase : Text
  knownRepos : BTreeMap Text
  home : Option Text

def expandHomeWith (raw : Text) (home : Option Text) : Text :=
  let trimmed := trim isWhiteSpace raw
  match home with
  | none => trimmed
  | some home =>
      if ['~', '/'] <+: trimmed then joinPath home (trimmed.drop 2)
      else if trimmed = ['~'] then home
      else trimmed

-- Without a parenthesis the whole text is taken.
def stripParenthetical (raw : Text) : Text :=
  trim isWhiteSpace (raw.takeWhile (· ≠ '('))

def collapseWorktree (name worktreeBase : Text) : Text :=
  if name = worktreeBase then name
  else if worktreeBase <+: name then
    let rest := name.drop worktreeBase.length
    if rest.head? = some '-' ∨ rest = [] then worktreeBase else name
  else name

def toAsciiLowercase (text : Text) : Text :=
  text.map Char.toLower

def repoMatchKey (normalizedName : Text) : String :=
  String.ofList (toAsciiLowercase normalizedName)

namespace Routes

variable (routes : Routes)

-- The path of a field, as three functions of the source compute it.
def fieldPath (raw : Text) : Text :=
  (trim isWhiteSpace (expandHomeWith (stripParenthetical raw) routes.home)).rdropWhile (· = '/')

def normalizeRepo (raw : Text) : Text :=
  let expanded := routes.fieldPath raw
  collapseWorktree ((Place.of expanded).fileName.getD expanded) routes.worktreeBase

def isProjectless (raw : Text) : Bool :=
  let noParen := stripParenthetical raw
  if routes.fieldPath raw = routes.ownerRuntimeRoot.rdropWhile (· = '/') then true
  else
    let low := toAsciiLowercase noParen
    low = "all".toList || low = [] || "research task".toList.isPrefixOf low ||
      trim isWhiteSpace noParen = []

def routingField (letter : Letter) : Text :=
  if trim isWhiteSpace letter.brain.toList ≠ [] then letter.brain.toList else letter.repo.toList

def resolveBox (isDir : Place → Bool) (letter : Letter) : BoxTarget :=
  let field := routingField letter
  if routes.isProjectless field then .Medulla
  else
    let normalized := routes.normalizeRepo field
    let asPath := routes.fieldPath field
    if asPath.head? = some '/' ∧ isDir (Place.of asPath) then .Project asPath
    else
      match routes.knownRepos[repoMatchKey normalized]? with
      | some dir => if isDir (Place.of dir) then .Project dir else .Pending normalized
      | none => .Pending normalized

end Routes

-- `BOX_REL_PATH` in a repository.
def boxPathForRepo (repoDir : Text) : Place :=
  (Place.of repoDir).join [".m1nd".toList, "inbox.jsonl".toList]

def medullaBoxPath (ownerRuntimeRoot : Text) : Place :=
  (Place.of ownerRuntimeRoot).join ["inbox.jsonl".toList]

end Routing

section Disks

-- The places at which the operating system refuses its service stay the same.
structure BoxDisk where
  files : Place → Option Text
  dirs : Place → Bool
  refuses : Place → Bool

def GITIGNORE_LINE : Text := "inbox.jsonl\n".toList

namespace BoxDisk

variable (disk : BoxDisk)

-- A file that is not there holds nothing.
def text (place : Place) : Text :=
  (disk.files place).getD []

def readToString (place : Place) : Option Text :=
  if disk.refuses place then none else some (disk.text place)

def createDirAll (place : Place) : Option BoxDisk :=
  if disk.refuses place then none
  else some { disk with dirs := fun other => disk.dirs other || other.isPrefix place }

def append (place : Place) (text : Text) : Option BoxDisk :=
  if disk.refuses place then none
  else some { disk with
    files := fun other => if other = place then some (disk.text place ++ text)
      else disk.files other }

def exists_ (place : Place) : Bool :=
  (disk.files place).isSome || disk.dirs place

def ensureBoxBirth (repoDir : Place) : Option BoxDisk := do
  let m1ndDir := repoDir.join [".m1nd".toList]
  let gitignore := m1ndDir.join [".gitignore".toList]
  let disk ← disk.createDirAll m1ndDir
  if disk.exists_ gitignore then some disk else disk.append gitignore GITIGNORE_LINE

def appendLetter (box : Place) (letter : Letter) : Option BoxDisk := do
  let disk ← disk.createDirAll box.parent
  disk.append box (letter.raw ++ ['\n'])

variable [Sha256] [LetterJson]

def boxIds (box : Place) : Option (BTreeSet String) :=
  (disk.readToString box).map fun text => .ofList ((readLetters text).map Letter.id)

end BoxDisk

end Disks

section Distribution

variable [Sha256] [LetterJson]

structure FiledLetter where
  id : String
  target : Text
  appended : Bool
deriving DecidableEq

structure DistributionReceipt where
  filed : List FiledLetter
  spoolTotal : Nat
  appended : Nat
  toProject : Nat
  toMedulla : Nat
  pending : List String

structure Pass where
  disk : BoxDisk
  boxIdCache : Place → Option (BTreeSet String)
  filed : List FiledLetter
  appended : Nat
  toProject : Nat
  toMedulla : Nat
  pending : List String

namespace Pass

variable (pass : Pass)

def start (disk : BoxDisk) : Pass where
  disk := disk
  boxIdCache := fun _ => none
  filed := []
  appended := 0
  toProject := 0
  toMedulla := 0
  pending := []

def cachedIds (box : Place) : Option (BTreeSet String) :=
  match pass.boxIdCache box with
  | some ids => some ids
  | none => pass.disk.boxIds box

def remember (box : Place) (ids : BTreeSet String) : Pass :=
  { pass with boxIdCache := fun other => if other = box then some ids else pass.boxIdCache other }

-- What the source does with a letter in the arm of a project and in that of the medulla.
def fileInto (box : Place) (letter : Letter) (target : Text) : Option Pass := do
  let ids ← pass.cachedIds box
  if letter.id ∈ ids then
    some { pass.remember box ids with filed := pass.filed ++ [⟨letter.id, target, false⟩] }
  else do
    let disk ← pass.disk.appendLetter box letter
    some { pass.remember box (ids.insert letter.id) with
      disk := disk
      appended := pass.appended + 1
      filed := pass.filed ++ [⟨letter.id, target, true⟩] }

def deliver (routes : Routes) (pass : Pass) (letter : Letter) : Option Pass :=
  match routes.resolveBox pass.disk.dirs letter with
  | .Project repoDir => do
      let disk ← pass.disk.ensureBoxBirth (Place.of repoDir)
      let pass ← { pass with disk := disk }.fileInto (boxPathForRepo repoDir) letter
        ("project:".toList ++ repoDir)
      some { pass with toProject := pass.toProject + 1 }
  | .Medulla => do
      let pass ← pass.fileInto (medullaBoxPath routes.ownerRuntimeRoot) letter "medulla".toList
      some { pass with toMedulla := pass.toMedulla + 1 }
  | .Pending name =>
      some { pass with
        pending := pass.pending ++ [String.ofList name]
        filed := pass.filed ++ [⟨letter.id, "pending:".toList ++ name, false⟩] }

end Pass

-- The spool is only read.
def distribute (routes : Routes) (spool : Text) (disk : BoxDisk) :
    Option (BoxDisk × DistributionReceipt) :=
  let letters := readLetters spool
  (letters.foldlM (Pass.deliver routes) (Pass.start disk)).map fun pass =>
    (pass.disk, {
      filed := pass.filed
      spoolTotal := letters.length
      appended := pass.appended
      toProject := pass.toProject
      toMedulla := pass.toMedulla
      pending := pass.pending.mergeSort.eraseReps })

end Distribution

section Sweep

inductive LetterFate
  | WetInk
  | InFlight
  | FiredClay
  | External
deriving DecidableEq

def LetterFate.asStr : LetterFate → String
  | .WetInk => "wet_ink"
  | .InFlight => "in_flight"
  | .FiredClay => "fired_clay"
  | .External => "external"

def deriveFate (id : String) (answered externalIds inFlightIds : BTreeSet String) : LetterFate :=
  if id ∈ externalIds then .External
  else if id ∈ answered then .FiredClay
  else if id ∈ inFlightIds then .InFlight
  else .WetInk

def isReceipt (letter : Letter) : Bool :=
  toAsciiLowercase letter.class_.toList = CLASS_TRIAGE.toList

def answeredSet (letters : List Letter) : BTreeSet String :=
  .ofList ((letters.filter isReceipt).flatMap Letter.answers)

def inFlightSet (letters : List Letter) (closed : BTreeSet String) : BTreeSet String :=
  .ofList (((letters.filter (!isReceipt ·)).flatMap Letter.answers).filter (· ∉ closed))

def answeredBy (letters : List Letter) (id : String) : List String :=
  letters.flatMap fun letter => (letter.answers.filter (· = id)).map fun _ => letter.id

def isFieldReport (letter : Letter) : Bool :=
  letter.kind ≠ some KIND_MISSION

def isExternal (letter : Letter) (foreignTools : List String) : Bool :=
  let tool := toAsciiLowercase letter.tool.toList
  foreignTools.any fun foreign => foreign.toList <:+: tool

structure KnownBox where
  label : String
  path : Place
  reachable : Bool

structure SweptLetter where
  id : String
  ts : String
  agent : String
  class_ : String
  repo : String
  brain : String
  tool : String
  what : String
  expected : String
  snippet : String
  answers : List String
  answeredBy : List String
  state : String
deriving DecidableEq

structure SweepResult where
  letters : List SweptLetter
  total : Nat
  open_ : Nat
  unreachable : List String
  misdelivery : Nat

def viewLetters (letters : List Letter) (foreignTools : List String) : List SweptLetter :=
  let answered := answeredSet letters
  let externalIds : BTreeSet String :=
    .ofList ((letters.filter (isExternal · foreignTools)).map Letter.id)
  let inFlightIds := inFlightSet letters answered
  letters.map fun letter =>
    { id := letter.id
      ts := letter.ts
      agent := letter.agent
      class_ := letter.class_
      repo := letter.repo
      brain := letter.brain
      tool := letter.tool
      what := letter.what
      expected := letter.expected
      snippet := letter.snippet
      answers := letter.answers
      answeredBy := answeredBy letters letter.id
      state := (deriveFate letter.id answered externalIds inFlightIds).asStr }

variable [Sha256] [LetterJson]

def collectLetters (byId : BTreeMap Letter) (letters : List Letter) : BTreeMap Letter :=
  letters.foldl (fun byId letter =>
    if isFieldReport letter then byId.insertIfNew letter.id letter else byId) byId

def sweepBox (disk : BoxDisk) (byId : BTreeMap Letter) (box : KnownBox) : Option (BTreeMap Letter) :=
  if box.reachable then
    (disk.readToString box.path).map fun text => collectLetters byId (readLetters text)
  else some byId

def inboxSweep (spool : Text) (disk : BoxDisk) (boxes : List KnownBox) (foreignTools : List String) :
    Option SweepResult := do
  let byId ← boxes.foldlM (sweepBox disk) (collectLetters ∅ (readLetters spool))
  let viewed := viewLetters byId.values foreignTools
  some {
    letters := viewed
    total := viewed.length
    open_ := viewed.countP fun letter => letter.state = "wet_ink" || letter.state = "in_flight"
    unreachable :=
      ((boxes.filter (!KnownBox.reachable ·)).map KnownBox.label).mergeSort.eraseReps
    misdelivery := viewed.countP (·.class_ = CLASS_MEMORY_MISDELIVERY) }

end Sweep

end M1nd.Mcp
