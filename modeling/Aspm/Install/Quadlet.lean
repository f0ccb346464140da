import Aspm.Lib.Fallible
import Aspm.Lib.Strings

/-!
# Rendering the unit of a role

`RenderRole` reads a Quadlet unit line by line, keeps its lines, and in the `[Container]` sections
replaces the environment file and the inline storage scopes by the selected ones.  Each line keeps
its end, so that what is written is the concatenation of what the lines give.

`strconv.Unquote` is a parameter.  A context that is cancelled ends the rendering with its error
and is left out.
-/

namespace Aspm.Install.Quadlet

open Json (Text byteLength)
open Strings (trimSpace isSpace isControl alphanumeric wordOf)
open Fallible (check)

inductive Error where
  | configuration
  | unit
deriving DecidableEq

/-! ## The configuration -/

inductive Role where
  | core
  | ingestion
  | retention
  | reports
  | verification
deriving DecidableEq

def Role.name : Role → Text
  | .core => "core".toList
  | .ingestion => "ingestion".toList
  | .retention => "retention".toList
  | .reports => "reports".toList
  | .verification => "verification".toList

/-- `quadlet.Config`. -/
structure Config where
  role : Role
  environmentFile : Text
  rawPrefix : Text
  readinessKey : Text
  normalizedPrefix : Text
  archivePrefix : Text
deriving DecidableEq

def segmentPattern : Text → Bool :=
  wordOf alphanumeric fun c => alphanumeric c || c ∈ ['.', '_', '-']

def environmentName : Text → Bool :=
  wordOf (fun c => (alphanumeric c && !('0' ≤ c && c ≤ '9')) || c = '_')
    fun c => alphanumeric c || c = '_'

def validKey (value : Text) (directory : Bool) : Bool :=
  value ≠ [] && byteLength value ≤ 1024 && ['/'].isSuffixOf value = directory &&
    (Strings.split '/' (if ['/'].isSuffixOf value then value.dropLast else value)).all
      segmentPattern

/-- Neither prefix covers the other. -/
def separate (a b : Text) : Bool := !a.isPrefixOf b && !b.isPrefixOf a

def Config.plain (config : Config) : Bool :=
  config.rawPrefix = [] && config.readinessKey = [] && config.normalizedPrefix = [] &&
    config.archivePrefix = []

def Config.archives (config : Config) : Bool :=
  config.normalizedPrefix = [] && validKey config.archivePrefix true &&
    separate config.archivePrefix config.rawPrefix

def validateConfig (config : Config) : Bool :=
  config.environmentFile = "/etc/aspm/".toList ++ config.role.name ++ ".env".toList &&
    match config.role with
    | .reports | .verification => config.plain
    | role =>
      validKey config.rawPrefix true && validKey config.readinessKey false &&
        config.rawPrefix.isPrefixOf config.readinessKey &&
        if role = .ingestion then
          validKey config.normalizedPrefix true &&
            separate config.normalizedPrefix config.rawPrefix
        else config.archives

/-- The lines that a configuration selects. -/
def selected (config : Config) : List Text :=
  ["EnvironmentFile=".toList ++ config.environmentFile] ++
  (if config.role = .reports ∨ config.role = .verification then [] else
    ["Environment=ASPM_S3_PREFIX=".toList ++ config.rawPrefix,
      "Environment=ASPM_S3_READINESS_KEY=".toList ++ config.readinessKey]) ++
  (if config.role = .ingestion then
    ["Environment=ASPM_S3_NORMALIZED_PREFIX=".toList ++ config.normalizedPrefix] else []) ++
  (if config.role = .core ∨ config.role = .retention then
    ["Environment=ASPM_S3_ARCHIVE_PREFIX=".toList ++ config.archivePrefix] else [])

/-! ## Lines -/

/-- `strings.SplitAfter(text, "\n")`. -/
def splitAfter : Text → List Text
  | [] => [[]]
  | c :: rest =>
    if c = '\n' then [c] :: splitAfter rest
    else match splitAfter rest with
      | [] => [[c]]
      | line :: lines => (c :: line) :: lines

/-- `strings.Cut(line, "=")`. -/
def cutAssignment (line : Text) : Option (Text × Text) :=
  match line.span (· ≠ '=') with
  | (_, []) => none
  | (key, _ :: value) => some (key, value)

inductive UnitLine where
  | skipped
  | refused
  | header (name : Text)
  | assignment (key value : Text)
deriving DecidableEq

def readLine (original : Text) : UnitLine :=
  let line := trimSpace original
  if line = [] || ['#'].isPrefixOf line || [';'].isPrefixOf line then .skipped
  else if ['\\'].isSuffixOf line then .refused
  else if ['['].isPrefixOf line then
    let name := (line.drop 1).dropLast
    if !([']'].isSuffixOf line) || line.length < 3 ||
        name.any (fun c => c ∈ ['[', ']', ' ', '\t', '\r', '\n']) then .refused
    else .header name
  else match cutAssignment line with
    | none => .refused
    | some (key, value) => .assignment (trimSpace key) (trimSpace value)

section Render

variable (unquote : Text → Option Text)

def assignmentName (value : Text) : Except Error Text := do
  let value ←
    (if ['"'].isPrefixOf value then
      match unquote value with
      | none => .error .unit
      | some decoded => .ok decoded
    else if value.any isSpace then .error .unit
    else .ok value : Except Error Text)
  match cutAssignment value with
  | none => .error .unit
  | some (name, _) => if environmentName name then .ok name else .error .unit

def reportEnvironment (name : Text) : Bool :=
  name ∈ ["ASPM_DATABASE_URL".toList, "ASPM_SCHEMA".toList, "ASPM_DB_MAX_CONNECTIONS".toList,
    "ASPM_LISTEN".toList, "ASPM_WORKER_ID".toList]

def verificationEnvironment (name : Text) : Bool :=
  name ∈ ["ASPM_DATABASE_URL".toList, "ASPM_SCHEMA".toList, "ASPM_DB_MAX_CONNECTIONS".toList,
    "ASPM_LISTEN".toList, "ASPM_VERIFICATION_LEASE_DURATION".toList,
    "ASPM_VERIFICATION_AUTHORIZATION_INTERVAL".toList,
    "ASPM_VERIFICATION_MAX_FIXTURE_BYTES".toList]

/-- The variables that a role may not set itself. -/
def reservedName (name : Text) : Bool :=
  "AWS_".toList.isPrefixOf name ||
    name ∈ ["ASPM_S3_ACCESS_KEY".toList, "ASPM_S3_SECRET_KEY".toList,
      "ASPM_BOOTSTRAP_TOKEN".toList]

/-- The variables whose assignments are dropped. -/
def replacedNames : List Text :=
  ["ASPM_S3_PREFIX".toList, "ASPM_S3_READINESS_KEY".toList, "ASPM_S3_NORMALIZED_PREFIX".toList]

/-- The variables of the loop. -/
structure Scan where
  current : Text
  hasContainer : Bool
  inserted : Bool
  seenEnvironment : List Text

def roleAllows (role : Role) (name : Text) : Bool :=
  match role with
  | .reports => reportEnvironment name
  | .verification => verificationEnvironment name
  | _ => true

/-- An assignment in a `[Container]` section, with what is written for it. -/
def containerLine (config : Config) (replacement : Text) (scan : Scan) (original key value : Text) :
    Except Error (Scan × Text) :=
  if key = "EnvironmentFile".toList then
    .ok (if scan.inserted then (scan, []) else ({ scan with inserted := true }, replacement))
  else if key ∈ ["Secret".toList, "PodmanArgs".toList, "ContainersConfModule".toList,
      "GlobalArgs".toList] then
    if value ≠ [] then .error .unit else .ok (scan, original)
  else if key = "EnvironmentHost".toList then
    if value ∉ [[], "false".toList, "\"false\"".toList] then .error .unit
    else .ok (scan, original)
  else if key = "Environment".toList then do
    let name ← assignmentName unquote value
    check .unit (roleAllows config.role name)
    check .unit (!reservedName name)
    if name ∈ replacedNames then pure (scan, [])
    else do
      check .unit (decide (name ∉ scan.seenEnvironment))
      pure ({ scan with seenEnvironment := name :: scan.seenEnvironment }, original)
  else .ok (scan, original)

def scanLine (config : Config) (replacement : Text) (scan : Scan) (original : Text) :
    Except Error (Scan × Text) :=
  match readLine original with
  | .skipped => .ok (scan, original)
  | .refused => .error .unit
  | .header name =>
    .ok ({ scan with
      current := name
      hasContainer := scan.hasContainer || name = "Container".toList }, original)
  | .assignment key value =>
    if scan.current = [] || key = [] then .error .unit
    else if scan.current = "Service".toList && key ∈ ["Environment".toList,
        "EnvironmentFile".toList, "PassEnvironment".toList] then .error .unit
    else if scan.current ≠ "Container".toList then .ok (scan, original)
    else containerLine unquote config replacement scan original key value

/-- The loop over the lines. -/
def scanLines (config : Config) (replacement : Text) :
    Scan → List Text → Except Error (Scan × Text)
  | scan, [] => .ok (scan, [])
  | scan, line :: lines => do
    let (scan, written) ← scanLine unquote config replacement scan line
    let (scan, rest) ← scanLines config replacement scan lines
    pure (scan, written ++ rest)

/-- No control characters but line ends and tabs, and carriage returns only in line ends. -/
def plainText : Text → Bool
  | [] => true
  | '\r' :: rest => rest.head? = some '\n' && plainText rest
  | c :: rest => (!isControl c || c = '\n' || c = '\t') && plainText rest

def newlineOf (text : Text) : Text :=
  if ['\r', '\n'] <:+: text then ['\r', '\n'] else ['\n']

def maxUnitBytes : ℕ := 65536

def containerHeader : Text := "[Container]".toList

def renderRole (source : Text) (config : Config) : Except Error Text := do
  check .configuration (validateConfig config)
  check .unit (source ≠ [] && byteLength source ≤ maxUnitBytes)
  check .unit (plainText source)
  let newline := newlineOf source
  let replacement := (selected config).flatMap (· ++ newline)
  let (scan, written) ← scanLines unquote config replacement ⟨[], false, false, []⟩
    (splitAfter source)
  check .unit scan.hasContainer
  let result :=
    if scan.inserted then written
    else written ++ (if ['\n'].isSuffixOf source then [] else newline) ++
      containerHeader ++ newline ++ replacement
  check .unit (byteLength result ≤ maxUnitBytes)
  pure result

end Render

end Aspm.Install.Quadlet
