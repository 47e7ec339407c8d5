import FormLogic.CommandLine.Files
import FormLogic.CommandLine.Watch
import FormLogic.Service.Request

/-!
# Running a command

What a command prints, given the texts that it reads.
-/

namespace FormLogic

/-- Why a command fails. -/
inductive CommandError where
  | unreadableFile (name : String)
  | malformedFile (name : String)
  | form (error : FormError)
  | service (error : ServiceError)
  /-- The service answers a call with an error. -/
  | refused (message : String)
  | malformedResponse
  | invalidRules
  | invalidSubmission

namespace CommandError

def message : CommandError → String
  | unreadableFile name => "cannot read '" ++ name ++ "'"
  | malformedFile name => "cannot make sense of '" ++ name ++ "'"
  | form error => error.message
  | service error => error.message
  | refused message => message
  | malformedResponse => "cannot make sense of the response"
  | invalidRules => "rule check failed"
  | invalidSubmission => "submission check failed"

end CommandError

/-- What a command printed, and why it failed if it did. -/
structure CommandResult where
  output : String
  failure? : Option CommandError

namespace CommandResult

def exitCode (r : CommandResult) : Nat :=
  if r.failure?.isSome then 1 else 0

/-- A command that fails has printed nothing, unless it says so. -/
def ofExcept : Except CommandError CommandResult → CommandResult
  | .ok result => result
  | .error error => ⟨"", some error⟩

end CommandResult

namespace Command

/-- Lines, each with its end. -/
def unlines (lines : List String) : String :=
  String.join (lines.map (· ++ "\n"))

/-- The text under a path, read as something. -/
def readText {α : Type} (path : String) (text? : Option String) (read : String → Option α) :
    Except CommandError α :=
  match text? with
  | none => .error (.unreadableFile path)
  | some text =>
    match read text with
    | none => .error (.malformedFile path)
    | some value => .ok value

/-- The form definition under a path. -/
def readSpec (s : Sources) (path : String) : Except CommandError FormSpec :=
  readText path s.spec? FormSpec.ofText?

/-- The answers under a path; none if there is no path. -/
def readAnswers (s : Sources) : Option String → Except CommandError Json
  | some path => readText path s.answers? Json.valueOfText?
  | none => .ok (.object [])

/-- The value that the service answers a call with, unless it says what is wrong. -/
def readResponse (response : String) : Except CommandError Json :=
  match Json.valueOfText? response with
  | none => .error .malformedResponse
  | some value =>
    match (value.member? "error").bind Json.string? with
    | some message => .error (.refused message)
    | none => .ok value

/-- Prints a form after one visibility pass. -/
def refreshForm (s : Sources) (spec : String) (state? : Option String) (layout : Layout) :
    Except CommandError CommandResult := do
  let (text, form) ← readText spec s.spec? fun text => (FormSpec.ofText? text).map (text, ·)
  let answers ← readAnswers s state?
  match layout with
  | .text =>
    let view ← (FormView.ofAnswers form answers).mapError .form
    return ⟨unlines [view.toText], none⟩
  | .json =>
    let config := (ServiceConfig.mk (some text) none).toJson.compact
    let view ← readResponse (Endpoint.refresh form.id config answers.compact)
    return ⟨unlines [view.pretty], none⟩

/-- The form to watch, with the quiet period asked for. -/
def watchedForm (s : Sources) (spec : String) (debounce? : Option Nat) :
    Except CommandError FormSpec := do
  let form ← readSpec s spec
  return match debounce? with
    | some debounce => { form with policy? := some { form.policy with debounce } }
    | none => form

/-- Prints a form after each burst of inputs, when all inputs come at once. -/
def watchForm (s : Sources) (spec : String) (debounce? : Option Nat) (layout : Layout) :
    Except CommandError CommandResult := do
  let form ← watchedForm s spec debounce?
  let output ← (Watch.replay form layout (s.input.splitOn "\n")).mapError .form
  return ⟨output, none⟩

def issueLine (i : Issue) : String :=
  "  " ++ i.severity.name ++ " " ++ i.path.text ++ " [" ++ i.fault.code ++ "] " ++ i.fault.message

/-- Prints what is wrong with a form definition. -/
def checkForm (s : Sources) (spec : String) : Except CommandError CommandResult := do
  let form ← readSpec s spec
  let issues := form.issues
  let valid := Check.isValid issues
  return {
    output := unlines
      (("Rule check: " ++ if valid then "valid" else "invalid") :: issues.map issueLine)
    failure? := if valid then none else some .invalidRules }

/-- A line with a title and some ids, unless there are none. -/
def idsLine (title : String) (ids : List String) : List String :=
  if ids.isEmpty then [] else [title ++ ": " ++ ", ".intercalate ids]

def submissionLines (s : Submission) : List String :=
  [ "Submission: " ++ if s.isValid then "valid" else "invalid",
    "Enabled fields: " ++ ", ".intercalate s.enabled ]
    ++ idsLine "Disabled fields" s.disabled
    ++ (if s.errors.isEmpty then []
        else "Errors:" :: s.errors.map fun (id, fault) => "  " ++ id ++ " - " ++ fault.message)
    ++ idsLine "Missing required answers" s.missingRequired
    ++ idsLine "Unknown answer fields" s.unknownFields

/-- Prints what a submission comes to. -/
def submitForm (s : Sources) (spec answers : String) :
    Except CommandError CommandResult := do
  let form ← readSpec s spec
  let answers ← readAnswers s (some answers)
  let submission ← (Submission.check form answers).mapError .form
  return {
    output := unlines (submissionLines submission)
    failure? := if submission.isValid then none else some .invalidSubmission }

/-- A text filled up with blanks. -/
def padRight (width : Nat) (text : String) : String :=
  text ++ String.ofList (List.replicate (width - text.length) ' ')

def operatorLine (op : Operator) : String :=
  padRight 4 op.id ++ " " ++ op.symbol ++ "  " ++ op.label ++ " ("
    ++ ", ".intercalate (op.kinds.map ValueKind.name) ++ ")"

/-- Prints the operators for a kind of value. -/
def listOperators (kind? : Option String) : Except CommandError CommandResult := do
  let ops ← (Service.operatorsFor (kind?.getD "")).mapError .service
  return ⟨unlines (ops.map operatorLine), none⟩

/-- Runs a command. -/
def run (s : Sources) (c : Command) : CommandResult :=
  CommandResult.ofExcept <|
    match c with
    | refresh spec state? layout => refreshForm s spec state? layout
    | watch spec debounce? layout => watchForm s spec debounce? layout
    | check spec => checkForm s spec
    | submit spec answers => submitForm s spec answers
    | operators kind? => listOperators kind?

/-- The form on which a command makes a single visibility pass. -/
def singlePass (s : Sources) : Command → Except CommandError (Option FormState)
  | refresh spec state? _ => do
    let form ← readSpec s spec
    let answers ← readAnswers s state?
    return some (← (FormState.ofAnswers form answers).mapError .form)
  | submit spec answers => do
    let form ← readSpec s spec
    let answers ← readAnswers s (some answers)
    let state ← (FormState.ofSpec form).mapError .form
    return some (Submission.intake state answers).state
  | watch _ _ _ | check _ | operators _ => .ok none

/-- What the single pass of a command logs. -/
def log (s : Sources) (c : Command) : List (LogLevel × String) :=
  match c.singlePass s with
  | .ok (some state) => state.refresh.2.log
  | _ => []

end Command

end FormLogic
