import FormLogic.Number.Decimal

/-!
# Command line arguments

A command and its options. Every option of a command takes a value, which follows it or is joined
to it by an equals sign, and may be given once. The switch for a detailed log may stand before or
after the command.
-/

namespace FormLogic

/-- How a form is printed. -/
inductive Layout where
  | text
  | json
  deriving DecidableEq

namespace Layout

def ofName? : String → Option Layout
  | "text" => some text
  | "json" => some json
  | _ => none

end Layout

/-- What is to be done, with the names of the files that it takes. -/
inductive Command where
  | refresh (spec : String) (state? : Option String) (layout : Layout)
  | watch (spec : String) (debounce? : Option Nat) (layout : Layout)
  | check (spec : String)
  | submit (spec answers : String)
  | operators (kind? : Option String)
  deriving DecidableEq

/-- The options of a command as given. -/
structure Options where
  verbose : Bool
  values : List (String × String)

namespace Options

def empty : Options :=
  ⟨false, []⟩

def value? (o : Options) (name : String) : Option String :=
  (o.values.find? (·.1 == name)).map (·.2)

/-- The options with one more, which may not be there already. -/
def set? (o : Options) (name value : String) : Option Options :=
  if (o.value? name).isSome then none else some { o with values := (name, value) :: o.values }

def setVerbose? (o : Options) : Option Options :=
  if o.verbose then none else some { o with verbose := true }

end Options

namespace Arguments

def isVerboseSwitch (arg : String) : Bool :=
  arg == "--verbose" || arg == "--debug"

/-- Whether an argument cannot be the value of the option before it. -/
def isOption (arg : String) : Bool :=
  match arg.toList with
  | '-' :: _ :: _ => true
  | _ => false

/-- The name of an option and the value joined to it, if there is one. -/
def splitOption? (arg : String) : Option (String × Option String) :=
  match arg.toList with
  | '-' :: '-' :: rest =>
    let name := String.ofList (rest.takeWhile (· != '='))
    match rest.dropWhile (· != '=') with
    | _ :: value => some (name, some (String.ofList value))
    | [] => some (name, none)
  | _ => none

/-- The options in some arguments, if nothing else is among them. -/
def readOptions? (names : List String) (o : Options) : List String → Option Options
  | [] => some o
  | ["--"] => some o
  | arg :: rest =>
    if isVerboseSwitch arg then o.setVerbose?.bind fun o => readOptions? names o rest
    else
      match splitOption? arg with
      | none => none
      | some (name, joined?) =>
        if !names.contains name then none
        else
          match joined?, rest with
          | some value, rest => (o.set? name value).bind fun o => readOptions? names o rest
          | none, value :: rest =>
            if isOption value then none
            else (o.set? name value).bind fun o => readOptions? names o rest
          | none, [] => none

/-- The name of a file, which is never empty. -/
def path? (text : String) : Option String :=
  if text.isEmpty then none else some text

/-- A number of milliseconds that fits into 64 bits. -/
def milliseconds? (text : String) : Option Nat :=
  let digits := match text.toList with
    | '+' :: rest => rest
    | cs => cs
  if digits ≠ [] ∧ digits.all isDigit ∧ digitsValue digits < wordLimit then some (digitsValue digits)
  else none

/-- An option that may be missing. -/
def optional? {α : Type} (o : Options) (name : String) (read : String → Option α) :
    Option (Option α) :=
  match o.value? name with
  | none => some none
  | some text => (read text).map some

def layout? (o : Options) : Option Layout :=
  (optional? o "format" Layout.ofName?).map (·.getD .text)

/-- The options that a command knows. -/
def optionNames : String → Option (List String)
  | "refresh" => some ["spec", "state", "format"]
  | "watch" => some ["spec", "debounce-ms", "format"]
  | "check" => some ["spec"]
  | "submit" => some ["spec", "answers"]
  | "operators" => some ["kind"]
  | _ => none

/-- A command with its options. -/
def command? (name : String) (o : Options) : Option Command := do
  match name with
  | "refresh" =>
    let spec ← (o.value? "spec").bind path?
    return .refresh spec (← optional? o "state" path?) (← layout? o)
  | "watch" =>
    let spec ← (o.value? "spec").bind path?
    return .watch spec (← optional? o "debounce-ms" milliseconds?) (← layout? o)
  | "check" => return .check (← (o.value? "spec").bind path?)
  | "submit" =>
    let spec ← (o.value? "spec").bind path?
    return .submit spec (← (o.value? "answers").bind path?)
  | "operators" => return .operators (o.value? "kind")
  | _ => none

end Arguments

/-- A command, and whether a detailed log is asked for. -/
structure Invocation where
  verbose : Bool
  command : Command

namespace Invocation

/-- The command that arguments ask for, after the switches in front of it. -/
def ofCommand? (verbose : Bool) : List String → Option Invocation
  | [] => none
  | name :: rest => do
    let names ← Arguments.optionNames name
    let options ← Arguments.readOptions? names Options.empty rest
    return ⟨verbose || options.verbose, ← Arguments.command? name options⟩

/-- What arguments ask for. -/
def ofArguments? : List String → Option Invocation
  | [] => none
  | arg :: rest =>
    if Arguments.isVerboseSwitch arg then ofCommand? true rest else ofCommand? false (arg :: rest)

end Invocation

end FormLogic
