import FormLogic.CommandLine.Run

/-!
# The program

Reads the files that a command names, runs it, and prints what it gives. A form is watched against
the clock: each line of input is taken as it comes, and a pass is made when its time has come.
-/

namespace FormLogic

/-- The text under a path, if there is a path and it can be read. -/
def readPath? : Option String → IO (Option String)
  | none => return none
  | some path => do
    try
      return some (← IO.FS.readFile path)
    catch _ =>
      return none

/-- What a command reads, its input aside. -/
def readSources (command : Command) : IO Sources := do
  let spec? ← readPath? command.specPath?
  let answers? ← readPath? command.answersPath?
  return { spec?, answers?, input := "" }

def printNow (text : String) : IO Unit := do
  let out ← IO.getStdout
  out.putStr text
  out.flush

/-- Waits for the next line, for as long as no pass is due; gives `none` when one is. -/
partial def awaitLine (w : Watch) (line : Task (Except IO.Error String)) : IO (Option String) := do
  if ← IO.hasFinished line then
    return some (← IO.ofExcept line.get)
  let now ← IO.monoNanosNow
  if w.form.debouncer.isDue now then
    return none
  IO.sleep 5
  awaitLine w line

/-- Takes lines until there are no more. -/
partial def watchLines (w : Watch) (input : IO.FS.Stream)
    (line : Task (Except IO.Error String)) : IO Unit := do
  match ← awaitLine w line with
  | none =>
    let (w, text) := w.tick (← IO.monoNanosNow)
    printNow text
    watchLines w input line
  | some "" => printNow w.finish.2
  | some text =>
    let w := w.takeLine (← IO.monoNanosNow) text
    watchLines w input (← IO.asTask input.getLine)

/-- A millisecond on the clock, which counts nanoseconds. -/
def millisecond : Nat := 1000000

/-- Watches a form, if there is one. -/
def watchInput (spec : FormSpec) (layout : Layout) : IO CommandResult := do
  match Watch.start spec layout millisecond with
  | .error error => return ⟨"", some (.form error)⟩
  | .ok (w, text) =>
    printNow text
    let input ← IO.getStdin
    watchLines w input (← IO.asTask input.getLine)
    return ⟨"", none⟩

/-- Runs a command and prints what it gives; what it logs goes beside, warnings only unless more
    is asked for. -/
def perform (verbose : Bool) (command : Command) : IO UInt32 := do
  let sources ← readSources command
  let result ← match command with
    | .watch spec debounce? layout =>
      match Command.watchedForm sources spec debounce? with
      | .ok form => watchInput form layout
      | .error error => pure ⟨"", some error⟩
    | _ => pure (command.run sources)
  for (level, text) in command.log sources do
    if verbose || level == .warn then
      (← IO.getStderr).putStrLn ("[" ++ level.name ++ "] " ++ text)
  printNow result.output
  if let some error := result.failure? then
    (← IO.getStderr).putStrLn ("Error: " ++ error.message)
  return result.exitCode.toUInt32

end FormLogic

def main (args : List String) : IO UInt32 :=
  match FormLogic.Invocation.ofArguments? args with
  | some invocation => FormLogic.perform invocation.verbose invocation.command
  | none => do
    (← IO.getStderr).putStrLn
      "usage: fields [--verbose] (refresh | watch | check | submit | operators) [options]"
    return 2
