import TypeLang.Command.Run

/-!
The program on the command line. It reads the files of a task beforehand. Answers to questions are
read one line at a time: as long as a task asks for more lines than were read, its new questions
are shown and the next line is read.
-/

namespace TypeLang.Command

def systemMessage : IO.Error → String
  | .noFileOrDirectory .. => "No such file or directory (os error 2)"
  | .permissionDenied .. => "Permission denied (os error 13)"
  | .inappropriateType _ code details => s!"{details} (os error {code})"
  | .resourceExhausted _ code details => s!"{details} (os error {code})"
  | .otherError code details => s!"{details} (os error {code})"
  | e => toString e

def readFile (path : String) : IO (Except String ByteArray) := do
  try return .ok (← IO.FS.readBinFile path)
  catch e => return .error (systemMessage e)

def writeFile (save : Save) : IO (Except String Unit) := do
  try
    IO.FS.writeFile save.path save.text
    return .ok ()
  catch e => return .error (systemMessage e)

partial def readLine (input : IO.FS.Stream) (line : List UInt8) : IO (List UInt8) := do
  match (← input.read 1).toList with
  | [] => return line.reverse
  | b :: _ => if b = 10 then return (b :: line).reverse else readLine input (b :: line)

/-- Runs a task with the answers that have been read, and goes on while it asks for more. What has
been shown of the messages is their first `shown` characters. -/
partial def perform (task : Task) (file : String → Except String ByteArray) (filter : Log.Filter)
    (answers : List UInt8) (shown : Nat) (input : IO.FS.Stream) : IO (Ending × Nat) := do
  let ending := task.finish ⟨file, answers⟩
  if ending.report.questionCount ≤ Prompt.lineCount answers then return (ending, shown)
  else
    let messages := ending.report.renderMessages filter
    IO.eprint (messages.drop shown)
    (← IO.getStderr).flush
    let line ← readLine input []
    if line.isEmpty then return (ending, messages.length)
    else perform task file filter (answers ++ line) messages.length input

def runTask (task : Task) (filter : Log.Filter) : IO UInt8 := do
  let files ← task.files.mapM fun path => do return (path, ← readFile path)
  let file (path : String) : Except String ByteArray :=
    (files.lookup path).getD (.error "not read")
  let (ending, shown) ← perform task file filter [] 0 (← IO.getStdin)
  let ending ← match ending.save? with
    | none => pure ending
    | some save => pure (ending.saved save (← writeFile save))
  IO.print ending.report.output
  IO.eprint ((ending.messages filter).drop shown)
  return ending.code

end TypeLang.Command

open TypeLang TypeLang.Command in
def main (args : List String) : IO UInt32 := do
  let setting := (← IO.getEnv "RUST_LOG").elim Log.Setting.standard Log.Setting.read
  IO.eprint setting.warnings
  match Request.ofArgs args with
  | .run task => return (← runTask task setting.filter).toUInt32
  | .version =>
    IO.print versionText
    return 0
  | .help =>
    IO.print helpText
    return 0
  | .misuse =>
    IO.eprint misuseText
    return 2
