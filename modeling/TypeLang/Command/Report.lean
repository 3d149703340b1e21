import TypeLang.Log.Filter
import TypeLang.Text.Controls

namespace TypeLang.Command

inductive Message : Type
  | log (record : Log.Record)
  | question (text : String)
  deriving DecidableEq, Repr

structure Report where
  output : String
  messages : List Message
  deriving DecidableEq, Repr

namespace Report

def empty : Report := ⟨"", []⟩

def print (text : String) (r : Report) : Report := { r with output := r.output ++ text ++ "\n" }

def tell (ms : List Message) (r : Report) : Report := { r with messages := r.messages ++ ms }

def note (log : Log) (r : Report) : Report := r.tell (log.map .log)

end Report

def levelName : Log.Level → String
  | .error => "ERROR"
  | .warn => "WARN"
  | .info => "INFO"
  | .debug => "DEBUG"
  | .trace => "TRACE"

/-- A record on a line of its own. The further lines of its text are set in by four spaces. -/
def recordLine (r : Log.Record) : String :=
  let text := r.text.toList.flatMap fun c => if c = '\n' then "\n    ".toList else [c]
  Text.withoutControls (levelName r.level ++ " " ++ String.ofList text ++ "\n")

def Message.render (f : Log.Filter) : Message → String
  | .log r => if f.shows r then recordLine r else ""
  | .question text => text

namespace Report

def renderMessages (f : Log.Filter) (r : Report) : String :=
  String.join (r.messages.map (Message.render f))

def questionCount (r : Report) : Nat :=
  r.messages.countP fun
    | .question _ => true
    | .log _ => false

end Report

end TypeLang.Command
