import TypeLang.Codec.Stream
import TypeLang.Command.Args
import TypeLang.Command.Report
import TypeLang.Decl.Hash
import TypeLang.Schema.Groups
import TypeLang.Schema.Packed
import TypeLang.Value.Render

namespace TypeLang.Command

open Text

/-- What a task sees. A file is its bytes, or why it cannot be read. -/
structure Scene where
  file : String → Except String ByteArray
  input : List UInt8

structure Save where
  path : String
  text : String
  deriving DecidableEq, Repr

inductive Halt : Type
  | failed (message : String)
  | crashed (message : String)
  deriving DecidableEq, Repr

abbrev Course (α : Type) := ExceptT Halt (StateM Report) α

def note (log : Log) : Course Unit := modify (·.note log)

def print (text : String) : Course Unit := modify (·.print text)

def orEnd {ε α : Type} (message : ε → String) : Except ε α → Course α
  | .ok a => return a
  | .error e => throw (.failed (message e))

def about (path message : String) : String := path ++ ": " ++ message

/-- The text behind the last point of a file name. A name that begins with its only point has
none. -/
def extension? (path : String) : Option (List Char) :=
  let steps := (pieces (· = '/') path.toList).filter fun s => s ≠ [] && s ≠ ['.']
  match steps.getLast? with
  | none | some ['.', '.'] => none
  | some name =>
    match (pieces (· = '.') name).reverse with
    | _ :: [] | _ :: [] :: [] | [] => none
    | ending :: _ => some ending

def readText (scene : Scene) (path : String) : Course String := do
  let bytes ← orEnd (about path) (scene.file path)
  match String.fromUTF8? bytes with
  | some text => return text
  | none => throw (.failed (about path "stream did not contain valid UTF-8"))

def loadText (scene : Scene) (rule : Decl.IdRule) (path : String) : Course Layered := do
  let text ← readText scene path
  note (Layered.parseLog rule text)
  orEnd (fun f => about path (SchemaFault.message f)) (Layered.parse rule text)

def jsonMessage : Json.Fault → String
  | .malformed => "packed schema: malformed JSON"
  | .mistyped => "packed schema: unexpected JSON"
  | .ended => "packed schema: incomplete JSON"

/-- A schema from a file whose name ends in `.tl` if it holds a schema text, or else a packed
schema. -/
def load (scene : Scene) (path : String) : Course Layered := do
  if extension? path = some ['t', 'l'] then loadText scene none path
  else do
    let text ← readText scene path
    let packed ← orEnd (fun f => about path (jsonMessage f)) (Packed.parse text)
    note (Schema.ofEntriesLog packed.entries)
    orEnd (fun f => about path (SchemaFault.message f)) packed.unpack

def deliver (output : Option String) (text : String) : Course (Option Save) := do
  match output with
  | some path => return some ⟨path, text⟩
  | none =>
    print text
    return none

def runParse (scene : Scene) (input : String) (output : Option String) (deriveIds : Bool)
    (layer : Option Int32) : Course (Option Save) := do
  let s ← loadText scene (if deriveIds then some Decl.hashedId else none) input
  let s := if s.layer = 0 then { s with layer := layer.getD 0 } else s
  deliver output (Packed.pack s).render

def settle (scene : Scene) (sources : List Layered) (onConflict : OnConflict) :
    Course Merge.Progress := do
  let keys := Merge.keys sources
  match onConflict with
  | .prompt =>
    let (progress, answers) := Merge.run sources Prompt.resolver keys ⟨scene.input, false⟩
    let ask (c : Conflict) : Message := .question (Prompt.question c)
    modify (·.tell (progress.settled.flatMap fun (c, r) => [ask c, .log (Merge.settledRecord c r)]))
    modify (·.tell (progress.stuck.toList.map ask))
    if answers.garbled then note [Prompt.failureRecord]
    return progress
  | p =>
    let (progress, ()) := Merge.run sources (policy p) keys ()
    note (progress.settled.map fun (c, r) => Merge.settledRecord c r)
    return progress

def runMerge (scene : Scene) (inputs : List String) (output : Option String)
    (onConflict : OnConflict) : Course (Option Save) := do
  let sources ← inputs.mapM (load scene)
  let progress ← settle scene sources onConflict
  note (Merge.finishLog sources progress)
  let m ← orEnd MergeFault.message (Merge.finish sources progress)
  if !m.conflicts.isEmpty then
    let names := ", ".intercalate m.conflicts
    note [⟨.info, .command, s!"[tl-cli] resolved {m.conflicts.length} conflicts: {names}"⟩]
  deliver output (Packed.pack ⟨m.layer, m.schema⟩).render

def runDiff (scene : Scene) (old new : String) : Course (Option Save) := do
  let old ← load scene old
  let new ← load scene new
  let d := Diff.schemas old.schema new.schema
  note (Diff.schemasLog d)
  deliver none d.toTree.pretty

def runDecode (scene : Scene) (schema payload : String) (json : Bool) :
    Course (Option Save) := do
  let s ← load scene schema
  let codec ← orEnd PlanFault.message (Codec.ofSchema s.schema {})
  note codec.ofSchemaLog
  let bytes ← orEnd (about payload) (scene.file payload)
  let stream := codec.decodeStream (Cursor.ofBytes bytes)
  note (Codec.unpackLog stream.cursor.unpacked)
  for (start, v) in stream.items do
    print (if json then v.toTree.pretty else s!"@{start}: " ++ v.renderFull)
  match stream.fault with
  | none => return none
  | some (.crash index length) => throw (.crashed (crashMessage index length))
  | some f =>
    throw (.failed s!"decoding stopped at byte {stream.cursor.pos}: {f.message}")

def fill (width : Nat) (s : String) : String :=
  s ++ String.ofList (List.replicate (width - s.length) ' ')

def countLine (kind : Kind) (space : String) (count : Nat) : String :=
  fill 7 kind.name ++ " " ++ fill 24 (if space.isEmpty then "<root>" else space) ++ " "
    ++ toString count

def runStats (scene : Scene) (schema : String) : Course (Option Save) := do
  let s ← load scene schema
  print s!"layer {s.layer.toInt}"
  for kind in [Kind.constructor, Kind.method] do
    for (space, entries) in s.schema.namespaces kind do
      print (countLine kind space entries.length)
  print s!"unions  {s.schema.unions.length}"
  return none

def Task.run (scene : Scene) : Task → Course (Option Save)
  | .parse input output deriveIds layer => runParse scene input output deriveIds layer
  | .merge inputs output onConflict => runMerge scene inputs output onConflict
  | .diff old new => runDiff scene old new
  | .decode schema payload json => runDecode scene schema payload json
  | .stats schema => runStats scene schema

def Task.files : Task → List String
  | .parse input .. => [input]
  | .merge inputs .. => inputs
  | .diff old new => [old, new]
  | .decode schema payload _ => [schema, payload]
  | .stats schema => [schema]

structure Ending where
  report : Report
  result : Except Halt (Option Save)

def Task.finish (scene : Scene) (t : Task) : Ending :=
  let (result, report) := (t.run scene).run .empty
  ⟨report, result⟩

namespace Ending

def save? (e : Ending) : Option Save := e.result.toOption.join

def saved (e : Ending) (save : Save) : Except String Unit → Ending
  | .ok () =>
    ⟨e.report.note [⟨.info, .command, s!"[tl-cli] wrote {save.path}"⟩], .ok none⟩
  | .error why => ⟨e.report, .error (.failed (about save.path why))⟩

def code (e : Ending) : UInt8 :=
  match e.result with
  | .ok _ => 0
  | .error (.failed _) => 1
  | .error (.crashed _) => 101

def messages (f : Log.Filter) (e : Ending) : String :=
  let error :=
    match e.result with
    | .ok _ => ""
    | .error (.failed message) => s!"error: {message}\n"
    | .error (.crashed message) => message ++ "\n"
  e.report.renderMessages f ++ error

end Ending

def versionText : String := "tl 0.4.7\n"

def helpText : String := String.join [
  "Parse, merge, diff and decode TL schemas\n\n",
  "Usage: tl <COMMAND>\n\n",
  "Commands:\n",
  "  parse   Write a schema text as packed JSON\n",
  "  merge   Merge several schemas into one packed schema\n",
  "  diff    Show what changed between two schemas, as JSON\n",
  "  decode  Decode the values in a binary file\n",
  "  stats   Count the entries of each namespace\n",
  "  help    Print this text\n"]

def misuseText : String := "error: bad usage\n\nFor more information, try '--help'.\n"

end TypeLang.Command
