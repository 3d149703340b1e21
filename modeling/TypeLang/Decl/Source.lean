import TypeLang.Decl.Basic
import TypeLang.Log

namespace TypeLang.Decl

open Text

inductive Item : Type
  | declared (result : Except LineFault Decl)
  | builtin (line : Nat) (text : String)
  | layer (n : Int32)

/-- Names that the wire format knows by itself. Their declarations are passed over. -/
def builtinNames : List String :=
  ["int", "long", "double", "string", "bytes", "int128", "int256", "vector", "boolFalse",
    "boolTrue", "true", "null"]

/-- Whether the text up to the first white space or `#` is the name of a built-in type. -/
def isBuiltin (line : List Char) : Bool :=
  builtinNames.contains (String.ofList (line.takeWhile fun c => !(isBlank c || c = '#')))

def separator? (line : List Char) : Option Kind :=
  if line = "---types---".toList then some .constructor
  else if line = "---functions---".toList then some .method
  else none

/-- The number in a comment `LAYER n`. -/
def layer? (comment : List Char) : Option Int32 := do
  let number ← after? "LAYER ".toList comment
  let n ← readInt? 10 (UInt32.size / 2) (trim number)
  return Int32.ofInt n

def commentText? (lines : List (List Char)) : Option String :=
  if lines.isEmpty then none else some (String.ofList (join [' '] lines))

def readLine (rule : IdRule) (kind : Kind) (comment : Option String) (line : Nat)
    (text : List Char) : Except LineFault Decl :=
  let result :=
    if text.getLast? = some ';' then read rule text else .error .noSemicolon
  match result with
  | .ok d => .ok { d with kind, comment }
  | .error cause => .error ⟨line, String.ofList text, cause⟩

/-- What the lines from number `line` on contribute, in a section of the given kind and below the
given comment lines. -/
def scan (rule : IdRule) (kind : Kind) (comment : List (List Char)) (line : Nat) :
    List (List Char) → List Item
  | [] => []
  | raw :: rest =>
    let text := trim raw
    if text.isEmpty then scan rule kind [] (line + 1) rest
    else match after? "//".toList text with
      | some remark =>
        let remark := trim remark
        match layer? remark with
        | some n => .layer n :: scan rule kind comment (line + 1) rest
        | none =>
          let comment := if remark.isEmpty then comment else comment ++ [remark]
          scan rule kind comment (line + 1) rest
      | none =>
        match separator? text with
        | some kind => scan rule kind [] (line + 1) rest
        | none =>
          if isBuiltin text then
            .builtin line (String.ofList text) :: scan rule kind [] (line + 1) rest
          else
            .declared (readLine rule kind (commentText? comment) line text)
              :: scan rule kind [] (line + 1) rest

def items (rule : IdRule) (text : String) : List Item :=
  scan rule .constructor [] 1 (lines text.toList)

def Item.result? : Item → Option (Except LineFault Decl)
  | .declared r => some r
  | _ => none

def Item.layer? : Item → Option Int32
  | .layer n => some n
  | _ => none

def readAll (rule : IdRule) (text : String) : List (Except LineFault Decl) :=
  (items rule text).filterMap Item.result?

structure Source where
  /-- The highest layer that a comment states. -/
  layer : Option Int32
  decls : List Decl
  deriving DecidableEq

def Source.parse (rule : IdRule) (text : String) : Except LineFault Source := do
  let items := items rule text
  let decls ← (items.filterMap Item.result?).mapM fun r => r
  return ⟨(items.filterMap Item.layer?).max?, decls⟩

def Item.log : Item → Log
  | .builtin line text =>
    [⟨.debug, .lines, s!"[tl-parser] line {line}: skipping built-in `{text}`"⟩]
  | _ => []

def Item.isFault : Item → Bool
  | .declared (.error _) => true
  | _ => false

def readAllLog (rule : IdRule) (text : String) : Log :=
  (items rule text).flatMap Item.log

def Source.parseLog (rule : IdRule) (text : String) : Log :=
  let items := items rule text
  (items.takeWhile fun i => !i.isFault).flatMap Item.log ++
    if items.any Item.isFault then []
    else
      let count := (items.filterMap Item.result?).length
      [⟨.debug, .source, s!"[tl-parser] parsed {count} definitions"⟩]

end TypeLang.Decl
