import TypeLang.Command.Resolver

namespace TypeLang.Command

open Text

inductive Task : Type
  | parse (input : String) (output : Option String) (deriveIds : Bool) (layer : Option Int32)
  | merge (inputs : List String) (output : Option String) (onConflict : OnConflict)
  | diff (old new : String)
  | decode (schema payload : String) (json : Bool)
  | stats (schema : String)
  deriving DecidableEq

inductive Request : Type
  | run (task : Task)
  | version
  | help
  | misuse
  deriving DecidableEq

structure OptionForm where
  name : String
  letter : Option Char
  /-- The values that are accepted, or nothing for an option without a value. -/
  accepts : Option (String → Bool)

structure Form where
  options : List OptionForm
  fewest : Nat
  most : Option Nat

structure Given where
  places : List String
  options : List (String × String)

namespace Given

def value? (g : Given) (name : String) : Option String := g.options.lookup name

def has (g : Given) (name : String) : Bool := (g.value? name).isSome

def place (form : Form) (g : Given) (arg : String) : Except Request Given :=
  if arg.isEmpty || form.most.any (· ≤ g.places.length) then .error .misuse
  else .ok { g with places := g.places ++ [arg] }

def option (g : Given) (o : OptionForm) (value : String) : Except Request Given :=
  if g.has o.name || !o.accepts.all (· value) then .error .misuse
  else .ok { g with options := g.options ++ [(o.name, value)] }

end Given

/-- What an argument is that begins with a hyphen and means an option: help, or an option together
with the value that is attached to it. -/
def optionOf (form : Form) (arg : List Char) :
    Except Request (OptionForm × Option String) :=
  match arg with
  | '-' :: '-' :: long =>
    let (name, value) :=
      match cut? '=' long with
      | none => (String.ofList long, none)
      | some (name, value) => (String.ofList name, some (String.ofList value))
    match form.options.find? (·.name = name) with
    | some o => if o.accepts.isNone && value.isSome then .error .misuse else .ok (o, value)
    | none => .error (if name = "help" && value.isNone then .help else .misuse)
  | _ :: letter :: rest =>
    match form.options.find? (·.letter = some letter) with
    | some o =>
      match rest with
      | [] => .ok (o, none)
      | '=' :: value => .ok (o, some (String.ofList value))
      | value => .ok (o, some (String.ofList value))
    | none => .error (if letter = 'h' then .help else .misuse)
  | _ => .error .misuse

def isOption (arg : String) : Bool := arg.startsWith "-" && arg ≠ "-"

def sortArgs (form : Form) (escaped : Bool) (g : Given) : List String → Except Request Given
  | [] => .ok g
  | arg :: rest =>
    if escaped || !isOption arg then do
      sortArgs form escaped (← g.place form arg) rest
    else if arg = "--" then sortArgs form true g rest
    else do
      match ← optionOf form arg.toList with
      | (o, some value) => sortArgs form false (← g.option o value) rest
      | (o, none) =>
        if o.accepts.isNone then sortArgs form false (← g.option o "") rest
        else match rest with
          | [] => .error .misuse
          | value :: rest =>
            if isOption value then .error .misuse
            else sortArgs form false (← g.option o value) rest

def sorted (form : Form) (args : List String) : Except Request Given := do
  let g ← sortArgs form false ⟨[], []⟩ args
  if g.places.length < form.fewest then .error .misuse else .ok g

def readLayer? (s : String) : Option Int32 :=
  (readInt? 10 (UInt32.size / 2) s.toList).map Int32.ofInt

def OnConflict.ofName? (s : String) : Option OnConflict :=
  [OnConflict.fail, .prompt, .first, .drop].find? (·.name = s)

def isPath (s : String) : Bool := !s.isEmpty

def outputOption : OptionForm := ⟨"output", some 'o', some isPath⟩
def deriveIdsOption : OptionForm := ⟨"derive-ids", none, none⟩
def layerOption : OptionForm := ⟨"layer", none, some fun s => (readLayer? s).isSome⟩
def onConflictOption : OptionForm :=
  ⟨"on-conflict", none, some fun s => (OnConflict.ofName? s).isSome⟩
def schemaOption : OptionForm := ⟨"schema", none, some isPath⟩
def jsonOption : OptionForm := ⟨"json", none, none⟩

def readParse (args : List String) : Except Request Task := do
  let g ← sorted ⟨[outputOption, deriveIdsOption, layerOption], 1, some 1⟩ args
  match g.places with
  | [input] =>
    return .parse input (g.value? "output") (g.has "derive-ids")
      ((g.value? "layer").bind readLayer?)
  | _ => throw .misuse

def readMerge (args : List String) : Except Request Task := do
  let g ← sorted ⟨[outputOption, onConflictOption], 1, none⟩ args
  return .merge g.places (g.value? "output")
    (((g.value? "on-conflict").bind OnConflict.ofName?).getD .fail)

def readDiff (args : List String) : Except Request Task := do
  let g ← sorted ⟨[], 2, some 2⟩ args
  match g.places with
  | [old, new] => return .diff old new
  | _ => throw .misuse

def readDecode (args : List String) : Except Request Task := do
  let g ← sorted ⟨[schemaOption, jsonOption], 1, some 1⟩ args
  match g.value? "schema", g.places with
  | some schema, [payload] => return .decode schema payload (g.has "json")
  | _, _ => throw .misuse

def readStats (args : List String) : Except Request Task := do
  let g ← sorted ⟨[], 1, some 1⟩ args
  match g.places with
  | [schema] => return .stats schema
  | _ => throw .misuse

def taskNames : List String := ["parse", "merge", "diff", "decode", "stats", "help"]

def readHelp (args : List String) : Request :=
  match args with
  | [] => .help
  | [name] => if taskNames.contains name then .help else .misuse
  | _ => .misuse

def readTopOption (arg : List Char) : Request :=
  match arg with
  | ['-', '-', 'h', 'e', 'l', 'p'] | '-' :: 'h' :: _ => .help
  | ['-', '-', 'v', 'e', 'r', 's', 'i', 'o', 'n'] | '-' :: 'V' :: _ => .version
  | _ => .misuse

def Request.ofArgs : List String → Request
  | [] => .misuse
  | name :: args =>
    let task :=
      match name with
      | "parse" => readParse args
      | "merge" => readMerge args
      | "diff" => readDiff args
      | "decode" => readDecode args
      | "stats" => readStats args
      | "help" => .error (readHelp args)
      | other => .error (readTopOption other.toList)
    match task with
    | .ok task => .run task
    | .error request => request

end TypeLang.Command
