import TypeLang.Log
import TypeLang.Pattern.Parse

namespace TypeLang.Log

open Text

structure Directive where
  name : Option String
  level : Option Level
  deriving DecidableEq, Repr

namespace Directive

def covers (d : Directive) (o : Origin) : Bool :=
  d.name.all fun n => n.toList.isPrefixOf o.path.toList

def weight (d : Directive) : Nat := d.name.elim 0 String.length

def put (d : Directive) : List Directive → List Directive
  | [] => [d]
  | e :: rest => if e.name = d.name then d :: rest else e :: put d rest

/-- Of the directives that cover a part, the one with the longest name decides, and of several the
last. -/
def decisive? (ds : List Directive) (o : Origin) : Option Directive :=
  (ds.filter (·.covers o)).foldl
    (fun best d => if best.all (·.weight ≤ d.weight) then some d else best) none

end Directive

structure Filter where
  directives : List Directive
  pattern : Option Pattern

def Filter.level? (f : Filter) (o : Origin) : Option Level :=
  if f.directives.isEmpty then some .error
  else (Directive.decisive? f.directives o).bind (·.level)

def Filter.shows (f : Filter) (r : Record) : Bool :=
  (f.level? r.origin).any (r.level.rank ≤ ·.rank) && f.pattern.all (·.occursIn r.text)

inductive Complaint : Type
  | manySlashes (setting : String)
  | badDirective (text : String)
  | badPattern (text : String) (fault : Pattern.Fault)
  deriving DecidableEq, Repr

def Complaint.message : Complaint → String
  | .manySlashes setting => s!"invalid logging spec '{setting}' (too many '/'s)"
  | .badDirective text => s!"invalid logging spec '{text}'"
  | .badPattern text fault => "invalid regex filter - " ++ fault.message text

def levelOfWord? (word : List Char) : Option (Option Level) :=
  match String.ofList (word.map Char.toLower) with
  | "off" => some none
  | "error" => some (some .error)
  | "warn" => some (some .warn)
  | "info" => some (some .info)
  | "debug" => some (some .debug)
  | "trace" => some (some .trace)
  | _ => none

/-- A level for all parts, a name for all levels, or a name with its level behind an equals sign,
which may be left out. -/
def Directive.read (text : List Char) : Except Complaint Directive :=
  let named (name : List Char) (level : Option Level) := ⟨some (String.ofList name), level⟩
  match pieces (· = '=') text with
  | [word] => .ok ((levelOfWord? word).elim (named word (some .trace)) fun level => ⟨none, level⟩)
  | [name, word] =>
    let word := trim word
    if word.isEmpty then .ok (named name (some .trace))
    else match levelOfWord? word with
      | some level => .ok (named name level)
      | none => .error (.badDirective (String.ofList word))
  | _ => .error (.badDirective (String.ofList text))

structure Setting where
  filter : Filter
  complaints : List Complaint

namespace Setting

def standard : Setting := ⟨⟨[⟨none, some .warn⟩], none⟩, []⟩

def addDirective (text : List Char) (s : Setting) : Setting :=
  match Directive.read text with
  | .ok d => { s with filter.directives := d.put s.filter.directives }
  | .error c => { s with complaints := s.complaints ++ [c] }

def addPattern (text : List Char) (s : Setting) : Setting :=
  let text := String.ofList text
  match Pattern.parse text with
  | .ok p => { s with filter.pattern := some p }
  | .error f => { s with complaints := s.complaints ++ [.badPattern text f] }

def read (text : String) : Setting :=
  let blank : Setting := ⟨⟨[], none⟩, []⟩
  let withDirectives (list : List Char) : Setting :=
    let texts := ((pieces (· = ',') list).map trim).filter (· ≠ [])
    texts.foldl (fun s t => addDirective t s) blank
  match pieces (· = '/') text.toList with
  | [list] => withDirectives list
  | [list, pattern] => addPattern pattern (withDirectives list)
  | _ => { blank with complaints := [.manySlashes text] }

def warnings (s : Setting) : String :=
  String.join (s.complaints.map fun c => "warning: " ++ c.message ++ ", ignoring it\n")

end Setting

end TypeLang.Log
