import TypeLang.Schema.Layered

/-!
Merging schemas of possibly different layers. For each name the definitions of the highest layer
that has one count. If these agree they are taken; if not, the conflict goes to a resolver, which
keeps a definition, drops the name, or gives no answer and so ends the merge.
-/

namespace TypeLang

structure Candidate where
  source : Nat
  layer : Int32
  entry : Option Entry
  deriving DecidableEq

structure Conflict where
  kind : Kind
  name : String
  part : Entry.Part
  /-- One candidate for each source. -/
  candidates : List Candidate
  topLayer : Int32
  deriving DecidableEq

inductive Resolution : Type
  | keep (entry : Entry)
  | drop
  deriving DecidableEq

/-- Answers conflicts one after the other, from a state of its own. -/
abbrev Resolver (σ : Type) := Conflict → StateM σ (Option Resolution)

inductive MergeFault : Type
  | conflict (kind : Kind) (name : String) (part : Entry.Part)
  | schema (fault : SchemaFault)
  deriving DecidableEq

structure Merged where
  layer : Int32
  schema : Schema
  conflicts : List String
  deriving DecidableEq

def definitionsAt (layer : Int32) (candidates : List Candidate) : List Entry :=
  (candidates.filter (·.layer = layer)).filterMap (·.entry)

namespace Conflict

def reason (c : Conflict) : String := s!"{c.part.title} mismatch"

def top (c : Conflict) : List Entry := definitionsAt c.topLayer c.candidates

end Conflict

def MergeFault.message : MergeFault → String
  | .conflict kind name part =>
    s!"unresolved conflict on {kind.name} `{name}`: {part.title} mismatch"
  | .schema fault => fault.message

namespace Resolver

def strict : Resolver Unit := fun _ => return none

end Resolver

namespace Merge

def keys (sources : List Layered) : List (Kind × String) :=
  (sources.flatMap fun s => s.schema.entries.map fun e => (e.kind, e.name)).eraseDups

def candidates (sources : List Layered) (kind : Kind) (name : String) : List Candidate :=
  sources.zipIdx.map fun (s, i) => ⟨i, s.layer, s.schema.find? kind name⟩

def highest (layers : List Int32) : Int32 := layers.max?.getD 0

inductive Verdict : Type
  | absent
  | agreed (entry : Entry)
  | disputed (conflict : Conflict)

/-- Definitions that agree are taken with the first comment among them. -/
def judge (sources : List Layered) (kind : Kind) (name : String) : Verdict :=
  let candidates := candidates sources kind name
  let topLayer := highest ((candidates.filter (·.entry.isSome)).map (·.layer))
  match definitionsAt topLayer candidates with
  | [] => .absent
  | first :: rest =>
    match rest.findSome? first.difference? with
    | none => .agreed { first with comment := (first :: rest).findSome? (·.comment) }
    | some part => .disputed ⟨kind, name, part, candidates, topLayer⟩

/-- How far a merge got: the entries it chose, the conflicts it settled and the one it is stuck
at. -/
structure Progress where
  chosen : List Entry
  settled : List (Conflict × Resolution)
  stuck : Option Conflict
  deriving DecidableEq

def Progress.choose (entry : Entry) (p : Progress) : Progress :=
  { p with chosen := entry :: p.chosen }

def Progress.settle (conflict : Conflict) (resolution : Resolution) (p : Progress) : Progress where
  chosen :=
    match resolution with
    | .keep entry => entry :: p.chosen
    | .drop => p.chosen
  settled := (conflict, resolution) :: p.settled
  stuck := p.stuck

def run {σ : Type} (sources : List Layered) (resolve : Resolver σ) :
    List (Kind × String) → StateM σ Progress
  | [] => return ⟨[], [], none⟩
  | (kind, name) :: rest =>
    match judge sources kind name with
    | .absent => run sources resolve rest
    | .agreed entry => return (← run sources resolve rest).choose entry
    | .disputed conflict => do
      match ← resolve conflict with
      | none => return ⟨[], [], some conflict⟩
      | some resolution => return (← run sources resolve rest).settle conflict resolution

/-- The comments of unions: those of newer layers first, of equal layers in the order of the
sources. -/
def unionComments (sources : List Layered) : Dict String :=
  (sources.mergeSort fun a b => b.layer ≤ a.layer).foldl (fun comments s =>
    s.schema.unionComments.foldl (fun comments (name, comment) =>
      if (comments.get? name).isSome then comments else Dict.insert name comment comments)
      comments) []

def finish (sources : List Layered) (p : Progress) : Except MergeFault Merged :=
  match p.stuck with
  | some c => .error (.conflict c.kind c.name c.part)
  | none =>
    match Schema.ofEntries p.chosen (unionComments sources) with
    | .error fault => .error (.schema fault)
    | .ok schema =>
      .ok ⟨highest (sources.map (·.layer)), schema, p.settled.map (·.1.name)⟩

def Progress.asked (p : Progress) : List Conflict :=
  p.settled.map (·.1) ++ p.stuck.toList

def settledRecord (c : Conflict) (r : Resolution) : Log.Record :=
  let what :=
    match r with
    | .keep entry => s!"kept {entry.render}"
    | .drop => "dropped"
  ⟨.info, .merge, s!"[tl-schema] conflict on {c.kind.name} `{c.name}` ({c.reason}): {what}"⟩

def finishLog (sources : List Layered) (p : Progress) : Log :=
  match p.stuck with
  | some _ => []
  | none =>
    Schema.ofEntriesLog p.chosen ++
      match finish sources p with
      | .error _ => []
      | .ok m =>
        [⟨.debug, .merge, s!"[tl-schema] merged {sources.length} sources into layer {m.layer.toInt}: {m.schema.entries.length} entries, {m.conflicts.length} conflicts"⟩]

end Merge

def merge {σ : Type} (sources : List Layered) (resolve : Resolver σ) :
    StateM σ (Except MergeFault Merged) := do
  return Merge.finish sources (← Merge.run sources resolve (Merge.keys sources))

end TypeLang
