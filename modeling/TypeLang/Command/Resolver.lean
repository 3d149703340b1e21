import TypeLang.Schema.Merge

namespace TypeLang.Command

open Text

inductive OnConflict : Type
  | fail
  | prompt
  | first
  | drop
  deriving DecidableEq, Repr

def OnConflict.name : OnConflict → String
  | .fail => "fail"
  | .prompt => "prompt"
  | .first => "first"
  | .drop => "drop"

def policy (p : OnConflict) : Resolver Unit := fun c =>
  match p with
  | .fail | .prompt => return none
  | .first => return c.top.head?.map .keep
  | .drop => return some .drop

/-- What is left of the input that answers come from, and whether its last line was no text. -/
structure Answers where
  input : List UInt8
  garbled : Bool
  deriving DecidableEq

namespace Prompt

def question (c : Conflict) : String :=
  let candidate (i : Nat) (d : Candidate) : String :=
    s!"  [{i}] layer {d.layer.toInt}: " ++ d.entry.elim "(absent)" Entry.render ++ "\n"
  s!"conflict on {c.kind.name} `{c.name}` ({c.reason}):\n"
    ++ String.join (c.candidates.zipIdx.map fun (d, i) => candidate i d)
    ++ "keep which? [number / d = drop / q = abort] "

/-- What an answer line means: `d` drops the entry, a number keeps what that source defines. -/
def meaning (c : Conflict) (line : List Char) : Option Resolution :=
  let answer := trim line
  if answer = ['d'] ∨ answer = ['D'] then some .drop
  else do
    let i ← (readNat 10 UInt64.size answer).toOption
    let candidate ← c.candidates[i]?
    return candidate.entry.elim .drop .keep

def nextLine (input : List UInt8) : List UInt8 × List UInt8 :=
  (input.takeWhile (· ≠ 10), (input.dropWhile (· ≠ 10)).drop 1)

def lineCount (input : List UInt8) : Nat :=
  input.count 10 + if input.getLast?.all (· = 10) then 0 else 1

def resolver : Resolver Answers := fun c => do
  let (line, rest) := nextLine (← get).input
  match String.fromUTF8? ⟨line.toArray⟩ with
  | none =>
    set (Answers.mk rest true)
    return none
  | some text =>
    set (Answers.mk rest false)
    return meaning c text.toList

def failureRecord : Log.Record :=
  ⟨.warn, .prompt, "[tl-cli] prompt failed: stream did not contain valid UTF-8"⟩

end Prompt

end TypeLang.Command
