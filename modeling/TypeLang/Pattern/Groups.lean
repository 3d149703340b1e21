import TypeLang.Pattern.Brackets
import TypeLang.Text.Letters

namespace TypeLang.Pattern

open Text Reader

structure Row where
  start : Nat
  latest : List (Nat × Written)

namespace Row

def push (start : Nat) (p : Written) (r : Row) : Row := { r with latest := (start, p) :: r.latest }

def written (r : Row) (stop : Nat) : Written :=
  match r.latest with
  | [] => .empty
  | [(_, p)] => p
  | ps => .row (ps.reverse.map (·.2)) ⟨r.start, stop⟩

end Row

/-- What stands in a group while it is read: the branches that have ended with the place of the
first, the latest first, and the row of the last one. -/
structure Branches where
  ended : Option (Nat × List Written)
  row : Row

namespace Branches

def start (place : Nat) : Branches := ⟨none, ⟨place, []⟩⟩

def push (start : Nat) (p : Written) (b : Branches) : Branches :=
  { b with row := b.row.push start p }

def bar (place : Nat) (b : Branches) : Branches :=
  let (start, ended) := b.ended.getD (b.row.start, [])
  ⟨some (start, b.row.written place :: ended), ⟨place + 1, []⟩⟩

def written (b : Branches) (stop : Nat) : Written :=
  let last := b.row.written stop
  match b.ended with
  | none => last
  | some (start, ps) => .either (last :: ps).reverse ⟨start, stop⟩

end Branches

structure Group where
  opening : Span
  remembered : Bool
  letters : List Char
  before : Branches
  spaced : Bool

def flagLetters : List Char := ['i', 'm', 's', 'R', 'u', 'U', 'x']

def readFlags : (fuel : Nat) → List (Char × Span) → Reader (List (Char × Span))
  | 0, items => return items
  | fuel + 1, items => do
    match ← peek with
    | none | some ':' | some ')' => return items
    | some c =>
      let span ← next
      if c ≠ '-' && !flagLetters.contains c then fail .unknownFlag span
      if let some (_, earlier) := items.find? (·.1 = c) then
        throw (.part (if c = '-' then .repeatedNegation else .repeatedFlag) span (some earlier))
      advance
      if ← atEnd then fail .unfinishedFlags (← spot)
      readFlags fuel (items ++ [(c, span)])

def flagAfter (letter : Char) (letters : List Char) (flag : Bool) : Bool :=
  if (letters.takeWhile (· ≠ '-')).contains letter then true
  else flag && !letters.contains letter

def isNameChar (isFirst : Bool) (c : Char) : Bool :=
  c = '_' || isLetter c || (!isFirst && (isNumber c || c = '.' || c = '[' || c = ']'))

def readName : Reader Unit := do
  let start ← place
  let rest := (← get).rest
  let name := rest.takeWhile (· ≠ '>')
  let good := (name.take 1).takeWhile (isNameChar true)
  let good := if good.isEmpty then 0 else 1 + (name.tail.takeWhile (isNameChar false)).length
  if good < name.length then fail .badName ⟨start + good, start + good + 1⟩
  modify fun s => { s with rest := rest.drop name.length }
  let span ← since start
  if ← atEnd then fail .unclosedName (← spot)
  advance
  if name.isEmpty then fail .emptyName span
  if let some earlier := (← get).names.lookup name then
    throw (.part .repeatedName span (some earlier))
  modify fun s => { s with names := s.names ++ [(name, span)] }

inductive Opening : Type
  | flags (letters : List Char)
  | group (remembered : Bool) (letters : List Char)

def readOpening (opening : Span) : Reader Opening := do
  step
  if ← anyWord ["?=", "?!", "?<=", "?<!"] then fail .lookAround (← since opening.start)
  let inner ← spot
  if ← anyWord ["?P<", "?<"] then
    readName
    return .group true []
  else if ← word "?" then
    if ← atEnd then fail .unclosedGroup opening
    let items ← readFlags (← get).rest.length []
    match items.getLast? with
    | some ('-', span) => fail .danglingNegation span
    | _ => pure ()
    let isGroup := (← peek) = some ':'
    advance
    if !isGroup && items.isEmpty then fail .nothingToRepeat inner
    let letters := items.map (·.1)
    return if isGroup then .group false letters else .flags letters
  else return .group true []

def readCount : Reader (Except Fault Nat) := do
  let _ ← everyNext isBlank
  let start ← place
  let digits ← everyNext Char.isDigit
  let span ← since start
  let _ ← everyNext isBlank
  if digits.isEmpty then return .error (.part .noCount span none)
  else match readDigits 10 UInt32.size 0 digits with
    | .ok n => return .ok n
    | .error _ => return .error (.part .badNumber span none)

def readCounts : Reader (Nat × Option Nat) := do
  let start ← place
  let unclosed : Reader Unit := do
    if ← atEnd then fail .unclosedCount (← since start)
  step
  unclosed
  let least ← readCount
  unclosed
  let counts ← do
    if (← peek) = some ',' then
      step
      unclosed
      let least ← liftM least
      if (← peek) = some '\x7d' then pure (least, none)
      else pure (least, some (← liftM (← readCount)))
    else do
      let n ← liftM least
      pure (n, some n)
  if (← peek) ≠ some '\x7d' then fail .unclosedCount (← since start)
  step
  let _ ← word "?"
  if counts.2.any (· < counts.1) then fail .badCountRange (← since start)
  return counts

/-- A repetition of the part before it. A question mark behind it changes only which match comes
first. -/
def readRepetition (c : Char) (b : Branches) : Reader Branches := do
  match b.row.latest with
  | [] | (_, .flags _) :: _ => fail .nothingToRepeat (← spot)
  | (start, p) :: earlier =>
    let (least, most) ←
      if c = '\x7b' then readCounts
      else do
        advance
        let _ ← word "?"
        pure (if c = '+' then 1 else 0, if c = '?' then some 1 else none)
    let p := Written.repeated p least most (← since start)
    return { b with row.latest := (start, p) :: earlier }

def readPart (c : Char) : Reader Written := do
  let span ← next
  match c with
  | '.' =>
    advance
    return .dot span
  | '^' =>
    advance
    return .lineStart
  | '$' =>
    advance
    return .lineEnd
  | c =>
    match ← readToken c with
    | .literal l => return .literal l
    | .named n => return .named n
    | .property fault span => return .property fault span
    | .edge e _ => return .edge e

def readGroups : (fuel : Nat) → List Group → Branches → Reader Written
  | 0, _, _ => return .empty
  | fuel + 1, groups, b => do
    space
    let here ← place
    match ← peek with
    | none =>
      match groups with
      | [] => return b.written here
      | g :: _ => fail .unclosedGroup g.opening
    | some '(' =>
      let spaced := (← get).spaced
      let opening ← next
      match ← readOpening opening with
      | .flags letters =>
        modify fun s => { s with spaced := flagAfter 'x' letters s.spaced }
        readGroups fuel groups (b.push here (.flags letters))
      | .group remembered letters =>
        modify fun s => { s with spaced := flagAfter 'x' letters s.spaced }
        let g : Group := ⟨opening, remembered, letters, b, spaced⟩
        readGroups fuel (g :: groups) (.start (← place))
    | some ')' =>
      match groups with
      | [] => fail .unopenedGroup (← next)
      | g :: groups =>
        modify fun s => { s with spaced := g.spaced }
        advance
        let p := Written.group g.remembered g.letters (b.written here) (← since g.opening.start)
        readGroups fuel groups (g.before.push g.opening.start p)
    | some '|' =>
      advance
      readGroups fuel groups (b.bar here)
    | some '[' => readGroups fuel groups (b.push here (← readClass))
    | some c =>
      if c = '?' || c = '*' || c = '+' || c = '\x7b' then
        readGroups fuel groups (← readRepetition c b)
      else readGroups fuel groups (b.push here (← readPart c))

def Written.read (text : String) : Except Fault Written := do
  let cs := text.toList
  let (p, _) ← (readGroups (cs.length + 1) [] (.start 0)).run ⟨cs.length, cs, false, []⟩
  return p

end TypeLang.Pattern
