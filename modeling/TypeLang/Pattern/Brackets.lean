import TypeLang.Pattern.Token

/-!
Classes in brackets. They hold characters, ranges, classes with names and further brackets, and the
operators `&&`, `--` and `~~` take all that stands on their left together with what stands on their
right up to the next operator.
-/

namespace TypeLang.Pattern

open Text Reader

structure Items where
  place : Nat
  latest : List Item

namespace Items

def push (i : Item) (is : Items) : Items := { is with latest := i :: is.latest }

def item (is : Items) : Item :=
  match is.latest with
  | [] => .nothing ⟨is.place, is.place⟩
  | [i] => i
  | last :: rest =>
    let first := rest.getLast?.getD last
    .union is.latest.reverse ⟨first.span.start, last.span.stop⟩

end Items

structure Bracket where
  opening : Span
  negated : Bool
  outer : Items
  left : Option (Item × SetOperator)

def Bracket.whole (b : Bracket) (right : Item) : Item :=
  match b.left with
  | none => right
  | some (left, op) => .operation op left right ⟨left.span.start, right.span.stop⟩

def asciiClass? (name : String) : Option CharSet :=
  let ranges? : Option (List (Char × Char)) :=
    match name with
    | "alnum" => some [('0', '9'), ('A', 'Z'), ('a', 'z')]
    | "alpha" => some [('A', 'Z'), ('a', 'z')]
    | "ascii" => some [('\x00', '\x7f')]
    | "blank" => some [('\t', '\t'), (' ', ' ')]
    | "cntrl" => some [('\x00', '\x1f'), ('\x7f', '\x7f')]
    | "digit" => some [('0', '9')]
    | "graph" => some [('!', '~')]
    | "lower" => some [('a', 'z')]
    | "print" => some [(' ', '~')]
    | "punct" => some [('!', '/'), (':', '@'), ('[', '`'), ('\x7b', '~')]
    | "space" => some [('\t', '\r'), (' ', ' ')]
    | "upper" => some [('A', 'Z')]
    | "word" => some [('0', '9'), ('A', 'Z'), ('_', '_'), ('a', 'z')]
    | "xdigit" => some [('0', '9'), ('A', 'F'), ('a', 'f')]
    | _ => none
  ranges?.map CharSet.ofRanges

def setOperator? : List Char → Option SetOperator
  | '&' :: '&' :: _ => some .both
  | '-' :: '-' :: _ => some .first
  | '~' :: '~' :: _ => some .justOne
  | _ => none

def readAscii? : Reader (Option Item) := do
  let start ← place
  let inner? := after? ['[', ':'] (← get).rest
  let negated := (inner?.bind List.head?) = some '^'
  let inner? := if negated then inner?.map List.tail else inner?
  let found? := do
    let (name, behind) ← cut? ':' (← inner?)
    return (← asciiClass? (String.ofList name), ← after? [']'] behind)
  match found? with
  | none => return none
  | some (set, behind) =>
    modify fun s => { s with rest := behind }
    return some (.ascii ⟨set, negated, ← since start⟩)

def Token.item : Token → Reader Item
  | .literal l => return .literal l
  | .named n => return .named n
  | .property fault span => return .property fault span
  | .edge _ span => fail .badClassEscape span

def Token.bound : Token → Reader Literal
  | .literal l => return l
  | .named n => fail .badRangeEnd n.span
  | .property _ span | .edge _ span => fail .badRangeEnd span

/-- A part in brackets that begins with a character, or a range from one part to another. A hyphen
before the end of the class or before another hyphen is no sign of a range. -/
def readRange (opening : Span) (c : Char) : Reader Item := do
  let first ← readToken c
  space
  if ← atEnd then fail .unclosedClass opening
  let behind ← peekBehind
  if (← peek) ≠ some '-' || behind = some ']' || behind = some '-' then first.item
  else
    step
    match ← peek with
    | none => fail .unclosedClass opening
    | some c =>
      let last ← readToken c
      let first ← first.bound
      let last ← last.bound
      if last.char < first.char then fail .badClassRange ⟨first.span.start, last.span.stop⟩
      return .range first last

def readHyphens : (n : Nat) → Items → Reader Items
  | 0, is => return is
  | n + 1, is => do
    if (← peek) = some '-' then
      let span ← next
      step
      readHyphens n (is.push (.literal ⟨'-', false, span⟩))
    else return is

/-- Reads an opening bracket with a `^`, and the hyphens or the closing bracket behind it that stand
for themselves. -/
def openBracket (outer : Items) : Reader (Bracket × Items) := do
  let start ← place
  step
  if ← atEnd then fail .unclosedClass (← since start)
  let negated := (← peek) = some '^'
  if negated then step
  if ← atEnd then fail .unclosedClass (← since start)
  let items ← readHyphens (← get).rest.length ⟨← place, []⟩
  if ← atEnd then fail .unclosedClass ⟨start, start⟩
  let items ←
    if items.latest.isEmpty && (← peek) = some ']' then do
      let span ← next
      step
      pure (items.push (.literal ⟨']', false, span⟩))
    else pure items
  if ← atEnd then fail .unclosedClass (← since start)
  return (⟨← since start, negated, outer, none⟩, items)

def readBrackets : (fuel : Nat) → Bracket → List Bracket → Items → Reader Written
  | 0, _, _, _ => return .empty
  | fuel + 1, b, around, items => do
    space
    match (← get).rest with
    | [] => fail .unclosedClass b.opening
    | '[' :: _ =>
      match ← readAscii? with
      | some item => readBrackets fuel b around (items.push item)
      | none =>
        let (inner, first) ← openBracket items
        readBrackets fuel inner (b :: around) first
    | ']' :: _ =>
      advance
      let inside := b.whole items.item
      let span ← since b.opening.start
      match around with
      | [] => return .brackets b.negated inside span
      | next :: around =>
        readBrackets fuel next around (b.outer.push (.brackets b.negated inside span))
    | c :: rest =>
      match setOperator? (c :: rest) with
      | some op =>
        advance
        advance
        let b := { b with left := some (b.whole items.item, op) }
        readBrackets fuel b around ⟨← place, []⟩
      | none => readBrackets fuel b around (items.push (← readRange b.opening c))

def readClass : Reader Written := do
  let fuel := (← get).rest.length
  let (b, items) ← openBracket ⟨0, []⟩
  readBrackets fuel b [] items

end TypeLang.Pattern
