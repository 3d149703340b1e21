namespace TypeLang.Text

inductive ControlPart : Type
  | outside
  | escape
  | escapeMark
  | bracket
  | parameter
  | bracketMark
  | bracketRest
  | device
  | deviceParameter
  | deviceMark
  | deviceRest
  | deviceText
  | foreignText
  | command
  deriving DecidableEq, Repr

namespace ControlPart

def isKept (c : Char) : Bool := c = '\t' || c = '\n' || c = '\x0c' || c = '\r'

def isBetween (first last c : Char) : Bool := first ≤ c && c ≤ last

/-- Whether the last character of a text to a device or elsewhere hides in a character. -/
def endsText (c : Char) : Bool := (String.singleton c).toUTF8.data.contains 0x9c

def behind (p : ControlPart) (c : Char) : ControlPart :=
  let isMark := isBetween ' ' '/' c
  let isParameter := isBetween '0' ';' c
  let isPrivate := isBetween '<' '?' c
  match p with
  | .outside => .outside
  | .escape =>
    if isMark then .escapeMark
    else if c = '[' then .bracket
    else if c = ']' then .command
    else if c = 'P' then .device
    else if c = 'X' || c = '^' || c = '_' then .foreignText
    else .outside
  | .escapeMark => if isMark then .escapeMark else .outside
  | .bracket =>
    if isMark then .bracketMark else if isParameter || isPrivate then .parameter else .outside
  | .parameter =>
    if isMark then .bracketMark
    else if isParameter then .parameter
    else if isPrivate then .bracketRest
    else .outside
  | .bracketMark =>
    if isMark then .bracketMark else if isParameter || isPrivate then .bracketRest else .outside
  | .bracketRest => if isMark || isParameter || isPrivate then .bracketRest else .outside
  | .device =>
    if isMark then .deviceMark
    else if isParameter || isPrivate then .deviceParameter
    else .deviceText
  | .deviceParameter =>
    if isMark then .deviceMark
    else if isParameter then .deviceParameter
    else if isPrivate then .deviceRest
    else .deviceText
  | .deviceMark =>
    if isMark then .deviceMark else if isParameter || isPrivate then .deviceRest else .deviceText
  | .deviceRest => .deviceRest
  | .deviceText => .deviceText
  | .foreignText => .foreignText
  | .command => .command

def yields : ControlPart → Bool
  | .outside | .escape | .escapeMark | .bracket | .parameter | .bracketMark | .bracketRest => true
  | _ => false

def step (p : ControlPart) (c : Char) : Bool × ControlPart :=
  if c = '\x1b' then (false, .escape)
  else if c = '\x18' || c = '\x1a' then (false, .outside)
  else if c.val < 0x20 then
    if isKept c && p.yields then (true, .outside)
    else if p = .command && c = '\x07' then (false, .outside)
    else (false, p)
  else if c.val = 0x7f then (false, p)
  else if c.val < 0x7f then (p = .outside, p.behind c)
  else match p with
    | .outside => (true, .outside)
    | .deviceText | .foreignText => (false, if endsText c then .outside else p)
    | p => (false, p)

end ControlPart

def shownAfter (p : ControlPart) : List Char → List Char
  | [] => []
  | c :: cs =>
    let (isShown, p) := p.step c
    if isShown then c :: shownAfter p cs else shownAfter p cs

def withoutControls (s : String) : String := String.ofList (shownAfter .outside s.toList)

end TypeLang.Text
