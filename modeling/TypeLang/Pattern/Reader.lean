import TypeLang.Pattern.Fault
import TypeLang.Text.Blank

namespace TypeLang.Pattern

open Text

structure State where
  size : Nat
  rest : List Char
  spaced : Bool
  names : List (List Char × Span)

abbrev Reader (α : Type) := StateT State (Except Fault) α

namespace Reader

def place : Reader Nat := do
  let s ← get
  return s.size - s.rest.length

def peek : Reader (Option Char) := do return (← get).rest.head?

def atEnd : Reader Bool := do return (← get).rest.isEmpty

def since (start : Nat) : Reader Span := do return ⟨start, ← place⟩

def spot : Reader Span := do since (← place)

def next : Reader Span := do
  let i ← place
  return ⟨i, i + 1⟩

def fail {α : Type} (cause : Cause) (span : Span) : Reader α := throw (.part cause span none)

def advance : Reader Unit := modify fun s => { s with rest := s.rest.tail }

/-- Drops white space and remarks. A remark goes from `#` to the end of its line. -/
def dropSpace (remark : Bool) : List Char → List Char
  | [] => []
  | c :: cs =>
    if remark then dropSpace (c ≠ '\n') cs
    else if isBlank c then dropSpace false cs
    else if c = '#' then dropSpace true cs
    else c :: cs

def space : Reader Unit :=
  modify fun s => if s.spaced then { s with rest := dropSpace false s.rest } else s

def step : Reader Unit := do
  advance
  space

/-- The character behind the next one. Where white space stands for nothing, one mark of a remark
is looked past as well. -/
def peekBehind : Reader (Option Char) := do
  let s ← get
  let behind := s.rest.tail
  if s.spaced then
    let solid := behind.dropWhile isBlank
    let solid := if solid.head? = some '#' then solid.tail.dropWhile isBlank else solid
    return solid.head? <|> behind.head?
  else return behind.head?

def word (w : String) : Reader Bool := do
  match after? w.toList (← get).rest with
  | none => return false
  | some rest =>
    modify fun s => { s with rest }
    return true

def anyWord (ws : List String) : Reader Bool := ws.anyM word

def someNext (p : Char → Bool) : (n : Nat) → Reader (List Char)
  | 0 => return []
  | n + 1 => do
    match (← peek).filter p with
    | none => return []
    | some c =>
      step
      return c :: (← someNext p n)

def everyNext (p : Char → Bool) : Reader (List Char) := do someNext p (← get).rest.length

end Reader

end TypeLang.Pattern
