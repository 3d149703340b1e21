import TypeLang.Pattern.Reader
import TypeLang.Pattern.Written
import TypeLang.Text.Numeral

namespace TypeLang.Pattern

open Text Reader

inductive Token : Type
  | literal (l : Literal)
  | named (n : Named)
  | property (fault : Cause) (span : Span)
  | edge (e : Edge) (span : Span)

def isMark (c : Char) : Bool := "\\.+*?()|[]\x7b\x7d^$#&-~".toList.contains c

def isPlain (c : Char) : Bool :=
  isMark c || (c.val < 128 && !c.isAlphanum && c ≠ '<' && c ≠ '>')

def special? : Char → Option Char
  | 'a' => some '\x07'
  | 'f' => some '\x0c'
  | 't' => some '\t'
  | 'n' => some '\n'
  | 'r' => some '\r'
  | 'v' => some '\x0b'
  | _ => none

def digits : CharSet := .range '0' '9'

def spaces : CharSet := .union (.range '\t' '\r') (.only ' ')

def wordChars : CharSet := .ofRanges [('0', '9'), ('A', 'Z'), ('_', '_'), ('a', 'z')]

def letterClass? (c : Char) : Option CharSet :=
  match c.toLower with
  | 'd' => some digits
  | 's' => some spaces
  | 'w' => some wordChars
  | _ => none

def edgeOfWord? : String → Option Edge
  | "start" => some .wordStart
  | "end" => some .wordEnd
  | "start-half" => some .wordStartHalf
  | "end-half" => some .wordEndHalf
  | _ => none

def charOfHex (digits : List Char) (span : Span) : Reader Char :=
  match readDigits 16 0x110000 0 digits with
  | .ok n => if n.isValidChar then return Char.ofNat n else fail .badHexNumber span
  | .error _ => fail .badHexNumber span

def hexRun : Nat → Reader (List Char)
  | 0 => return []
  | n + 1 => do
    match ← peek with
    | none => fail .unfinishedEscape (← spot)
    | some c =>
      if (digit? 16 c).isNone then fail .badHexDigit (← next)
      step
      return c :: (← hexRun n)

/-- A character by its number in braces, or in as many digits as `x`, `u` or `U` asks for. Two
digits behind `x` give a byte. -/
def readHex (start : Nat) (letter : Char) : Reader Token := do
  step
  let first ← place
  if (← peek) = some '\x7b' then
    step
    let digits ← everyNext fun c => (digit? 16 c).isSome
    match ← peek with
    | none => fail .unfinishedEscape (← since first)
    | some '\x7d' =>
      let span := ⟨first + 1, ← place⟩
      step
      if digits.isEmpty then fail .noHexDigits (← since first)
      return .literal ⟨← charOfHex digits span, false, ← since start⟩
    | some _ => fail .badHexDigit (← next)
  else
    let digits ← hexRun (if letter = 'x' then 2 else if letter = 'u' then 4 else 8)
    return .literal ⟨← charOfHex digits (← since first), letter = 'x', ← since start⟩

def propertyName (name : List Char) : String :=
  let name := name.map Char.toLower
  let name := if name.take 2 = ['i', 's'] then name.drop 2 else name
  String.ofList (name.filter fun c => c.val < 128 && c ≠ ' ' && c ≠ '_' && c ≠ '-')

/-- What is missing to know a property. The three short names mean values of the property that a
name without a value stands for. -/
def propertyFault (name : List Char) : Cause :=
  if ["cf", "lc", "sc"].contains (propertyName name) then .unknownValue else .unknownProperty

def readProperty (start : Nat) : Reader Token := do
  step
  match ← peek with
  | none => fail .unfinishedEscape (← spot)
  | some '\\' => fail .badProperty (← next)
  | some '\x7b' =>
    step
    let name ← everyNext (· ≠ '\x7d')
    if ← atEnd then fail .unfinishedEscape (← spot)
    advance
    return .property (propertyFault name) (← since start)
  | some _ =>
    step
    return .property .unknownProperty (← since start)

/-- The edge behind `b`. A brace that no letter follows belongs to what comes next. -/
def readEdge (start : Nat) : Reader Edge := do
  let before ← get
  let isNamePart (c : Char) : Bool := c.isAlpha || c = '-'
  if (← peek) ≠ some '\x7b' then return .word
  let brace ← place
  step
  let first ← place
  match ← peek with
  | none => fail .unfinishedEdge (← since start)
  | some c =>
    if !isNamePart c then
      set before
      return .word
    let name ← everyNext isNamePart
    if (← peek) ≠ some '\x7d' then fail .unclosedEdge (← since brace)
    let span ← since first
    advance
    match edgeOfWord? (String.ofList name) with
    | some e => return e
    | none => fail .unknownEdge span

def readEscape : Reader Token := do
  let start ← place
  advance
  match ← peek with
  | none => fail .unfinishedEscape (← since start)
  | some c =>
    if c.isDigit then fail .backreference ⟨start, (← place) + 1⟩
    else if c = 'x' || c = 'u' || c = 'U' then readHex start c
    else if c = 'p' || c = 'P' then readProperty start
    else do
      advance
      let span ← since start
      let edge? : Option Edge :=
        match c with
        | 'A' => some .textStart
        | 'z' => some .textEnd
        | 'B' => some .noWord
        | '<' => some .wordStart
        | '>' => some .wordEnd
        | _ => none
      match edge?, letterClass? c, special? c with
      | some e, _, _ => return .edge e span
      | _, some set, _ => return .named ⟨set, c.isUpper, span⟩
      | _, _, some c => return .literal ⟨c, false, span⟩
      | _, _, _ =>
        if c = 'b' then return .edge (← readEdge start) (← since start)
        else if isPlain c then return .literal ⟨c, false, span⟩
        else fail .unknownEscape span

def readToken (c : Char) : Reader Token := do
  if c = '\\' then readEscape
  else
    let span ← next
    advance
    return .literal ⟨c, false, span⟩

end TypeLang.Pattern
