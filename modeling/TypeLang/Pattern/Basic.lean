import TypeLang.Pattern.CharSet

/-!
Patterns that texts are searched for. What a pattern matches is given by places: where its matches
end if they begin at some places. A place is a number of characters from the start of the text.
-/

namespace TypeLang

namespace Pattern

inductive Edge : Type
  | textStart
  | textEnd
  /-- with `returns`, carriage returns end lines as well as line feeds -/
  | lineStart (returns : Bool)
  | lineEnd (returns : Bool)
  | word
  | noWord
  | wordStart
  | wordEnd
  | wordStartHalf
  | wordEndHalf
  deriving DecidableEq, Repr

def isWord (c : Char) : Bool := c.isAlphanum || c = '_'

def Edge.isOfWords : Edge → Bool
  | .textStart | .textEnd | .lineStart _ | .lineEnd _ => false
  | _ => true

def Edge.holds (e : Edge) (text : Array Char) (place : Nat) : Bool :=
  let before : Option Char := if place = 0 then none else text[place - 1]?
  let after := text[place]?
  let wordBefore := before.any isWord
  let wordAfter := after.any isWord
  match e with
  | .textStart => place = 0
  | .textEnd => text.size ≤ place
  | .lineStart false => before.all (· = '\n')
  | .lineEnd false => after.all (· = '\n')
  | .lineStart true => before.all (· = '\n') || before = some '\r' && after ≠ some '\n'
  | .lineEnd true => after.all (· = '\r') || after = some '\n' && before ≠ some '\r'
  | .word => wordBefore ≠ wordAfter
  | .noWord => wordBefore = wordAfter
  | .wordStart => !wordBefore && wordAfter
  | .wordEnd => wordBefore && !wordAfter
  | .wordStartHalf => !wordBefore
  | .wordEndHalf => !wordAfter

end Pattern

inductive Pattern : Type
  | empty
  | one (set : CharSet)
  | edge (edge : Pattern.Edge) (wide : Bool)
  | both (first second : Pattern)
  | either (left right : Pattern)
  | repeated (p : Pattern) (least : Nat) (most : Option Nat)
  deriving DecidableEq, Repr

namespace Pattern

/-- A set of places of a text, as one mark for each place. -/
abbrev Places := List Bool

namespace Places

def union (s t : Places) : Places := List.zipWith (· || ·) s t

def inter (s t : Places) : Places := List.zipWith (· && ·) s t

def without (s t : Places) : Places := List.zipWith (fun a b => a && !b) s t

def isEmpty (s : Places) : Bool := s.all (!·)

def past (set : CharSet) (text : List Char) (s : Places) : Places :=
  false :: List.zipWith (fun here c => here && set.contains c) s text

def after (step : Places → Places) : (n : Nat) → Places → Places
  | 0, s => s
  | n + 1, s => if s.isEmpty then s else after step n (step s)

/-- Where at most `n` steps lead from the places `fresh`, besides the places `reached` before. -/
def within (step : Places → Places) : (n : Nat) → (reached fresh : Places) → Places
  | 0, reached, _ => reached
  | n + 1, reached, fresh =>
    let fresh := (step fresh).without reached
    if fresh.isEmpty then reached else within step n (reached.union fresh) fresh

end Places

/-- Where the matches end that begin at one of some places. Of more steps than the text has
characters, one at least matches nothing and can be left out or taken again. -/
def reach (text : List Char) : Pattern → Places → Places
  | .empty, s => s
  | .one set, s => s.past set text
  | .edge e _, s => s.inter ((List.range s.length).map (e.holds text.toArray))
  | .both p q, s => reach text q (reach text p s)
  | .either p q, s => (reach text p s).union (reach text q s)
  | .repeated p least most, s =>
    let bound := text.length + 1
    let start := Places.after (reach text p) (min least bound) s
    Places.within (reach text p) ((most.map (· - least)).elim bound (min · bound)) start start

def occursIn (p : Pattern) (text : String) : Bool :=
  let text := text.toList
  !(reach text p (List.replicate (text.length + 1) true)).isEmpty

def isWide : Pattern → Bool
  | .empty | .one _ => false
  | .edge e wide => wide && e.isOfWords
  | .both p q | .either p q => p.isWide || q.isWide
  | .repeated p .. => p.isWide

end Pattern

end TypeLang
