import TypeLang.Pattern.Groups
import TypeLang.Pattern.Meaning

namespace TypeLang

/-- A character takes a state for each of its bytes. A set takes two states and a step for each of
its ranges, and further states for the second to the last byte of characters beyond ASCII. -/
def CharSet.room (s : CharSet) : Nat :=
  match s.single? with
  | some c => 32 * c.utf8Size
  | none =>
    let small := s.inter .ascii
    let large := s.difference .ascii
    let steps := 8 * small.rangeCount
    if large.isEmpty then 64 + steps else 64 + 7 * 32 + 15 * 8 + steps

namespace Pattern

def room : Pattern → Nat
  | .empty | .edge _ _ => 32
  | .one s => s.room
  | .both p q => p.room + q.room
  | .either p q => p.room + q.room + (match q with | .either _ _ => 4 | _ => 72)
  | .repeated p 0 (some 1) => p.room + 72
  | .repeated p 0 none => p.room + 40
  | .repeated p (n + 1) none => (n + 1) * p.room + 40
  | .repeated p least (some most) =>
    if least = most then least * p.room
    else most * p.room + 40 * (most - least) + (if least = 0 then 64 else 32)

def searchRoom : Nat := 208

def roomLimit : Nat := 10485760

def levelLimit : Nat := 250

def parse (text : String) : Except Fault Pattern := do
  let written ← Written.read text
  if let some span := written.tooDeep? levelLimit then throw (.part .tooDeep span none)
  let (p, _) ← written.meaning.run {}
  if roomLimit < p.room + searchRoom then throw .tooLarge
  if p.isWide then throw .wide
  return p

end Pattern

end TypeLang
