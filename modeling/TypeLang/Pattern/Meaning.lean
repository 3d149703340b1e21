import TypeLang.Pattern.Written

/-!
What written patterns stand for. Flags change what the parts behind them stand for, up to the end of
the group that they stand in. Classes of other alphabets and their cases are not known, and a
pattern has to keep the characters of a text whole.
-/

namespace TypeLang.Pattern

structure Flags where
  anyCase : Bool := false
  manyLines : Bool := false
  anyDot : Bool := false
  returns : Bool := false
  ascii : Bool := false
  deriving DecidableEq, Repr

def Flags.turn (on : Bool) (f : Flags) : Char → Flags
  | 'i' => { f with anyCase := on }
  | 'm' => { f with manyLines := on }
  | 's' => { f with anyDot := on }
  | 'R' => { f with returns := on }
  | 'u' => { f with ascii := !on }
  | _ => f

def Flags.set (f : Flags) (letters : List Char) : Flags :=
  let on := letters.takeWhile (· ≠ '-')
  let off := letters.dropWhile (· ≠ '-')
  off.foldl (Flags.turn false) (on.foldl (Flags.turn true) f)

namespace Meaning

def fail {α : Type} (cause : Cause) (span : Span) : Except Fault α :=
  .error (.part cause span none)

def closed (f : Flags) (foldable : Bool) (set : CharSet) (negated : Bool) (span : Span) :
    Except Fault CharSet :=
  if f.ascii then
    if negated then fail .partOfCharacter span
    else .ok (if f.anyCase then set.anyCase else set)
  else if f.anyCase && foldable then fail .unknownCases span
  else .ok (if negated then set.complement else set)

/-- A class by a letter. There are no tables of these classes for all alphabets. -/
def named (f : Flags) (n : Named) : Except Fault CharSet :=
  if !f.ascii then fail .unknownClass n.span
  else if n.negated then fail .partOfCharacter n.span
  else .ok n.set

def property (f : Flags) (fault : Cause) (span : Span) : Except Fault CharSet :=
  fail (if f.ascii then .beyondAscii else fault) span

def bracketed (f : Flags) (l : Literal) : Except Fault Char :=
  if f.ascii && 128 ≤ l.char.val then
    fail (if l.isByte then .partOfCharacter else .beyondAscii) l.span
  else .ok l.char

def literal (f : Flags) (l : Literal) : Except Fault Pattern := do
  if f.ascii && l.isByte && 128 ≤ l.char.val then fail .partOfCharacter l.span
  else if f.anyCase && !f.ascii then fail .unknownCases l.span
  else if f.anyCase then return .one (CharSet.only l.char).anyCase
  else return .one (.only l.char)

def dot (f : Flags) (span : Span) : Except Fault Pattern :=
  if f.ascii then fail .partOfCharacter span
  else if f.anyDot then .ok (.one .all)
  else .ok (.one (CharSet.complement (.ofChars (if f.returns then ['\n', '\r'] else ['\n']))))

end Meaning

def Item.isFoldable : Item → Bool
  | .literal _ | .range _ _ => true
  | .union items _ => items.attach.any fun ⟨i, _⟩ => i.isFoldable
  | _ => false

mutual
def Item.set (f : Flags) : Item → Except Fault CharSet
  | .nothing _ => return .empty
  | .literal l => return .only (← Meaning.bracketed f l)
  | .range first last =>
    return .range (← Meaning.bracketed f first) (← Meaning.bracketed f last)
  | .ascii n => Meaning.closed f true n.set n.negated n.span
  | .named n => Meaning.named f n
  | .property fault span => Meaning.property f fault span
  | .brackets negated inside span => do
    Meaning.closed f inside.isFoldable (← inside.set f) negated span
  | .union items _ => setOfItems f items
  | .operation op left right _ => do
    let l ← left.set f
    let r ← right.set f
    let r ← Meaning.closed f right.isFoldable r false right.span
    let l ← Meaning.closed f left.isFoldable l false left.span
    return CharSet.combine op.apply l r
def setOfItems (f : Flags) : List Item → Except Fault CharSet
  | [] => return .empty
  | i :: rest => return (← i.set f).union (← setOfItems f rest)
end

def isVoid : Pattern → Bool
  | .empty | .edge _ _ => true
  | .one _ => false
  | .both p q | .either p q => p.isVoid && q.isVoid
  | .repeated p .. => p.isVoid

/-- A repetition. What matches the empty text alone has no more use than once. -/
def times (p : Pattern) (least : Nat) (most : Option Nat) : Pattern :=
  let (least, most) :=
    if p.isVoid then (min least 1, some (most.elim 1 (min · 1))) else (least, most)
  match least, most with
  | 0, some 0 => .empty
  | 1, some 1 => p
  | _, _ => .repeated p least most

def inRow (ps : List Pattern) : Pattern :=
  match (ps.filter (· ≠ .empty)).reverse with
  | [] => .empty
  | last :: earlier => earlier.foldl (fun rest p => .both p rest) last

def unionOfOnes? : List Pattern → Option CharSet
  | [] => some .empty
  | .one s :: rest => (unionOfOnes? rest).map s.union
  | _ :: _ => none

def ofBranches (ps : List Pattern) : Pattern :=
  match unionOfOnes? ps, ps.reverse with
  | some s, _ => .one s
  | none, [] => .empty
  | none, last :: earlier => earlier.foldl (fun rest p => .either p rest) last

/-- A group whose place is remembered has something to remember at both of its ends. -/
def remember (p : Pattern) : Pattern := .both .empty (.both p .empty)

mutual
def Written.meaning : Written → StateT Flags (Except Fault) Pattern
  | .empty => return .empty
  | .flags letters => do
    modify (·.set letters)
    return .empty
  | .literal l => do Meaning.literal (← get) l
  | .dot span => do Meaning.dot (← get) span
  | .lineStart => do
    let f ← get
    return .edge (if f.manyLines then .lineStart f.returns else .textStart) false
  | .lineEnd => do
    let f ← get
    return .edge (if f.manyLines then .lineEnd f.returns else .textEnd) false
  | .edge e => do return .edge e !(← get).ascii
  | .named n => do return .one (← Meaning.named (← get) n)
  | .property fault span => do return .one (← Meaning.property (← get) fault span)
  | .brackets negated inside span => do
    let f ← get
    let set ← inside.set f
    return .one (← Meaning.closed f inside.isFoldable set negated span)
  | .repeated p least most _ => do return (← p.meaning).times least most
  | .group remembered letters p _ => do
    let f ← get
    set (f.set letters)
    let p ← p.meaning
    set f
    return if remembered then remember p else p
  | .row ps _ => do return inRow (← meanings ps)
  | .either ps _ => do return ofBranches (← meanings ps)
def meanings : List Written → StateT Flags (Except Fault) (List Pattern)
  | [] => return []
  | p :: rest => return (← p.meaning) :: (← meanings rest)
end

end TypeLang.Pattern
