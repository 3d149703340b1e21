import TypeLang.Pattern.Basic
import TypeLang.Pattern.Fault

namespace TypeLang.Pattern

structure Literal where
  char : Char
  isByte : Bool
  span : Span
  deriving DecidableEq, Repr

inductive SetOperator : Type
  | both
  | first
  | justOne
  deriving DecidableEq, Repr

def SetOperator.apply : SetOperator → Bool → Bool → Bool
  | .both, a, b => a && b
  | .first, a, b => a && !b
  | .justOne, a, b => a != b

structure Named where
  set : CharSet
  negated : Bool
  span : Span
  deriving DecidableEq, Repr

inductive Item : Type
  | nothing (span : Span)
  | literal (l : Literal)
  | range (first last : Literal)
  | ascii (n : Named)
  | named (n : Named)
  | property (fault : Cause) (span : Span)
  | brackets (negated : Bool) (inside : Item) (span : Span)
  | union (items : List Item) (span : Span)
  | operation (op : SetOperator) (left right : Item) (span : Span)

def Item.span : Item → Span
  | .nothing span | .property _ span | .brackets _ _ span | .union _ span
  | .operation _ _ _ span => span
  | .literal l => l.span
  | .range first last => ⟨first.span.start, last.span.stop⟩
  | .ascii n | .named n => n.span

inductive Written : Type
  | empty
  | flags (letters : List Char)
  | literal (l : Literal)
  | dot (span : Span)
  | lineStart
  | lineEnd
  | edge (e : Edge)
  | named (n : Named)
  | property (fault : Cause) (span : Span)
  | brackets (negated : Bool) (inside : Item) (span : Span)
  | repeated (p : Written) (least : Nat) (most : Option Nat) (span : Span)
  /-- a group with flags for what stands in it; with `remembered`, its place in a text is asked
  for -/
  | group (remembered : Bool) (letters : List Char) (p : Written) (span : Span)
  | row (parts : List Written) (span : Span)
  | either (branches : List Written) (span : Span)

mutual
def Item.tooDeep? (levels : Nat) : Item → Option Span
  | .brackets _ inside span => if levels = 0 then some span else inside.tooDeep? (levels - 1)
  | .union items span => if levels = 0 then some span else tooDeepItem? (levels - 1) items
  | .operation _ left right span =>
    if levels = 0 then some span
    else left.tooDeep? (levels - 1) <|> right.tooDeep? (levels - 1)
  | _ => none
def tooDeepItem? (levels : Nat) : List Item → Option Span
  | [] => none
  | i :: rest => i.tooDeep? levels <|> tooDeepItem? levels rest
end

mutual
def Written.tooDeep? (levels : Nat) : Written → Option Span
  | .brackets _ inside span => if levels = 0 then some span else inside.tooDeep? (levels - 1)
  | .repeated p _ _ span | .group _ _ p span =>
    if levels = 0 then some span else p.tooDeep? (levels - 1)
  | .row ps span | .either ps span =>
    if levels = 0 then some span else tooDeepPart? (levels - 1) ps
  | _ => none
def tooDeepPart? (levels : Nat) : List Written → Option Span
  | [] => none
  | p :: rest => p.tooDeep? levels <|> tooDeepPart? levels rest
end

end TypeLang.Pattern
