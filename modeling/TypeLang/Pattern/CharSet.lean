namespace TypeLang

/-- The code points, in increasing order, at which a set begins or ends. -/
structure CharSet where
  bounds : List Nat
  deriving DecidableEq, Repr

namespace CharSet

/-- Whether a character is in the set: it lies behind an odd number of bounds. -/
def contains (s : CharSet) (c : Char) : Bool :=
  (s.bounds.takeWhile (· ≤ c.toNat)).length % 2 = 1

def empty : CharSet := ⟨[]⟩

def isEmpty (s : CharSet) : Bool := s.bounds.isEmpty

def all : CharSet := ⟨[0, 0xd800, 0xe000, 0x110000]⟩

def ascii : CharSet := ⟨[0, 0x80]⟩

/-- The bounds of a combination, at places with `a` and `b` in the two sets. -/
def mergeBounds (f : Bool → Bool → Bool) (a b : Bool) : List Nat → List Nat → List Nat
  | [], [] => []
  | x :: s, [] => bound (f a b) (f (!a) b) x ++ mergeBounds f (!a) b s []
  | [], y :: t => bound (f a b) (f a (!b)) y ++ mergeBounds f a (!b) [] t
  | x :: s, y :: t =>
    if x < y then bound (f a b) (f (!a) b) x ++ mergeBounds f (!a) b s (y :: t)
    else if y < x then bound (f a b) (f a (!b)) y ++ mergeBounds f a (!b) (x :: s) t
    else bound (f a b) (f (!a) (!b)) x ++ mergeBounds f (!a) (!b) s t
  termination_by s t => s.length + t.length
where
  bound (before behind : Bool) (place : Nat) : List Nat :=
    if before = behind then [] else [place]

def combine (f : Bool → Bool → Bool) (s t : CharSet) : CharSet :=
  ⟨mergeBounds f false false s.bounds t.bounds⟩

def union : CharSet → CharSet → CharSet := combine (· || ·)

def inter : CharSet → CharSet → CharSet := combine (· && ·)

def difference : CharSet → CharSet → CharSet := combine fun a b => a && !b

def complement (s : CharSet) : CharSet := all.difference s

def range (first last : Char) : CharSet := inter ⟨[first.toNat, last.toNat + 1]⟩ all

def only (c : Char) : CharSet := ⟨[c.toNat, c.toNat + 1]⟩

def ofRanges (rs : List (Char × Char)) : CharSet :=
  rs.foldl (fun s (first, last) => s.union (range first last)) empty

def ofChars (cs : List Char) : CharSet := cs.foldl (fun s c => s.union (only c)) empty

def anyCase (s : CharSet) : CharSet :=
  let upper := s.inter (range 'A' 'Z')
  let lower := s.inter (range 'a' 'z')
  s.union (union ⟨upper.bounds.map (· + 32)⟩ ⟨lower.bounds.map (· - 32)⟩)

def rangeCount (s : CharSet) : Nat := s.bounds.length / 2

def single? (s : CharSet) : Option Char :=
  match s.bounds with
  | [first, last] => if last = first + 1 then some (Char.ofNat first) else none
  | _ => none

end CharSet

end TypeLang
