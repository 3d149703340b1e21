import TypeLang.Deflate.Bits

/-!
Canonical prefix codes. A code is given by the lengths of its words: words of one length are
consecutive in the order of their symbols, and the words of each length follow those that are
shorter.
-/

namespace TypeLang.Deflate

structure Code where
  /-- How many words there are of length 1, 2, and so on. -/
  counts : List Nat
  symbols : Array Nat

namespace Code

def longest : Nat := 15

def symbolsOf (lengths : List Nat) (length : Nat) : List Nat :=
  (lengths.zipIdx.filter (·.1 = length)).map (·.2)

/-- The share of all words that the words of these lengths take up, in words of greatest length. -/
def share (lengths : List Nat) : Nat :=
  (lengths.filter (· ≠ 0)).foldl (fun total l => total + 1 <<< (longest - l)) 0

def ofLengths (lengths : List Nat) : Code :=
  let groups := (List.range longest).map fun l => symbolsOf lengths (l + 1)
  ⟨groups.map List.length, groups.flatten.toArray⟩

def isComplete (lengths : List Nat) : Bool := share lengths = 1 <<< longest

def isSingle (lengths : List Nat) : Bool :=
  match lengths.filter (· ≠ 0) with
  | [] | [1] => true
  | _ => false

/-- A code has to be complete, unless it has no words or a single one of length 1. -/
def ofLengths? (lengths : List Nat) : Option Code :=
  if isComplete lengths || isSingle lengths then some (ofLengths lengths) else none

/-- Extends the word `word` bit by bit until it is one of the code. The first word of the last
length that was tried is `first - count`, and `index` words are shorter than the next. -/
def walk (symbols : Array Nat) : (counts : List Nat) → (word first index : Nat) → Bits Nat
  | [], _, _, _ => fail
  | count :: rest, word, first, index => do
    let word := 2 * word + (← bit)
    let first := 2 * first
    if word < first + count then
      match symbols[index + (word - first)]? with
      | some s => return s
      | none => fail
    else walk symbols rest word (first + count) (index + count)

def read (c : Code) : Bits Nat := walk c.symbols c.counts 0 0 0

end Code

end TypeLang.Deflate
