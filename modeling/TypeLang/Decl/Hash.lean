import TypeLang.Checksum.Crc32
import TypeLang.Text.Blank

namespace TypeLang.Decl

open Text

/-- A word of the hashed form: braces and closing brackets vanish, an opening bracket separates. -/
def hashedWords (w : List Char) : List (List Char) :=
  words ((w.filter fun c => c ≠ '\x7b' ∧ c ≠ '\x7d' ∧ c ≠ '>').map fun c =>
    if c = '<' then ' ' else c)

def withoutId (w : List Char) : List Char :=
  match cut? '#' w with
  | none => w
  | some (name, _) => name

/-- The hashed form of a declaration: its words with single spaces between them, without an id
behind the first and without braces, brackets and final semicolons. -/
def hashedForm (cs : List Char) : List Char :=
  match words (dropEndWhile (· = ';') (trim cs)) with
  | [] => []
  | name :: tokens =>
    join [' '] (hashedWords (withoutId name) ++ tokens.flatMap hashedWords)

def hashedId (cs : List Char) : UInt32 :=
  Checksum.crc32 (String.ofList (hashedForm cs)).toUTF8

end TypeLang.Decl
