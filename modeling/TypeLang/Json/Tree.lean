import TypeLang.Text.Numeral

namespace TypeLang.Json

inductive Tree : Type
  | null
  | bool (b : Bool)
  | int (n : Int)
  | decimal (text : String)
  | text (s : String)
  | array (items : List Tree)
  | object (members : List (String × Tree))
  deriving Inhabited, BEq

def escape (c : Char) : List Char :=
  if c = '"' then ['\\', '"']
  else if c = '\\' then ['\\', '\\']
  else if c = '\n' then ['\\', 'n']
  else if c = '\r' then ['\\', 'r']
  else if c = '\t' then ['\\', 't']
  else if c.val = 8 then ['\\', 'b']
  else if c.val = 12 then ['\\', 'f']
  else if c.val < 0x20 then ['\\', 'u'] ++ Text.hexDigits 4 c.toNat
  else [c]

def quote (s : String) : String :=
  "\"" ++ String.ofList (s.toList.flatMap escape) ++ "\""

namespace Tree

mutual
def compact : Tree → String
  | .null => "null"
  | .bool b => if b then "true" else "false"
  | .int n => toString n
  | .decimal digits => digits
  | .text s => quote s
  | .array items => "[" ++ ",".intercalate (compactItems items) ++ "]"
  | .object members => "\x7b" ++ ",".intercalate (compactMembers members) ++ "\x7d"
def compactItems : List Tree → List String
  | [] => []
  | t :: ts => t.compact :: compactItems ts
def compactMembers : List (String × Tree) → List String
  | [] => []
  | (k, t) :: ts => (quote k ++ ":" ++ t.compact) :: compactMembers ts
end

def newline (level : Nat) : String := "\n" ++ String.ofList (List.replicate (2 * level) ' ')

def block (level : Nat) (left right : String) (lines : List String) : String :=
  if lines.isEmpty then left ++ right
  else
    left ++ newline (level + 1) ++ ("," ++ newline (level + 1)).intercalate lines
      ++ newline level ++ right

mutual
def prettyAt (level : Nat) : Tree → String
  | .array items => block level "[" "]" (prettyItems (level + 1) items)
  | .object members => block level "\x7b" "\x7d" (prettyMembers (level + 1) members)
  | .null => "null"
  | .bool b => if b then "true" else "false"
  | .int n => toString n
  | .decimal digits => digits
  | .text s => quote s
def prettyItems (level : Nat) : List Tree → List String
  | [] => []
  | t :: ts => t.prettyAt level :: prettyItems level ts
def prettyMembers (level : Nat) : List (String × Tree) → List String
  | [] => []
  | (k, t) :: ts => (quote k ++ ": " ++ t.prettyAt level) :: prettyMembers level ts
end

def pretty (t : Tree) : String := t.prettyAt 0

end Tree

end TypeLang.Json
