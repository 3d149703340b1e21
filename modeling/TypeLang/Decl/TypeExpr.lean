import TypeLang.Decl.Fault
import TypeLang.Text.Blank

/-!
Type expressions: `upload.File`, `Vector<%Message>`, `!X`. A dotted name may carry the marks `!`
and `%` in front and one argument in angle brackets behind.
-/

namespace TypeLang.Decl

open Text

structure TypeName where
  space : List String
  name : String
  /-- Written in lower case or with `%`: encoded without a constructor id. -/
  bare : Bool
  /-- Written with `!`: stands for a generic of the declaration. -/
  placeholder : Bool
  deriving DecidableEq, Repr

inductive TypeExpr : Type
  | plain (head : TypeName)
  | apply (head : TypeName) (arg : TypeExpr)
  deriving DecidableEq, Repr

def dotted (space : List String) (name : String) : String :=
  ".".intercalate (space ++ [name])

def readDotted? (cs : List Char) : Option (List String × String) :=
  let parts := pieces (· = '.') cs
  if parts.any (·.isEmpty) then none
  else parts.getLast?.map fun name => (parts.dropLast.map String.ofList, String.ofList name)

def startsLower (name : String) : Bool :=
  match name.toList with
  | c :: _ => 'a' ≤ c && c ≤ 'z'
  | [] => false

namespace TypeName

def fullName (n : TypeName) : String := dotted n.space n.name

def render (n : TypeName) : String :=
  (if n.placeholder then "!" else "") ++ (if n.bare && !startsLower n.name then "%" else "")
    ++ n.fullName

end TypeName

namespace TypeExpr

def head : TypeExpr → TypeName
  | .plain h => h
  | .apply h _ => h

def mapHead (f : TypeName → TypeName) : TypeExpr → TypeExpr
  | .plain h => .plain (f h)
  | .apply h a => .apply (f h) a

def fullName (t : TypeExpr) : String := t.head.fullName

def render : TypeExpr → String
  | .plain h => h.render
  | .apply h a => h.render ++ "<" ++ a.render ++ ">"

def placeholders : TypeExpr → List String
  | .plain h => if h.placeholder then [h.name] else []
  | .apply h a => (if h.placeholder then [h.name] else []) ++ a.placeholders

def takeMark (c : Char) : List Char → Bool × List Char
  | [] => (false, [])
  | x :: xs => if x = c then (true, xs) else (false, x :: xs)

theorem length_takeMark_le (c : Char) (cs : List Char) : (takeMark c cs).2.length ≤ cs.length := by
  cases cs with
  | nil => simp [takeMark]
  | cons x xs => simp only [takeMark]; split <;> simp

def takeMarks (cs : List Char) : Bool × Bool × List Char :=
  ((takeMark '!' cs).1, takeMark '%' (takeMark '!' cs).2)

theorem length_takeMarks_le (cs : List Char) : (takeMarks cs).2.2.length ≤ cs.length :=
  Nat.le_trans (length_takeMark_le _ _) (length_takeMark_le _ _)

def readName (marks : Bool × Bool × List Char) (cs : List Char) : Except TokenFault TypeName :=
  match readDotted? cs with
  | none => .error .empty
  | some (space, name) => .ok ⟨space, name, marks.2.1 || startsLower name, marks.1⟩

/-- The argument of a type reaches from the first `<` to the last character, which has to be `>`.
It is read before the name in front of it. -/
def read (cs : List Char) : Except TokenFault TypeExpr :=
  match _front : cut? '<' (takeMarks cs).2.2 with
  | none => (readName (takeMarks cs) (takeMarks cs).2.2).map .plain
  | some (front, back) =>
    match _inner : dropLast? '>' back with
    | none => .error .unclosedArgument
    | some inner => do
      let arg ← read inner
      let name ← readName (takeMarks cs) front
      return .apply name arg
termination_by cs.length
decreasing_by
  have h1 := length_takeMarks_le cs
  have h2 := congrArg List.length (eq_append_of_cut? _front)
  have h3 := congrArg List.length (eq_append_of_dropLast? _inner)
  simp only [List.length_append, List.length_cons, List.length_nil] at h2 h3
  omega

end TypeExpr

end TypeLang.Decl
