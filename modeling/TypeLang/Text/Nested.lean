namespace TypeLang.Text

inductive Nested : Type
  | text (s : String)
  | group (left right : String) (items : List (String × Nested))

namespace Nested

def indent (level : Nat) : String := String.ofList (List.replicate (4 * level) ' ')

mutual
def renderAt (level : Nat) : Nested → String
  | .text s => s
  | .group left right [] => left ++ right
  | .group left right items =>
    left ++ "\n" ++ String.join (renderItems level items) ++ indent level ++ right
def renderItems (level : Nat) : List (String × Nested) → List String
  | [] => []
  | (label, t) :: rest =>
    (indent (level + 1) ++ label ++ t.renderAt (level + 1) ++ ",\n") :: renderItems level rest
end

def render (t : Nested) : String := t.renderAt 0

end Nested

end TypeLang.Text
