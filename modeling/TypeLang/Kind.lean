namespace TypeLang

inductive Kind : Type
  | constructor
  | method
  deriving DecidableEq, Repr

def Kind.name : Kind → String
  | .constructor => "class"
  | .method => "method"

end TypeLang
