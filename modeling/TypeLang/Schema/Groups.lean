import TypeLang.Schema.Basic

namespace TypeLang

namespace Schema

def groupBy {α : Type} (space : α → String) (items : List α) : Dict (List α) :=
  items.foldl (fun groups a =>
    Dict.insert (space a) (((Dict.get? groups (space a)).getD []) ++ [a]) groups) []

def sortBy {α : Type} (key : α → String) (items : List α) : List α :=
  items.mergeSort fun a b => key a ≤ key b

def namespaces (s : Schema) (kind : Kind) : Dict (List Entry) :=
  (groupBy Entry.space (s.entries.filter (·.kind = kind))).map fun (space, group) =>
    (space, sortBy Entry.localName group)

def unionNamespaces (s : Schema) : Dict (List Union) :=
  (groupBy (fun u => (splitName u.name).1) s.unions).map fun (space, group) =>
    (space, sortBy Union.name group)

end Schema

end TypeLang
