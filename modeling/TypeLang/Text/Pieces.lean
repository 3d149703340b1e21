namespace TypeLang.Text

def cut? (c : Char) : List Char → Option (List Char × List Char)
  | [] => none
  | x :: xs => if x = c then some ([], xs) else (cut? c xs).map fun (a, b) => (x :: a, b)

theorem eq_append_of_cut? {c : Char} {cs a b : List Char} (h : cut? c cs = some (a, b)) :
    cs = a ++ c :: b := by
  induction cs generalizing a b with
  | nil => simp [cut?] at h
  | cons x xs ih =>
    simp only [cut?] at h
    split at h
    · next hx => simp_all
    · obtain ⟨⟨a', b'⟩, h', e⟩ := Option.map_eq_some_iff.1 h
      simp only [Prod.mk.injEq] at e
      obtain ⟨rfl, rfl⟩ := e
      simp [ih h']

/-- The text between consecutive characters of the class `p`, empty pieces included. -/
def pieces (p : Char → Bool) (cs : List Char) : List (List Char) :=
  cs.foldr (fun c rest =>
    if p c then [] :: rest
    else match rest with
      | [] => [[c]]
      | w :: ws => (c :: w) :: ws) [[]]

def dropLast? (c : Char) (cs : List Char) : Option (List Char) :=
  if cs.getLast? = some c then some cs.dropLast else none

theorem eq_append_of_dropLast? {c : Char} {cs a : List Char} (h : dropLast? c cs = some a) :
    cs = a ++ [c] := by
  simp only [dropLast?] at h
  split at h
  · next hc =>
    obtain rfl := Option.some.inj h
    obtain ⟨hne, hl⟩ := List.getLast?_eq_some_iff.1 hc
    simp [hl]
  · simp at h

def after? (p : List Char) (cs : List Char) : Option (List Char) :=
  if p.isPrefixOf cs then some (cs.drop p.length) else none

def dropEndWhile (p : Char → Bool) (cs : List Char) : List Char :=
  (cs.reverse.dropWhile p).reverse

def join (sep : List Char) (ps : List (List Char)) : List Char :=
  sep.intercalate ps

end TypeLang.Text
