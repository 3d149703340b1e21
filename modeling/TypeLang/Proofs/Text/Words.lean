import Mathlib.Data.List.DropRight
import TypeLang.Proofs.Text.Pieces
import TypeLang.Text.Blank

namespace TypeLang.Text

section

variable {p : Char → Bool} {cs : List Char}

theorem dropEndWhile_of_getLast? (h : ∀ c ∈ cs.getLast?, ¬ p c) : dropEndWhile p cs = cs := by
  refine List.rdropWhile_eq_self_iff.mpr fun ne => h _ ?_
  exact List.getLast?_eq_some_getLast ne

theorem dropEndWhile_concat {c : Char} (hc : p c) (h : ∀ d ∈ cs.getLast?, ¬ p d) :
    dropEndWhile p (cs ++ [c]) = cs :=
  (List.rdropWhile_concat_pos p cs c hc).trans (dropEndWhile_of_getLast? h)

theorem trim_of_ends (head : ∀ c ∈ cs.head?, ¬ isBlank c) (last : ∀ c ∈ cs.getLast?, ¬ isBlank c) :
    trim cs = cs := by
  have front : cs.dropWhile isBlank = cs := by
    cases cs with
    | nil => rfl
    | cons c cs => exact List.dropWhile_cons_of_neg (head c rfl)
  rw [trim, front, dropEndWhile_of_getLast? last]

theorem trim_cons_of_blank {c : Char} (hc : isBlank c) (cs : List Char) :
    trim (c :: cs) = trim cs := by
  rw [trim, List.dropWhile_cons_of_pos hc, trim]

theorem trim_of_forall (h : ∀ c ∈ cs, ¬ isBlank c) : trim cs = cs :=
  trim_of_ends (fun c hc => h c (List.mem_of_mem_head? hc))
    fun c hc => h c (List.mem_of_mem_getLast? hc)

end

section

variable {w : List Char} {c : Char}

theorem words_append_cons (ne : w ≠ []) (h : ∀ c ∈ w, ¬ isBlank c) (hc : isBlank c)
    (cs : List Char) : words (w ++ c :: cs) = w :: words cs := by
  rw [words, pieces_append_cons h hc, List.filter_cons_of_pos (by simpa using ne), words]

theorem words_flatMap {ws : List (List Char)} (ne : w ≠ []) (h : ∀ c ∈ w, ¬ isBlank c)
    (hs : ∀ v ∈ ws, v ≠ [] ∧ ∀ c ∈ v, ¬ isBlank c) :
    words (w ++ (ws.flatMap (' ' :: ·) ++ [' '])) = w :: ws := by
  induction ws generalizing w with
  | nil => exact words_append_cons ne h rfl []
  | cons v ws ih =>
    rw [List.forall_mem_cons] at hs
    rw [List.flatMap_cons, List.append_assoc, List.cons_append,
      words_append_cons ne h rfl, ih hs.1.1 hs.1.2 hs.2]

end

end TypeLang.Text
