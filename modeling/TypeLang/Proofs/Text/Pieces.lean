import TypeLang.Text.Pieces

namespace TypeLang.Text

section

variable {c : Char} {cs front back : List Char}

theorem cut?_eq_none_iff : cut? c cs = none ↔ c ∉ cs := by
  induction cs with
  | nil => simp [cut?]
  | cons x xs ih =>
    rw [cut?]
    split
    · next h => simp [h]
    · next h => simp [ih, Ne.symm h]

theorem cut?_append (h : c ∉ front) : cut? c (front ++ c :: back) = some (front, back) := by
  induction front with
  | nil => simp [cut?]
  | cons x xs ih =>
    rw [List.mem_cons, not_or] at h
    rw [List.cons_append, cut?, if_neg (Ne.symm h.1), ih h.2]
    rfl

theorem not_mem_of_cut? (h : cut? c cs = some (front, back)) : c ∉ front := by
  induction cs generalizing front with
  | nil => cases h
  | cons x xs ih =>
    rw [cut?] at h
    split at h
    · cases h
      exact List.not_mem_nil
    · next hx =>
      obtain ⟨⟨front', back'⟩, hf, he⟩ := Option.map_eq_some_iff.mp h
      cases he
      rw [List.mem_cons, not_or]
      exact ⟨Ne.symm hx, ih hf⟩

theorem dropLast?_append (c : Char) (cs : List Char) : dropLast? c (cs ++ [c]) = some cs := by
  simp [dropLast?]

end

section

variable {p : Char → Bool} {c : Char}

theorem pieces_cons_of_pos (h : p c) (cs : List Char) : pieces p (c :: cs) = [] :: pieces p cs := by
  rw [pieces, List.foldr_cons, if_pos h]
  rfl

theorem pieces_cons_of_neg (h : ¬ p c) {cs w : List Char} {ws : List (List Char)}
    (hs : pieces p cs = w :: ws) : pieces p (c :: cs) = (c :: w) :: ws := by
  rw [pieces] at hs
  rw [pieces, List.foldr_cons, if_neg h, hs]

theorem exists_pieces (p : Char → Bool) (cs : List Char) : ∃ w ws, pieces p cs = w :: ws := by
  induction cs with
  | nil => exact ⟨[], [], rfl⟩
  | cons c cs ih =>
    obtain ⟨w, ws, hs⟩ := ih
    by_cases h : p c
    · exact ⟨[], pieces p cs, pieces_cons_of_pos h cs⟩
    · exact ⟨c :: w, ws, pieces_cons_of_neg h hs⟩

theorem of_mem_pieces {cs w : List Char} (hw : w ∈ pieces p cs) : ∀ c ∈ w, c ∈ cs ∧ ¬ p c := by
  induction cs generalizing w with
  | nil =>
    obtain rfl := List.mem_singleton.mp hw
    simp
  | cons d cs ih =>
    obtain ⟨v, vs, hs⟩ := exists_pieces p cs
    intro c hc
    by_cases h : p d
    · rw [pieces_cons_of_pos h] at hw
      rcases List.mem_cons.mp hw with rfl | hw
      · cases hc
      · exact ⟨List.mem_cons_of_mem d (ih hw c hc).1, (ih hw c hc).2⟩
    · rw [pieces_cons_of_neg h hs] at hw
      rw [hs] at ih
      rcases List.mem_cons.mp hw with rfl | hw
      · rcases List.mem_cons.mp hc with rfl | hc
        · exact ⟨List.mem_cons_self, h⟩
        · have hv := ih List.mem_cons_self c hc
          exact ⟨List.mem_cons_of_mem d hv.1, hv.2⟩
      · have hv := ih (List.mem_cons_of_mem v hw) c hc
        exact ⟨List.mem_cons_of_mem d hv.1, hv.2⟩

theorem pieces_of_forall {w : List Char} (h : ∀ c ∈ w, ¬ p c) : pieces p w = [w] := by
  induction w with
  | nil => rfl
  | cons c w ih =>
    rw [List.forall_mem_cons] at h
    exact pieces_cons_of_neg h.1 (ih h.2)

theorem pieces_append_cons {w : List Char} (h : ∀ c ∈ w, ¬ p c) (hc : p c) (cs : List Char) :
    pieces p (w ++ c :: cs) = w :: pieces p cs := by
  induction w with
  | nil => exact pieces_cons_of_pos hc cs
  | cons d w ih =>
    rw [List.forall_mem_cons] at h
    exact pieces_cons_of_neg h.1 (ih h.2)

end

theorem pieces_intercalate {c : Char} {ws : List (List Char)} (ne : ws ≠ [])
    (h : ∀ w ∈ ws, c ∉ w) : pieces (· = c) ([c].intercalate ws) = ws := by
  induction ws with
  | nil => exact absurd rfl ne
  | cons w ws ih =>
    rw [List.forall_mem_cons] at h
    have whole : ∀ d ∈ w, ¬ decide (d = c) = true := by
      intro d hd hc
      exact h.1 (of_decide_eq_true hc ▸ hd)
    cases ws with
    | nil => rw [List.intercalate_singleton, pieces_of_forall whole]
    | cons v vs =>
      rw [List.intercalate_cons_cons, List.append_assoc, List.singleton_append,
        pieces_append_cons whole (decide_eq_true rfl), ih (List.cons_ne_nil v vs) h.2]

theorem mem_intercalate {sep c : Char} {ws : List (List Char)} (h : c ∈ [sep].intercalate ws) :
    c = sep ∨ ∃ w ∈ ws, c ∈ w := by
  induction ws with
  | nil => cases h
  | cons w ws ih =>
    cases ws with
    | nil =>
      rw [List.intercalate_singleton] at h
      exact .inr ⟨w, List.mem_cons_self, h⟩
    | cons v vs =>
      rw [List.intercalate_cons_cons, List.append_assoc, List.mem_append, List.mem_append,
        List.mem_singleton] at h
      rcases h with h | h | h
      · exact .inr ⟨w, List.mem_cons_self, h⟩
      · exact .inl h
      · exact (ih h).imp_right fun ⟨u, hu, hc⟩ => ⟨u, List.mem_cons_of_mem w hu, hc⟩

theorem intercalate_pieces (c : Char) (cs : List Char) :
    [c].intercalate (pieces (· = c) cs) = cs := by
  induction cs with
  | nil => rfl
  | cons d cs ih =>
    obtain ⟨w, ws, hs⟩ := exists_pieces (· = c) cs
    by_cases h : d = c
    · subst h
      rw [pieces_cons_of_pos (decide_eq_true rfl), hs, List.intercalate_cons_cons, ← hs, ih]
      rfl
    · rw [pieces_cons_of_neg (by simpa using h) hs, List.intercalate_cons_cons_left, ← hs, ih]

end TypeLang.Text
