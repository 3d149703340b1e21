import TypeLang.Proofs.Text.Words

namespace TypeLang.Text

inductive Spaced : List (List Char) → List Char → Prop
  | last (w : List Char) : Spaced [w] w
  | more {w gap cs : List Char} {ws : List (List Char)} : gap ≠ [] → (∀ c ∈ gap, isBlank c) →
      Spaced ws cs → Spaced (w :: ws) (w ++ (gap ++ cs))

def IsWord (w : List Char) : Prop := w ≠ [] ∧ ∀ c ∈ w, ¬ isBlank c

instance (w : List Char) : Decidable (IsWord w) :=
  @instDecidableAnd _ _ inferInstance (List.decidableBAll (fun c => ¬ isBlank c) w)

theorem dropEndWhile_append {p : Char → Bool} {back : List Char} (h : ∀ c ∈ back, p c)
    (cs : List Char) : dropEndWhile p (cs ++ back) = dropEndWhile p cs := by
  rw [dropEndWhile, dropEndWhile, List.reverse_append,
    List.dropWhile_append_of_pos fun c hc => h c (List.mem_reverse.mp hc)]

theorem trim_append_left {front : List Char} (h : ∀ c ∈ front, isBlank c) (cs : List Char) :
    trim (front ++ cs) = trim cs := by
  rw [trim, List.dropWhile_append_of_pos h, trim]

theorem trim_append_right {back : List Char} (h : ∀ c ∈ back, isBlank c) (cs : List Char) :
    trim (cs ++ back) = trim cs := by
  rw [trim, trim, List.dropWhile_append]
  split
  · next none =>
    rw [List.isEmpty_iff] at none
    rw [none, List.dropWhile_eq_nil_iff.mpr h]
  · exact dropEndWhile_append h _

theorem words_append_of_blank {gap : List Char} (h : ∀ c ∈ gap, isBlank c) (cs : List Char) :
    words (gap ++ cs) = words cs := by
  induction gap with
  | nil => rfl
  | cons c gap ih =>
    rw [List.forall_mem_cons] at h
    rw [List.cons_append, words, pieces_cons_of_pos h.1, List.filter_cons_of_neg (by simp)]
    exact ih h.2

theorem IsWord.words_append {w gap : List Char} (h : IsWord w) (ne : gap ≠ [])
    (hg : ∀ c ∈ gap, isBlank c) (cs : List Char) : words (w ++ (gap ++ cs)) = w :: words cs := by
  cases gap with
  | nil => exact absurd rfl ne
  | cons c gap =>
    rw [List.forall_mem_cons] at hg
    rw [List.cons_append, words_append_cons h.1 h.2 hg.1, words_append_of_blank hg.2]

theorem IsWord.words_eq {w : List Char} (h : IsWord w) : words w = [w] := by
  rw [words, pieces_of_forall h.2, List.filter_cons_of_pos (by simpa using h.1), List.filter_nil]

namespace Spaced

variable {ws : List (List Char)} {cs : List Char}

theorem words_append (h : Spaced ws cs) (hw : ∀ w ∈ ws, IsWord w) {gap : List Char}
    (hg : ∀ c ∈ gap, isBlank c) : words (cs ++ gap) = ws := by
  induction h with
  | last w =>
    have word := hw w List.mem_cons_self
    cases gap with
    | nil => rw [List.append_nil, word.words_eq]
    | cons c gap =>
      have split := word.words_append (List.cons_ne_nil c gap) hg []
      rw [List.append_nil] at split
      exact split
  | @more w inner cs ws ne hi _ ih =>
    rw [List.forall_mem_cons] at hw
    rw [List.append_assoc, List.append_assoc, hw.1.words_append ne hi, ih hw.2]

theorem words_eq (h : Spaced ws cs) (hw : ∀ w ∈ ws, IsWord w) : words cs = ws := by
  have whole := h.words_append hw (List.forall_mem_nil _)
  rwa [List.append_nil] at whole

theorem ne_nil (h : Spaced ws cs) : ws ≠ [] := by
  cases h with
  | last _ => exact List.cons_ne_nil _ _
  | more _ _ _ => exact List.cons_ne_nil _ _

theorem text_ne_nil (h : Spaced ws cs) (hw : ∀ w ∈ ws, IsWord w) : cs ≠ [] := by
  rintro rfl
  exact h.ne_nil (h.words_eq hw).symm

theorem head?_eq (h : Spaced ws cs) (hw : ∀ w ∈ ws, IsWord w) :
    cs.head? = ws.head?.bind List.head? := by
  cases h with
  | last w => rfl
  | more _ _ _ => exact List.head?_append_of_ne_nil _ (hw _ List.mem_cons_self).1

theorem getLast?_eq (h : Spaced ws cs) (hw : ∀ w ∈ ws, IsWord w) :
    cs.getLast? = ws.getLast?.bind List.getLast? := by
  induction h with
  | last w => rfl
  | @more w gap cs ws _ _ hs ih =>
    rw [List.forall_mem_cons] at hw
    rw [← List.append_assoc, List.getLast?_append_of_ne_nil _ (hs.text_ne_nil hw.2), ih hw.2,
      List.getLast?_cons_of_ne_nil hs.ne_nil]

theorem trim_eq (h : Spaced ws cs) (hw : ∀ w ∈ ws, IsWord w) : trim cs = cs := by
  refine trim_of_ends ?_ ?_
  · rw [h.head?_eq hw]
    intro c hc
    obtain ⟨w, hm, hc⟩ := Option.bind_eq_some_iff.mp hc
    exact (hw w (List.mem_of_mem_head? hm)).2 c (List.mem_of_mem_head? hc)
  · rw [h.getLast?_eq hw]
    intro c hc
    obtain ⟨w, hm, hc⟩ := Option.bind_eq_some_iff.mp hc
    exact (hw w (List.mem_of_mem_getLast? hm)).2 c (List.mem_of_mem_getLast? hc)

end Spaced

end TypeLang.Text
