import TypeLang.Decl.Source
import TypeLang.Proofs.Decl.Parts

namespace TypeLang.Decl

variable {rule : IdRule}

theorem exists_tokens_of_read {cs : List Char} {d : Decl} (h : read rule cs = .ok d) :
    ∃ right type tokens, TypeExpr.read right = .ok type ∧ d.type = markResult d.generics type ∧
      readTokens [] [] tokens = .ok (d.generics, d.params) := by
  obtain ⟨-, ht, -, -, -, hp⟩ := read_eq_ok_iff.mp h
  exact ⟨_, _, _, ht, rfl, hp⟩

theorem exists_read_of_readList {cs : List Char} {generics : List Generic}
    (h : Generic.readList cs = .ok generics) {g : Generic} (hg : g ∈ generics) :
    ∃ item, Generic.read item = .ok g := by
  unfold Generic.readList at h
  split at h
  · split at h
    · cases h
    · obtain ⟨item, -, hi⟩ := exists_left_of_forall₂ (forall₂_of_mapM h) hg
      exact ⟨item, hi⟩
  · cases h

theorem forall_of_readTokens {P : Param → Prop} (hP : ∀ token p, Param.read token = .ok p → P p)
    {generics generics' : List Generic} {params params' : List Param} {tokens : List (List Char)}
    (h : readTokens generics params tokens = .ok (generics', params'))
    (before : ∀ p ∈ params, P p) : ∀ p ∈ params', P p := by
  induction tokens generalizing generics params with
  | nil =>
    cases h
    exact before
  | cons token rest ih =>
    rw [readTokens] at h
    split at h
    · obtain ⟨more, -, h⟩ := except_bind_eq_ok.mp h
      exact ih h before
    · obtain ⟨p, hp, h⟩ := except_bind_eq_ok.mp h
      split at h
      · refine ih h (List.forall_mem_append.mpr ⟨before, ?_⟩)
        simpa using hP token p hp
      · cases h

theorem forall_generics_of_readTokens {P : Generic → Prop}
    (hP : ∀ item g, Generic.read item = .ok g → P g) {generics generics' : List Generic}
    {params params' : List Param} {tokens : List (List Char)}
    (h : readTokens generics params tokens = .ok (generics', params'))
    (before : ∀ g ∈ generics, P g) : ∀ g ∈ generics', P g := by
  induction tokens generalizing generics params with
  | nil =>
    cases h
    exact before
  | cons token rest ih =>
    rw [readTokens] at h
    split at h
    · obtain ⟨more, hm, h⟩ := except_bind_eq_ok.mp h
      refine ih h (List.forall_mem_append.mpr ⟨before, fun g hg => ?_⟩)
      obtain ⟨item, hi⟩ := exists_read_of_readList hm hg
      exact hP item g hi
    · obtain ⟨p, -, h⟩ := except_bind_eq_ok.mp h
      split at h
      · exact ih h before
      · cases h

theorem exists_read_of_readLine {kind : Kind} {comment : Option String} {line : Nat}
    {text : List Char} {d : Decl} (h : readLine rule kind comment line text = .ok d) :
    ∃ cs d', read rule cs = .ok d' ∧ d = { d' with kind := d.kind, comment := d.comment } := by
  rw [readLine] at h
  split at h
  · next d' hd =>
    cases h
    split at hd
    · exact ⟨text, d', hd, rfl⟩
    · cases hd
  · cases h

/-- By induction on the lines: each declaration comes from a line of its own. -/
theorem exists_read_of_scan {kind : Kind} {comment : List (List Char)} {line : Nat}
    {lines : List (List Char)} {d : Decl}
    (h : .declared (.ok d) ∈ scan rule kind comment line lines) :
    ∃ cs d', read rule cs = .ok d' ∧ d = { d' with kind := d.kind, comment := d.comment } := by
  induction lines generalizing kind comment line with
  | nil => cases h
  | cons raw rest ih =>
    rw [scan] at h
    dsimp only at h
    split at h
    · exact ih h
    · split at h
      · split at h
        · exact ih (List.mem_of_ne_of_mem (by simp) h)
        · exact ih h
      · split at h
        · exact ih h
        · split at h
          · exact ih (List.mem_of_ne_of_mem (by simp) h)
          · rcases List.mem_cons.mp h with h | h
            · injection h with h
              exact exists_read_of_readLine h.symm
            · exact ih h

theorem exists_read_of_parse {text : String} {source : Source}
    (h : Source.parse rule text = .ok source) {d : Decl} (hd : d ∈ source.decls) :
    ∃ cs d', read rule cs = .ok d' ∧ d = { d' with kind := d.kind, comment := d.comment } := by
  rw [Source.parse] at h
  obtain ⟨decls, hm, h⟩ := except_bind_eq_ok.mp h
  cases h
  obtain ⟨r, hr, rfl⟩ := exists_left_of_forall₂ (forall₂_of_mapM hm) hd
  obtain ⟨item, hi, hr⟩ := List.mem_filterMap.mp hr
  cases item with
  | declared result =>
    cases hr
    exact exists_read_of_scan hi
  | builtin line text => cases hr
  | layer n => cases hr

end TypeLang.Decl
