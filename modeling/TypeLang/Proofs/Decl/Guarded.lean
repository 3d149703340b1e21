import TypeLang.Proofs.Decl.Param
import TypeLang.Proofs.Decl.Source

namespace TypeLang.Decl

def Param.guard? (p : Param) : Option FlagBit :=
  match p.type with
  | .flags => none
  | .value _ guard => guard

/-- Whether each guard of parameters behind the parameters `before` is a bit below 32 of a flags
word to the left of it. -/
inductive Guarded : List Param → List Param → Prop
  | nil {before : List Param} : Guarded before []
  | cons {before rest : List Param} {p : Param} :
      (∀ g ∈ p.guard?, g.bit < 32 ∧ ∃ q ∈ before, q.type = .flags ∧ q.name = g.flags) →
      Guarded (before ++ [p]) rest → Guarded before (p :: rest)

theorem Param.bit_lt_of_read {cs : List Char} {p : Param} (h : Param.read cs = .ok p) :
    ∀ g ∈ p.guard?, g.bit < 32 := by
  intro g hg
  have sound := Param.sound_of_read h
  rw [guard?] at hg
  split at hg
  · cases hg
  · next ht =>
    rw [ht] at sound
    cases sound with
    | value _ guards => exact (guards g hg).bit

theorem exists_flags_of_declared {generics : List Generic} {params : List Param} {p : Param}
    (h : declared generics params p) :
    ∀ g ∈ p.guard?, ∃ q ∈ params, q.type = .flags ∧ q.name = g.flags := by
  intro g hg
  rw [Param.guard?] at hg
  rw [declared] at h
  split at hg
  · cases hg
  · next type guard ht =>
    rw [ht] at h
    cases hg
    simpa using (Bool.and_eq_true_iff.mp h).1

/-- By induction on the tokens: a parameter is taken only behind what it hangs on. -/
theorem guarded_of_readTokens {generics generics' : List Generic} {params params' : List Param}
    {tokens : List (List Char)}
    (h : readTokens generics params tokens = .ok (generics', params')) :
    ∃ more, params' = params ++ more ∧ Guarded params more := by
  induction tokens generalizing generics params with
  | nil =>
    cases h
    exact ⟨[], (List.append_nil _).symm, .nil⟩
  | cons token rest ih =>
    rw [readTokens] at h
    split at h
    · obtain ⟨more, -, h⟩ := except_bind_eq_ok.mp h
      exact ih h
    · obtain ⟨p, hp, h⟩ := except_bind_eq_ok.mp h
      split at h
      · next hd =>
        obtain ⟨more, rfl, hm⟩ := ih h
        refine ⟨p :: more, by simp, .cons (fun g hg => ⟨?_, ?_⟩) hm⟩
        · exact Param.bit_lt_of_read hp g hg
        · exact exists_flags_of_declared hd g hg
      · cases h

theorem guarded_of_parse {rule : IdRule} {text : String} {source : Source}
    (h : Source.parse rule text = .ok source) : ∀ d ∈ source.decls, Guarded [] d.params := by
  intro d hd
  obtain ⟨cs, d', hr, he⟩ := exists_read_of_parse h hd
  obtain ⟨_, _, _, -, -, ht⟩ := exists_tokens_of_read hr
  obtain ⟨more, hp, guarded⟩ := guarded_of_readTokens ht
  rw [he]
  rw [List.nil_append] at hp
  exact hp ▸ guarded

end TypeLang.Decl
