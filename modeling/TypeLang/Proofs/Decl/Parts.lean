import TypeLang.Decl.Basic
import TypeLang.Decl.Hash
import TypeLang.Proofs.Except

namespace TypeLang.Decl

open Text

/-- A declaration by the parts of the text that it is read from. -/
inductive ReadFrom (rule : IdRule) (cs : List Char) : Decl → Prop
  | intro {left right head : List Char} {tokens : List (List Char)} {type : TypeExpr}
      {space : List String} {name : String} {id : UInt32} {generics : List Generic}
      {params : List Param} :
      cut? '=' (body cs) = some (left, right) → TypeExpr.read (trim right) = .ok type →
      words left = head :: tokens → readDotted? (withoutId head) = some (space, name) →
      readId rule (body cs) ((cut? '#' head).map (·.2)) = .ok id →
      readTokens [] [] tokens = .ok (generics, params) →
      ReadFrom rule cs {
        space, name, id, generics, params
        type := markResult generics type
        kind := .constructor
        comment := none }

theorem read_eq_ok_iff {rule : IdRule} {cs : List Char} {d : Decl} :
    read rule cs = .ok d ↔ ReadFrom rule cs d := by
  constructor
  · intro h
    rw [read] at h
    dsimp only at h
    split at h
    · cases h
    · split at h
      · cases h
      · next left right hcut =>
        split at h
        · cases h
        · next type ht =>
          split at h
          · cases h
          · next head tokens hw =>
            split at h
            · cases h
            · next space name hd =>
              obtain ⟨id, hi, h⟩ := except_bind_eq_ok.mp h
              obtain ⟨⟨generics, params⟩, hp, h⟩ := except_bind_eq_ok.mp h
              cases h
              refine .intro hcut ht hw ?_ ?_ (except_mapError_eq_ok.mp hp)
              · rw [← hd, withoutId]
                cases cut? '#' head with
                | none => rfl
                | some parts => rfl
              · rw [← hi]
                cases cut? '#' head with
                | none => rfl
                | some parts => rfl
  · rintro ⟨hcut, ht, hw, hd, hi, hp⟩
    have full : (body cs).isEmpty = false := by
      rw [eq_append_of_cut? hcut]
      simp
    rw [withoutId] at hd
    simp only [read, full, hcut, ht, hw]
    cases hc : cut? '#' _ with
    | none =>
      rw [hc] at hd hi
      dsimp only [Option.map_none] at hd hi
      simp only [hd, hi, hp]
      rfl
    | some parts =>
      rw [hc] at hd hi
      dsimp only [Option.map_some] at hd hi
      simp only [hd, hi, hp]
      rfl

end TypeLang.Decl
