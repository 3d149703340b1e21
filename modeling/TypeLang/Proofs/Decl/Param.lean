import TypeLang.Decl.Param
import TypeLang.Proofs.Decl.Expr
import TypeLang.Proofs.Text.Numeral
import TypeLang.Schema.Ty

namespace TypeLang.Decl

open Text

namespace FlagBit

structure Sound (g : FlagBit) : Prop where
  flags : IsPart g.flags
  bit : g.bit < 32

theorem sound_of_read {cs : List Char} {g : FlagBit} (h : read cs = .ok g) : g.Sound := by
  rw [read] at h
  split at h
  · cases h
  · cases h
  · next flags bit ne hc =>
    split at h
    · cases h
    · split at h
      · next hn =>
        cases h
        refine ⟨⟨fun hf => ?_, ?_⟩, hn⟩
        · obtain rfl : flags = [] := String.ofList_eq_empty_iff.mp hf
          exact ne rfl
        · rw [String.toList_ofList]
          exact not_mem_of_cut? hc
      · cases h

theorem toList_render (g : FlagBit) :
    g.render.toList = g.flags.toList ++ '.' :: Nat.toDigits 10 g.bit := by
  have written : g.render = g.flags ++ "." ++ toString g.bit := rfl
  simp [written]

theorem read_render {g : FlagBit} (h : g.Sound) : read g.render.toList = .ok g := by
  have ne : g.flags.toList ≠ [] := by simpa using h.flags.ne
  have small : g.bit < UInt32.size := Nat.lt_trans h.bit (by decide)
  rw [read, toList_render, cut?_append h.flags.point]
  simp [readNat_toDigits small, h.bit]

theorem parse_render {g : FlagBit} (h : g.Sound) : parse g.render = .ok g := by
  rw [parse, read_render h]
  rfl

end FlagBit

inductive ParamType.Sound : ParamType → Prop
  | flags : Sound .flags
  | value {type : TypeExpr} {guard : Option FlagBit} :
      type.Sound → (∀ g ∈ guard, g.Sound) → Sound (.value type guard)

theorem ParamType.sound_of_read {cs : List Char} {t : ParamType} (h : read cs = .ok t) :
    t.Sound := by
  rw [read] at h
  split at h
  · cases h
    exact .flags
  · split at h
    · obtain ⟨type, ht, rfl⟩ := except_map_eq_ok.mp h
      exact .value (TypeExpr.sound_of_read ht) (by simp)
    · obtain ⟨guard, hg, h⟩ := except_bind_eq_ok.mp h
      obtain ⟨type, ht, h⟩ := except_bind_eq_ok.mp h
      cases h
      refine .value (TypeExpr.sound_of_read ht) ?_
      rintro _ ⟨⟩
      exact FlagBit.sound_of_read hg

theorem Param.sound_of_read {cs : List Char} {p : Param} (h : read cs = .ok p) : p.type.Sound := by
  rw [read] at h
  split at h
  · cases h
  · split at h
    · cases h
    · split at h
      · cases h
      · obtain ⟨type, ht, rfl⟩ := except_map_eq_ok.mp h
        exact ParamType.sound_of_read ht

end TypeLang.Decl
