import TypeLang.Proofs.Decl.Expr
import TypeLang.Schema.Ty

namespace TypeLang.Ty

open Decl

theorem isPrimitive_of_builtin? {name : String} {t : Ty} (h : builtin? name = some t) :
    t.isPrimitive := by
  unfold builtin? at h
  split at h
  all_goals cases h
  all_goals rfl

theorem builtin?_ne_flags (name : String) : builtin? name ≠ some .flags := by
  unfold builtin?
  split
  all_goals simp

theorem not_isVectorName_of_builtin? {name : String} {t : Ty} (h : builtin? name = some t) :
    isVectorName name = false := by
  unfold builtin? at h
  split at h
  all_goals first | rfl | cases h

inductive OfExpr : TypeExpr → Ty → Prop
  | generic {e : TypeExpr} : e.head.placeholder → OfExpr e (.generic e.head.name)
  | builtin {n : TypeName} {t : Ty} : n.placeholder = false → n.space = [] →
      builtin? n.name = some t → OfExpr (.plain n) t
  | named {n : TypeName} : n.placeholder = false →
      (n.space = [] → isVectorName n.name = false ∧ builtin? n.name = none) →
      OfExpr (.plain n) (.named n.fullName n.bare)
  | vector {n : TypeName} {arg : TypeExpr} {elem : Ty} : n.placeholder = false → n.space = [] →
      isVectorName n.name → OfExpr arg elem →
      OfExpr (.apply n arg) (.vector elem (n.name = "Vector"))

theorem OfExpr.of_eq_ok {e : TypeExpr} {t : Ty} (h : ofExpr e = .ok t) : OfExpr e t := by
  induction e generalizing t with
  | plain n =>
    rw [ofExpr] at h
    split at h
    · next hp =>
      cases h
      exact .generic (e := .plain n) hp
    · next hp =>
      have unmarked : n.placeholder = false := by simpa using hp
      split at h
      · next hsp =>
        cases h
        exact .named unmarked fun hnil => by simp [hnil] at hsp
      · next hsp =>
        have alone : n.space = [] := by simpa using hsp
        split at h
        · cases h
        · next hv =>
          injection h with h
          cases hb : builtin? n.name with
          | some t' =>
            rw [hb] at h
            cases h
            exact .builtin unmarked alone hb
          | none =>
            rw [hb] at h
            cases h
            have name : n.name = n.fullName := by rw [TypeName.fullName, alone, dotted_nil]
            rw [Option.getD_none, name]
            exact .named unmarked fun _ => ⟨by simpa using hv, hb⟩
  | apply n arg ih =>
    rw [ofExpr] at h
    split at h
    · next hp =>
      cases h
      exact .generic (e := .apply n arg) hp
    · next hp =>
      have unmarked : n.placeholder = false := by simpa using hp
      split at h
      · next hv =>
        obtain ⟨alone, vector⟩ := Bool.and_eq_true_iff.mp hv
        obtain ⟨elem, he, rfl⟩ := except_map_eq_ok.mp h
        exact .vector unmarked (by simpa using alone) vector (ih he)
      · cases h

theorem OfExpr.eq_ok {e : TypeExpr} {t : Ty} (h : OfExpr e t) : ofExpr e = .ok t := by
  induction h with
  | @generic e hp =>
    cases e with
    | plain n => exact if_pos hp
    | apply n arg => exact if_pos hp
  | builtin hp alone hb => simp [ofExpr, hp, alone, not_isVectorName_of_builtin? hb, hb]
  | @named n hp hn =>
    by_cases alone : n.space = []
    · simp [ofExpr, hp, alone, hn alone, TypeName.fullName, dotted_nil]
    · simp [ofExpr, hp, alone]
  | vector hp alone hv _ ih =>
    simp only [ofExpr, hp, alone, hv, ih]
    rfl

theorem ofExpr_eq_ok_iff {e : TypeExpr} {t : Ty} : ofExpr e = .ok t ↔ OfExpr e t :=
  ⟨OfExpr.of_eq_ok, OfExpr.eq_ok⟩

theorem ofExpr_ne_flags {e : TypeExpr} {t : Ty} (h : ofExpr e = .ok t) : t ≠ .flags := by
  cases ofExpr_eq_ok_iff.mp h with
  | @builtin n _ _ _ hb =>
    rintro rfl
    exact builtin?_ne_flags n.name hb
  | _ => simp

end TypeLang.Ty
