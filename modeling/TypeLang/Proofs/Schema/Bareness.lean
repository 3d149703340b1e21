import TypeLang.Proofs.Decl.Simple
import TypeLang.Proofs.Schema.Types

namespace TypeLang

open Decl

def Decl.TypeExpr.levels : TypeExpr → List TypeName
  | .plain n => [n]
  | .apply n arg => if n.placeholder then [n] else n :: arg.levels

def Ty.levels : Ty → List Ty
  | .vector elem boxed => .vector elem boxed :: elem.levels
  | t => [t]

/-- Whether a type is bare just if its name is, where it may be either. -/
def Ty.KeepsMark (n : TypeName) : Ty → Prop
  | .vector _ boxed => boxed = !n.bare
  | .named _ bare => bare = n.bare
  | _ => True

namespace Decl.TypeName

def IsBareVector (n : TypeName) : Prop :=
  n.placeholder = false ∧ n.space = [] ∧ n.name = "Vector" ∧ n.bare

instance (n : TypeName) : Decidable n.IsBareVector :=
  inferInstanceAs (Decidable (n.placeholder = false ∧ n.space = [] ∧ n.name = "Vector" ∧ n.bare))

variable {n : TypeName}

theorem not_isBareVector_of_placeholder (h : n.placeholder) : ¬ n.IsBareVector := by
  rintro ⟨generic, -⟩
  rw [h] at generic
  cases generic

theorem not_isBareVector_of_other (h : n.space = [] → Ty.isVectorName n.name = false) :
    ¬ n.IsBareVector := by
  rintro ⟨-, alone, name, -⟩
  have other := h alone
  rw [name] at other
  cases other

end Decl.TypeName

theorem Decl.TypeExpr.levels_of_placeholder {e : TypeExpr} (h : e.head.placeholder) :
    e.levels = [e.head] := by
  cases e with
  | plain n => rfl
  | apply n arg => exact if_pos h

theorem Decl.TypeExpr.levels_apply {n : TypeName} (h : n.placeholder = false) (arg : TypeExpr) :
    (TypeExpr.apply n arg).levels = n :: arg.levels := by
  rw [levels, if_neg (by simp [h])]

theorem Decl.TypeExpr.mem_names_of_mem_levels {e : TypeExpr} {n : TypeName} (h : n ∈ e.levels) :
    n ∈ e.names := by
  induction e with
  | plain m => exact h
  | apply m arg ih =>
    rw [levels] at h
    split at h
    · obtain rfl := List.mem_singleton.mp h
      exact List.mem_cons_self
    · rcases List.mem_cons.mp h with rfl | h
      · exact List.mem_cons_self
      · exact List.mem_cons_of_mem m (ih h)

namespace Ty

theorem levels_of_isPrimitive {t : Ty} (h : t.isPrimitive) : t.levels = [t] := by
  cases t with
  | named | vector | generic => cases h
  | _ => rfl

theorem keepsMark_of_isPrimitive {t : Ty} (h : t.isPrimitive) (n : TypeName) : t.KeepsMark n := by
  cases t with
  | named | vector | generic => cases h
  | _ => trivial

theorem keepsMark_vector_iff {n : TypeName} (unmarked : n.placeholder = false)
    (alone : n.space = []) (vector : isVectorName n.name) (lower : startsLower n.name → n.bare)
    (elem : Ty) : KeepsMark n (.vector elem (n.name = "Vector")) ↔ ¬ n.IsBareVector := by
  rw [KeepsMark, TypeName.IsBareVector]
  rcases Bool.or_eq_true_iff.mp vector with upper | small
  · have name := of_decide_eq_true upper
    simp [unmarked, alone, name]
  · have name := of_decide_eq_true small
    have bare : n.bare := lower (by rw [name]; rfl)
    simp [name, bare]

/-- By induction on the type: on each level, a type is bare just if its name is, unless the name is
`%Vector`. -/
theorem OfExpr.forall₂_levels {e : TypeExpr} {t : Ty} (h : OfExpr e t)
    (lower : ∀ n ∈ e.names, startsLower n.name → n.bare) :
    List.Forall₂ (fun n t => t.KeepsMark n ↔ ¬ n.IsBareVector) e.levels t.levels := by
  induction h with
  | generic hp =>
    rw [TypeExpr.levels_of_placeholder hp]
    exact .cons (iff_of_true trivial (TypeName.not_isBareVector_of_placeholder hp)) .nil
  | @builtin n t _ _ hb =>
    have primitive := isPrimitive_of_builtin? hb
    rw [levels_of_isPrimitive primitive]
    exact .cons (iff_of_true (keepsMark_of_isPrimitive primitive n)
      (TypeName.not_isBareVector_of_other fun _ => not_isVectorName_of_builtin? hb)) .nil
  | named _ hn =>
    exact .cons
      (iff_of_true rfl (TypeName.not_isBareVector_of_other fun alone => (hn alone).1)) .nil
  | vector hp alone hv _ ih =>
    rw [TypeExpr.names, List.forall_mem_cons] at lower
    rw [TypeExpr.levels_apply hp]
    exact .cons (keepsMark_vector_iff hp alone hv lower.1 _) (ih lower.2)

end Ty

end TypeLang
