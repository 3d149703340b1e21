import TypeLang.Proofs.Read.Takes

/-!
Two reads side by side. A read *refines* to another up to some faults if the other one does the same
wherever the first one does not fail with one of these faults.
-/

namespace TypeLang

def ReadFault.IsTooDeep : ReadFault → Prop
  | .tooDeep _ => True
  | _ => False

namespace Read

variable {α β : Type}

/-- The second read returns what the first one returns, and fails as the first one fails, unless
this is with a fault in `E`. -/
structure Refines (E : ReadFault → Prop) (r r' : Read α) : Prop where
  ok {c c' : Cursor} {a : α} : r c = .ok a c' → r' c = .ok a c'
  error {c c' : Cursor} {e : ReadFault} : r c = .error e c' → ¬ E e → r' c = .error e c'

def SameSuccess (r r' : Read α) : Prop :=
  ∀ c c' a, r c = .ok a c' ↔ r' c = .ok a c'

variable {E : ReadFault → Prop}

theorem refines_refl (r : Read α) : Refines E r r := ⟨fun h => h, fun h _ => h⟩

theorem refines_throw {e : ReadFault} (h : E e) (r : Read α) : Refines E (throw e) r := by
  refine ⟨fun hr => ?_, fun hr he => ?_⟩
  · cases hr
  · cases hr
    exact absurd h he

theorem Refines.bind {r r' : Read α} {f f' : α → Read β} (h : Refines E r r')
    (h' : ∀ a, Refines E (f a) (f' a)) : Refines E (r >>= f) (r' >>= f') := by
  refine ⟨fun {c c' b} hr => ?_, fun {c c' e} hr he => ?_⟩
  · obtain ⟨a, m, hm, hf⟩ := bind_eq_ok.mp hr
    exact bind_eq_ok.mpr ⟨a, m, h.ok hm, (h' a).ok hf⟩
  · cases hm : r c with
    | ok a m =>
      rw [bind_of_ok hm] at hr
      rw [bind_of_ok (h.ok hm)]
      exact (h' a).error hr he
    | error e' m =>
      rw [bind_of_error hm] at hr
      cases hr
      exact bind_of_error (h.error hm he) f'

theorem Refines.rewinding {r r' : Read α} (h : Refines E r r') :
    Refines E (rewinding r) (rewinding r') := by
  refine ⟨fun {c c' a} hr => ?_, fun {c c' e} hr he => ?_⟩
  · rw [Read.rewinding, h.ok (rewinding_eq_ok hr)]
  · rw [Read.rewinding] at hr ⊢
    cases hm : r c with
    | ok a m =>
      rw [hm] at hr
      cases hr
    | error e' m =>
      rw [hm] at hr
      cases hr
      rw [h.error hm he]

theorem sameSuccess_of_refines {r r' : Read α} (h : Refines (fun _ => True) r r')
    (h' : Refines (fun _ => True) r' r) : SameSuccess r r' :=
  fun _ _ _ => ⟨h.ok, h'.ok⟩

end Read

end TypeLang
