import TypeLang.Proofs.Decl.Guarded
import TypeLang.Proofs.Schema.Build
import TypeLang.Proofs.Schema.Types
import TypeLang.Schema.Merge
import TypeLang.Schema.Packed

namespace TypeLang

open Decl

def SchemaFault.IsGuard : SchemaFault → Prop
  | .guard .. => True
  | _ => False

namespace Entry

structure OfParam (p : Param) (a : Argument) : Prop where
  name : a.name = p.name
  guard : a.guard = p.guard?
  flags : a.type = .flags ↔ p.type = .flags

theorem ofParam_of_argument {p : Param} {a : Argument} (h : argumentOfParam p = .ok a) :
    OfParam p a := by
  rw [argumentOfParam] at h
  split at h
  · next ht =>
    cases h
    exact ⟨rfl, by rw [Param.guard?, ht], by simp [ht]⟩
  · next type guard ht =>
    obtain ⟨ty, hty, rfl⟩ := except_map_eq_ok.mp h
    exact ⟨rfl, by rw [Param.guard?, ht], by simp [ht, Ty.ofExpr_ne_flags hty]⟩

theorem ofParam_of_ofDecl {d : Decl} {e : Entry} (h : ofDecl d = .ok e) :
    List.Forall₂ OfParam d.params e.arguments := by
  obtain ⟨arguments, ha, h⟩ := except_bind_eq_ok.mp (except_mapError_eq_ok.mp h)
  obtain ⟨type, -, h⟩ := except_bind_eq_ok.mp h
  cases h
  exact (forall₂_of_mapM ha).imp fun _ _ => ofParam_of_argument

theorem guardFault?_eq_none_iff {before : List Argument} {a : Argument} :
    a.guardFault? before = none ↔ ∀ g ∈ a.guard, a.type ≠ .flags ∧ g.bit < 32 ∧
      ∃ b ∈ before, b.name = g.flags ∧ b.type = .flags := by
  rw [Argument.guardFault?]
  cases a.guard with
  | none => simp
  | some g =>
    simp only [Option.mem_some_iff, forall_eq']
    split
    · next ht => simp [ht]
    · next ht =>
      split
      · next hb => simp [ht, Nat.not_lt.mpr hb]
      · next hb => simp [ht, Nat.not_le.mp hb]

/-- By induction on the parameters: the arguments to the left are those of the parameters to the
left. -/
theorem guardFaultAfter?_of_guarded {entry : String} {left params : List Param}
    {before args : List Argument} (guarded : Guarded left params)
    (hl : List.Forall₂ OfParam left before) (hp : List.Forall₂ OfParam params args) :
    guardFaultAfter? entry before args = none := by
  induction guarded generalizing before args with
  | nil =>
    cases hp
    rfl
  | @cons left rest p hg _ ih =>
    cases hp with
    | @cons _ a _ args ha hp =>
      have sound : a.guardFault? before = none := by
        refine guardFault?_eq_none_iff.mpr fun g hag => ?_
        rw [ha.guard] at hag
        obtain ⟨hb, q, hq, hf, hn⟩ := hg g hag
        obtain ⟨b, hm, hqb⟩ := exists_left_of_forall₂ hl.flip hq
        refine ⟨?_, hb, b, hm, hqb.name.trans hn, hqb.flags.mpr hf⟩
        rw [Ne, ha.flags]
        intro ht
        rw [Param.guard?, ht] at hag
        cases hag
      rw [guardFaultAfter?, sound]
      exact ih (List.rel_append hl (.cons ha .nil)) hp

theorem guardFault?_of_ofDecl {d : Decl} {e : Entry} (guarded : Guarded [] d.params)
    (h : ofDecl d = .ok e) : e.guardFault? = none :=
  guardFaultAfter?_of_guarded guarded .nil (ofParam_of_ofDecl h)

theorem not_isGuard_of_ofDecl {d : Decl} {fault : SchemaFault} (h : ofDecl d = .error fault) :
    ¬ fault.IsGuard := by
  obtain ⟨cause, -, rfl⟩ := except_mapError_eq_error.mp h
  exact fun h => h

theorem guardFault?_of_faultAfter? {before : List Entry} {e : Entry} {fault : SchemaFault}
    (h : e.faultAfter? before = some fault) (hg : fault.IsGuard) : e.guardFault? = some fault := by
  rw [faultAfter?] at h
  split at h
  · cases h
    exact hg.elim
  · split at h
    · next hf => rw [hf, h]
    · split at h
      · cases h
        exact hg.elim
      · cases h

theorem guardFault?_eq_none_of_faultAfter? {before : List Entry} {e : Entry}
    (h : e.faultAfter? before = none) : e.guardFault? = none := by
  rw [faultAfter?] at h
  split at h
  · cases h
  · split at h
    · cases h
    · assumption

end Entry

namespace Schema

theorem exists_guardFault? {before es : List Entry} {fault : SchemaFault}
    (h : faultAfter? before es = some fault) (hg : fault.IsGuard) :
    ∃ e ∈ es, e.guardFault? = some fault := by
  induction es generalizing before with
  | nil => cases h
  | cons e es ih =>
    rw [faultAfter?] at h
    split at h
    · next hf =>
      cases h
      exact ⟨e, List.mem_cons_self, Entry.guardFault?_of_faultAfter? hf hg⟩
    · obtain ⟨e', he', h⟩ := ih h
      exact ⟨e', List.mem_cons_of_mem e he', h⟩

theorem guardFault?_eq_none {before es : List Entry} (h : faultAfter? before es = none) :
    ∀ e ∈ es, e.guardFault? = none := by
  induction es generalizing before with
  | nil => simp
  | cons e es ih =>
    rw [faultAfter?] at h
    split at h
    · cases h
    · next hf =>
      rw [List.forall_mem_cons]
      exact ⟨Entry.guardFault?_eq_none_of_faultAfter? hf, ih h⟩

theorem not_isGuard_of_ofDecls {decls : List Decl} (guarded : ∀ d ∈ decls, Guarded [] d.params)
    {fault : SchemaFault} (h : ofDecls decls = .error fault) : ¬ fault.IsGuard := by
  rcases except_bind_eq_error.mp h with h | ⟨entries, hm, h⟩
  · obtain ⟨d, -, h⟩ := exists_of_mapM_error h
    exact Entry.not_isGuard_of_ofDecl h
  · intro hg
    obtain ⟨e, he, hg⟩ := exists_guardFault? (ofEntries_eq_error_iff_faultAfter?.mp h) hg
    obtain ⟨d, hd, hde⟩ := exists_left_of_forall₂ (forall₂_of_mapM hm) he
    rw [Entry.guardFault?_of_ofDecl (guarded d hd) hde] at hg
    cases hg

theorem not_isGuard_of_parse {rule : IdRule} {text : String} {fault : SchemaFault}
    (h : parse rule text = .error fault) : ¬ fault.IsGuard := by
  rcases except_bind_eq_error.mp h with h | ⟨source, hs, h⟩
  · obtain ⟨cause, -, rfl⟩ := except_mapError_eq_error.mp h
    exact fun h => h
  · exact not_isGuard_of_ofDecls (guarded_of_parse (except_mapError_eq_ok.mp hs)) h

theorem parse_eq_error_of_layered {rule : IdRule} {text : String} {fault : SchemaFault}
    (h : Layered.parse rule text = .error fault) : parse rule text = .error fault := by
  rcases except_bind_eq_error.mp h with h | ⟨source, hs, h⟩
  · exact except_bind_eq_error.mpr (.inl h)
  · rcases except_bind_eq_error.mp h with h | ⟨schema, -, h⟩
    · exact except_bind_eq_error.mpr (.inr ⟨source, hs, h⟩)
    · cases h

/-- Where a schema comes from. -/
inductive Obtained : Schema → Prop
  | entries {entries : List Entry} {comments : Dict String} {s : Schema} :
      ofEntries entries comments = .ok s → Obtained s
  | decls {decls : List Decl} {s : Schema} : ofDecls decls = .ok s → Obtained s
  | text {rule : IdRule} {text : String} {s : Schema} : parse rule text = .ok s → Obtained s
  | layered {rule : IdRule} {text : String} {l : Layered} :
      Layered.parse rule text = .ok l → Obtained l.schema
  | packed {p : Packed} {l : Layered} : p.unpack = .ok l → Obtained l.schema
  | merged {σ : Type} {sources : List Layered} {resolve : Resolver σ} {state : σ} {m : Merged} :
      (merge sources resolve state).1 = .ok m → Obtained m.schema

theorem exists_entries_of_ofDecls {decls : List Decl} {s : Schema} (h : ofDecls decls = .ok s) :
    ∃ entries comments, ofEntries entries comments = .ok s := by
  obtain ⟨entries, -, h⟩ := except_bind_eq_ok.mp h
  exact ⟨entries, [], h⟩

theorem Obtained.exists_entries {s : Schema} (h : s.Obtained) :
    ∃ entries comments, ofEntries entries comments = .ok s := by
  cases h with
  | entries h => exact ⟨_, _, h⟩
  | decls h => exact exists_entries_of_ofDecls h
  | text h =>
    obtain ⟨source, -, h⟩ := except_bind_eq_ok.mp h
    exact exists_entries_of_ofDecls h
  | layered h =>
    obtain ⟨source, -, h⟩ := except_bind_eq_ok.mp h
    obtain ⟨schema, hs, h⟩ := except_bind_eq_ok.mp h
    cases h
    exact exists_entries_of_ofDecls hs
  | packed h =>
    obtain ⟨schema, hs, h⟩ := except_bind_eq_ok.mp h
    cases h
    exact ⟨_, _, hs⟩
  | @merged _ sources resolve state m h =>
    have h : Merge.finish sources (Merge.run sources resolve (Merge.keys sources) state).1 =
        .ok m := h
    rw [Merge.finish] at h
    split at h
    · cases h
    · split at h
      · cases h
      · next hs =>
        cases h
        exact ⟨_, _, hs⟩

end Schema

end TypeLang
