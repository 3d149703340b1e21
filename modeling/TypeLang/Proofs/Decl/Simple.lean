import TypeLang.Proofs.Decl.Canonical

namespace TypeLang.Decl

open Text

/- Types -/

def TypeExpr.Simple (e : TypeExpr) : Prop :=
  ∀ n ∈ e.names, ∀ part ∈ n.space ++ [n.name], IsSimple part

instance (e : TypeExpr) : Decidable e.Simple :=
  inferInstanceAs (Decidable (∀ n ∈ e.names, ∀ part ∈ n.space ++ [n.name], IsSimple part))

namespace TypeExpr

theorem of_readName {marks : Bool × Bool × List Char} {cs : List Char} {n : TypeName}
    (h : readName marks cs = .ok n) :
    (∀ part ∈ n.space ++ [n.name], IsPart part) ∧ (startsLower n.name → n.bare) := by
  rw [readName] at h
  split at h
  · cases h
  · next hd =>
    cases h
    refine ⟨(eq_of_readDotted? hd).1, fun lower => ?_⟩
    rw [lower, Bool.or_true]

theorem forall_names_of_read {P : TypeName → Prop}
    (hP : ∀ marks cs n, readName marks cs = .ok n → P n) {cs : List Char} {e : TypeExpr}
    (h : read cs = .ok e) : ∀ n ∈ e.names, P n := by
  induction cs using read.induct generalizing e with
  | case1 cs hc =>
    rw [read_plain hc] at h
    obtain ⟨n, hn, rfl⟩ := except_map_eq_ok.mp h
    rw [names, List.forall_mem_singleton]
    exact hP _ _ n hn
  | case2 cs front back hc hi =>
    rw [read_bracket hc, hi] at h
    cases h
  | case3 cs front back hc inner hi ih =>
    rw [read_bracket hc, hi] at h
    obtain ⟨arg, ha, h⟩ := except_bind_eq_ok.mp h
    obtain ⟨n, hn, h⟩ := except_bind_eq_ok.mp h
    cases h
    rw [names, List.forall_mem_cons]
    exact ⟨hP _ _ n hn, ih ha⟩

theorem bare_of_read {cs : List Char} {e : TypeExpr} (h : read cs = .ok e) :
    ∀ n ∈ e.names, startsLower n.name → n.bare :=
  forall_names_of_read (fun _ _ _ hn => (of_readName hn).2) h

theorem canonical_of_read {cs : List Char} {e : TypeExpr} (h : read cs = .ok e)
    (simple : e.Simple) : e.Canonical := by
  intro n hn
  have parts := forall_names_of_read (fun _ _ _ hn => (of_readName hn).1) h n hn
  exact ⟨fun part hp => ⟨(parts part hp).ne, simple n hn part hp⟩, bare_of_read h n hn⟩

variable {P : TypeName → Prop}

theorem forall_names_mapHead_iff {f : TypeName → TypeName} (hP : ∀ n, P (f n) ↔ P n)
    {e : TypeExpr} : (∀ n ∈ (e.mapHead f).names, P n) ↔ ∀ n ∈ e.names, P n := by
  cases e with
  | plain h => rw [mapHead, names, names, List.forall_mem_singleton, List.forall_mem_singleton, hP]
  | apply h arg => rw [mapHead, names, names, List.forall_mem_cons, List.forall_mem_cons, hP]

end TypeExpr

/- The mark of the result -/

section

variable {generics : List Generic}

theorem forall_names_markResult_iff {P : TypeName → Prop}
    (hP : ∀ n, P { n with placeholder := true } ↔ P n) {e : TypeExpr} :
    (∀ n ∈ (markResult generics e).names, P n) ↔ ∀ n ∈ e.names, P n := by
  rw [markResult]
  split
  · exact TypeExpr.forall_names_mapHead_iff hP
  · exact Iff.rfl

theorem placeholder_of_markResult {e : TypeExpr}
    (h : ∃ g ∈ generics, g.name = (markResult generics e).head.name) :
    (markResult generics e).head.placeholder := by
  rw [markResult] at h ⊢
  split
  · cases e with
    | plain h => rfl
    | apply h arg => rfl
  · next other =>
    rw [if_neg other] at h
    exact absurd (by simpa using h) other

theorem markResult_mapHead {e : TypeExpr}
    (h : e.head.placeholder ↔ ∃ g ∈ generics, g.name = e.head.name) :
    markResult generics (e.mapHead fun n => { n with placeholder := false }) = e := by
  have named : (generics.any fun g => g.name = e.head.name) = e.head.placeholder := by
    rw [Bool.eq_iff_iff, h]
    simp
  cases e with
  | plain n =>
    obtain ⟨space, name, bare, placeholder⟩ := n
    rw [markResult]
    cases placeholder with
    | false => exact if_neg (Bool.eq_false_iff.mp named)
    | true => exact if_pos named
  | apply n arg =>
    obtain ⟨space, name, bare, placeholder⟩ := n
    rw [markResult]
    cases placeholder with
    | false => exact if_neg (Bool.eq_false_iff.mp named)
    | true => exact if_pos named

end

/- Parameters -/

structure Param.Simple (p : Param) : Prop where
  name : IsSimple p.name
  guard : ∀ g ∈ p.guard?, IsSimple g.flags
  type : ∀ e ∈ p.expr?, e.Simple

instance (p : Param) : Decidable p.Simple :=
  decidable_of_iff
    (IsSimple p.name ∧ (∀ g ∈ p.guard?, IsSimple g.flags) ∧ ∀ e ∈ p.expr?, e.Simple)
    ⟨fun ⟨name, guard, type⟩ => ⟨name, guard, type⟩, fun h => ⟨h.name, h.guard, h.type⟩⟩

theorem Param.of_read {cs : List Char} {p : Param} (h : read cs = .ok p) :
    p.name ≠ "" ∧ ∃ text, ParamType.read text = .ok p.type := by
  rw [read] at h
  split at h
  · cases h
  · split at h
    · cases h
    · next name type hc =>
      split at h
      · cases h
      · next full =>
        obtain ⟨t, ht, rfl⟩ := except_map_eq_ok.mp h
        refine ⟨fun hn => full ?_, type, ht⟩
        rw [String.ofList_eq_empty_iff.mp hn]
        rfl

theorem ParamType.canonical_of_read {cs : List Char} {t : ParamType} (h : read cs = .ok t)
    (guard : ∀ g ∈ Param.guard? ⟨"", t⟩, IsSimple g.flags)
    (type : ∀ e ∈ Param.expr? ⟨"", t⟩, e.Simple) : t.Canonical := by
  rw [read] at h
  split at h
  · cases h
    exact .flags
  · split at h
    · obtain ⟨e, he, rfl⟩ := except_map_eq_ok.mp h
      exact .value (TypeExpr.canonical_of_read he (type e rfl)) (by simp)
    · obtain ⟨g, hg, h⟩ := except_bind_eq_ok.mp h
      obtain ⟨e, he, h⟩ := except_bind_eq_ok.mp h
      cases h
      refine .value (TypeExpr.canonical_of_read he (type e rfl)) ?_
      rintro _ ⟨⟩
      have sound := FlagBit.sound_of_read hg
      exact ⟨⟨sound.flags.ne, guard g rfl⟩, sound.bit⟩

theorem Param.canonical_of_read {cs : List Char} {p : Param} (h : read cs = .ok p)
    (simple : p.Simple) : p.Canonical := by
  obtain ⟨ne, text, ht⟩ := of_read h
  exact ⟨⟨ne, simple.name⟩, ParamType.canonical_of_read ht simple.guard simple.type⟩

/- Generics -/

structure Generic.Simple (g : Generic) : Prop where
  name : IsSimple g.name
  bound : IsSimple g.bound

instance (g : Generic) : Decidable g.Simple :=
  decidable_of_iff (IsSimple g.name ∧ IsSimple g.bound)
    ⟨fun ⟨name, bound⟩ => ⟨name, bound⟩, fun h => ⟨h.name, h.bound⟩⟩

theorem Generic.canonical_of_read {cs : List Char} {g : Generic} (h : read cs = .ok g)
    (simple : g.Simple) : g.Canonical := by
  rw [read] at h
  split at h
  · cases h
  · cases h
  · cases h
  · next named bounded _ =>
    cases h
    exact ⟨⟨fun hn => named (String.ofList_eq_empty_iff.mp hn), simple.name⟩,
      ⟨fun hb => bounded (String.ofList_eq_empty_iff.mp hb), simple.bound⟩⟩

/- Declarations -/

structure Simple (d : Decl) : Prop where
  name : ∀ part ∈ d.space ++ [d.name], IsSimple part
  generics : ∀ g ∈ d.generics, g.Simple
  params : ∀ p ∈ d.params, p.Simple
  type : d.type.Simple

instance (d : Decl) : Decidable d.Simple :=
  decidable_of_iff
    ((∀ part ∈ d.space ++ [d.name], IsSimple part) ∧ (∀ g ∈ d.generics, g.Simple) ∧
      (∀ p ∈ d.params, p.Simple) ∧ d.type.Simple)
    ⟨fun ⟨name, generics, params, type⟩ => ⟨name, generics, params, type⟩,
      fun h => ⟨h.name, h.generics, h.params, h.type⟩⟩

/-- What declarations look like that are read as they are written. What they refer to has been
declared, and the result is marked just if it is named like a generic. -/
structure Canonical (d : Decl) : Prop where
  name : ∀ part ∈ d.space ++ [d.name], IsIdent part
  generics : ∀ g ∈ d.generics, g.Canonical
  params : ∀ p ∈ d.params, p.Canonical
  guarded : Guarded [] d.params
  closed : ∀ p ∈ d.params, ∀ e ∈ p.expr?, e.Closed d.generics
  type : d.type.Canonical
  mark : d.type.head.placeholder ↔ ∃ g ∈ d.generics, g.name = d.type.head.name

/-- What has been read is canonical if its names have the characters of identifiers and its result
is marked only if it is named like a generic. -/
theorem canonical_of_read {rule : IdRule} {cs : List Char} {d : Decl} (h : read rule cs = .ok d)
    (simple : d.Simple)
    (mark : d.type.head.placeholder → ∃ g ∈ d.generics, g.name = d.type.head.name) :
    d.Canonical := by
  obtain ⟨-, ht, -, hd, -, hp⟩ := read_eq_ok_iff.mp h
  obtain ⟨more, rfl, guarded⟩ := guarded_of_readTokens hp
  have parts := (eq_of_readDotted? hd).1
  refine ⟨fun part hm => ⟨(parts part hm).ne, simple.name part hm⟩, ?_, ?_, guarded,
    closed_of_readTokens hp (by simp), ?_, mark, placeholder_of_markResult⟩
  · have each := forall_generics_of_readTokens (P := fun g => g.Simple → g.Canonical)
      (fun _ _ => Generic.canonical_of_read) hp (by simp)
    exact fun g hg => each g hg (simple.generics g hg)
  · have each := forall_of_readTokens (P := fun p => p.Simple → p.Canonical)
      (fun _ _ => Param.canonical_of_read) hp (by simp)
    exact fun p hm => each p hm (simple.params p hm)
  · have unmarked := (forall_names_markResult_iff fun _ => Iff.rfl).mp simple.type
    refine (forall_names_markResult_iff fun _ => ?_).mpr (TypeExpr.canonical_of_read ht unmarked)
    exact ⟨fun h => ⟨h.parts, h.bare⟩, fun h => ⟨h.parts, h.bare⟩⟩

end TypeLang.Decl
