import TypeLang.Proofs.Decl.Closed
import TypeLang.Proofs.Decl.Param
import TypeLang.Proofs.Text.Identifier
import TypeLang.Proofs.Text.Words

namespace TypeLang.Decl

open Text

theorem isPart_of_isIdent {part : String} (h : IsIdent part) : IsPart part where
  ne := h.ne
  point hp := absurd (h.simple '.' hp) (by decide)

/- Names -/

/-- What names of types look like whose parts are identifiers. A name in lower case is bare. -/
structure TypeName.Canonical (n : TypeName) : Prop where
  parts : ∀ part ∈ n.space ++ [n.name], IsIdent part
  bare : startsLower n.name → n.bare

theorem mem_dotted {space : List String} {name : String} {c : Char}
    (h : c ∈ (dotted space name).toList) : c = '.' ∨ ∃ part ∈ space ++ [name], c ∈ part.toList := by
  rw [toList_dotted] at h
  simpa using mem_intercalate h

theorem dotted_ne_nil {space : List String} {name : String}
    (h : ∀ part ∈ space ++ [name], IsPart part) : (dotted space name).toList ≠ [] := by
  intro empty
  have pieces := pieces_dotted h
  rw [empty] at pieces
  have last : name.toList ∈ (space ++ [name]).map String.toList := List.mem_map_of_mem (by simp)
  rw [← pieces, pieces_of_forall (by simp), List.mem_singleton] at last
  exact (h name (by simp)).ne (String.toList_eq_nil_iff.mp last)

namespace TypeName.Canonical

variable {n : TypeName}

theorem isParts (h : n.Canonical) : ∀ part ∈ n.space ++ [n.name], IsPart part :=
  fun part hp => isPart_of_isIdent (h.parts part hp)

theorem not_mem_fullName (h : n.Canonical) {c : Char} (hc : isIdentChar c = false)
    (point : c ≠ '.') : c ∉ n.fullName.toList := by
  intro hm
  rcases mem_dotted hm with hd | ⟨part, hp, hm⟩
  · exact point hd
  · exact absurd ((h.parts part hp).simple c hm) (by simp [hc])

theorem not_marked (h : n.Canonical) (behind : List Char) :
    ¬ Marked (n.fullName.toList ++ behind) := by
  have ne : n.fullName.toList ≠ [] := dotted_ne_nil h.isParts
  rw [marked_append ne]
  rintro (hm | hm)
  · exact h.not_mem_fullName rfl (by decide) (List.mem_of_mem_head? hm)
  · exact h.not_mem_fullName rfl (by decide) (List.mem_of_mem_head? hm)

theorem sound (h : n.Canonical) : n.Sound where
  parts := h.isParts
  bracket := h.not_mem_fullName rfl (by decide)
  unmarked _ upper := by
    constructor
    · cases hl : startsLower n.name with
      | false => rfl
      | true => exact absurd (h.bare hl) (by simp [upper])
    · simpa using h.not_marked []

theorem takeMarks_render (h : n.Canonical) (behind : List Char) :
    TypeExpr.takeMarks (n.render.toList ++ behind)
      = (n.placeholder, n.bare && !startsLower n.name, n.fullName.toList ++ behind) := by
  have written : n.render = marks n.placeholder (n.bare && !startsLower n.name) ++ n.fullName := rfl
  rw [written, String.toList_append, List.append_assoc]
  exact TypeExpr.takeMarks_marks (h.not_marked behind) _ _

theorem bare_eq (h : n.Canonical) :
    ((n.bare && !startsLower n.name) || startsLower n.name) = n.bare := by
  cases hl : startsLower n.name with
  | false => simp
  | true => simp [h.bare hl]

theorem isTypeChar_of_mem_render (h : n.Canonical) {c : Char} (hc : c ∈ n.render.toList) :
    isTypeChar c := by
  rw [TypeName.render, String.toList_append, String.toList_append, List.mem_append,
    List.mem_append] at hc
  rcases hc with (hc | hc) | hc
  · split at hc
    · obtain rfl := List.mem_singleton.mp hc
      decide
    · cases hc
  · split at hc
    · obtain rfl := List.mem_singleton.mp hc
      decide
    · cases hc
  · rcases mem_dotted hc with rfl | ⟨part, hp, hm⟩
    · decide
    · exact isTypeChar_of_isIdentChar ((h.parts part hp).simple c hm)

end TypeName.Canonical

/- Types -/

def TypeExpr.Canonical (e : TypeExpr) : Prop := ∀ n ∈ e.names, n.Canonical

namespace TypeExpr

theorem canonical_apply_iff {h : TypeName} {arg : TypeExpr} :
    Canonical (.apply h arg) ↔ h.Canonical ∧ arg.Canonical := by
  rw [Canonical, names, List.forall_mem_cons, Canonical]

theorem Canonical.isTypeChar_of_mem_render {e : TypeExpr} (h : e.Canonical) {c : Char}
    (hc : c ∈ e.render.toList) : isTypeChar c := by
  induction e with
  | plain n => exact (h n List.mem_cons_self).isTypeChar_of_mem_render hc
  | apply n arg ih =>
    obtain ⟨hn, ha⟩ := canonical_apply_iff.mp h
    rw [render, String.toList_append, String.toList_append, String.toList_append, List.mem_append,
      List.mem_append, List.mem_append] at hc
    rcases hc with ((hc | hc) | hc) | hc
    · exact hn.isTypeChar_of_mem_render hc
    · obtain rfl := List.mem_singleton.mp hc
      decide
    · exact ih ha hc
    · obtain rfl := List.mem_singleton.mp hc
      decide

theorem Canonical.read_render {e : TypeExpr} (h : e.Canonical) : read e.render.toList = .ok e := by
  induction e with
  | plain n =>
    have hn := h n List.mem_cons_self
    have marks := hn.takeMarks_render []
    rw [List.append_nil, List.append_nil] at marks
    exact read_name marks hn.bare_eq hn.isParts (hn.not_mem_fullName rfl (by decide))
  | apply n arg ih =>
    obtain ⟨hn, ha⟩ := canonical_apply_iff.mp h
    have written : (render (.apply n arg)).toList
        = n.render.toList ++ '<' :: (arg.render.toList ++ ['>']) := by
      simp [render]
    rw [written, read_apply (hn.takeMarks_render _) hn.bare_eq hn.isParts
      (hn.not_mem_fullName rfl (by decide)), ih ha]
    rfl

theorem Canonical.render_ne {e : TypeExpr} (h : e.Canonical) : e.render.toList ≠ [] := by
  intro empty
  have read := h.read_render
  rw [empty, read_plain rfl] at read
  cases read

end TypeExpr

/- Parameters -/

structure FlagBit.Canonical (g : FlagBit) : Prop where
  flags : IsIdent g.flags
  bit : g.bit < 32

namespace FlagBit.Canonical

variable {g : FlagBit}

theorem read_render (h : g.Canonical) : FlagBit.read g.render.toList = .ok g :=
  FlagBit.read_render ⟨isPart_of_isIdent h.flags, h.bit⟩

theorem isTypeChar_of_mem_render (h : g.Canonical) {c : Char} (hc : c ∈ g.render.toList) :
    isTypeChar c := by
  rw [toList_render, List.mem_append, List.mem_cons] at hc
  rcases hc with hc | rfl | hc
  · exact isTypeChar_of_isIdentChar (h.flags.simple c hc)
  · decide
  · have digit := Nat.isDigit_of_mem_toDigits (by decide) (by decide) hc
    exact isTypeChar_of_isIdentChar (isIdentChar_of_isDigit digit)

end FlagBit.Canonical

inductive ParamType.Canonical : ParamType → Prop
  | flags : Canonical .flags
  | value {type : TypeExpr} {guard : Option FlagBit} :
      type.Canonical → (∀ g ∈ guard, g.Canonical) → Canonical (.value type guard)

structure Param.Canonical (p : Param) : Prop where
  name : IsIdent p.name
  type : p.type.Canonical

theorem ParamType.Canonical.isTokenChar_of_mem_render {t : ParamType} (h : t.Canonical) {c : Char}
    (hc : c ∈ t.render.toList) : isTokenChar c := by
  cases h with
  | flags =>
    obtain rfl := List.mem_singleton.mp hc
    decide
  | @value type guard ht hg =>
    cases guard with
    | none => exact isTokenChar_of_isTypeChar (ht.isTypeChar_of_mem_render hc)
    | some g =>
      rw [render, String.toList_append, String.toList_append, List.mem_append,
        List.mem_append] at hc
      rcases hc with (hc | hc) | hc
      · exact isTokenChar_of_isTypeChar ((hg g rfl).isTypeChar_of_mem_render hc)
      · obtain rfl := List.mem_singleton.mp hc
        decide
      · exact isTokenChar_of_isTypeChar (ht.isTypeChar_of_mem_render hc)

theorem ParamType.Canonical.read_render {t : ParamType} (h : t.Canonical) :
    read t.render.toList = .ok t := by
  cases h with
  | flags => rfl
  | @value type guard ht hg =>
    cases guard with
    | none =>
      have other : type.render.toList ≠ ['#'] := by
        intro hash
        exact absurd (ht.isTypeChar_of_mem_render (hash ▸ List.mem_singleton_self '#')) (by decide)
      have unguarded : '?' ∉ type.render.toList := fun hq =>
        absurd (ht.isTypeChar_of_mem_render hq) (by decide)
      rw [render, read, if_neg other, cut?_eq_none_iff.mpr unguarded]
      dsimp only
      rw [ht.read_render]
      rfl
    | some g =>
      have hg := hg g rfl
      have unguarded : '?' ∉ g.render.toList := fun hq =>
        absurd (hg.isTypeChar_of_mem_render hq) (by decide)
      have written : (render (.value type (some g))).toList
          = g.render.toList ++ '?' :: type.render.toList := by
        simp [render]
      have other : g.render.toList ++ '?' :: type.render.toList ≠ ['#'] := by
        intro hash
        exact absurd (hash ▸ List.mem_append_right _ List.mem_cons_self : '?' ∈ ['#']) (by decide)
      rw [written, read, if_neg other, cut?_append unguarded]
      dsimp only
      rw [hg.read_render, ht.read_render]
      rfl

namespace Param.Canonical

variable {p : Param}

theorem isTokenChar_of_mem_render (h : p.Canonical) {c : Char} (hc : c ∈ p.render.toList) :
    isTokenChar c := by
  rw [render, String.toList_append, String.toList_append, List.mem_append, List.mem_append] at hc
  rcases hc with (hc | hc) | hc
  · exact isTokenChar_of_isIdentChar (h.name.simple c hc)
  · obtain rfl := List.mem_singleton.mp hc
    decide
  · exact h.type.isTokenChar_of_mem_render hc

theorem head?_render_ne (h : p.Canonical) : p.render.toList.head? ≠ some '\x7b' := by
  have ne : p.name.toList ≠ [] := by simpa using h.name.ne
  rw [render, String.toList_append, String.toList_append, List.append_assoc,
    List.head?_append_of_ne_nil _ ne]
  intro brace
  exact absurd (h.name.simple _ (List.mem_of_mem_head? brace)) (by decide)

theorem read_render (h : p.Canonical) : Param.read p.render.toList = .ok p := by
  have named : p.name.toList ≠ [] := by simpa using h.name.ne
  have typed : p.type.render.toList ≠ [] := by
    intro empty
    have read := h.type.read_render
    rw [empty, show ParamType.read [] = .error .empty by decide +kernel] at read
    cases read
  have full : (p.name.toList.isEmpty || p.type.render.toList.isEmpty) = false := by
    rw [List.isEmpty_eq_false_iff.mpr named, List.isEmpty_eq_false_iff.mpr typed]
    rfl
  have colon : ':' ∉ p.name.toList := fun hc => absurd (h.name.simple _ hc) (by decide)
  have written : p.render.toList = p.name.toList ++ ':' :: p.type.render.toList := by
    simp [render]
  rw [Param.read, if_neg h.head?_render_ne, written, cut?_append colon]
  dsimp only
  rw [full, if_neg (by simp), h.type.read_render]
  simp [Except.map]

end Param.Canonical

/- Generics -/

structure Generic.Canonical (g : Generic) : Prop where
  name : IsIdent g.name
  bound : IsIdent g.bound

namespace Generic

theorem toList_render (g : Generic) : g.render.toList = g.name.toList ++ ':' :: g.bound.toList := by
  simp [render]

namespace Canonical

variable {g : Generic}

theorem eq_or_isIdentChar_of_mem_render (h : g.Canonical) {c : Char} (hc : c ∈ g.render.toList) :
    c = ':' ∨ isIdentChar c := by
  rw [toList_render, List.mem_append, List.mem_cons] at hc
  rcases hc with hc | hc | hc
  · exact .inr (h.name.simple c hc)
  · exact .inl hc
  · exact .inr (h.bound.simple c hc)

theorem isTokenChar_of_mem_render (h : g.Canonical) {c : Char} (hc : c ∈ g.render.toList) :
    isTokenChar c := by
  rcases h.eq_or_isIdentChar_of_mem_render hc with rfl | hi
  · decide
  · exact isTokenChar_of_isIdentChar hi

theorem comma_not_mem_render (h : g.Canonical) : ',' ∉ g.render.toList := by
  intro hc
  rcases h.eq_or_isIdentChar_of_mem_render hc with hc | hc
  · cases hc
  · cases hc

theorem read_render (h : g.Canonical) : Generic.read g.render.toList = .ok g := by
  have whole : trim g.render.toList = g.render.toList :=
    trim_of_forall fun c hc => not_isBlank_of_isTokenChar (h.isTokenChar_of_mem_render hc)
  have colon : ':' ∉ g.name.toList := fun hc => absurd (h.name.simple _ hc) (by decide)
  have named : g.name.toList ≠ [] := by simpa using h.name.ne
  have bounded : g.bound.toList ≠ [] := by simpa using h.bound.ne
  rw [Generic.read, whole, toList_render, cut?_append colon]
  split
  · next hc => cases hc
  · next hc => exact absurd (Prod.mk.inj (Option.some.inj hc)).1 named
  · next hc => exact absurd (Prod.mk.inj (Option.some.inj hc)).2 bounded
  · next hc =>
    cases hc
    rw [String.ofList_toList, String.ofList_toList]

end Canonical

def token (generics : List Generic) : List Char :=
  '\x7b' :: ([','].intercalate (generics.map (·.render.toList)) ++ ['\x7d'])

variable {generics : List Generic}

theorem isTokenChar_of_mem_token (h : ∀ g ∈ generics, g.Canonical) {c : Char}
    (hc : c ∈ token generics) : isTokenChar c := by
  rw [token, List.mem_cons, List.mem_append, List.mem_singleton] at hc
  rcases hc with rfl | hc | rfl
  · decide
  · rcases mem_intercalate hc with rfl | ⟨w, hw, hc⟩
    · decide
    · obtain ⟨g, hg, rfl⟩ := List.mem_map.mp hw
      exact (h g hg).isTokenChar_of_mem_render hc
  · decide

theorem readList_token (ne : generics ≠ []) (h : ∀ g ∈ generics, g.Canonical) :
    readList (token generics) = .ok generics := by
  have apart : ∀ w ∈ generics.map (·.render.toList), ',' ∉ w := by
    intro w hw
    obtain ⟨g, hg, rfl⟩ := List.mem_map.mp hw
    exact (h g hg).comma_not_mem_render
  rw [token, readList, dropLast?_append]
  dsimp only
  rw [pieces_intercalate (by simpa using ne) apart, List.mapM_map]
  exact mapM_eq_ok_self_iff.mpr fun g hg => (h g hg).read_render

end Generic

end TypeLang.Decl
