import TypeLang.Proofs.Schema.Types

/-!
Types are written without the marks that say nothing. Most of them are read as what they were
written from; those that are not are bare types in lower case whose names begin with a mark,
generics whose names begin with `%`, and a named type `#`.
-/

namespace TypeLang.Ty

open Decl

/-- Whether a type is read as it is written where `#` is a name like others. -/
def LegibleWithin : Ty → Prop
  | .named name bare => bare → startsLower (localPart name) → ¬ Marked name.toList
  | .vector elem _ => elem.LegibleWithin
  | .generic name => name.toList.head? ≠ some '%'
  | _ => True

def Legible (t : Ty) : Prop := t ≠ .named "#" false ∧ t.LegibleWithin

instance decidableLegibleWithin : (t : Ty) → Decidable t.LegibleWithin
  | .named name bare =>
    inferInstanceAs (Decidable (bare → startsLower (localPart name) → ¬ Marked name.toList))
  | .vector elem _ => decidableLegibleWithin elem
  | .generic name => inferInstanceAs (Decidable (name.toList.head? ≠ some '%'))
  | .int | .long | .int128 | .int256 | .double | .string | .bytes | .bool | .presence | .flags =>
    inferInstanceAs (Decidable True)

instance (t : Ty) : Decidable t.Legible :=
  inferInstanceAs (Decidable (t ≠ .named "#" false ∧ t.LegibleWithin))

def SpelledBy (t : Ty) (cs : List Char) : Prop :=
  ∃ e, TypeExpr.read cs = .ok e ∧ ofExpr e = .ok t

inductive Sound : Ty → Prop
  | primitive {t : Ty} : t.isPrimitive → t ≠ .flags → Sound t
  | named {h : TypeName} : h.Sound → h.placeholder = false →
      (h.space = [] → isVectorName h.name = false ∧ builtin? h.name = none) →
      Sound (.named h.fullName h.bare)
  | generic {h : TypeName} : h.Sound → Sound (.generic h.name)
  | vector {elem : Ty} (boxed : Bool) : Sound elem → Sound (.vector elem boxed)

/- Reading types -/

theorem OfExpr.sound {e : TypeExpr} {t : Ty} (h : OfExpr e t) (hs : e.Sound) : t.Sound := by
  induction h with
  | generic => exact .generic hs.head
  | builtin _ _ hb =>
    exact .primitive (isPrimitive_of_builtin? hb) fun hf => builtin?_ne_flags _ (hf ▸ hb)
  | named generic hn =>
    cases hs with
    | plain hs => exact .named hs generic hn
  | vector _ _ _ _ ih =>
    cases hs with
    | apply _ hs => exact .vector _ (ih hs)

theorem sound_of_ofExpr {e : TypeExpr} {t : Ty} (hs : e.Sound) (h : ofExpr e = .ok t) : t.Sound :=
  (ofExpr_eq_ok_iff.mp h).sound hs

/- Writing types and reading them again -/

theorem isPart_of_sound {h : TypeName} (hs : h.Sound) : IsPart h.name :=
  hs.parts h.name (by simp)

theorem not_mem_name_of_sound {h : TypeName} (hs : h.Sound) : '<' ∉ h.name.toList := by
  intro hc
  have hm : h.name.toList ∈ Text.pieces (· = '.') h.fullName.toList := by
    rw [TypeName.fullName, pieces_dotted hs.parts]
    simp
  exact hs.bracket (Text.of_mem_pieces hm '<' hc).1

theorem localPart_dotted {space : List String} {name : String}
    (parts : ∀ part ∈ space ++ [name], IsPart part) : localPart (dotted space name) = name := by
  rw [localPart, pieces_dotted parts]
  simp

section

variable {cs : List Char}

theorem spelledBy_builtin {t : Ty} (name : String) (hb : builtin? name = some t)
    (letters : name ≠ "" ∧ '.' ∉ name.toList ∧ '<' ∉ name.toList ∧ ¬ Marked name.toList) :
    SpelledBy t name.toList := by
  obtain ⟨ne, dot, bracket, unmarked⟩ := letters
  have read : TypeExpr.read name.toList = .ok (.plain ⟨[], name, startsLower name, false⟩) := by
    refine TypeExpr.read_name ?_ (Bool.false_or _) (by simpa using ⟨ne, dot⟩) ?_
    · rw [TypeName.fullName, dotted_nil]
      exact TypeExpr.takeMarks_of_not_marked unmarked
    · rwa [TypeName.fullName, dotted_nil]
  exact ⟨_, read, ofExpr_eq_ok_iff.mpr (.builtin rfl rfl hb)⟩

theorem spelledBy_primitive {t : Ty} (primitive : t.isPrimitive) (hf : t ≠ .flags) :
    SpelledBy t t.render.toList := by
  cases t with
  | int => exact spelledBy_builtin "int" rfl (by decide)
  | long => exact spelledBy_builtin "long" rfl (by decide)
  | int128 => exact spelledBy_builtin "int128" rfl (by decide)
  | int256 => exact spelledBy_builtin "int256" rfl (by decide)
  | double => exact spelledBy_builtin "double" rfl (by decide)
  | string => exact spelledBy_builtin "string" rfl (by decide)
  | bytes => exact spelledBy_builtin "bytes" rfl (by decide)
  | bool => exact spelledBy_builtin "Bool" rfl (by decide)
  | presence => exact spelledBy_builtin "true" rfl (by decide)
  | flags => exact absurd rfl hf
  | named | vector | generic => cases primitive

theorem fullName_of_spelledBy {name : String} {bare : Bool} (hs : SpelledBy (.named name bare) cs) :
    name.toList = (TypeExpr.takeMarks cs).2.2 := by
  obtain ⟨e, hr, he⟩ := hs
  cases ofExpr_eq_ok_iff.mp he with
  | builtin _ _ hb => cases isPrimitive_of_builtin? hb
  | named => exact TypeExpr.fullName_of_read hr

theorem spelledBy_generic {name : String} {percent : Bool}
    (h : TypeExpr.takeMarks cs = (true, percent, name.toList)) (part : IsPart name)
    (bracket : '<' ∉ name.toList) : SpelledBy (.generic name) cs := by
  refine ⟨.plain ⟨[], name, percent || startsLower name, true⟩, ?_,
    ofExpr_eq_ok_iff.mpr (.generic rfl)⟩
  refine TypeExpr.read_name ?_ rfl (by simpa using part) ?_
  · rwa [TypeName.fullName, dotted_nil]
  · rwa [TypeName.fullName, dotted_nil]

theorem spelledBy_unique {t t' : Ty} (h : SpelledBy t cs) (h' : SpelledBy t' cs) : t = t' := by
  obtain ⟨e, hr, he⟩ := h
  obtain ⟨e', hr', he'⟩ := h'
  rw [hr] at hr'
  cases hr'
  rw [he] at he'
  injection he'

end

theorem spelledBy_generic_iff {name : String} (part : IsPart name) (bracket : '<' ∉ name.toList) :
    SpelledBy (.generic name) ('!' :: name.toList) ↔ name.toList.head? ≠ some '%' := by
  constructor
  · intro hs hp
    obtain ⟨rest, hrest⟩ := List.head?_eq_some_iff.mp hp
    have marks : TypeExpr.takeMarks ('!' :: name.toList) = (true, true, rest) := by
      rw [TypeExpr.takeMarks_generic, hrest, TypeExpr.takeMark_cons]
    cases rest with
    | nil =>
      obtain ⟨e, hr, -⟩ := hs
      rw [hrest, TypeExpr.read_plain rfl] at hr
      cases hr
    | cons c rest =>
      have point := part.point
      rw [hrest, List.mem_cons, not_or] at bracket point
      have short : SpelledBy (.generic (String.ofList (c :: rest))) ('!' :: name.toList) := by
        refine spelledBy_generic (by rw [marks, String.toList_ofList]) ⟨by simp, ?_⟩ ?_
        · rw [String.toList_ofList]
          exact point.2
        · rw [String.toList_ofList]
          exact bracket.2
      injection spelledBy_unique hs short with same
      rw [same, String.toList_ofList] at hrest
      exact List.cons_ne_self '%' _ hrest.symm
  · intro hp
    have marks : TypeExpr.takeMarks ('!' :: name.toList) = (true, false, name.toList) := by
      rw [TypeExpr.takeMarks_generic, TypeExpr.takeMark_of_ne hp]
    exact spelledBy_generic marks part bracket

theorem spelledBy_named_iff {n : TypeName} (hs : n.Sound) (generic : n.placeholder = false)
    (hn : n.space = [] → isVectorName n.name = false ∧ builtin? n.name = none) :
    SpelledBy (.named n.fullName n.bare) (Ty.named n.fullName n.bare).render.toList
      ↔ (Ty.named n.fullName n.bare).LegibleWithin := by
  rw [render, LegibleWithin, TypeName.fullName, localPart_dotted hs.parts, ← TypeName.fullName]
  have named {cs : List Char} {percent : Bool}
      (hm : TypeExpr.takeMarks cs = (false, percent, n.fullName.toList))
      (bare : (percent || startsLower n.name) = n.bare) : SpelledBy (.named n.fullName n.bare) cs :=
    ⟨_, TypeExpr.read_name (generic ▸ hm) bare hs.parts hs.bracket,
      ofExpr_eq_ok_iff.mpr (.named generic hn)⟩
  by_cases hm : (n.bare && !startsLower n.name) = true
  · rw [if_pos hm, String.toList_append]
    obtain ⟨bare, upper⟩ := Bool.and_eq_true_iff.mp hm
    refine iff_of_true (named (TypeExpr.takeMarks_percent n.fullName.toList) bare.symm) ?_
    intro _ lower
    simp [lower] at upper
  · rw [if_neg hm, String.empty_append]
    constructor
    · intro spelled _ _ marked
      exact TypeExpr.not_marked_of_eq (fullName_of_spelledBy spelled) marked
    · intro legible
      have bare : startsLower n.name = n.bare := by
        cases hb : n.bare with
        | true => simpa [hb] using hm
        | false => exact (hs.unmarked generic hb).1
      refine named (TypeExpr.takeMarks_of_not_marked ?_) bare
      cases hb : n.bare with
      | true => exact legible hb (bare.trans hb)
      | false => exact (hs.unmarked generic hb).2

theorem spelledBy_argument {elem : Ty} (name : String) {cs : List Char} (part : IsPart name)
    (bracket : '<' ∉ name.toList) (unmarked : ¬ Marked name.toList) (hv : isVectorName name) :
    SpelledBy (.vector elem (name = "Vector")) (name.toList ++ '<' :: (cs ++ ['>']))
      ↔ SpelledBy elem cs := by
  have vector (arg : TypeExpr) : ofExpr (.apply ⟨[], name, startsLower name, false⟩ arg)
      = (ofExpr arg).map fun elem => .vector elem (name = "Vector") := by
    simp [ofExpr, hv]
  rw [SpelledBy, TypeExpr.read_argument part bracket unmarked]
  constructor
  · rintro ⟨e, hr, he⟩
    obtain ⟨arg, ha, rfl⟩ := except_map_eq_ok.mp hr
    rw [vector] at he
    obtain ⟨elem', he', hv'⟩ := except_map_eq_ok.mp he
    cases hv'
    exact ⟨arg, ha, he'⟩
  · rintro ⟨arg, ha, he⟩
    refine ⟨_, except_map_eq_ok.mpr ⟨arg, ha, rfl⟩, ?_⟩
    rw [vector, he]
    rfl

/-- Types of a text are read as they are written just if they are legible, where `#` is a name like
others. By induction on what they look like. -/
theorem spelledBy_render_iff {t : Ty} (h : t.Sound) :
    SpelledBy t t.render.toList ↔ t.LegibleWithin := by
  induction h with
  | @primitive t primitive hf =>
    refine iff_of_true (spelledBy_primitive primitive hf) ?_
    cases t with
    | named | vector | generic => cases primitive
    | _ => trivial
  | named hs generic hn => exact spelledBy_named_iff hs generic hn
  | @generic h hs =>
    have written : (Ty.generic h.name).render.toList = '!' :: h.name.toList := String.toList_append
    rw [written, LegibleWithin]
    exact spelledBy_generic_iff (isPart_of_sound hs) (not_mem_name_of_sound hs)
  | @vector elem boxed _ ih =>
    rw [LegibleWithin, ← ih, render, String.toList_append, String.toList_append]
    cases boxed with
    | false =>
      exact spelledBy_argument "vector" ⟨by decide, by decide⟩ (by decide) (by decide) rfl
    | true =>
      exact spelledBy_argument "Vector" ⟨by decide, by decide⟩ (by decide) (by decide) rfl

/- The text `#` -/

theorem eq_named_of_render {t : Ty} (hf : t ≠ .flags) (h : t.render = "#") :
    t = .named "#" false := by
  have chars : t.render.toList = ['#'] := congrArg String.toList h
  cases t with
  | flags => exact absurd rfl hf
  | named name bare =>
    rw [render] at h chars
    split at h
    · next hm =>
      rw [if_pos hm, String.toList_append] at chars
      cases chars
    · next hm =>
      rw [String.empty_append] at h
      subst h
      cases bare with
      | false => rfl
      | true => exact absurd (by decide) hm
  | vector elem boxed =>
    rw [render, String.toList_append, String.toList_append] at chars
    cases boxed with
    | false => cases chars
    | true => cases chars
  | generic name =>
    rw [render, String.toList_append] at chars
    cases chars
  | _ => exact absurd h (by decide)

theorem parse_eq_ok_iff {text : String} (h : text ≠ "#") {t : Ty} :
    parse text = .ok t ↔ SpelledBy t text.toList := by
  rw [parse, if_neg h, SpelledBy]
  cases TypeExpr.read text.toList with
  | error fault => simp
  | ok e => simp

theorem Sound.ne_flags {t : Ty} (h : t.Sound) : t ≠ .flags := by
  cases h with
  | primitive _ hf => exact hf
  | _ => simp

theorem parse_render_iff {t : Ty} (h : t = .flags ∨ t.Sound) :
    parse t.render = .ok t ↔ t.Legible := by
  rcases h with rfl | h
  · exact iff_of_true rfl ⟨by simp, trivial⟩
  · by_cases hr : t.render = "#"
    · have hash := eq_named_of_render h.ne_flags hr
      refine iff_of_false (fun hp => ?_) fun legible => legible.1 hash
      rw [hr] at hp
      injection hp with hp
      exact h.ne_flags hp.symm
    · have other : t ≠ .named "#" false := by
        rintro rfl
        exact hr rfl
      rw [parse_eq_ok_iff hr, spelledBy_render_iff h, Legible, and_iff_right other]

end TypeLang.Ty
