import TypeLang.Proofs.Decl.Canonical
import TypeLang.Proofs.Schema.Legible

namespace TypeLang

open Decl Text

/- Texts -/

namespace Decl

/-- What a text of a type looks like: identifiers with points between them, marks in front, and
perhaps an argument behind. -/
inductive TypeText : String → Prop
  | name {space : List String} {name : String} (generic percent : Bool) :
      (∀ part ∈ space ++ [name], IsIdent part) →
      TypeText (marks generic percent ++ dotted space name)
  | apply {space : List String} {name arg : String} (generic percent : Bool) :
      (∀ part ∈ space ++ [name], IsIdent part) → TypeText arg →
      TypeText (marks generic percent ++ dotted space name ++ "<" ++ arg ++ ">")

def TypeName.behind (generic percent : Bool) (space : List String) (name : String) : TypeName :=
  ⟨space, name, percent || startsLower name, generic⟩

theorem TypeName.canonical_behind {space : List String} {name : String}
    (h : ∀ part ∈ space ++ [name], IsIdent part) (generic percent : Bool) :
    (behind generic percent space name).Canonical where
  parts := h
  bare lower := Bool.or_eq_true_iff.mpr (.inr lower)

theorem TypeName.takeMarks_behind {space : List String} {name : String}
    (h : ∀ part ∈ space ++ [name], IsIdent part) (generic percent : Bool) (cs : List Char) :
    TypeExpr.takeMarks ((marks generic percent).toList ++ ((dotted space name).toList ++ cs))
      = (generic, percent, (dotted space name).toList ++ cs) :=
  TypeExpr.takeMarks_marks ((canonical_behind h generic percent).not_marked cs) generic percent

theorem TypeExpr.head_mem_names (e : TypeExpr) : e.head ∈ e.names := by
  cases e with
  | plain n => exact List.mem_cons_self
  | apply n arg => exact List.mem_cons_self

/-- By induction on the text, which is cut where it has been put together. -/
theorem TypeText.exists_read {text : String} (h : TypeText text) :
    ∃ e, TypeExpr.read text.toList = .ok e ∧ e.Canonical := by
  induction h with
  | @name space name generic percent parts =>
    have canonical := TypeName.canonical_behind parts generic percent
    have marks := TypeName.takeMarks_behind parts generic percent []
    rw [List.append_nil] at marks
    refine ⟨.plain (.behind generic percent space name), ?_, fun n hn => ?_⟩
    · rw [String.toList_append]
      exact TypeExpr.read_name marks rfl canonical.isParts
        (canonical.not_mem_fullName rfl (by decide))
    · obtain rfl := List.mem_singleton.mp hn
      exact canonical
  | @apply space name arg generic percent parts _ ih =>
    obtain ⟨e, he, hc⟩ := ih
    have canonical := TypeName.canonical_behind parts generic percent
    have marks := TypeName.takeMarks_behind parts generic percent ('<' :: (arg.toList ++ ['>']))
    have written : (Decl.marks generic percent ++ dotted space name ++ "<" ++ arg ++ ">").toList
        = (Decl.marks generic percent).toList
          ++ ((dotted space name).toList ++ '<' :: (arg.toList ++ ['>'])) := by
      simp
    refine ⟨.apply (.behind generic percent space name) e, ?_,
      TypeExpr.canonical_apply_iff.mpr ⟨canonical, hc⟩⟩
    have read := TypeExpr.read_apply marks rfl canonical.isParts
      (canonical.not_mem_fullName rfl (by decide))
    rw [written, read, he]
    rfl

end Decl

/- Types -/

namespace Ty

/-- Whether a type without flags words is made of identifiers. A name in lower case is bare, and one
without points is neither that of a built-in type nor that of vectors. -/
inductive WellFormedWithin : Ty → Prop
  | builtin {t : Ty} : t.isPrimitive → t ≠ .flags → WellFormedWithin t
  | named {space : List String} {name : String} {bare : Bool} :
      (∀ part ∈ space ++ [name], IsIdent part) → (startsLower name → bare) →
      (space = [] → isVectorName name = false ∧ builtin? name = none) →
      WellFormedWithin (.named (dotted space name) bare)
  | vector {elem : Ty} (boxed : Bool) : WellFormedWithin elem →
      WellFormedWithin (.vector elem boxed)
  | generic {name : String} : IsIdent name → WellFormedWithin (.generic name)

def WellFormed (t : Ty) : Prop := t = .flags ∨ t.WellFormedWithin

theorem OfExpr.wellFormedWithin {e : TypeExpr} {t : Ty} (h : OfExpr e t) (canonical : e.Canonical) :
    t.WellFormedWithin := by
  induction h with
  | @generic e hp => exact .generic ((canonical e.head e.head_mem_names).parts _ (by simp))
  | builtin _ _ hb =>
    exact .builtin (isPrimitive_of_builtin? hb) fun hf => builtin?_ne_flags _ (hf ▸ hb)
  | @named n _ hn =>
    have name := canonical n List.mem_cons_self
    exact .named name.parts name.bare hn
  | vector _ _ _ _ ih => exact .vector _ (ih (TypeExpr.canonical_apply_iff.mp canonical).2)

theorem wellFormed_of_parse {text : String} (h : text = "#" ∨ TypeText text) {t : Ty}
    (hp : parse text = .ok t) : t.WellFormed := by
  by_cases hash : text = "#"
  · subst hash
    cases hp
    exact .inl rfl
  · obtain ⟨e, hr, canonical⟩ := (h.resolve_left hash).exists_read
    obtain ⟨e', hr', he⟩ := (parse_eq_ok_iff hash).mp hp
    cases hr.symm.trans hr'
    exact .inr ((ofExpr_eq_ok_iff.mp he).wellFormedWithin canonical)

/- Reading types as they are written -/

theorem canonical_generic {name : String} (h : IsIdent name) :
    TypeName.Canonical ⟨[], name, startsLower name, true⟩ where
  parts part hp := by
    obtain rfl := List.mem_singleton.mp hp
    exact h
  bare lower := lower

theorem WellFormedWithin.sound {t : Ty} (h : t.WellFormedWithin) : t.Sound := by
  induction h with
  | builtin primitive hf => exact .primitive primitive hf
  | @named space name bare parts lower hn =>
    have canonical : TypeName.Canonical ⟨space, name, bare, false⟩ := ⟨parts, lower⟩
    exact .named canonical.sound rfl hn
  | vector boxed _ ih => exact .vector boxed ih
  | generic h => exact .generic (canonical_generic h).sound

theorem WellFormedWithin.legibleWithin {t : Ty} (h : t.WellFormedWithin) : t.LegibleWithin := by
  induction h with
  | @builtin t primitive _ =>
    cases t with
    | named | vector | generic => cases primitive
    | _ => trivial
  | @named space name bare parts lower _ =>
    have canonical : TypeName.Canonical ⟨space, name, bare, false⟩ := ⟨parts, lower⟩
    intro _ _ marked
    exact canonical.not_marked [] (by rwa [List.append_nil])
  | vector _ _ ih => exact ih
  | @generic name h =>
    intro percent
    exact absurd (h.simple _ (List.mem_of_mem_head? percent)) (by decide)

theorem WellFormedWithin.ne_hash {t : Ty} (h : t.WellFormedWithin) : t ≠ .named "#" false := by
  rintro rfl
  generalize hash : "#" = full at h
  cases h with
  | builtin primitive _ => cases primitive
  | @named space name _ parts lower _ =>
    have canonical : TypeName.Canonical ⟨space, name, false, false⟩ := ⟨parts, lower⟩
    refine canonical.not_mem_fullName (c := '#') rfl (by decide) ?_
    rw [TypeName.fullName, ← hash]
    exact List.mem_singleton_self '#'

theorem parse_render {t : Ty} (h : t.WellFormed) : parse t.render = .ok t := by
  rcases h with rfl | h
  · rfl
  · exact (parse_render_iff (.inr h.sound)).mpr ⟨h.ne_hash, h.legibleWithin⟩

end Ty

/-- Well-formed types are read as they are written. Types that are read from texts of their form are
well formed, so that writing them and reading them again changes nothing. Guards are read as they
are written. -/
theorem Ty.syntax_rereads :
    (∀ t : Ty, t.WellFormed → Ty.parse t.render = .ok t) ∧
      (∀ text t, text = "#" ∨ TypeText text → Ty.parse text = .ok t →
        t.WellFormed ∧ Ty.parse t.render = .ok t) ∧
      ∀ flags bit, flags ≠ "" → '.' ∉ flags.toList → bit < 32 →
        FlagBit.parse (FlagBit.render ⟨flags, bit⟩) = .ok ⟨flags, bit⟩ := by
  refine ⟨fun _ => parse_render, fun text t form read => ?_, fun flags bit ne point small => ?_⟩
  · have wellFormed := wellFormed_of_parse form read
    exact ⟨wellFormed, parse_render wellFormed⟩
  · exact FlagBit.parse_render ⟨⟨ne, point⟩, small⟩

def Ty.bareItems : Ty := .vector (.named "shop.Item" true) false

theorem Ty.syntax_rereads_bareItems : TypeText "!%shop.Cart<vector<%shop.Item>>" ∧
    TypeText "vector<%shop.Item>" ∧ Ty.parse "vector<%shop.Item>" = .ok bareItems ∧
    bareItems.WellFormed ∧ Ty.parse bareItems.render = .ok bareItems ∧
    FlagBit.parse (FlagBit.render ⟨"flags", 31⟩) = .ok ⟨"flags", 31⟩ := by
  have form : TypeText "vector<%shop.Item>" :=
    @TypeText.apply [] "vector" _ false false (by decide)
      (@TypeText.name ["shop"] "Item" false true (by decide))
  have cart : TypeText "!%shop.Cart<vector<%shop.Item>>" :=
    @TypeText.apply ["shop"] "Cart" _ true true (by decide) form
  have read : Ty.parse "vector<%shop.Item>" = .ok bareItems := by decide +kernel
  obtain ⟨wellFormed, again⟩ := syntax_rereads.2.1 _ bareItems (.inr form) read
  have guard := syntax_rereads.2.2 "flags" 31 (by decide) (by decide) (by decide)
  exact ⟨cart, form, read, wellFormed, again, guard⟩

end TypeLang
