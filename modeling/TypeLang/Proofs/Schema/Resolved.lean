import TypeLang.Proofs.Decl.RoundTrip
import TypeLang.Proofs.Schema.Legible
import TypeLang.Schema.Entry

/-!
Entries are read as they are written. Resolving a declaration forgets the marks of built-in types
and vectors, the name spaces and the arguments of generics, and no more: an entry is written as the
declaration without them.
-/

namespace TypeLang

open Decl

/- Types -/

def Ty.renderResult : Ty → String
  | .generic name => name
  | t => t.render

theorem Ty.render_of_builtin? {name : String} {t : Ty} (h : builtin? name = some t) :
    t.render = name := by
  unfold builtin? at h
  split at h
  all_goals cases h
  all_goals rfl

namespace Decl

def TypeName.alone (n : TypeName) : TypeName := { n with space := [], bare := startsLower n.name }

/-- An expression without what is forgotten about it. -/
def TypeExpr.resolved : TypeExpr → TypeExpr
  | .plain n =>
    if n.placeholder || (n.space.isEmpty && (Ty.builtin? n.name).isSome) then .plain n.alone
    else .plain n
  | .apply n arg => if n.placeholder then .plain n.alone else .apply n.alone arg.resolved

theorem TypeName.Canonical.alone {n : TypeName} (h : n.Canonical) : n.alone.Canonical where
  parts part hp := by
    obtain rfl : part = n.name := by simpa [TypeName.alone] using hp
    exact h.parts n.name (by simp)
  bare lower := lower

theorem TypeName.render_alone (n : TypeName) :
    n.alone.render = (if n.placeholder then "!" else "") ++ n.name := by
  have bare : (startsLower n.name && !startsLower n.name) = false := Bool.and_not_self _
  rw [render, fullName, alone, dotted_nil]
  dsimp only
  rw [bare, if_neg Bool.false_ne_true, String.append_empty]

namespace TypeExpr

variable {e : TypeExpr} {t : Ty}

theorem head_resolved (e : TypeExpr) :
    e.resolved.head = e.head ∨ e.resolved.head = e.head.alone := by
  cases e with
  | plain n =>
    rw [resolved]
    split
    · exact .inr rfl
    · exact .inl rfl
  | apply n arg =>
    rw [resolved]
    split
    · exact .inr rfl
    · exact .inr rfl

@[simp] theorem placeholder_resolved (e : TypeExpr) :
    e.resolved.head.placeholder = e.head.placeholder := by
  rcases head_resolved e with h | h
  · rw [h]
  · rw [h, TypeName.alone]

@[simp] theorem name_resolved (e : TypeExpr) : e.resolved.head.name = e.head.name := by
  rcases head_resolved e with h | h
  · rw [h]
  · rw [h, TypeName.alone]

theorem resolved_of_placeholder (h : e.head.placeholder) : e.resolved = .plain e.head.alone := by
  cases e with
  | plain n => exact if_pos (by rw [show n.placeholder = true from h, Bool.true_or])
  | apply n arg => exact if_pos h

section

variable {n : TypeName}

theorem resolved_of_builtin (alone : n.space = []) (hb : Ty.builtin? n.name = some t) :
    (plain n).resolved = .plain n.alone := by
  rw [resolved, if_pos]
  simp [alone, hb]

theorem resolved_of_named (unmarked : n.placeholder = false)
    (hn : n.space = [] → Ty.builtin? n.name = none) : (plain n).resolved = .plain n := by
  rw [resolved, if_neg]
  rw [unmarked, Bool.false_or, Bool.and_eq_true]
  rintro ⟨alone, builtin⟩
  rw [hn (List.isEmpty_iff.mp alone)] at builtin
  cases builtin

theorem resolved_apply (unmarked : n.placeholder = false) (arg : TypeExpr) :
    (apply n arg).resolved = .apply n.alone arg.resolved := by
  rw [resolved, if_neg (by simp [unmarked])]

end

theorem forall_names_resolved {P : TypeName → Prop} (hP : ∀ n, P n → P n.alone)
    (h : ∀ n ∈ e.names, P n) : ∀ n ∈ e.resolved.names, P n := by
  induction e with
  | plain n =>
    rw [names, List.forall_mem_singleton] at h
    rw [resolved]
    split
    · rw [names, List.forall_mem_singleton]
      exact hP n h
    · rw [names, List.forall_mem_singleton]
      exact h
  | apply n arg ih =>
    rw [names, List.forall_mem_cons] at h
    rw [resolved]
    split
    · rw [names, List.forall_mem_singleton]
      exact hP n h.1
    · rw [names, List.forall_mem_cons]
      exact ⟨hP n h.1, ih h.2⟩

theorem Canonical.resolved (h : e.Canonical) : e.resolved.Canonical :=
  forall_names_resolved (fun _ hn => hn.alone) h

theorem Closed.resolved {generics : List Generic} (h : e.Closed generics) :
    e.resolved.Closed generics :=
  forall_names_resolved (P := fun n => n.placeholder → ∃ g ∈ generics, g.name = n.name)
    (fun _ hn => hn) h

theorem ofExpr_resolved (h : Ty.OfExpr e t) : Ty.OfExpr e.resolved t := by
  induction h with
  | @generic e hp =>
    have generic := Ty.OfExpr.generic (e := e.resolved) (by simpa using hp)
    rwa [name_resolved] at generic
  | builtin hp alone hb =>
    rw [resolved_of_builtin alone hb]
    exact .builtin hp rfl hb
  | named hp hn =>
    rw [resolved_of_named hp fun alone => (hn alone).2]
    exact .named hp hn
  | vector hp alone hv _ ih =>
    rw [resolved_apply hp]
    exact .vector hp rfl hv ih

theorem render_resolved (h : Ty.OfExpr e t) (canonical : e.Canonical) :
    e.resolved.render = t.render := by
  induction h with
  | generic hp =>
    rw [resolved_of_placeholder hp, render, TypeName.render_alone, if_pos hp, Ty.render]
  | builtin hp alone hb =>
    rw [resolved_of_builtin alone hb, render, TypeName.render_alone, hp,
      if_neg Bool.false_ne_true, String.empty_append, Ty.render_of_builtin? hb]
  | @named n hp hn =>
    have parts := (canonical n List.mem_cons_self).isParts
    rw [resolved_of_named hp fun alone => (hn alone).2, render, TypeName.render, hp,
      if_neg Bool.false_ne_true, String.empty_append, Ty.render, TypeName.fullName,
      Ty.localPart_dotted parts]
  | vector hp alone hv _ ih =>
    rw [resolved_apply hp, render, ih (canonical_apply_iff.mp canonical).2,
      TypeName.render_alone, hp, if_neg Bool.false_ne_true, String.empty_append, Ty.render]
    rcases Bool.or_eq_true_iff.mp hv with hv | hv
    · rw [of_decide_eq_true hv]
      rfl
    · rw [of_decide_eq_true hv]
      rfl

end TypeExpr

/- Results -/

theorem TypeExpr.mapHead_of_unmarked {e : TypeExpr} (h : e.head.placeholder = false) :
    (e.mapHead fun n => { n with placeholder := false }) = e := by
  have same (n : TypeName) (hn : n.placeholder = false) : { n with placeholder := false } = n := by
    rw [← hn]
  cases e with
  | plain n => exact congrArg TypeExpr.plain (same n h)
  | apply n arg => exact congrArg (TypeExpr.apply · arg) (same n h)

theorem TypeExpr.render_result {e : TypeExpr} {t : Ty} (h : Ty.OfExpr e t)
    (canonical : e.Canonical) :
    (e.resolved.mapHead fun n => { n with placeholder := false }).render = t.renderResult := by
  have unmarked (generic : e.head.placeholder = false) :
      (e.resolved.mapHead fun n => { n with placeholder := false }).render = t.render := by
    rw [mapHead_of_unmarked (by rw [placeholder_resolved, generic]), render_resolved h canonical]
  cases h with
  | generic hp =>
    rw [resolved_of_placeholder hp]
    refine (TypeName.render_alone { e.head with placeholder := false }).trans ?_
    exact String.empty_append
  | builtin hp _ hb =>
    rw [unmarked hp]
    cases t with
    | generic name => cases Ty.isPrimitive_of_builtin? hb
    | _ => rfl
  | named hp _ => exact unmarked hp
  | vector hp _ _ _ => exact unmarked hp

/- Parameters -/

def ParamType.resolved : ParamType → ParamType
  | .flags => .flags
  | .value type guard => .value type.resolved guard

theorem ParamType.Canonical.resolved {t : ParamType} (h : t.Canonical) : t.resolved.Canonical := by
  cases h with
  | flags => exact .flags
  | value ht hg => exact .value ht.resolved hg

def Param.resolved (p : Param) : Param := { p with type := p.type.resolved }

namespace Param

variable {p : Param}

@[simp] theorem guard?_resolved (p : Param) : p.resolved.guard? = p.guard? := by
  rw [guard?, guard?, resolved]
  cases p.type with
  | flags => rfl
  | value type guard => rfl

theorem type_resolved_eq_flags (h : p.type = .flags) : p.resolved.type = .flags := by
  rw [resolved, h, ParamType.resolved]

theorem closed_resolved {generics : List Generic} (h : ∀ e ∈ p.expr?, e.Closed generics) :
    ∀ e ∈ p.resolved.expr?, e.Closed generics := by
  rw [expr?] at h
  rw [expr?, resolved]
  cases ht : p.type with
  | flags => simp [ParamType.resolved]
  | value type guard =>
    rw [ht] at h
    rintro _ ⟨⟩
    exact (h type rfl).resolved

theorem Canonical.resolved (h : p.Canonical) : p.resolved.Canonical :=
  ⟨h.name, h.type.resolved⟩

end Param

theorem Guarded.resolved {before params : List Param} (h : Guarded before params) :
    Guarded (before.map Param.resolved) (params.map Param.resolved) := by
  induction h with
  | nil => exact .nil
  | @cons before rest p hg _ ih =>
    rw [List.map_append] at ih
    refine .cons (fun g hm => ?_) ih
    rw [Param.guard?_resolved] at hm
    obtain ⟨bit, q, hq, flags, name⟩ := hg g hm
    exact ⟨bit, q.resolved, List.mem_map_of_mem hq, Param.type_resolved_eq_flags flags, name⟩

/- Declarations -/

def resolved (d : Decl) : Decl :=
  { d with params := d.params.map Param.resolved, type := d.type.resolved }

theorem Canonical.resolved {d : Decl} (h : d.Canonical) : d.resolved.Canonical where
  name := h.name
  generics := h.generics
  params := by
    rw [Decl.resolved, List.forall_mem_map]
    exact fun p hp => (h.params p hp).resolved
  guarded := h.guarded.resolved
  closed := by
    rw [Decl.resolved, List.forall_mem_map]
    exact fun p hp => Param.closed_resolved (h.closed p hp)
  type := h.type.resolved
  mark := by
    rw [Decl.resolved, TypeExpr.placeholder_resolved, TypeExpr.name_resolved]
    exact h.mark

end Decl

/- Entries -/

namespace Entry

theorem argument_resolved {p : Param} {a : Argument} (h : argumentOfParam p = .ok a) :
    argumentOfParam p.resolved = .ok a := by
  rw [argumentOfParam] at h ⊢
  rw [Param.resolved]
  cases ht : p.type with
  | flags =>
    rw [ht] at h
    exact h
  | value type guard =>
    rw [ht] at h
    obtain ⟨t, hty, rfl⟩ := except_map_eq_ok.mp h
    have again := (TypeExpr.ofExpr_resolved (Ty.ofExpr_eq_ok_iff.mp hty)).eq_ok
    exact except_map_eq_ok.mpr ⟨t, again, rfl⟩

theorem render_argument {p : Param} {a : Argument} (h : argumentOfParam p = .ok a)
    (canonical : p.Canonical) : p.resolved.render = a.render := by
  rw [argumentOfParam] at h
  rw [Param.render, Param.resolved, Argument.render]
  cases ht : p.type with
  | flags =>
    rw [ht] at h
    cases h
    simp [ParamType.resolved, ParamType.render, Ty.render]
  | value type guard =>
    rw [ht] at h
    obtain ⟨t, hty, rfl⟩ := except_map_eq_ok.mp h
    have hc := canonical.type
    rw [ht] at hc
    cases hc with
    | value type _ =>
    rw [ParamType.resolved, ← TypeExpr.render_resolved (Ty.ofExpr_eq_ok_iff.mp hty) type]
    cases guard with
    | none => simp [ParamType.render]
    | some g => simp [ParamType.render, String.append_assoc]

variable {d : Decl} {e : Entry}

structure OfDecl (d : Decl) (e : Entry) : Prop where
  kind : e.kind = d.kind
  name : e.name = d.fullName
  id : e.id = d.id
  generics : e.generics = d.generics
  comment : e.comment = d.comment
  arguments : List.Forall₂ (fun p a => argumentOfParam p = .ok a) d.params e.arguments
  type : Ty.OfExpr d.type e.type

theorem ofDecl_eq_ok_iff : ofDecl d = .ok e ↔ OfDecl d e := by
  rw [ofDecl, except_mapError_eq_ok]
  constructor
  · intro h
    obtain ⟨arguments, ha, h⟩ := except_bind_eq_ok.mp h
    obtain ⟨type, ht, h⟩ := except_bind_eq_ok.mp h
    cases h
    exact ⟨rfl, rfl, rfl, rfl, rfl, forall₂_of_mapM ha, Ty.ofExpr_eq_ok_iff.mp ht⟩
  · rintro ⟨kind, name, id, generics, comment, arguments, type⟩
    rw [mapM_of_forall₂ arguments, type.eq_ok, ← kind, ← name, ← id, ← generics, ← comment]
    rfl

theorem OfDecl.resolved (h : OfDecl d e) : OfDecl d.resolved e where
  kind := h.kind
  name := h.name
  id := h.id
  generics := h.generics
  comment := h.comment
  arguments := List.forall₂_map_left_iff.mpr (h.arguments.imp fun _ _ => argument_resolved)
  type := TypeExpr.ofExpr_resolved h.type

theorem render_arguments {params : List Param} {arguments : List Argument}
    (h : List.Forall₂ (fun p a => argumentOfParam p = .ok a) params arguments)
    (canonical : ∀ p ∈ params, p.Canonical) :
    (params.map Param.resolved).map (fun p => " " ++ p.render)
      = arguments.map fun a => " " ++ a.render := by
  induction h with
  | nil => rfl
  | cons ha _ ih =>
    rw [List.forall_mem_cons] at canonical
    rw [List.map_cons, List.map_cons, List.map_cons, render_argument ha canonical.1,
      ih canonical.2]

theorem render_eq (e : Entry) : e.render = e.name ++ "#" ++ Text.hex8 e.id
    ++ renderGenerics e.generics ++ String.join (e.arguments.map fun a => " " ++ a.render) ++ " = "
    ++ e.type.renderResult ++ ";" := rfl

theorem render_resolved (h : OfDecl d e) (canonical : d.Canonical) :
    d.resolved.render = e.render := by
  rw [render_eq, h.id, h.name, h.generics, ← render_arguments h.arguments canonical.params,
    ← TypeExpr.render_result h.type canonical.type]
  rfl

/-- An entry whose declaration has been read from names with the characters of identifiers, with a
result that is marked only if it is named like a generic, is written as a text that is read as a
declaration of this entry, up to its kind and its comment. -/
theorem ofDecl_of_parse_render {rule : IdRule} {text : String} {kind : Kind}
    {comment : Option String} (h : parse rule text = .ok d) (simple : d.Simple)
    (mark : d.type.head.placeholder → ∃ g ∈ d.generics, g.name = d.type.head.name)
    (he : ofDecl { d with kind, comment } = .ok e) :
    ∃ d', parse none e.render = .ok d' ∧
      ofDecl d' = .ok { e with kind := .constructor, comment := none } := by
  have canonical := canonical_of_read h simple mark
  have same : Canonical { d with kind, comment } :=
    ⟨canonical.name, canonical.generics, canonical.params, canonical.guarded, canonical.closed,
      canonical.type, canonical.mark⟩
  have parts := ofDecl_eq_ok_iff.mp he
  have again := same.resolved.read_render none
  rw [render_resolved parts same] at again
  refine ⟨_, again, ofDecl_eq_ok_iff.mpr ?_⟩
  obtain ⟨-, name, id, generics, -, arguments, type⟩ := parts.resolved
  exact ⟨rfl, name, id, generics, rfl, arguments, type⟩

def runText : String :=
  "q.run#2 \x7bX:Type\x7d f:# a:f.3?%int b:!q.X<int> c:%Vector<%q.Item> = X;"

def runDecl : Decl where
  space := ["q"]
  name := "run"
  id := 2
  generics := [⟨"X", "Type"⟩]
  params := [
    ⟨"f", .flags⟩,
    ⟨"a", .value (.plain ⟨[], "int", true, false⟩) (some ⟨"f", 3⟩)⟩,
    ⟨"b", .value (.apply ⟨["q"], "X", false, true⟩ (.plain ⟨[], "int", true, false⟩)) none⟩,
    ⟨"c", .value (.apply ⟨[], "Vector", true, false⟩ (.plain ⟨["q"], "Item", true, false⟩)) none⟩]
  type := .plain ⟨[], "X", false, true⟩
  kind := .constructor
  comment := none

def run : Entry where
  kind := .method
  name := "q.run"
  id := 2
  type := .generic "X"
  generics := [⟨"X", "Type"⟩]
  arguments := [
    ⟨"f", .flags, none⟩,
    ⟨"a", .int, some ⟨"f", 3⟩⟩,
    ⟨"b", .generic "X", none⟩,
    ⟨"c", .vector (.named "q.Item" true) true, none⟩]
  comment := some "Runs."

theorem ofDecl_of_parse_render_run : parse none runText = .ok runDecl ∧
    ofDecl { runDecl with kind := .method, comment := some "Runs." } = .ok run ∧
    ∃ d', parse none run.render = .ok d' ∧
      ofDecl d' = .ok { run with kind := .constructor, comment := none } := by
  have h : parse none runText = .ok runDecl := by decide +kernel
  have he : ofDecl { runDecl with kind := .method, comment := some "Runs." } = .ok run := by
    decide +kernel
  have mark : runDecl.type.head.placeholder →
      ∃ g ∈ runDecl.generics, g.name = runDecl.type.head.name := by decide
  have simple : runDecl.Simple := by decide +kernel
  exact ⟨h, he, ofDecl_of_parse_render h simple mark he⟩

end Entry

end TypeLang
