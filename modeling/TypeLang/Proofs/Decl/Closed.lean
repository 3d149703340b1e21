import TypeLang.Proofs.Decl.Guarded
import TypeLang.Proofs.Decl.Parts

namespace TypeLang.Decl

open Text

def TypeExpr.names : TypeExpr → List TypeName
  | .plain h => [h]
  | .apply h arg => h :: arg.names

def TypeExpr.Closed (generics : List Generic) (e : TypeExpr) : Prop :=
  ∀ n ∈ e.names, n.placeholder → ∃ g ∈ generics, g.name = n.name

instance (generics : List Generic) (e : TypeExpr) : Decidable (e.Closed generics) :=
  inferInstanceAs (Decidable (∀ n ∈ e.names, n.placeholder → ∃ g ∈ generics, g.name = n.name))

namespace TypeExpr

variable {generics : List Generic}

theorem closed_plain_iff {h : TypeName} :
    Closed generics (.plain h) ↔ (h.placeholder → ∃ g ∈ generics, g.name = h.name) := by
  rw [Closed, names, List.forall_mem_singleton]

theorem closed_apply_iff {h : TypeName} {arg : TypeExpr} :
    Closed generics (.apply h arg) ↔
      (h.placeholder → ∃ g ∈ generics, g.name = h.name) ∧ arg.Closed generics := by
  rw [Closed, names, List.forall_mem_cons, Closed]

theorem Closed.mono {e : TypeExpr} (h : e.Closed generics) (more : List Generic) :
    e.Closed (generics ++ more) := by
  intro n hn hp
  obtain ⟨g, hg, same⟩ := h n hn hp
  exact ⟨g, List.mem_append_left more hg, same⟩

theorem closed_iff_placeholders {e : TypeExpr} :
    e.Closed generics ↔ e.placeholders.all fun x => generics.any (·.name = x) := by
  have here (h : TypeName) : (h.placeholder → ∃ g ∈ generics, g.name = h.name) ↔
      (if h.placeholder then [h.name] else []).all fun x => generics.any (·.name = x) := by
    cases h.placeholder with
    | false => simp
    | true => simp
  induction e with
  | plain h => exact closed_plain_iff.trans (here h)
  | apply h arg ih =>
    rw [closed_apply_iff, placeholders, List.all_append, Bool.and_eq_true]
    exact and_congr (here h) ih

end TypeExpr

def Param.expr? (p : Param) : Option TypeExpr :=
  match p.type with
  | .flags => none
  | .value type _ => some type

theorem declared_iff {generics : List Generic} {params : List Param} {p : Param} :
    declared generics params p ↔
      (∀ g ∈ p.guard?, ∃ q ∈ params, q.type = .flags ∧ q.name = g.flags) ∧
        ∀ e ∈ p.expr?, e.Closed generics := by
  rw [declared, Param.guard?, Param.expr?]
  cases p.type with
  | flags => simp
  | value type guard =>
    cases guard with
    | none => simp [TypeExpr.closed_iff_placeholders]
    | some g => simp [TypeExpr.closed_iff_placeholders]

/-- By induction on the tokens: the generics only grow, so what was declared stays so. -/
theorem closed_of_readTokens {generics generics' : List Generic} {params params' : List Param}
    {tokens : List (List Char)}
    (h : readTokens generics params tokens = .ok (generics', params'))
    (before : ∀ p ∈ params, ∀ e ∈ p.expr?, e.Closed generics) :
    ∀ p ∈ params', ∀ e ∈ p.expr?, e.Closed generics' := by
  induction tokens generalizing generics params with
  | nil =>
    cases h
    exact before
  | cons token rest ih =>
    rw [readTokens] at h
    split at h
    · obtain ⟨more, -, h⟩ := except_bind_eq_ok.mp h
      exact ih h fun p hp e he => (before p hp e he).mono more
    · obtain ⟨p, -, h⟩ := except_bind_eq_ok.mp h
      split at h
      · next hd =>
        refine ih h (List.forall_mem_append.mpr ⟨before, ?_⟩)
        rw [List.forall_mem_singleton]
        exact (declared_iff.mp hd).2
      · cases h

theorem closed_markResult_iff {generics : List Generic} {type : TypeExpr} :
    (markResult generics type).Closed generics ↔ type.Closed generics := by
  rw [markResult]
  split
  · next named =>
    have declared : ∃ g ∈ generics, g.name = type.head.name := by simpa using named
    cases type with
    | plain h =>
      rw [TypeExpr.mapHead, TypeExpr.closed_plain_iff, TypeExpr.closed_plain_iff]
      exact iff_of_true (fun _ => declared) fun _ => declared
    | apply h arg =>
      rw [TypeExpr.mapHead, TypeExpr.closed_apply_iff, TypeExpr.closed_apply_iff]
      exact and_congr_left fun _ => iff_of_true (fun _ => declared) fun _ => declared
  · exact Iff.rfl

def resultText (cs : List Char) : List Char := trim (((cut? '=' (body cs)).map (·.2)).getD [])

/-- The guards of a declaration are bits below 32 of flags words to the left of them, and its
parameters refer only to generics that it has. Its result does just if it is written so. -/
theorem closed_iff_of_read {rule : IdRule} {cs : List Char} {d : Decl} (h : read rule cs = .ok d) :
    Guarded [] d.params ∧ (∀ p ∈ d.params, ∀ e ∈ p.expr?, e.Closed d.generics) ∧
      ∃ type, TypeExpr.read (resultText cs) = .ok type ∧
        (d.type.Closed d.generics ↔ type.Closed d.generics) := by
  obtain ⟨hcut, ht, -, -, -, hp⟩ := read_eq_ok_iff.mp h
  obtain ⟨more, hm, guarded⟩ := guarded_of_readTokens hp
  rw [List.nil_append] at hm
  subst hm
  refine ⟨guarded, closed_of_readTokens hp (by simp), _, ?_, closed_markResult_iff⟩
  rw [resultText, hcut]
  exact ht

def wrapText : String := "wrap#1 \x7bX:Type\x7d flags:# query:flags.31?Vector<!X> = Vector<!X>;"

def wrap : Decl where
  space := []
  name := "wrap"
  id := 1
  generics := [⟨"X", "Type"⟩]
  params := [⟨"flags", .flags⟩, ⟨"query", .value (.apply ⟨[], "Vector", false, false⟩
    (.plain ⟨[], "X", false, true⟩)) (some ⟨"flags", 31⟩)⟩]
  type := .apply ⟨[], "Vector", false, false⟩ (.plain ⟨[], "X", false, true⟩)
  kind := .constructor
  comment := none

theorem closed_iff_of_read_wrap : parse none wrapText = .ok wrap ∧ Guarded [] wrap.params ∧
    (∀ p ∈ wrap.params, ∀ e ∈ p.expr?, e.Closed wrap.generics) ∧
    wrap.type.Closed wrap.generics := by
  have h : parse none wrapText = .ok wrap := by decide +kernel
  have written : TypeExpr.read (resultText wrapText.toList) = .ok wrap.type :=
    by decide +kernel
  obtain ⟨guarded, params, type, ht, result⟩ := closed_iff_of_read h
  cases ht.symm.trans written
  exact ⟨h, guarded, params, result.mpr (by decide)⟩

/-- A result may refer to a generic that is not declared, where a parameter may not. -/
theorem result_not_closed_list :
    (∃ d, parse none "list#1 = Vector<!T>;" = .ok d ∧ ¬ d.type.Closed d.generics) ∧
      parse none "list#1 items:Vector<!T> = List;" = .error (.badParam .undeclared) := by
  have accepted : parse none "list#1 = Vector<!T>;" = .ok ⟨[], "list", 1, [], [],
      .apply ⟨[], "Vector", false, false⟩ (.plain ⟨[], "T", false, true⟩), .constructor, none⟩ :=
    by decide +kernel
  exact ⟨⟨_, accepted, by decide⟩, by decide +kernel⟩

end TypeLang.Decl
