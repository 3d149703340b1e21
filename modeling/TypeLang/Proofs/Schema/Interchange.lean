import TypeLang.Proofs.Schema.Legible
import TypeLang.Proofs.Schema.Packed
import TypeLang.Proofs.Schema.Rebuild

namespace TypeLang

open Json Decl

/- What schemas of texts look like -/

structure Entry.Sound (e : Entry) : Prop where
  type : e.type.Sound
  arguments : ∀ a ∈ e.arguments, a.type = .flags ∨ a.type.Sound
  guards : ∀ a ∈ e.arguments, ∀ g ∈ a.guard, g.Sound

theorem Decl.TypeExpr.Sound.markResult {type : TypeExpr} (h : type.Sound)
    (generics : List Generic) : (markResult generics type).Sound := by
  rw [Decl.markResult]
  split
  · cases h with
    | plain hs => exact .plain ⟨hs.parts, hs.bracket, fun hp => nomatch hp⟩
    | apply hs ha => exact .apply ⟨hs.parts, hs.bracket, fun hp => nomatch hp⟩ ha
  · exact h

theorem Entry.sound_argumentOfParam {p : Param} {a : Argument} (hp : p.type.Sound)
    (h : argumentOfParam p = .ok a) :
    (a.type = .flags ∨ a.type.Sound) ∧ ∀ g ∈ a.guard, g.Sound := by
  rw [argumentOfParam] at h
  split at h
  · cases h
    exact ⟨.inl rfl, by simp⟩
  · next type guard ht =>
    obtain ⟨ty, hty, rfl⟩ := except_map_eq_ok.mp h
    rw [ht] at hp
    cases hp with
    | value hs hg => exact ⟨.inr (Ty.sound_of_ofExpr hs hty), hg⟩

theorem Entry.sound_of_ofDecl {d : Decl} {e : Entry} (type : d.type.Sound)
    (params : ∀ p ∈ d.params, p.type.Sound) (h : ofDecl d = .ok e) : e.Sound := by
  obtain ⟨arguments, ha, h⟩ := except_bind_eq_ok.mp (except_mapError_eq_ok.mp h)
  obtain ⟨ty, ht, h⟩ := except_bind_eq_ok.mp h
  cases h
  have sound : ∀ a ∈ arguments, (a.type = .flags ∨ a.type.Sound) ∧ ∀ g ∈ a.guard, g.Sound := by
    intro a hm
    obtain ⟨p, hp, hpa⟩ := exists_left_of_forall₂ (forall₂_of_mapM ha) hm
    exact sound_argumentOfParam (params p hp) hpa
  exact ⟨Ty.sound_of_ofExpr type ht, fun a hm => (sound a hm).1, fun a hm => (sound a hm).2⟩

section

variable {rule : IdRule} {text : String} {l : Layered}

theorem Decl.sound_of_parse {source : Source} (h : Source.parse rule text = .ok source) {d : Decl}
    (hd : d ∈ source.decls) : d.type.Sound ∧ ∀ p ∈ d.params, p.type.Sound := by
  obtain ⟨cs, d', hr, he⟩ := exists_read_of_parse h hd
  obtain ⟨right, type, tokens, ht, hm, hp⟩ := exists_tokens_of_read hr
  rw [he]
  refine ⟨?_, forall_of_readTokens (fun _ _ => Param.sound_of_read) hp (by simp)⟩
  show d'.type.Sound
  rw [hm]
  exact (TypeExpr.sound_of_read ht).markResult _

theorem Layered.exists_of_parse (h : Layered.parse rule text = .ok l) :
    (∀ e ∈ l.schema.entries, e.Sound) ∧ Schema.ofEntries l.schema.entries [] = .ok l.schema := by
  obtain ⟨source, hs, h⟩ := except_bind_eq_ok.mp h
  obtain ⟨schema, hd, h⟩ := except_bind_eq_ok.mp h
  cases h
  obtain ⟨entries, hm, ho⟩ := except_bind_eq_ok.mp hd
  have same := Schema.entries_eq ho
  refine ⟨fun e he => ?_, ?_⟩
  · obtain ⟨d, hd, hde⟩ := exists_left_of_forall₂ (forall₂_of_mapM hm) (same ▸ he)
    obtain ⟨type, params⟩ := sound_of_parse (except_mapError_eq_ok.mp hs) hd
    exact Entry.sound_of_ofDecl type params hde
  · rw [same]
    exact ho

theorem Schema.unionComments_eq_nil {entries : List Entry} {s : Schema}
    (h : ofEntries entries [] = .ok s) : s.unionComments = [] := by
  have none : s.unions.filterMap (fun u => u.comment.map (u.name, ·)) = [] := by
    rw [List.filterMap_eq_nil_iff]
    intro u hu
    rw [comment_of_mem_unions h hu]
    rfl
  rw [unionComments, none]
  rfl

end

/- Reading back -/

def Entry.types (e : Entry) : List Ty := e.type :: e.arguments.map (·.type)

theorem Ty.ofOutline_text_eq_ok_iff {text : String} {t : Ty} :
    ofOutline (.text (some text)) = .ok t ↔ parse text = .ok t :=
  except_mapError_eq_ok

theorem Argument.ofOutline_self_iff {a : Argument} (h : ∀ g ∈ a.guard, g.Sound) :
    ofOutline a.toTree.outline = .ok a ↔ Ty.parse a.type.render = .ok a.type := by
  rw [ofOutline_outline h, except_map_eq_ok, ← Ty.ofOutline_text_eq_ok_iff]
  constructor
  · rintro ⟨type, ht, he⟩
    have same : type = a.type := congrArg Argument.type he
    rwa [same] at ht
  · intro ht
    exact ⟨a.type, ht, rfl⟩

theorem Entry.ofOutline_self_iff {e : Entry} (h : e.Sound) :
    ofOutline e.toTree.outline = .ok e ↔ ∀ t ∈ e.types, t.Legible := by
  have arguments : (e.arguments.mapM fun a => Argument.ofOutline a.toTree.outline) = .ok e.arguments
      ↔ ∀ t ∈ e.arguments.map (·.type), t.Legible := by
    rw [mapM_eq_ok_self_iff, List.forall_mem_map]
    refine forall₂_congr fun a ha => ?_
    rw [Argument.ofOutline_self_iff (h.guards a ha), Ty.parse_render_iff (h.arguments a ha)]
  rw [ofOutline_outline, types, List.forall_mem_cons, ← arguments,
    ← Ty.parse_render_iff (.inr h.type), ← Ty.ofOutline_text_eq_ok_iff]
  constructor
  · intro he
    obtain ⟨type, ht, he⟩ := except_bind_eq_ok.mp he
    obtain ⟨args, ha, he⟩ := except_bind_eq_ok.mp he
    injection he with he
    exact ⟨congrArg Entry.type he ▸ ht, congrArg Entry.arguments he ▸ ha⟩
  · rintro ⟨ht, ha⟩
    rw [ht, ha]
    rfl

namespace Packed

theorem parse_render_pack {l : Layered} (none : l.schema.unionComments = [])
    (sound : ∀ e ∈ l.schema.entries, e.Sound)
    (legible : ∀ e ∈ l.schema.entries, ∀ t ∈ e.types, t.Legible) :
    parse (pack l).render = .ok (pack l) := by
  rw [parse_render, ofOutline_outline, except_map_eq_ok]
  refine ⟨l.schema.entries, mapM_eq_ok_self_iff.mpr fun e he => ?_, ?_⟩
  · exact (Entry.ofOutline_self_iff (sound e he)).mpr (legible e he)
  · rw [pack, none]
    rfl

theorem legible_of_parse {l : Layered} {p : Packed} (sound : ∀ e ∈ l.schema.entries, e.Sound)
    (hp : parse (pack l).render = .ok p) (same : p.entries = l.schema.entries) :
    ∀ e ∈ l.schema.entries, ∀ t ∈ e.types, t.Legible := by
  rw [parse_render, ofOutline_outline] at hp
  obtain ⟨entries, hm, rfl⟩ := except_map_eq_ok.mp hp
  obtain rfl : entries = l.schema.entries := same
  exact fun e he => (Entry.ofOutline_self_iff (sound e he)).mp (mapM_eq_ok_self_iff.mp hm e he)

theorem entries_of_unpack {p : Packed} {l : Layered} (h : p.unpack = .ok l) :
    p.entries = l.schema.entries := by
  obtain ⟨schema, hs, h⟩ := except_bind_eq_ok.mp h
  cases h
  exact (Schema.entries_eq hs).symm

/-- A schema of a text comes back from JSON just if its types are read as they are written. -/
theorem reread_iff_legible {rule : IdRule} {text : String} {l : Layered}
    (h : Layered.parse rule text = .ok l) :
    (∃ p, parse (pack l).render = .ok p ∧ p.unpack = .ok l)
      ↔ ∀ e ∈ l.schema.entries, ∀ t ∈ e.types, t.Legible := by
  obtain ⟨sound, entries⟩ := Layered.exists_of_parse h
  constructor
  · rintro ⟨p, hp, hu⟩
    exact legible_of_parse sound hp (entries_of_unpack hu)
  · intro legible
    have none := Schema.unionComments_eq_nil entries
    refine ⟨pack l, parse_render_pack none sound legible, ?_⟩
    rw [unpack, pack, none, entries]
    rfl

def boxText : String :=
  "// LAYER 7\n// a \"box\"\nbox#1 \x7bX:Type\x7d flags:# head:flags.31?!X " ++
    "tail:Vector<%Pair> lid:vector<#> mark:%%B = Box;"

def box : Layered where
  layer := 7
  schema := .of [{
    kind := .constructor
    name := "box"
    id := 1
    type := .named "Box" false
    generics := [⟨"X", "Type"⟩]
    arguments := [⟨"flags", .flags, none⟩, ⟨"head", .generic "X", some ⟨"flags", 31⟩⟩,
      ⟨"tail", .vector (.named "Pair" true) true, none⟩,
      ⟨"lid", .vector (.named "#" false) false, none⟩, ⟨"mark", .named "%B" true, none⟩]
    comment := some "a \"box\"" }] [] rfl

theorem reread_iff_legible_box : Layered.parse none boxText = .ok box ∧
    ∃ p, parse (pack box).render = .ok p ∧ p.unpack = .ok box := by
  have read : Layered.parse none boxText = .ok box :=
    except_toOption_eq_some.mp (by decide +kernel)
  exact ⟨read, (reread_iff_legible read).mpr (by decide +kernel)⟩

def hashResult : Layered where
  layer := 0
  schema := .of [{
    kind := .constructor
    name := "a"
    id := 1
    type := .named "#" false
    generics := []
    arguments := []
    comment := none }] [] rfl

/-- The name `#` is read back as a flags word. -/
theorem hashResult_not_reread : Layered.parse none "a#1 = #;" = .ok hashResult ∧
    ¬ ∃ p, parse (pack hashResult).render = .ok p ∧ p.unpack = .ok hashResult := by
  have read : Layered.parse none "a#1 = #;" = .ok hashResult :=
    except_toOption_eq_some.mp (by decide +kernel)
  refine ⟨read, ?_⟩
  rintro ⟨p, hp, hu⟩
  have legible := legible_of_parse (Layered.exists_of_parse read).1 hp (entries_of_unpack hu)
  exact absurd legible (by decide +kernel)

end Packed

end TypeLang
