import TypeLang.Proofs.Decl.Param
import TypeLang.Proofs.Json.Reread
import TypeLang.Schema.Packed

namespace TypeLang

namespace Json.Outline

variable {α β : Type}

theorem visitMembers_eq_foldlM {keys seen : List String}
    (visit : String → Outline → β → Except Fault β) {members : List (String × Tree)}
    (known : ∀ kt ∈ members, kt.1 ∈ keys) (distinct : (members.map (·.1)).Nodup)
    (fresh : ∀ kt ∈ members, kt.1 ∉ seen) (acc : β) :
    visitMembers keys visit seen acc (Tree.outlineMembers members)
      = members.foldlM (fun acc kt => visit kt.1 kt.2.outline acc) acc := by
  induction members generalizing seen acc with
  | nil => rfl
  | cons kt members ih =>
    rw [List.forall_mem_cons] at known fresh
    rw [List.map_cons, List.nodup_cons] at distinct
    have hk : keys.contains kt.1 = true := List.contains_iff_mem.mpr known.1
    have hs : seen.contains kt.1 = false := by simpa using fresh.1
    rw [Tree.outlineMembers, visitMembers, List.foldlM_cons]
    simp only [Except.mapError, bind, Except.bind, hk, hs]
    cases visit kt.1 kt.2.outline acc with
    | error fault => rfl
    | ok acc =>
      refine ih known.2 distinct.2 (fun other ho hs => ?_) acc
      rcases List.mem_cons.mp hs with same | hs
      · exact distinct.1 (same ▸ List.mem_map_of_mem ho)
      · exact fresh.2 other ho hs

/-- A record is written with its keys in their order, with some members left out. -/
theorem readRecord_object {keys : List String} {visit : String → Outline → β → Except Fault β}
    {empty : β} {members : List (String × Tree)} (distinct : keys.Nodup)
    (known : (members.map (·.1)).Sublist keys) :
    readRecord keys visit empty (Tree.object members).outline
      = members.foldlM (fun acc kt => visit kt.1 kt.2.outline acc) empty := by
  have inside : ∀ kt ∈ members, kt.1 ∈ keys := fun kt hm => known.subset (List.mem_map_of_mem hm)
  rw [Tree.outline, readRecord,
    visitMembers_eq_foldlM visit inside (distinct.sublist known) (by simp) empty]
  cases members.foldlM (fun acc kt => visit kt.1 kt.2.outline acc) empty with
  | error fault => rfl
  | ok acc => rfl

theorem readList_array (read : Outline → Except Fault α) (write : β → Tree) (l : List β) :
    readList read (Tree.array (l.map write)).outline = l.mapM fun b => read (write b).outline := by
  rw [Tree.outline, Tree.outlineItems_eq_map, readList, List.map_map, List.mapM_map]
  cases h : l.mapM (read ∘ (Tree.outline ∘ write)) with
  | error fault => exact h.symm
  | ok as => exact h.symm

end Json.Outline

open Json Decl

/- Writing -/

theorem whole_optional {key : String} {t : Option Tree} (h : ∀ t' ∈ t, t'.Whole) :
    ∀ kt ∈ optional key t, kt.2.Whole := by
  cases t with
  | none => simp [optional]
  | some t => simpa [optional] using h t rfl

theorem Decl.Generic.whole_toTree (g : Generic) : g.toTree.Whole := by
  refine .object ?_
  simp only [List.forall_mem_cons]
  exact ⟨.text _, .text _, by simp⟩

theorem Argument.whole_toTree (a : Argument) : a.toTree.Whole := by
  refine .object (List.forall_mem_append.mpr ⟨?_, whole_optional fun t ht => ?_⟩)
  · simp only [List.forall_mem_cons]
    exact ⟨.text _, .text _, by simp⟩
  · obtain ⟨g, -, rfl⟩ := Option.map_eq_some_iff.mp ht
    exact .text _

theorem Entry.whole_toTree (e : Entry) : e.toTree.Whole := by
  have id : (e.id.toNat : Int).natAbs < UInt64.size :=
    Nat.lt_trans e.id.toNat_lt (by decide)
  refine .object ?_
  simp only [List.forall_mem_append, List.forall_mem_cons]
  refine ⟨⟨⟨⟨.text _, .text _, .int id, .text _, by simp⟩, ?_⟩, .array fun t ht => ?_, by simp⟩,
    whole_optional fun t ht => ?_⟩
  · split
    · simp
    · simp only [List.forall_mem_cons]
      refine ⟨.array fun t ht => ?_, by simp⟩
      obtain ⟨g, -, rfl⟩ := List.mem_map.mp ht
      exact g.whole_toTree
  · obtain ⟨a, -, rfl⟩ := List.mem_map.mp ht
    exact a.whole_toTree
  · obtain ⟨c, -, rfl⟩ := Option.map_eq_some_iff.mp ht
    exact .text _

namespace Packed

theorem whole_toTree (p : Packed) : p.toTree.Whole := by
  have layer : p.layer.toInt.natAbs < UInt64.size := by
    have low := p.layer.le_toInt
    have high := p.layer.toInt_lt
    simp only [UInt64.size]
    omega
  have comments : (Tree.object (p.unionComments.map fun kv => (kv.1, .text kv.2))).Whole := by
    refine .object fun kt hm => ?_
    obtain ⟨kv, -, rfl⟩ := List.mem_map.mp hm
    exact .text _
  refine .object ?_
  simp only [List.forall_mem_cons]
  refine ⟨.int layer, .array fun t ht => ?_, comments, by simp⟩
  obtain ⟨e, -, rfl⟩ := List.mem_map.mp ht
  exact e.whole_toTree

end Packed

/- Reading -/

theorem keys_optional (key : String) (t : Option Tree) :
    ((optional key t).map (·.1)).Sublist [key] := by
  cases t with
  | none => exact List.nil_sublist _
  | some t => exact .refl _

theorem Decl.Generic.ofOutline_outline (g : Generic) : ofOutline g.toTree.outline = .ok g := by
  rw [ofOutline, toTree, Outline.readRecord_object]
  · rfl
  · decide
  · exact .refl _

theorem Decl.FlagBit.ofOutline_text {g : FlagBit} (h : g.Sound) :
    ofOutline (.text (some g.render)) = .ok g := by
  show Except.mapError _ (FlagBit.parse g.render) = .ok g
  rw [parse_render h]
  rfl

theorem Argument.ofOutline_outline {a : Argument} (h : ∀ g ∈ a.guard, g.Sound) :
    ofOutline a.toTree.outline
      = (Ty.ofOutline (.text (some a.type.render))).map fun type => { a with type } := by
  obtain ⟨name, type, guard⟩ := a
  rw [ofOutline, toTree, Outline.readRecord_object]
  · cases guard with
    | none =>
      simp only [optional, Option.map_none, List.append_nil, List.foldlM_cons, List.foldlM_nil,
        visit, Tree.outline]
      cases Ty.ofOutline (.text (some type.render)) with
      | error fault => rfl
      | ok type => rfl
    | some g =>
      simp only [optional, Option.map_some, List.cons_append, List.nil_append, List.foldlM_cons,
        List.foldlM_nil, visit, Tree.outline, Outline.readOption, FlagBit.ofOutline_text (h g rfl)]
      cases Ty.ofOutline (.text (some type.render)) with
      | error fault => rfl
      | ok type => rfl
  · decide
  · rw [List.map_append]
    exact List.Sublist.append (.refl _) (keys_optional "predicate" _)

theorem Kind.readWordOf_name (kind : Kind) :
    Outline.readWordOf Kind.ofName? (.text (some kind.name)) = .ok kind := by
  cases kind with
  | constructor => rfl
  | method => rfl

theorem Decl.Generic.readList_toTree (generics : List Generic) :
    Outline.readList ofOutline (Tree.array (generics.map (·.toTree))).outline = .ok generics := by
  rw [Outline.readList_array]
  exact mapM_eq_ok_self_iff.mpr fun g _ => ofOutline_outline g

namespace Entry

def visitAll (d : Draft) (members : List (String × Tree)) : Except Json.Fault Draft :=
  members.foldlM (fun d kt => visit kt.1 kt.2.outline d) d

theorem visitAll_append (d : Draft) (front back : List (String × Tree)) :
    visitAll d (front ++ back) = visitAll d front >>= fun d => visitAll d back :=
  List.foldlM_append

theorem visit_id (id : UInt32) (d : Draft) :
    visit "id" (.int id.toNat) d = .ok { d with id := some id } := by
  have below : (id.toNat : Int) < UInt32.size := Int.ofNat_lt.mpr id.toNat_lt
  rw [visit, Outline.readInt, if_pos ⟨Int.natCast_nonneg _, below⟩]
  have same : UInt32.ofNat (id.toNat : Int).toNat = id := UInt32.ofNat_toNat
  exact congrArg (fun id => Except.ok { d with id := some id }) same

theorem visitAll_front (kind : Kind) (name : String) (id : UInt32) (type : Ty) :
    visitAll {} [("kind", .text kind.name), ("name", .text name), ("id", .int id.toNat),
        ("type", .text type.render)]
      = (Ty.ofOutline (.text (some type.render))).map fun type =>
        { kind := some kind, name := some name, id := some id, type := some type } := by
  simp only [visitAll, List.foldlM_cons, List.foldlM_nil, Tree.outline, visit_id]
  simp only [visit, Kind.readWordOf_name, Outline.readString]
  cases Ty.ofOutline (.text (some type.render)) with
  | error fault => rfl
  | ok type => rfl

theorem visitAll_generics (generics : List Generic) (d : Draft) (h : d.generics = []) :
    visitAll d (if generics.isEmpty then []
      else [("generics", .array (generics.map (·.toTree)))]) = .ok { d with generics } := by
  cases generics with
  | nil =>
    obtain ⟨kind, name, id, type, generics, arguments, comment⟩ := d
    subst h
    rfl
  | cons g gs =>
    rw [if_neg (by simp), visitAll, List.foldlM_cons, visit, Generic.readList_toTree]
    rfl

theorem visitAll_arguments (arguments : List Argument) (d : Draft) :
    visitAll d [("arguments", .array (arguments.map (·.toTree)))]
      = (arguments.mapM fun a => Argument.ofOutline a.toTree.outline).map fun arguments =>
        { d with arguments := some arguments } := by
  rw [visitAll, List.foldlM_cons, visit, Outline.readList_array]
  cases arguments.mapM fun a => Argument.ofOutline a.toTree.outline with
  | error fault => rfl
  | ok arguments => rfl

theorem visitAll_comment (comment : Option String) (d : Draft) (h : d.comment = none) :
    visitAll d (optional "comment" (comment.map .text)) = .ok { d with comment } := by
  obtain ⟨kind, name, id, type, generics, arguments, comment'⟩ := d
  subst h
  cases comment with
  | none => rfl
  | some text => rfl

theorem ofOutline_outline (e : Entry) :
    ofOutline e.toTree.outline = (do
      let type ← Ty.ofOutline (.text (some e.type.render))
      let arguments ← e.arguments.mapM fun a => Argument.ofOutline a.toTree.outline
      return { e with type, arguments }) := by
  obtain ⟨kind, name, id, type, generics, arguments, comment⟩ := e
  rw [ofOutline, toTree, Outline.readRecord_object]
  · rw [← visitAll, visitAll_append, visitAll_append, visitAll_append, visitAll_front]
    cases Ty.ofOutline (.text (some type.render)) with
    | error fault => rfl
    | ok type =>
      simp only [Except.map, bind, Except.bind]
      rw [visitAll_generics _ _ rfl]
      dsimp only
      rw [visitAll_arguments]
      cases arguments.mapM fun a => Argument.ofOutline a.toTree.outline with
      | error fault => rfl
      | ok arguments =>
        simp only [Except.map]
        rw [visitAll_comment _ _ rfl]
        rfl
  · decide
  · have keys : ["kind", "name", "id", "type", "generics", "arguments", "comment"]
        = ["kind", "name", "id", "type"] ++ ["generics"] ++ ["arguments"] ++ ["comment"] := rfl
    rw [keys, List.map_append, List.map_append, List.map_append]
    refine ((List.Sublist.append (.refl _) ?_).append (.refl _)).append (keys_optional "comment" _)
    cases generics with
    | nil => exact List.nil_sublist ["generics"]
    | cons g gs => exact .refl _

end Entry

namespace Packed

theorem visit_layer (layer : Int32) (d : Draft) :
    visit "layer" (.int layer.toInt) d = .ok { d with layer := some layer } := by
  have low := layer.le_toInt
  have high := layer.toInt_lt
  rw [visit, Outline.readInt, if_pos ⟨by omega, by omega⟩]
  exact congrArg (fun layer => Except.ok { d with layer := some layer }) (Int32.ofInt_toInt layer)

theorem readPairs_text (comments : Dict String) :
    Outline.readPairs Outline.readString
        (Tree.object (comments.map fun kv => (kv.1, .text kv.2))).outline = .ok comments := by
  rw [Tree.outline, Tree.outlineMembers_eq_map, Outline.readPairs, List.map_map, List.mapM_map]
  exact except_bind_eq_ok.mpr ⟨comments, mapM_eq_ok_self_iff.mpr fun kv _ => rfl, rfl⟩

theorem ofOutline_outline (p : Packed) :
    ofOutline p.toTree.outline
      = (p.entries.mapM fun e => Entry.ofOutline e.toTree.outline).map fun entries =>
        ⟨p.layer, entries, Dict.ofList p.unionComments⟩ := by
  rw [ofOutline, toTree, Outline.readRecord_object]
  · have layer : (Tree.int p.layer.toInt).outline = .int p.layer.toInt := by rw [Tree.outline]
    simp only [List.foldlM_cons, List.foldlM_nil, layer, visit_layer]
    simp only [visit, Outline.readList_array, readPairs_text]
    cases p.entries.mapM fun e => Entry.ofOutline e.toTree.outline with
    | error fault => rfl
    | ok entries => rfl
  · decide
  · exact .refl _

theorem parse_render (p : Packed) : parse p.render = ofOutline p.toTree.outline := by
  rw [parse, render, read_pretty p.whole_toTree]
  cases ofOutline p.toTree.outline with
  | error fault => rfl
  | ok p => rfl

end Packed

end TypeLang
