import TypeLang.Proofs.Schema.Lookups

namespace TypeLang

namespace Schema

variable {entries : List Entry} {comments : Dict String} {s : Schema} {name : String}

theorem sorted_unionComments (s : Schema) : s.unionComments.Sorted := Dict.sorted_ofList _

theorem get?_unionComments_of_not_mem (h : name ∉ s.unions.map (·.name)) :
    s.unionComments.get? name = none := by
  refine Dict.get?_ofList_of_not_mem fun hm => h ?_
  obtain ⟨kv, hkv, rfl⟩ := List.mem_map.mp hm
  obtain ⟨u, hu, hc⟩ := List.mem_filterMap.mp hkv
  obtain ⟨comment, -, rfl⟩ := Option.map_eq_some_iff.mp hc
  exact List.mem_map_of_mem hu

theorem get?_unionComments_eq (h : ofEntries entries comments = .ok s) (name : String) :
    s.unionComments.get? name
      = if name ∈ s.unions.map (·.name) then comments.get? name else none := by
  split
  · next hm =>
    obtain ⟨u, hu, rfl⟩ := List.mem_map.mp hm
    rw [get?_unionComments hu, comment_of_mem_unions h hu]
  · next hm => exact get?_unionComments_of_not_mem hm

section

variable {s' : Schema}

/- Whatever its indexes are like, a schema answers from its entries and unions. -/

theorem entryById?_congr (entries : s.entries = s'.entries) (id : UInt32) :
    s.entryById? id = s'.entryById? id := by
  refine Option.ext fun e => ?_
  rw [entryById?_eq_some_iff, entryById?_eq_some_iff, entries]

theorem find?_congr (entries : s.entries = s'.entries) (kind : Kind) (name : String) :
    s.find? kind name = s'.find? kind name := by
  refine Option.ext fun e => ?_
  rw [find?_eq_some_iff, find?_eq_some_iff, entries]

theorem union?_congr (unions : s.unions = s'.unions) (name : String) :
    s.union? name = s'.union? name := by
  refine Option.ext fun u => ?_
  rw [union?_eq_some_iff, union?_eq_some_iff, unions]

end

end Schema

namespace Packed

theorem unpack_eq_ok_iff {p : Packed} {l : Layered} :
    p.unpack = .ok l ↔ l.layer = p.layer ∧
      Schema.ofEntries p.entries p.unionComments = .ok l.schema := by
  rw [unpack, except_bind_eq_ok]
  constructor
  · rintro ⟨s, hs, he⟩
    cases he
    exact ⟨rfl, hs⟩
  · rintro ⟨layer, hs⟩
    exact ⟨l.schema, hs, by rw [← layer]; rfl⟩

/-- What a schema comes to that is packed and unpacked: the same entries and unions, found as before
by the indexes that have been built again. -/
structure Restores (s : Schema) (layer : Int32) (l : Layered) : Prop where
  layer : l.layer = layer
  entries : l.schema.entries = s.entries
  unions : l.schema.unions = s.unions
  byId : ∀ id, l.schema.entryById? id = s.entryById? id
  byName : ∀ kind name, l.schema.find? kind name = s.find? kind name
  union : ∀ name, l.schema.union? name = s.union? name
  exact : Schema.Exact s.entries s.unionComments l.schema

/-- What a packed schema comes to that is unpacked and packed again. -/
structure Repacks (p : Packed) (l : Layered) : Prop where
  layer : (pack l).layer = p.layer
  entries : (pack l).entries = p.entries
  comment : ∀ name, (pack l).unionComments.get? name
    = if name ∈ l.schema.unions.map (·.name) then p.unionComments.get? name else none
  comments : p.unionComments.Sorted → (pack l).unionComments
    = p.unionComments.filter fun kv => kv.1 ∈ l.schema.unions.map (·.name)

/-- The indexes of the schema need not have been filled in the order in which they are filled
again: that both hang together with the same entries is enough. -/
theorem restores_of_unpack {s : Schema} {layer : Int32} {l : Layered}
    (h : (pack ⟨layer, s⟩).unpack = .ok l) : Restores s layer l := by
  obtain ⟨same, hs⟩ := unpack_eq_ok_iff.mp h
  have entries : l.schema.entries = s.entries := Schema.entries_eq hs
  have unions : l.schema.unions = s.unions := by
    rw [Schema.unions_eq hs, entries]
    exact (Schema.unions_eq_of_comments fun _ hu => (Schema.get?_unionComments hu).symm).symm
  exact ⟨same, entries, unions, Schema.entryById?_congr entries, Schema.find?_congr entries,
    Schema.union?_congr unions, Schema.exact_of_ofEntries hs⟩

theorem exists_restores {s : Schema} (h : s.Obtained) (layer : Int32) :
    ∃ l, (pack ⟨layer, s⟩).unpack = .ok l ∧ Restores s layer l := by
  obtain ⟨entries, comments, hs⟩ := h.exists_entries
  have again : (pack ⟨layer, s⟩).unpack = .ok ⟨layer, s⟩ :=
    unpack_eq_ok_iff.mpr ⟨rfl, Schema.ofEntries_unionComments hs⟩
  exact ⟨_, again, restores_of_unpack again⟩

theorem repacks_of_unpack {p : Packed} {l : Layered} (h : p.unpack = .ok l) : p.Repacks l := by
  obtain ⟨layer, hs⟩ := unpack_eq_ok_iff.mp h
  have comment := Schema.get?_unionComments_eq hs
  refine ⟨layer, Schema.entries_eq hs, comment, fun sorted => ?_⟩
  refine (Schema.sorted_unionComments l.schema).ext (sorted.filter _) fun name => ?_
  rw [comment, Dict.get?_filter fun name => name ∈ l.schema.unions.map (·.name)]
  simp only [decide_eq_true_eq]

/-- Unpacking undoes packing, whatever schema is packed. A packed schema that has been unpacked is
packed as it was, but for comments that are about none of the unions. -/
theorem pack_exact :
    (∀ s : Schema, s.Obtained → ∀ layer, ∃ l, (pack ⟨layer, s⟩).unpack = .ok l ∧
      Restores s layer l) ∧
      ∀ (p : Packed) (l : Layered), p.unpack = .ok l → p.Repacks l :=
  ⟨fun _ => exists_restores, fun _ _ => repacks_of_unpack⟩

def packedGarden : Packed := ⟨3, Schema.garden, [("Cloud", "drifts"), ("Tree", "grows")]⟩

theorem pack_exact_packedGarden : ∃ l, packedGarden.unpack = .ok l ∧
    (pack l).unionComments = [("Tree", "grows")] ∧ packedGarden.Repacks l ∧
    ∃ l', (pack ⟨l.layer, l.schema⟩).unpack = .ok l' ∧ Restores l.schema l.layer l' := by
  have h : packedGarden.unpack =
      .ok ⟨3, .of Schema.garden [("Cloud", "drifts"), ("Tree", "grows")] rfl⟩ := rfl
  exact ⟨_, h, rfl, pack_exact.2 _ _ h, pack_exact.1 _ (.packed h) 3⟩

end Packed

end TypeLang
