import TypeLang.Proofs.Schema.Clash

namespace TypeLang

/-- Of each class of members, the first one: they keep their order. By induction on the last member,
which is the first of its class or comes too late. -/
theorem filterMap_find?_sublist {α κ : Type} [BEq κ] [LawfulBEq κ] [DecidableEq κ]
    (f : α → Option κ) (l : List α) :
    ((l.filterMap f).eraseDups.filterMap fun k => l.find? (f · = some k)).Sublist l := by
  induction l using List.reverseRecOn with
  | nil => exact .slnil
  | append_singleton l a ih =>
    have seen : ∀ k ∈ (l.filterMap f).eraseDups,
        (l ++ [a]).find? (f · = some k) = l.find? (f · = some k) := by
      intro k hk
      obtain ⟨b, hb, hf⟩ := List.mem_filterMap.mp (List.mem_eraseDups.mp hk)
      rw [List.find?_append, Option.or_of_isSome]
      rw [List.find?_isSome]
      exact ⟨b, hb, by simpa using hf⟩
    rw [← List.filterMap_congr seen] at ih
    rw [List.filterMap_append]
    cases ha : f a with
    | none =>
      rw [List.filterMap_cons_none ha, List.filterMap_nil, List.append_nil]
      exact ih.trans (List.sublist_append_left l [a])
    | some k =>
      rw [List.filterMap_cons_some ha, List.filterMap_nil, eraseDups_append_singleton]
      split
      · exact ih.trans (List.sublist_append_left l [a])
      · next new =>
        have none : l.find? (f · = some k) = none := by
          rw [List.find?_eq_none]
          intro b hb hf
          exact new (List.mem_filterMap.mpr ⟨b, hb, by simpa using hf⟩)
        have last : (l ++ [a]).find? (f · = some k) = some a := by
          rw [List.find?_append, none]
          simp [ha]
        simp only [List.filterMap_append, List.filterMap_cons, last, List.filterMap_nil]
        exact ih.append (List.Sublist.refl [a])

namespace Schema

structure Exact (entries : List Entry) (comments : Dict String) (s : Schema) : Prop where
  holds : s.entries = entries
  indexed : s.toTables.Indexed
  byId (id : UInt32) (e : Entry) : s.entryById? id = some e ↔ e ∈ entries ∧ e.id = id
  byName (kind : Kind) (name : String) (e : Entry) :
    s.find? kind name = some e ↔ e ∈ entries ∧ e.kind = kind ∧ e.name = name
  union (name : String) (u : Union) : s.union? name = some u ↔ u ∈ s.unions ∧ u.name = name
  /-- A constructor is a member of one union, which has the name of its type. -/
  home : ∀ e ∈ entries, e.kind = .constructor → ∃ u ∈ s.unions, e.unionName? = some u.name ∧
    ∀ v ∈ s.unions, e.name ∈ v.members ↔ v = u
  methods : ∀ e ∈ entries, e.kind = .method → ∀ name, e ∉ s.unionMembers name
  nonempty : ∀ u ∈ s.unions, u.members ≠ []
  members : ∀ u ∈ s.unions, u.members = (s.unionMembers u.name).map (·.name) ∧
    s.unionMembers u.name = entries.filter (·.unionName? = some u.name)
  /-- The first members of the unions stand in the order of the constructors. -/
  ordered : (s.unions.filterMap (·.members.head?)).Sublist
    ((entries.filter (·.kind = .constructor)).map (·.name))
  comment : ∀ u ∈ s.unions, u.comment = comments.get? u.name

variable {entries : List Entry} {comments : Dict String} {s : Schema}

theorem entryById?_eq_some_iff {id : UInt32} {e : Entry} :
    s.entryById? id = some e ↔ e ∈ s.entries ∧ e.id = id := by
  rw [Tables.entryById?, s.indexed.byId.bind_eq_some_iff, Option.some.injEq]

theorem members_ne_nil {u : Union} (hu : u ∈ s.unions) : u.members ≠ [] := by
  obtain ⟨e, he, hn⟩ := (exists_unionName?_iff s u.name).mpr (List.mem_map_of_mem hu)
  exact List.ne_nil_of_mem ((mem_members_iff hu).mpr ⟨e, he, hn, rfl⟩)

theorem unionMembers_of_mem_unions {u : Union} (hu : u ∈ s.unions) :
    s.unionMembers u.name = s.entries.filter (·.unionName? = some u.name) := by
  have found : ∀ e ∈ s.entries.filter (·.unionName? = some u.name),
      s.find? .constructor e.name = some e := by
    intro e he
    obtain ⟨hm, hn⟩ := List.mem_filter.mp he
    rw [find?_eq_some_iff]
    exact ⟨hm, by rw [Entry.key, Entry.kind_of_unionName? (by simpa using hn)]⟩
  rw [unionMembers, union?_eq_some_iff.mpr ⟨hu, rfl⟩]
  dsimp only
  rw [members_of_mem_unions hu, membersOf, List.filterMap_map]
  exact (List.filterMap_congr found).trans List.filterMap_some

theorem kind_of_mem_unionMembers {name : String} {e : Entry} (he : e ∈ s.unionMembers name) :
    e.kind = .constructor := by
  cases hu : s.union? name with
  | none =>
    rw [unionMembers, hu] at he
    cases he
  | some u =>
    obtain ⟨hm, rfl⟩ := union?_eq_some_iff.mp hu
    rw [unionMembers_of_mem_unions hm] at he
    exact Entry.kind_of_unionName? (by simpa using (List.mem_filter.mp he).2)

theorem exists_unionName? {e : Entry} (h : e.kind = .constructor) :
    ∃ name, e.unionName? = some name := by
  rw [Entry.unionName?, h]
  cases e.type <;> exact ⟨_, rfl⟩

theorem exists_home {e : Entry} (he : e ∈ s.entries) (hk : e.kind = .constructor) :
    ∃ u ∈ s.unions, e.unionName? = some u.name ∧
      ∀ v ∈ s.unions, e.name ∈ v.members ↔ v = u := by
  obtain ⟨name, hn⟩ := exists_unionName? hk
  obtain ⟨u, hu, rfl⟩ := List.mem_map.mp ((exists_unionName?_iff s name).mp ⟨e, he, hn⟩)
  refine ⟨u, hu, hn, fun v hv => ?_⟩
  rw [mem_members_iff hv]
  constructor
  · rintro ⟨f, hf, hfv, hname⟩
    have same : f = e := by
      refine List.inj_on_of_nodup_map (keys_nodup s) hf he ?_
      rw [Entry.key, Entry.key, Entry.kind_of_unionName? hfv, hk, hname]
    rw [same, hn] at hfv
    exact union_unique hv hu (Option.some.inj hfv).symm
  · rintro rfl
    exact ⟨e, he, hn, rfl⟩

theorem heads_sublist (s : Schema) :
    (s.unions.filterMap (·.members.head?)).Sublist
      ((s.entries.filter (·.kind = .constructor)).map (·.name)) := by
  have heads : s.unions.filterMap (·.members.head?) =
      ((s.entries.filterMap Entry.unionName?).eraseDups.filterMap
        fun name => s.entries.find? (·.unionName? = some name)).map (·.name) := by
    rw [← s.indexed.unions.names, List.filterMap_map, List.map_filterMap]
    refine List.filterMap_congr fun u hu => ?_
    rw [members_of_mem_unions hu]
    simp [membersOf]
  rw [heads]
  refine List.Sublist.map _ ?_
  have constructors : ((s.entries.filterMap Entry.unionName?).eraseDups.filterMap
      fun name => s.entries.find? (·.unionName? = some name)).filter (·.kind = .constructor) =
        (s.entries.filterMap Entry.unionName?).eraseDups.filterMap
          fun name => s.entries.find? (·.unionName? = some name) := by
    refine List.filter_eq_self.mpr fun e he => ?_
    obtain ⟨name, -, hf⟩ := List.mem_filterMap.mp he
    simpa using Entry.kind_of_unionName? (by simpa using List.find?_some hf)
  rw [← constructors]
  exact (filterMap_find?_sublist Entry.unionName? s.entries).filter _

theorem exact_of_ofEntries (h : ofEntries entries comments = .ok s) : Exact entries comments s := by
  obtain rfl := entries_eq h
  refine ⟨rfl, s.indexed, fun _ _ => entryById?_eq_some_iff, fun kind name e => ?_,
    fun _ _ => union?_eq_some_iff, fun _ => exists_home, ?_, fun _ => members_ne_nil, ?_,
    heads_sublist s, fun _ => comment_of_mem_unions h⟩
  · rw [find?_eq_some_iff, Entry.key, Prod.mk.injEq]
  · intro e _ hk name hm
    rw [kind_of_mem_unionMembers hm] at hk
    cases hk
  · intro u hu
    rw [unionMembers_of_mem_unions hu]
    exact ⟨members_of_mem_unions hu, rfl⟩

/-- Entries make a schema just if their ids and names are distinct and their guards are sound.
Others are refused for the first one that clashes with itself or with those before it. What is
asked of a schema is answered from its entries. -/
theorem ofEntries_exact (entries : List Entry) (comments : Dict String) :
    ((∃ s, ofEntries entries comments = .ok s) ↔ Sound entries) ∧
      (∀ fault, ofEntries entries comments = .error fault ↔
        ∃ before e behind, entries = before ++ e :: behind ∧ Sound before ∧
          e.Clash before fault) ∧
      ∀ s, ofEntries entries comments = .ok s → Exact entries comments s :=
  ⟨exists_ofEntries_iff_sound comments, fun _ => ofEntries_eq_error_iff,
    fun _ => exact_of_ofEntries⟩

def garden : List Entry := [
  ⟨.constructor, "oak", 1, .named "Tree" false, [], [], none⟩,
  ⟨.constructor, "stone", 2, .named "Stone" false, [], [], some "does not grow"⟩,
  ⟨.method, "oak", 3, .named "Tree" false, [], [⟨"age", .int, none⟩], none⟩,
  ⟨.constructor, "elm", 4, .named "Tree" true, [],
    [⟨"flags", .flags, none⟩, ⟨"height", .int, some ⟨"flags", 31⟩⟩], none⟩]

theorem ofEntries_exact_garden : ∃ s, ofEntries garden [("Tree", "grows")] = .ok s ∧
    s.unions = [⟨"Tree", ["oak", "elm"], some "grows"⟩, ⟨"Stone", ["stone"], none⟩] ∧
    Exact garden [("Tree", "grows")] s :=
  ⟨_, rfl, rfl, (ofEntries_exact garden [("Tree", "grows")]).2.2 _ rfl⟩

/-- A second entry with the id of the first is refused, and so is whatever follows it. -/
example : ofEntries (garden ++ [⟨.method, "elm", 2, .int, [], [], none⟩]) [] =
    .error (.duplicateId 2 "stone" "elm") := rfl

end Schema

end TypeLang
