import TypeLang.Proofs.Merge.Outcome

namespace TypeLang.Merge

def agreed (sources : List Layered) : List Entry :=
  (keys sources).filterMap fun key => common? (definitions sources key)

def strictly (sources : List Layered) : Except MergeFault Merged :=
  (merge sources Resolver.strict ()).1

section

variable {sources : List Layered}

theorem disputes_eq_nil_iff :
    disputes sources = [] ↔ ∀ key ∈ keys sources, Agree (definitions sources key) := by
  rw [disputes, List.filterMap_eq_nil_iff]
  exact forall₂_congr fun key _ => dispute?_eq_none_iff

theorem chosen_eq_agreed (h : disputes sources = []) (answers : List Resolution) :
    chosen sources answers = agreed sources := by
  refine List.filterMap_congr fun key hk => ?_
  exact choice_of_agree (dispute?_eq_none_iff.mpr (disputes_eq_nil_iff.mp h key hk)) _

theorem strictly_of_agree (h : disputes sources = []) :
    strictly sources = assemble sources [] := by
  rcases merge_cases sources Resolver.strict () with ⟨answers, after, -, hm⟩ | ⟨c, hc, -⟩
  · rw [strictly, hm, assemble, assemble, chosen_eq_agreed h, chosen_eq_agreed h]
  · obtain ⟨before, later, answers, hd, -⟩ := hc
    rw [h] at hd
    cases before with
    | nil => cases hd
    | cons b before => cases hd

theorem strictly_of_dispute (h : disputes sources ≠ []) :
    ∃ kind name part, strictly sources = .error (.conflict kind name part) := by
  rcases merge_cases sources Resolver.strict () with ⟨answers, after, asked, -⟩ | ⟨c, -, hc⟩
  · obtain ⟨c, cs, hd⟩ := List.exists_cons_of_ne_nil h
    rw [hd, mapM_cons_eq] at asked
    cases answers with
    | nil => cases asked
    | cons r answers => cases asked
  · exact ⟨_, _, _, hc⟩

theorem strictly_eq_ok_iff {m : Merged} : strictly sources = .ok m ↔
    disputes sources = [] ∧
      Schema.ofEntries (agreed sources) (unionComments sources) = .ok m.schema ∧
      m.layer = highest (sources.map (·.layer)) ∧ m.conflicts = [] := by
  by_cases h : disputes sources = []
  · rw [strictly_of_agree h, assemble, chosen_eq_agreed h, h, except_map_eq_ok]
    simp only [except_mapError_eq_ok, true_and]
    obtain ⟨layer, schema, conflicts⟩ := m
    simp only [Merged.mk.injEq]
    constructor
    · rintro ⟨s, hs, rfl, rfl, rfl⟩
      exact ⟨hs, rfl, rfl⟩
    · rintro ⟨hs, rfl, rfl⟩
      exact ⟨schema, hs, rfl, rfl, rfl⟩
  · obtain ⟨kind, name, part, hs⟩ := strictly_of_dispute h
    simp [hs, h]

theorem mem_keys {key : Kind × String} :
    key ∈ keys sources ↔ ∃ s ∈ sources, ∃ e ∈ s.schema.entries, e.key = key := by
  simp only [keys, List.mem_eraseDups, List.mem_flatMap, List.mem_map, Entry.key]

theorem mem_keys_of_common? {key : Kind × String} {e : Entry}
    (h : common? (definitions sources key) = some e) : key ∈ keys sources ∧ e.key = key := by
  obtain ⟨d, hd, he⟩ := exists_of_common? h
  obtain ⟨s, hs, hf⟩ := find?_of_mem_definitions hd
  have hk : e.key = key := by rw [← e.key_plain, he, d.key_plain, key_of_find? hf]
  exact ⟨mem_keys.mpr ⟨s, hs, d, (Schema.mem_of_find? hf).1, key_of_find? hf⟩, hk⟩

theorem find?_of_agreed {s : Schema} {comments : Dict String}
    (h : Schema.ofEntries (agreed sources) comments = .ok s) (key : Kind × String) :
    s.find? key.1 key.2 = common? (definitions sources key) := by
  ext e
  rw [Schema.find?_eq_some_iff, Schema.entries_eq h]
  constructor
  · rintro ⟨hm, hk⟩
    obtain ⟨key', -, he⟩ := List.mem_filterMap.mp hm
    obtain rfl : key' = key := (mem_keys_of_common? he).2.symm.trans hk
    exact he
  · intro he
    obtain ⟨hk, hn⟩ := mem_keys_of_common? he
    exact ⟨List.mem_filterMap.mpr ⟨key, hk, he⟩, hn⟩

theorem exists_common? {key : Kind × String} (h : key ∈ keys sources) :
    ∃ e, common? (definitions sources key) = some e := by
  obtain ⟨s, hs, e, he, rfl⟩ := mem_keys.mp h
  have found : s.schema.find? e.kind e.name ≠ none := by
    intro hf
    exact Schema.ne_of_find? hf e he rfl rfl
  have some : definitions sources e.key ≠ [] := fun hd => found (newest_eq_nil_iff.mp hd s hs)
  obtain ⟨d, ds, hd⟩ := List.exists_cons_of_ne_nil some
  rw [hd]
  exact ⟨_, rfl⟩

theorem keys_agreed : (agreed sources).map Entry.key = keys sources := by
  rw [agreed, List.map_filterMap]
  have same : ∀ key ∈ keys sources,
      (common? (definitions sources key)).map Entry.key = some key := by
    intro key hk
    obtain ⟨e, he⟩ := exists_common? hk
    rw [he, Option.map_some, (mem_keys_of_common? he).2]
  rw [List.filterMap_congr same, List.filterMap_some]

end

/- The comments of unions. -/

theorem get?_fill (d : Dict String) (comments : Dict String) (name : String) :
    Dict.get? (d.foldl (fun comments kv =>
      if (comments.get? kv.1).isSome then comments else Dict.insert kv.1 kv.2 comments)
      comments) name = (comments.get? name).or (d.get? name) := by
  induction d generalizing comments with
  | nil => simp
  | cons kv d ih =>
    obtain ⟨n, c⟩ := kv
    rw [List.foldl_cons, ih, Dict.get?_cons]
    by_cases hn : n = name
    · subst hn
      cases hc : comments.get? n with
      | none => simp
      | some c' => simp [hc]
    · rw [if_neg hn]
      split
      · rfl
      · rw [Dict.get?_insert_of_ne (Ne.symm hn)]

theorem get?_fillAll (sources : List Layered) (comments : Dict String) (name : String) :
    Dict.get? (sources.foldl (fun comments s => s.schema.unionComments.foldl (fun comments kv =>
      if (comments.get? kv.1).isSome then comments else Dict.insert kv.1 kv.2 comments)
      comments) comments) name =
      (comments.get? name).or (sources.findSome? (·.schema.unionComments.get? name)) := by
  induction sources generalizing comments with
  | nil => simp
  | cons s sources ih =>
    rw [List.foldl_cons, ih, get?_fill, Option.or_assoc, List.findSome?_cons]
    cases Dict.get? s.schema.unionComments name with
    | none => rfl
    | some c => rfl

theorem get?_unionComments (sources : List Layered) (name : String) :
    (unionComments sources).get? name =
      (newest (·.schema.unionComments.get? name) sources).head? := by
  rw [← findSome?_mergeSort]
  exact (get?_fillAll _ [] name).trans Option.none_or

/- The result among the sources. -/

theorem plain_eq_of_common? {ds : List Entry} {e : Entry} (agree : Agree ds)
    (he : common? ds = some e) : ∀ d ∈ ds, d.plain = e.plain := by
  intro d hd
  obtain ⟨d', hd', h⟩ := exists_of_common? he
  rw [h, agree d hd d' hd']

theorem findSome?_comment_insert {ds k₁ k₂ : List Entry} {e : Entry} (he : common? ds = some e)
    (hk : k₁ ++ k₂ = [] ∨ ds = k₁ ++ k₂) :
    (k₁ ++ e :: k₂).findSome? (·.comment) = e.comment := by
  rw [List.findSome?_append, List.findSome?_cons]
  rcases hk with hk | rfl
  · obtain ⟨rfl, rfl⟩ := List.append_eq_nil_iff.mp hk
    cases e.comment with
    | none => rfl
    | some c => rfl
  · obtain ⟨d, -, rfl⟩ := Option.map_eq_some_iff.mp he
    dsimp only
    rw [List.findSome?_append]
    cases k₁.findSome? (·.comment) with
    | some c => rfl
    | none =>
      cases k₂.findSome? (·.comment) with
      | none => rfl
      | some c => rfl

theorem common?_eq_some {ds : List Entry} {e : Entry} (some : ds ≠ [])
    (all : ∀ d ∈ ds, d.plain = e.plain) (comment : ds.findSome? (·.comment) = e.comment) :
    common? ds = .some e := by
  obtain ⟨d, ds, rfl⟩ := List.exists_cons_of_ne_nil some
  have same : { d with comment := e.comment } = e :=
    congrArg (fun x : Entry => { x with comment := e.comment }) (all d List.mem_cons_self)
  rw [common?, comment, List.head?_cons, Option.map_some, same]

theorem agree_insert {ds k₁ k₂ : List Entry} {e : Entry} (agree : Agree ds)
    (he : common? ds = some e) (hk : k₁ ++ k₂ = [] ∨ ds = k₁ ++ k₂) :
    Agree (k₁ ++ e :: k₂) ∧ common? (k₁ ++ e :: k₂) = some e := by
  have others : ∀ d ∈ k₁ ++ k₂, d.plain = e.plain := by
    rcases hk with hk | rfl
    · simp [hk]
    · exact plain_eq_of_common? agree he
  have all : ∀ d ∈ k₁ ++ e :: k₂, d.plain = e.plain := by
    intro d hd
    rcases List.mem_append.mp hd with hd | hd
    · exact others d (List.mem_append_left k₂ hd)
    · rcases List.mem_cons.mp hd with rfl | hd
      · rfl
      · exact others d (List.mem_append_right k₁ hd)
  refine ⟨fun a ha b hb => (all a ha).trans (all b hb).symm, ?_⟩
  exact common?_eq_some (by simp) all (findSome?_comment_insert he hk)

theorem eraseDups_insert {α : Type} [BEq α] [LawfulBEq α] (a b : List α) :
    (a ++ ((a ++ b).eraseDups ++ b)).eraseDups = (a ++ b).eraseDups := by
  have old : a.eraseDups.removeAll a = [] := by simp [List.removeAll]
  have new : (b.removeAll a).eraseDups.removeAll a = (b.removeAll a).eraseDups := by
    rw [List.removeAll, List.filter_eq_self]
    intro x hx
    exact (List.mem_filter.mp (List.mem_eraseDups.mp hx)).2
  have twice : (b.removeAll a).removeAll (b.removeAll a).eraseDups = [] := by
    rw [List.removeAll, List.filter_eq_nil_iff]
    intro x hx
    simpa using hx
  calc
    (a ++ ((a ++ b).eraseDups ++ b)).eraseDups =
        a.eraseDups ++ ((a.eraseDups ++ (b.removeAll a).eraseDups ++ b).removeAll a).eraseDups := by
      rw [List.eraseDups_append, List.eraseDups_append]
    _ = a.eraseDups ++ ((b.removeAll a).eraseDups ++ b.removeAll a).eraseDups := by
      rw [List.removeAll, List.filter_append, List.filter_append, ← List.removeAll,
        ← List.removeAll, ← List.removeAll, old, new, List.nil_append]
    _ = a.eraseDups ++ (b.removeAll a).eraseDups := by
      rw [List.eraseDups_append, twice, List.eraseDups_nil, List.append_nil,
        eraseDups_of_nodup (nodup_eraseDups _)]
    _ = (a ++ b).eraseDups := List.eraseDups_append.symm

theorem keys_insert {l₁ l₂ : List Layered} {s : Layered}
    (h : s.schema.entries.map Entry.key = keys (l₁ ++ l₂)) :
    keys (l₁ ++ s :: l₂) = keys (l₁ ++ l₂) := by
  have h' : (s.schema.entries.map fun e => (e.kind, e.name)) = keys (l₁ ++ l₂) := h
  rw [keys, List.flatMap_append, List.flatMap_cons, h', keys, List.flatMap_append,
    eraseDups_insert]

theorem highest_insert (l₁ l₂ : List Layered) {s : Layered}
    (top : ∀ t ∈ l₁ ++ l₂, t.layer ≤ s.layer) :
    s.layer = highest ((l₁ ++ s :: l₂).map (·.layer)) := by
  have found : s.layer ∈ (l₁ ++ s :: l₂).map (·.layer) := List.mem_map_of_mem (by simp)
  have highest : IsHighest ((l₁ ++ s :: l₂).map (·.layer)) s.layer :=
    ⟨List.forall_mem_map.mpr (layer_le_of_insert top), .inl found⟩
  exact highest.unique (isHighest_highest _) fun _ => Iff.rfl

theorem strictly_insert (l₁ l₂ : List Layered) {m : Merged}
    (h : strictly (l₁ ++ l₂) = .ok m) : strictly (l₁ ++ ⟨m.layer, m.schema⟩ :: l₂) = .ok m := by
  obtain ⟨hd, hs, hl, hc⟩ := strictly_eq_ok_iff.mp h
  have highest' := isHighest_highest ((l₁ ++ l₂).map (·.layer))
  rw [← hl] at highest'
  have top : ∀ t ∈ l₁ ++ l₂, t.layer ≤ m.layer :=
    fun t ht => highest'.1 _ (List.mem_map_of_mem ht)
  have hk : keys (l₁ ++ ⟨m.layer, m.schema⟩ :: l₂) = keys (l₁ ++ l₂) :=
    keys_insert (by rw [Schema.entries_eq hs, keys_agreed])
  have same : ∀ key ∈ keys (l₁ ++ l₂),
      Agree (definitions (l₁ ++ ⟨m.layer, m.schema⟩ :: l₂) key) ∧
        common? (definitions (l₁ ++ ⟨m.layer, m.schema⟩ :: l₂) key) =
          common? (definitions (l₁ ++ l₂) key) := by
    intro key hkey
    have agree := disputes_eq_nil_iff.mp hd key hkey
    obtain ⟨e, he⟩ := exists_common? hkey
    obtain ⟨k₁, k₂, hdef, hold⟩ := newest_insert_of_some (s := ⟨m.layer, m.schema⟩)
      (f := (·.schema.find? key.1 key.2)) ((find?_of_agreed hs key).trans he) top
    rw [definitions, hdef, he]
    exact agree_insert agree he hold
  refine strictly_eq_ok_iff.mpr ⟨?_, ?_, highest_insert l₁ l₂ (s := ⟨m.layer, m.schema⟩) top, hc⟩
  · rw [disputes_eq_nil_iff, hk]
    exact fun key hkey => (same key hkey).1
  · have entries : agreed (l₁ ++ ⟨m.layer, m.schema⟩ :: l₂) = m.schema.entries := by
      rw [Schema.entries_eq hs, agreed, hk]
      exact List.filterMap_congr fun key hkey => (same key hkey).2
    rw [entries]
    refine Schema.ofEntries_of_comments hs fun u hu => ?_
    have comment : m.schema.unionComments.get? u.name = (unionComments (l₁ ++ l₂)).get? u.name := by
      rw [Schema.get?_unionComments hu, ((Schema.mem_unions_iff hs).mp hu).2]
      rfl
    rw [get?_unionComments] at comment ⊢
    rw [head?_newest_insert comment top, ← comment, Schema.get?_unionComments hu]

theorem definitions_singleton (s : Layered) (key : Kind × String) :
    common? (definitions [s] key) = s.schema.find? key.1 key.2 ∧ Agree (definitions [s] key) := by
  rw [definitions, newest_singleton]
  cases s.schema.find? key.1 key.2 with
  | none => exact ⟨rfl, by simp [Agree]⟩
  | some e =>
    have comment : [e].findSome? (·.comment) = e.comment := by
      cases hc : e.comment with
      | none => simp [hc]
      | some c => simp [hc]
    exact ⟨by rw [Option.toList, common?, comment]; rfl, by simp [Agree]⟩

theorem strictly_singleton {s : Layered} (h : s.schema.Obtained) :
    strictly [s] = .ok ⟨s.layer, s.schema, []⟩ := by
  obtain ⟨entries, comments, hs⟩ := h.exists_entries
  refine strictly_eq_ok_iff.mpr ⟨?_, ?_, highest_insert [] [] (by simp), rfl⟩
  · exact disputes_eq_nil_iff.mpr fun key _ => (definitions_singleton s key).2
  · have keys_eq : keys [s] = s.schema.entries.map Entry.key := by
      rw [keys, List.flatMap_singleton]
      exact eraseDups_of_nodup (Schema.keys_nodup _)
    have found : ∀ e ∈ s.schema.entries, s.schema.find? e.key.1 e.key.2 = some e :=
      fun e he => Schema.find?_eq_some_iff.mpr ⟨he, rfl⟩
    have entries_eq : agreed [s] = s.schema.entries := by
      simp only [agreed, keys_eq, definitions_singleton, List.filterMap_map]
      exact (List.filterMap_congr found).trans List.filterMap_some
    rw [entries_eq]
    refine Schema.ofEntries_of_comments hs fun u hu => ?_
    rw [get?_unionComments, newest_singleton, Schema.get?_unionComments hu]
    cases u.comment with
    | none => rfl
    | some c => rfl

theorem strictly_replicate {s : Layered} (h : s.schema.Obtained) (n : Nat) :
    strictly (List.replicate (n + 1) s) = .ok ⟨s.layer, s.schema, []⟩ := by
  induction n with
  | zero => exact strictly_singleton h
  | succ n ih => exact strictly_insert [] _ ih

/-- A merge that leaves every conflict open absorbs its own result: put behind its sources or in
front of them, this changes nothing. Any number of copies of a source come to the source. -/
theorem strictly_absorbs :
    (∀ sources m, strictly sources = .ok m →
      strictly (sources ++ [⟨m.layer, m.schema⟩]) = .ok m ∧
        strictly (⟨m.layer, m.schema⟩ :: sources) = .ok m ∧ m.conflicts = []) ∧
      ∀ s : Layered, s.schema.Obtained → ∀ n, 0 < n →
        strictly (List.replicate n s) = .ok ⟨s.layer, s.schema, []⟩ := by
  refine ⟨fun sources m h => ⟨?_, ?_, ?_⟩, ?_⟩
  · exact strictly_insert sources [] (by rwa [List.append_nil])
  · exact strictly_insert [] sources h
  · exact (strictly_eq_ok_iff.mp h).2.2.2
  · intro s hs n hn
    obtain ⟨n, rfl⟩ := Nat.exists_eq_succ_of_ne_zero (Nat.ne_of_gt hn)
    exact strictly_replicate hs n

theorem strictly_absorbs_joint : ∃ m,
    strictly [older, newer] = .ok m ∧ m.schema.entries = [rod, joint 3, disc none] ∧
      strictly [older, newer, ⟨m.layer, m.schema⟩] = .ok m ∧
      strictly [⟨m.layer, m.schema⟩, older, newer] = .ok m ∧
      older.schema.Obtained ∧ strictly [older, older, older] = .ok ⟨1, older.schema, []⟩ := by
  have comments : unionComments [older, newer] = [("Joint", "where rods meet")] := by
    simp [unionComments, List.mergeSort, older, newer]
    rfl
  have h : strictly [older, newer] =
      .ok ⟨2, .of [rod, joint 3, disc none] [("Joint", "where rods meet")] rfl, []⟩ := by
    rw [strictly, merge_eq, finish, comments]
    rfl
  obtain ⟨behind, front, -⟩ := strictly_absorbs.1 _ _ h
  exact ⟨_, h, rfl, behind, front, obtained_older,
    strictly_absorbs.2 older obtained_older 3 (by decide)⟩

end TypeLang.Merge
