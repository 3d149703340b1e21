import TypeLang.Proofs.Merge.Strict

namespace TypeLang.Merge

/-- Whether two outcomes of merges are the same but for the order and the comments. -/
inductive Alike : Except MergeFault Merged → Except MergeFault Merged → Prop
  | merged {m m' : Merged} :
      m.layer = m'.layer →
      (∀ kind name, Option.Rel (fun e e' => e.sameDefinition e') (m.schema.find? kind name)
        (m'.schema.find? kind name)) →
      (∀ name, Option.Rel (fun u u' => ∀ member, member ∈ u.members ↔ member ∈ u'.members)
        (m.schema.union? name) (m'.schema.union? name)) →
      Alike (.ok m) (.ok m')
  | conflict {kind kind' : Kind} {name name' : String} {part part' : Entry.Part} :
      Alike (.error (.conflict kind name part)) (.error (.conflict kind' name' part'))
  | duplicateId {fault fault' : SchemaFault} :
      fault.IsDuplicateId → fault'.IsDuplicateId →
      Alike (.error (.schema fault)) (.error (.schema fault'))

section

variable {sources sources' : List Layered}

theorem keys_perm (h : sources.Perm sources') : (keys sources).Perm (keys sources') := by
  rw [List.perm_ext_iff_of_nodup (nodup_keys sources) (nodup_keys sources')]
  intro key
  simp only [mem_keys, h.mem_iff]

theorem definitions_perm (h : sources.Perm sources') (key : Kind × String) :
    (definitions sources key).Perm (definitions sources' key) := newest_perm h

theorem agree_perm {es es' : List Entry} (h : es.Perm es') : Agree es ↔ Agree es' := by
  simp only [Agree, h.mem_iff]

theorem disputes_eq_nil_perm (h : sources.Perm sources') :
    disputes sources = [] ↔ disputes sources' = [] := by
  simp only [disputes_eq_nil_iff, (keys_perm h).mem_iff, agree_perm (definitions_perm h _)]

theorem common?_perm {es es' : List Entry} (h : es.Perm es') (agree : Agree es) :
    (common? es).map Entry.plain = (common? es').map Entry.plain := by
  cases es with
  | nil => rw [h.nil_eq]
  | cons e es =>
    cases es' with
    | nil => cases h.eq_nil
    | cons e' es' =>
      exact congrArg some (agree e List.mem_cons_self e' (h.mem_iff.mpr List.mem_cons_self))

theorem agreed_perm (h : sources.Perm sources') (hd : disputes sources = []) :
    ((agreed sources).map Entry.plain).Perm ((agreed sources').map Entry.plain) := by
  rw [agreed, agreed, List.map_filterMap, List.map_filterMap]
  have same : ∀ key ∈ keys sources, (common? (definitions sources key)).map Entry.plain =
      (common? (definitions sources' key)).map Entry.plain := fun key hk =>
    common?_perm (definitions_perm h key) (disputes_eq_nil_iff.mp hd key hk)
  rw [List.filterMap_congr same]
  exact (keys_perm h).filterMap _

end

theorem exists_perm {es es' : List Entry} (perm : (es.map Entry.plain).Perm (es'.map Entry.plain))
    {P : Entry → Prop} (hP : ∀ e, P e ↔ P e.plain) : (∃ e ∈ es, P e) ↔ ∃ e ∈ es', P e := by
  have lift : ∀ l : List Entry, (∃ e ∈ l, P e) ↔ ∃ x ∈ l.map Entry.plain, P x := by
    intro l
    simp only [List.mem_map, exists_exists_and_eq_and]
    exact exists_congr fun e => and_congr_right fun _ => hP e
  rw [lift es, lift es']
  simp only [perm.mem_iff]

/- Schemas whose entries are the same but for their order and their comments. -/

section

variable {s s' : Schema}

theorem rel_find?
    (perm : (s.entries.map Entry.plain).Perm (s'.entries.map Entry.plain)) (kind : Kind)
    (name : String) :
    Option.Rel (fun e e' => e.sameDefinition e') (s.find? kind name) (s'.find? kind name) := by
  cases hf : s.find? kind name with
  | some e =>
    obtain ⟨he, hk⟩ := Schema.find?_eq_some_iff.mp hf
    obtain ⟨e', he', hp⟩ := (exists_perm perm (P := fun x => x.plain = e.plain)
      fun _ => Iff.rfl).mp ⟨e, he, rfl⟩
    have hk' : e'.key = (kind, name) := by rw [← e'.key_plain, hp, e.key_plain, hk]
    rw [Schema.find?_eq_some_iff.mpr ⟨he', hk'⟩]
    exact .some (Entry.sameDefinition_iff.mpr hp.symm)
  | none =>
    cases hf' : s'.find? kind name with
    | none => exact .none
    | some e' =>
      obtain ⟨he', hk'⟩ := Schema.find?_eq_some_iff.mp hf'
      obtain ⟨e, he, hk⟩ := (exists_perm perm (P := fun x => x.key = (kind, name))
        fun _ => Iff.rfl).mpr ⟨e', he', hk'⟩
      rw [Schema.find?_eq_some_iff.mpr ⟨he, hk⟩] at hf
      cases hf

theorem exists_of_union? {name : String} {u : Union} (hu : s.union? name = some u) :
    (∃ e ∈ s.entries, e.unionName? = some name) ∧
      ∀ member, member ∈ u.members ↔
        ∃ e ∈ s.entries, e.unionName? = some name ∧ e.name = member := by
  obtain ⟨hm, rfl⟩ := Schema.union?_eq_some_iff.mp hu
  exact ⟨(Schema.exists_unionName?_iff s _).mpr (List.mem_map_of_mem hm),
    fun _ => Schema.mem_members_iff hm⟩

theorem exists_union? {name : String} (he : ∃ e ∈ s.entries, e.unionName? = some name) :
    ∃ u, s.union? name = some u := by
  obtain ⟨u, hu, hn⟩ := List.mem_map.mp ((Schema.exists_unionName?_iff s name).mp he)
  exact ⟨u, Schema.union?_eq_some_iff.mpr ⟨hu, hn⟩⟩

theorem rel_union?
    (perm : (s.entries.map Entry.plain).Perm (s'.entries.map Entry.plain)) (name : String) :
    Option.Rel (fun u u' => ∀ member, member ∈ u.members ↔ member ∈ u'.members)
      (s.union? name) (s'.union? name) := by
  have same : (∃ e ∈ s.entries, e.unionName? = some name) ↔
      ∃ e ∈ s'.entries, e.unionName? = some name := exists_perm perm fun _ => Iff.rfl
  cases hu : s.union? name with
  | some u =>
    obtain ⟨he, members⟩ := exists_of_union? hu
    obtain ⟨u', hu'⟩ := exists_union? (same.mp he)
    rw [hu']
    refine .some fun member => ?_
    rw [members, (exists_of_union? hu').2]
    exact exists_perm perm fun _ => Iff.rfl
  | none =>
    cases hu' : s'.union? name with
    | none => exact .none
    | some u' =>
      obtain ⟨u, hu''⟩ := exists_union? (same.mpr (exists_of_union? hu').1)
      rw [hu] at hu''
      cases hu''

end

theorem own_nil (sources : List Layered) : Own ((disputes sources).zip []) := by
  rw [List.zip_nil_right]
  exact fun _ h => nomatch h

theorem assemble_cases {sources : List Layered} (obtained : ∀ s ∈ sources, s.schema.Obtained)
    (h : disputes sources = []) :
    (∃ m, assemble sources [] = .ok m ∧ ((agreed sources).map (·.id)).Nodup ∧
      Schema.ofEntries (agreed sources) (unionComments sources) = .ok m.schema ∧
      m.layer = highest (sources.map (·.layer))) ∨
    ∃ fault, assemble sources [] = .error (.schema fault) ∧ fault.IsDuplicateId ∧
      ¬ ((agreed sources).map (·.id)).Nodup := by
  have guards := guards_chosen obtained (own_nil sources)
  have keys := keys_chosen (own_nil sources)
  rw [chosen_eq_agreed h] at guards keys
  have iff := Schema.exists_ofEntries_iff (unionComments sources) guards keys
  rw [assemble, chosen_eq_agreed h]
  cases hs : Schema.ofEntries (agreed sources) (unionComments sources) with
  | ok schema => exact .inl ⟨_, rfl, iff.mp ⟨schema, hs⟩, rfl, rfl⟩
  | error fault =>
    refine .inr ⟨fault, rfl, Schema.isDuplicateId_of_ofEntries guards keys hs, ?_⟩
    rw [← iff, hs]
    rintro ⟨schema, hok⟩
    cases hok

/-- A merge that leaves every conflict open does not depend on the order of its sources. -/
theorem strictly_perm {sources sources' : List Layered}
    (obtained : ∀ s ∈ sources, s.schema.Obtained) (perm : sources.Perm sources') :
    Alike (strictly sources) (strictly sources') := by
  by_cases hd : disputes sources = []
  · have hd' := (disputes_eq_nil_perm perm).mp hd
    have obtained' : ∀ s ∈ sources', s.schema.Obtained :=
      fun s hs => obtained s (perm.mem_iff.mpr hs)
    have entries := agreed_perm perm hd
    have ids : ((agreed sources).map (·.id)).Nodup ↔ ((agreed sources').map (·.id)).Nodup := by
      have h := entries.map (·.id)
      rw [List.map_map, List.map_map] at h
      exact h.nodup_iff
    rw [strictly_of_agree hd, strictly_of_agree hd']
    rcases assemble_cases obtained hd with ⟨m, hm, hn, hs, hl⟩ | ⟨fault, hf, hdup, hn⟩
    · rcases assemble_cases obtained' hd' with ⟨m', hm', -, hs', hl'⟩ | ⟨fault, -, -, hn'⟩
      · rw [hm, hm']
        have entries' : (m.schema.entries.map Entry.plain).Perm
            (m'.schema.entries.map Entry.plain) := by
          rwa [Schema.entries_eq hs, Schema.entries_eq hs']
        refine .merged ?_ (rel_find? entries') (rel_union? entries')
        rw [hl, hl']
        exact (isHighest_highest _).unique (isHighest_highest _)
          fun l => (perm.map (·.layer)).mem_iff
      · exact absurd (ids.mp hn) hn'
    · rcases assemble_cases obtained' hd' with ⟨m', -, hn', -, -⟩ | ⟨fault', hf', hdup', -⟩
      · exact absurd (ids.mpr hn') hn
      · rw [hf, hf']
        exact .duplicateId hdup hdup'
  · obtain ⟨kind, name, part, h⟩ := strictly_of_dispute hd
    obtain ⟨kind', name', part', h'⟩ :=
      strictly_of_dispute fun hd' => hd ((disputes_eq_nil_perm perm).mpr hd')
    rw [h, h']
    exact .conflict

theorem strictly_perm_joint : (∀ s ∈ [older, newer], s.schema.Obtained) ∧
    [older, newer].Perm [newer, older] ∧
    Alike (strictly [older, newer]) (strictly [newer, older]) := by
  have obtained : ∀ s ∈ [older, newer], s.schema.Obtained := by
    simp [obtained_older, obtained_newer]
  exact ⟨obtained, .swap newer older [], strictly_perm obtained (.swap newer older [])⟩

end TypeLang.Merge
