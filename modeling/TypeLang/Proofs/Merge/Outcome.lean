import TypeLang.Proofs.Merge.Course

namespace TypeLang.Merge

theorem nodup_keys (sources : List Layered) : (keys sources).Nodup := nodup_eraseDups _

def Own (settled : List (Conflict × Resolution)) : Prop :=
  ∀ cr ∈ settled, ∀ e, cr.2 = .keep e → ∃ d ∈ cr.1.candidates, d.entry = some e

section

variable {sources : List Layered}

theorem find?_of_mem_definitions {key : Kind × String} {e : Entry}
    (h : e ∈ definitions sources key) : ∃ s ∈ sources, s.schema.find? key.1 key.2 = some e := by
  obtain ⟨s, hs, he, -⟩ := mem_newest.mp h
  exact ⟨s, hs, he⟩

theorem exists_of_common? {es : List Entry} {e : Entry} (h : common? es = some e) :
    ∃ d ∈ es, e.plain = d.plain := by
  obtain ⟨d, hd, rfl⟩ := Option.map_eq_some_iff.mp h
  exact ⟨d, List.mem_of_mem_head? hd, rfl⟩

theorem key_of_find? {s : Schema} {key : Kind × String} {e : Entry}
    (h : s.find? key.1 key.2 = some e) : e.key = key := by
  obtain ⟨-, hk, hn⟩ := Schema.mem_of_find? h
  exact Prod.ext hk hn

theorem exists_of_choice {settled : List (Conflict × Resolution)}
    (ofSources : ∀ cr ∈ settled, cr.1 ∈ disputes sources) (own : Own settled)
    {key : Kind × String} {e : Entry} (h : choice sources settled key = some e) :
    ∃ s ∈ sources, ∃ d, s.schema.find? key.1 key.2 = some d ∧ e.plain = d.plain := by
  rw [choice] at h
  split at h
  · obtain ⟨d, hd, he⟩ := exists_of_common? h
    obtain ⟨s, hs, hf⟩ := find?_of_mem_definitions hd
    exact ⟨s, hs, d, hf, he⟩
  · split at h
    · next c e' hf =>
      cases h
      have hm := List.mem_of_find?_eq_some hf
      have hk : (c.kind, c.name) = key := by simpa using List.find?_some hf
      obtain ⟨d, hd, hde⟩ := own _ hm e rfl
      rw [candidates_of_mem_disputes (ofSources _ hm)] at hd
      obtain ⟨⟨s, i⟩, hs, rfl⟩ := List.mem_map.mp hd
      subst hk
      exact ⟨s, List.fst_mem_of_mem_zipIdx hs, e, hde, rfl⟩
    · cases h

variable {answers : List Resolution}

theorem exists_of_mem_chosen (own : Own ((disputes sources).zip answers)) {e : Entry}
    (h : e ∈ chosen sources answers) :
    ∃ s ∈ sources, ∃ d, s.schema.find? e.kind e.name = some d ∧ e.plain = d.plain := by
  obtain ⟨key, -, h⟩ := List.mem_filterMap.mp h
  obtain ⟨s, hs, d, hd, he⟩ := exists_of_choice (fun cr hm => (List.of_mem_zip hm).1) own h
  obtain rfl : e.key = key := by rw [← key_of_find? hd, ← e.key_plain, he, d.key_plain]
  exact ⟨s, hs, d, hd, he⟩

theorem keys_chosen (own : Own ((disputes sources).zip answers)) :
    ((chosen sources answers).map Entry.key).Nodup := by
  have named : ∀ key e, choice sources ((disputes sources).zip answers) key = some e →
      e.key = id key := by
    intro key e h
    obtain ⟨s, -, d, hd, he⟩ := exists_of_choice (fun cr hm => (List.of_mem_zip hm).1) own h
    rw [← e.key_plain, he, d.key_plain, key_of_find? hd, id]
  have sub := map_filterMap_sublist named (keys sources)
  rw [List.map_id] at sub
  exact (nodup_keys sources).sublist sub

theorem guards_chosen (obtained : ∀ s ∈ sources, s.schema.Obtained)
    (own : Own ((disputes sources).zip answers)) :
    ∀ e ∈ chosen sources answers, e.guardFault? = none := by
  intro e he
  obtain ⟨s, hs, d, hd, hp⟩ := exists_of_mem_chosen own he
  obtain ⟨entries, comments, h⟩ := (obtained s hs).exists_entries
  rw [← e.guardFault?_plain, hp, d.guardFault?_plain]
  exact Schema.guardFault?_eq_none (Schema.faultAfter?_of_ofEntries h) d (Schema.mem_of_find? hd).1

end

variable {σ : Type}

/-- The outcome of a merge that got an answer to each conflict. -/
structure Answered (sources : List Layered) (resolve : Resolver σ) (state : σ)
    (answers : List Resolution) (outcome : Except MergeFault Merged × σ) : Prop where
  asked : (disputes sources).mapM resolve state = (answers.map some, outcome.2)
  merged : ∀ m, outcome.1 = .ok m →
    m.schema.entries = chosen sources answers ∧
      m.conflicts = (disputes sources).map (·.name) ∧
      IsHighest (sources.map (·.layer)) m.layer
  refused : ∀ fault, outcome.1 = .error fault →
    ∃ f, fault = .schema f ∧
      Schema.ofEntries (chosen sources answers) (unionComments sources) = .error f
  refused_iff : Own ((disputes sources).zip answers) →
    ((∃ fault, outcome.1 = .error fault) ↔ ¬ ((chosen sources answers).map (·.id)).Nodup)

/-- The outcome of a merge whose conflict `c` was left open. -/
structure Unanswered (sources : List Layered) (resolve : Resolver σ) (state : σ) (c : Conflict)
    (outcome : Except MergeFault Merged × σ) : Prop where
  asked : ∃ before later, ∃ answers : List Resolution, disputes sources = before ++ c :: later ∧
    (before ++ [c]).mapM resolve state = (answers.map some ++ [none], outcome.2)
  failed : outcome.1 = .error (.conflict c.kind c.name c.part)

theorem length_mapM (resolve : Resolver σ) (cs : List Conflict) (state : σ) :
    (cs.mapM resolve state).1.length = cs.length := by
  induction cs generalizing state with
  | nil => rfl
  | cons c cs ih => rw [mapM_cons_eq, List.length_cons, List.length_cons, ih]

def assemble (sources : List Layered) (answers : List Resolution) : Except MergeFault Merged :=
  ((Schema.ofEntries (chosen sources answers) (unionComments sources)).mapError .schema).map
    fun schema => ⟨highest (sources.map (·.layer)), schema, (disputes sources).map (·.name)⟩

theorem merge_eq (sources : List Layered) (resolve : Resolver σ) (state : σ) :
    merge sources resolve state =
      (finish sources (run sources resolve (keys sources) state).1,
        (run sources resolve (keys sources) state).2) := rfl

theorem merge_of_answers {sources : List Layered} {resolve : Resolver σ} {state after : σ}
    {answers : List Resolution}
    (asked : (disputes sources).mapM resolve state = (answers.map some, after))
    (hr : run sources resolve (keys sources) state =
      (⟨chosen sources answers, (disputes sources).zip answers, none⟩, after)) :
    merge sources resolve state = (assemble sources answers, after) := by
  have length : (disputes sources).length ≤ answers.length := by
    rw [← length_mapM resolve _ state, asked]
    exact Nat.le_of_eq (List.length_map _)
  have names : ((disputes sources).zip answers).map (·.1.name) =
      (disputes sources).map (·.name) := by
    conv_rhs => rw [← List.map_fst_zip length, List.map_map]
    rfl
  rw [merge_eq, hr, finish, assemble]
  dsimp only
  rw [names]
  cases Schema.ofEntries (chosen sources answers) (unionComments sources) with
  | error fault => rfl
  | ok schema => rfl

theorem merge_cases (sources : List Layered) (resolve : Resolver σ) (state : σ) :
    (∃ (answers : List Resolution) (after : σ),
      (disputes sources).mapM resolve state = (answers.map some, after) ∧
      merge sources resolve state = (assemble sources answers, after)) ∨
    ∃ c, Unanswered sources resolve state c (merge sources resolve state) := by
  rcases run_eq (nodup_keys sources) state with ⟨answers, after, asked, hr⟩ |
    ⟨before, c, later, answers, after, p, hc, asked, hr, hp⟩
  · exact .inl ⟨answers, after, asked, merge_of_answers asked hr⟩
  · have result : merge sources resolve state = (finish sources p, after) := by
      rw [merge_eq, hr]
    refine .inr ⟨c, ⟨before, later, answers, hc, ?_⟩, ?_⟩
    · rw [result, asked]
    · rw [result, finish, hp]

theorem answered_of_assemble {sources : List Layered} {resolve : Resolver σ} {state after : σ}
    {answers : List Resolution} (obtained : ∀ s ∈ sources, s.schema.Obtained)
    (asked : (disputes sources).mapM resolve state = (answers.map some, after)) :
    Answered sources resolve state answers (assemble sources answers, after) where
  asked := asked
  merged := by
    intro m h
    obtain ⟨schema, hs, rfl⟩ := except_map_eq_ok.mp h
    exact ⟨Schema.entries_eq (except_mapError_eq_ok.mp hs), rfl, isHighest_highest _⟩
  refused := by
    intro fault h
    obtain ⟨f, hf, rfl⟩ := except_mapError_eq_error.mp (except_map_eq_error.mp h)
    exact ⟨f, rfl, hf⟩
  refused_iff := by
    intro own
    rw [← Schema.exists_ofEntries_iff (unionComments sources) (guards_chosen obtained own)
      (keys_chosen own), assemble]
    cases Schema.ofEntries (chosen sources answers) (unionComments sources) with
    | error fault => simp [Except.mapError, Except.map]
    | ok schema => simp [Except.mapError, Except.map]

/-- A merge has the newest definition of each entry, with the first comment, where these agree.
About the others, and only these, it asks the resolver. -/
theorem merge_newest {sources : List Layered} (obtained : ∀ s ∈ sources, s.schema.Obtained)
    (resolve : Resolver σ) (state : σ) :
    (∀ key, (dispute? sources key).isSome ↔ ¬ Agree (definitions sources key)) ∧
      ((∃ answers, Answered sources resolve state answers (merge sources resolve state)) ∨
        ∃ c, Unanswered sources resolve state c (merge sources resolve state)) := by
  refine ⟨fun key => isSome_dispute?_iff, ?_⟩
  rcases merge_cases sources resolve state with ⟨answers, after, asked, hm⟩ | unanswered
  · exact .inl ⟨answers, hm ▸ answered_of_assemble obtained asked⟩
  · exact .inr unanswered

/-- `rod#7 length:int = Rod` -/
def rod : Entry where
  kind := .constructor
  name := "rod"
  id := 7
  type := .named "Rod" false
  generics := []
  arguments := [⟨"length", .int, none⟩]
  comment := some "of old"

/-- `disc#1 = Disc` -/
def disc (comment : Option String) : Entry where
  kind := .constructor
  name := "disc"
  id := 1
  type := .named "Disc" false
  generics := []
  arguments := []
  comment

/-- `joint#id = Joint` -/
def joint (id : UInt32) : Entry where
  kind := .constructor
  name := "joint"
  id
  type := .named "Joint" false
  generics := []
  arguments := []
  comment := none

def older : Layered where
  layer := 1
  schema := .of [rod, joint 2] [("Joint", "where rods meet")] rfl

def newer : Layered where
  layer := 2
  schema := .of [disc none, joint 3] [] rfl

def rival : Layered where
  layer := 2
  schema := .of [disc (some "round"), joint 4] [] rfl

theorem obtained_older : older.schema.Obtained :=
  .entries (Schema.ofEntries_of _ _ rfl)

theorem obtained_newer : newer.schema.Obtained :=
  .entries (Schema.ofEntries_of _ _ rfl)

theorem obtained_rival : rival.schema.Obtained :=
  .entries (Schema.ofEntries_of _ _ rfl)

def keepLast : Resolver Nat := fun c count => (c.top.getLast?.map .keep, count + 1)

theorem merge_newest_joint :
    (∀ s ∈ [older, newer, rival], s.schema.Obtained) ∧
      (merge [older, newer, rival] keepLast 0).2 = 1 ∧
      ∃ answers, Answered [older, newer, rival] keepLast 0 answers
        (merge [older, newer, rival] keepLast 0) ∧
          chosen [older, newer, rival] answers = [rod, joint 4, disc (some "round")] := by
  have obtained : ∀ s ∈ [older, newer, rival], s.schema.Obtained := by
    simp [obtained_older, obtained_newer, obtained_rival]
  have comments : unionComments [older, newer, rival] = [("Joint", "where rods meet")] := by
    simp [unionComments, List.mergeSort, List.MergeSort.Internal.splitInTwo, older, newer, rival]
    rfl
  have result : merge [older, newer, rival] keepLast 0 =
      (.ok ⟨2, .of [rod, joint 4, disc (some "round")] [("Joint", "where rods meet")] rfl,
        ["joint"]⟩, 1) := by
    rw [merge_eq, finish, comments]
    rfl
  refine ⟨obtained, by rw [result], ?_⟩
  rcases (merge_newest obtained keepLast 0).2 with ⟨answers, h⟩ | ⟨c, h⟩
  · exact ⟨answers, h, (h.merged _ (by rw [result])).1.symm⟩
  · have failed := h.failed
    rw [result] at failed
    cases failed

end TypeLang.Merge
