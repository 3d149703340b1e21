import TypeLang.Proofs.Except
import TypeLang.Schema.Basic

namespace TypeLang

theorem Index.Finds.bind_eq_find? {κ α : Type} [DecidableEq κ] {m : Index κ} {l : List α}
    {key : α → Option κ} (h : m.Finds l key) (k : κ) :
    (m.get? k).bind (l[·]?) = l.find? (key · = some k) := by
  cases hf : l.find? (key · = some k) with
  | none =>
    rw [h.get?_eq_none_iff.mpr (by simpa using hf)]
    rfl
  | some a =>
    exact h.bind_eq_some_iff.mpr ⟨List.mem_of_find?_eq_some hf, by simpa using List.find?_some hf⟩

/-- What is wrong with an entry that follows the entries `before`: its id is taken, one of its
guards is bad, or its name is taken, looked at in this order. -/
def Entry.faultAfter? (before : List Entry) (e : Entry) : Option SchemaFault :=
  match before.find? (·.id = e.id) with
  | some first => some (.duplicateId e.id first.name e.name)
  | none =>
    match e.guardFault? with
    | some fault => some fault
    | none =>
      if before.any fun b => b.kind = e.kind && b.name = e.name then
        some (.duplicateName e.kind e.name)
      else none

def Schema.faultAfter? (before : List Entry) : List Entry → Option SchemaFault
  | [] => none
  | e :: rest =>
    match e.faultAfter? before with
    | some fault => some fault
    | none => faultAfter? (before ++ [e]) rest

namespace Tables

variable {comments comments' : Dict String} {t : Tables} {e : Entry}

/- Searching for what the indexes find -/

theorem Indexed.entryById?_eq_find? (h : t.Indexed) (id : UInt32) :
    t.entryById? id = t.entries.find? (·.id = id) := by
  rw [entryById?, h.byId.bind_eq_find?]
  simp only [Option.some.injEq]

theorem Indexed.any_name (h : t.Indexed) (kind : Kind) (name : String) :
    (t.entries.any fun b => b.kind = kind && b.name = name) = ((t.names kind).get? name).isSome := by
  cases hn : (t.names kind).get? name with
  | none =>
    rw [(h.names kind).get?_eq_none_iff] at hn
    simpa [Entry.nameAs?] using hn
  | some i =>
    obtain ⟨b, hb, hk⟩ := (h.names kind name i).mp hn
    rw [Option.isSome_some, List.any_eq_true]
    exact ⟨b, List.mem_of_getElem? hb, by simpa [Entry.nameAs?] using hk⟩

theorem push_eq (h : t.Indexed) (comments : Dict String) (e : Entry) : t.push comments e =
    match e.faultAfter? t.entries with
    | some fault => .error fault
    | none => .ok (t.enter comments e) := by
  rw [push, Entry.faultAfter?, h.entryById?_eq_find?]
  cases t.entries.find? (·.id = e.id) with
  | some first => rfl
  | none =>
    cases e.guardFault? with
    | some fault => rfl
    | none =>
      dsimp only
      rw [h.any_name]
      cases (t.names e.kind).get? e.name with
      | some i => rfl
      | none => rfl

def tabulate (comments : Dict String) (entries : List Entry) : Tables :=
  entries.foldl (enter comments) {}

theorem foldlM_push_eq (h : t.Indexed) (comments : Dict String) (entries : List Entry) :
    entries.foldlM (push comments) t =
      match Schema.faultAfter? t.entries entries with
      | some fault => .error fault
      | none => .ok (entries.foldl (enter comments) t) := by
  induction entries generalizing t with
  | nil => rfl
  | cons e rest ih =>
    have step := push_eq h comments e
    rw [List.foldlM_cons, Schema.faultAfter?]
    cases hf : e.faultAfter? t.entries with
    | some fault =>
      rw [hf] at step
      rw [step]
      rfl
    | none =>
      rw [hf] at step
      rw [step]
      exact ih (h.push step)

theorem build_eq (comments : Dict String) (entries : List Entry) : build comments entries =
    match Schema.faultAfter? [] entries with
    | some fault => .error fault
    | none => .ok (tabulate comments entries) :=
  foldlM_push_eq .nil comments entries

/- Comments -/

def recomment (comments : Dict String) (t : Tables) : Tables :=
  { t with unions := t.unions.map fun u => { u with comment := comments.get? u.name } }

theorem recomment_addName (t : Tables) (e : Entry) :
    (t.addName e).recomment comments = (t.recomment comments).addName e := by
  rw [addName, addName]
  split <;> rfl

theorem recomment_addMember (t : Tables) (e : Entry) :
    (t.addMember comments e).recomment comments' =
      (t.recomment comments').addMember comments' e := by
  have index : (t.recomment comments').unionIndex = t.unionIndex := rfl
  rw [addMember, addMember, index]
  cases e.unionName? with
  | none => rfl
  | some name =>
    dsimp only
    cases t.unionIndex.get? name with
    | none => simp [recomment]
    | some slot =>
      have changed : (t.unions.modify slot (·.add e.name)).map
          (fun u => { u with comment := comments'.get? u.name }) =
            (t.recomment comments').unions.modify slot (·.add e.name) := by
        refine map_modify ?_ t.unions slot
        exact fun _ => rfl
      exact congrArg (fun unions => { t with unions }) changed

theorem recomment_enter (t : Tables) (e : Entry) :
    (t.enter comments e).recomment comments' = (t.recomment comments').enter comments' e := by
  have added : ((t.addName e).addMember comments e).recomment comments' =
      ((t.addName e).recomment comments').addMember comments' e := recomment_addMember _ e
  rw [recomment_addName] at added
  exact congrArg (fun t' : Tables => { t' with
    entries := t.entries ++ [e], byId := t.byId.insert e.id t.entries.length }) added

/-- Comments decide about nothing but the comments of the unions. -/
theorem recomment_tabulate (comments comments' : Dict String) (entries : List Entry) :
    (tabulate comments entries).recomment comments' = tabulate comments' entries := by
  have run (t : Tables) : (entries.foldl (enter comments) t).recomment comments' =
      entries.foldl (enter comments') (t.recomment comments') := by
    induction entries generalizing t with
    | nil => rfl
    | cons e rest ih => rw [List.foldl_cons, List.foldl_cons, ih, recomment_enter]
  exact run {}

theorem recomment_eq_self (h : ∀ u ∈ t.unions, comments.get? u.name = u.comment) :
    t.recomment comments = t := by
  have same : t.unions.map (fun u => { u with comment := comments.get? u.name }) = t.unions :=
    (List.map_congr_left fun u hu => by rw [h u hu]).trans (List.map_id' t.unions)
  rw [recomment, same]

theorem comment_of_mem_tabulate {entries : List Entry} {u : Union}
    (hu : u ∈ (tabulate comments entries).unions) : u.comment = comments.get? u.name := by
  rw [← recomment_tabulate comments comments entries] at hu
  obtain ⟨v, -, rfl⟩ := List.mem_map.mp hu
  rfl

theorem entries_tabulate (comments : Dict String) (entries : List Entry) :
    (tabulate comments entries).entries = entries := by
  have run (t : Tables) : (entries.foldl (enter comments) t).entries = t.entries ++ entries := by
    induction entries generalizing t with
    | nil => exact (List.append_nil _).symm
    | cons e rest ih =>
      rw [List.foldl_cons, ih]
      exact List.append_assoc t.entries [e] rest
  exact run {}

end Tables

namespace Schema

variable {entries : List Entry} {comments : Dict String} {s s' : Schema}

theorem ext_toTables (h : s.toTables = s'.toTables) : s = s' := by
  cases s
  cases s'
  cases h
  rfl

theorem map_toTables_ofEntries (entries : List Entry) (comments : Dict String) :
    (ofEntries entries comments).map (·.toTables) = Tables.build comments entries := by
  rw [ofEntries]
  split
  · next h => exact h.symm
  · next h => exact h.symm

theorem ofEntries_eq_ok_iff : ofEntries entries comments = .ok s ↔
    faultAfter? [] entries = none ∧ s.toTables = .tabulate comments entries := by
  have built : ofEntries entries comments = .ok s ↔
      Tables.build comments entries = .ok s.toTables := by
    rw [← map_toTables_ofEntries, except_map_eq_ok]
    refine ⟨fun h => ⟨s, h, rfl⟩, ?_⟩
    rintro ⟨s', h, same⟩
    rwa [← ext_toTables same]
  rw [built, Tables.build_eq]
  split
  · next hf => simp [hf]
  · next hf => simp [hf, eq_comm]

theorem ofEntries_eq_error_iff_faultAfter? {fault : SchemaFault} :
    ofEntries entries comments = .error fault ↔ faultAfter? [] entries = some fault := by
  rw [← except_map_eq_error, map_toTables_ofEntries, Tables.build_eq]
  split
  · next hf => simp [hf]
  · next hf => simp [hf]

theorem entries_eq (h : ofEntries entries comments = .ok s) : s.entries = entries := by
  rw [(ofEntries_eq_ok_iff.mp h).2, Tables.entries_tabulate]

theorem faultAfter?_of_ofEntries (h : ofEntries entries comments = .ok s) :
    faultAfter? [] s.entries = none := by
  rw [entries_eq h]
  exact (ofEntries_eq_ok_iff.mp h).1

def of (entries : List Entry) (comments : Dict String) (sound : faultAfter? [] entries = none) :
    Schema where
  toTables := .tabulate comments entries
  indexed := .build (by rw [Tables.build_eq comments, sound])

theorem ofEntries_of (entries : List Entry) (comments : Dict String)
    (sound : faultAfter? [] entries = none) :
    ofEntries entries comments = .ok (of entries comments sound) :=
  ofEntries_eq_ok_iff.mpr ⟨sound, rfl⟩

end Schema

end TypeLang
