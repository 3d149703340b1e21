import TypeLang.Schema.Tables

namespace TypeLang

theorem eraseDups_append_singleton {α : Type} [BEq α] [LawfulBEq α] (l : List α) (a : α) :
    (l ++ [a]).eraseDups = if a ∈ l then l.eraseDups else l.eraseDups ++ [a] := by
  rw [List.eraseDups_append]
  split
  · next h =>
    have old : [a].removeAll l = [] := by simp [List.removeAll, h]
    rw [old, List.eraseDups_nil, List.append_nil]
  · next h =>
    have new : [a].removeAll l = [a] := by simp [List.removeAll, h]
    rw [new]
    rfl

theorem map_modify {α β : Type} {f : α → β} {g : α → α} {g' : β → β}
    (step : ∀ a, f (g a) = g' (f a)) (l : List α) (i : Nat) :
    (l.modify i g).map f = (l.map f).modify i g' := by
  refine List.ext_getElem? fun j => ?_
  rw [List.getElem?_map, List.getElem?_modify, List.getElem?_modify, List.getElem?_map]
  cases l[j]? with
  | none => rfl
  | some a =>
    show some (f (if i = j then g a else a)) = some (if i = j then g' (f a) else f a)
    split
    · rw [step]
    · rfl

theorem map_modify_of_same {α β : Type} {f : α → β} {g : α → α} (same : ∀ a, f (g a) = f a)
    (l : List α) (i : Nat) : (l.modify i g).map f = l.map f :=
  (map_modify same l i).trans (List.modify_id i (l.map f))

def membersOf (entries : List Entry) (name : String) : List String :=
  (entries.filter (·.unionName? = some name)).map (·.name)

theorem membersOf_append_of_eq {es : List Entry} {e : Entry} {name : String}
    (h : e.unionName? = some name) :
    membersOf (es ++ [e]) name = membersOf es name ++ [e.name] := by
  simp [membersOf, h]

theorem membersOf_append_of_ne {es : List Entry} {e : Entry} {name : String}
    (h : e.unionName? ≠ some name) : membersOf (es ++ [e]) name = membersOf es name := by
  simp [membersOf, h]

theorem membersOf_of_new {es : List Entry} {name : String}
    (h : name ∉ es.filterMap Entry.unionName?) : membersOf es name = [] := by
  simp only [membersOf, List.map_eq_nil_iff, List.filter_eq_nil_iff, decide_eq_true_eq]
  intro e he hn
  exact h (List.mem_filterMap.mpr ⟨e, he, hn⟩)

namespace Tables

/-- Unions stand in the order in which entries first name them, each with the entries that name it,
and their index finds them. -/
structure Grouped (entries : List Entry) (unions : List Union) (index : Index String) : Prop where
  finds : index.Finds unions fun u => some u.name
  names : unions.map (·.name) = (entries.filterMap Entry.unionName?).eraseDups
  members : ∀ u ∈ unions, u.members = membersOf entries u.name

structure Indexed (t : Tables) : Prop where
  byId : t.byId.Finds t.entries fun e => some e.id
  names (kind : Kind) : (t.names kind).Finds t.entries (Entry.nameAs? kind)
  unions : Grouped t.entries t.unions t.unionIndex

namespace Grouped

variable {entries : List Entry} {unions : List Union} {index : Index String} {e : Entry}
  {name : String}

theorem get?_eq_none_iff (h : Grouped entries unions index) :
    index.get? name = none ↔ name ∉ entries.filterMap Entry.unionName? := by
  rw [h.finds.get?_eq_none_iff, ← List.mem_eraseDups, ← h.names]
  simp [eq_comm]

theorem append_none (h : Grouped entries unions index) (he : e.unionName? = none) :
    Grouped (entries ++ [e]) unions index where
  finds := h.finds
  names := by simpa [he] using h.names
  members u hu := by rw [membersOf_append_of_ne (by simp [he]), h.members u hu]

theorem append_old (h : Grouped entries unions index) (he : e.unionName? = some name) {slot : Nat}
    (hs : index.get? name = some slot) :
    Grouped (entries ++ [e]) (unions.modify slot (·.add e.name)) index := by
  have seen : name ∈ entries.filterMap Entry.unionName? := by
    refine Classical.byContradiction fun new => ?_
    rw [h.get?_eq_none_iff.mpr new] at hs
    cases hs
  refine ⟨h.finds.of_map_eq (map_modify_of_same ?_ unions slot), ?_, fun u hu => ?_⟩
  · exact fun _ => rfl
  · have last : [e].filterMap Entry.unionName? = [name] := by simp [he]
    rw [List.filterMap_append, last, eraseDups_append_singleton, if_pos seen, ← h.names]
    refine map_modify_of_same ?_ unions slot
    exact fun _ => rfl
  · obtain ⟨i, hi⟩ := List.mem_iff_getElem?.mp hu
    rw [List.getElem?_modify] at hi
    obtain ⟨v, hv, hvu⟩ := Option.map_eq_some_iff.mp hi
    have old := h.members v (List.mem_of_getElem? hv)
    split at hvu
    · next same =>
      subst same hvu
      obtain ⟨w, hw, hn⟩ := (h.finds name slot).mp hs
      cases hv.symm.trans hw
      show v.members ++ [e.name] = membersOf (entries ++ [e]) v.name
      rw [membersOf_append_of_eq (he.trans hn.symm), ← old]
    · next other =>
      subst hvu
      rw [membersOf_append_of_ne, old]
      intro hn
      cases he.symm.trans hn
      exact other (Option.some.inj (hs.symm.trans ((h.finds _ i).mpr ⟨v, hv, rfl⟩)))

theorem append_new (h : Grouped entries unions index) (he : e.unionName? = some name)
    (new : index.get? name = none) (comment : Option String) :
    Grouped (entries ++ [e]) (unions ++ [⟨name, [e.name], comment⟩])
      (index.insert name unions.length) := by
  have unseen := h.get?_eq_none_iff.mp new
  refine ⟨h.finds.append rfl new, ?_, fun u hu => ?_⟩
  · have last : [e].filterMap Entry.unionName? = [name] := by simp [he]
    rw [List.filterMap_append, last, eraseDups_append_singleton, if_neg unseen, List.map_append,
      h.names]
    rfl
  · rcases List.mem_append.mp hu with hm | hu
    · rw [membersOf_append_of_ne, h.members u hm]
      intro hn
      cases he.symm.trans hn
      exact h.finds.get?_eq_none_iff.mp new u hm rfl
    · obtain rfl := List.mem_singleton.mp hu
      rw [membersOf_append_of_eq he, membersOf_of_new unseen]
      rfl

end Grouped

variable {comments : Dict String} {t t' : Tables} {e : Entry}

theorem names_addName (t : Tables) (e : Entry) (kind : Kind) :
    (t.addName e).names kind =
      if e.kind = kind then (t.names kind).insert e.name t.entries.length else t.names kind := by
  cases hk : e.kind <;> cases kind <;> simp [addName, names, hk]

@[simp] theorem entries_addName (t : Tables) (e : Entry) : (t.addName e).entries = t.entries := by
  rw [addName]
  split <;> rfl

@[simp] theorem unions_addName (t : Tables) (e : Entry) : (t.addName e).unions = t.unions := by
  rw [addName]
  split <;> rfl

@[simp] theorem unionIndex_addName (t : Tables) (e : Entry) :
    (t.addName e).unionIndex = t.unionIndex := by
  rw [addName]
  split <;> rfl

@[simp] theorem names_addMember (comments : Dict String) (t : Tables) (e : Entry) (kind : Kind) :
    (t.addMember comments e).names kind = t.names kind := by
  rw [addMember]
  split
  · rfl
  · split <;> cases kind <;> rfl

theorem grouped_addMember (h : Grouped t.entries t.unions t.unionIndex) (e : Entry) :
    Grouped (t.entries ++ [e]) (t.addMember comments e).unions
      (t.addMember comments e).unionIndex := by
  rw [addMember]
  split
  · next he => exact h.append_none he
  · next he =>
    split
    · next hs => exact h.append_old he hs
    · next new => exact h.append_new he new _

theorem foldlM_push {P : Tables → Prop}
    (step : ∀ {t t' e}, P t → t.push comments e = .ok t' → P t') {entries : List Entry} (h : P t)
    (ht : entries.foldlM (push comments) t = .ok t') : P t' := by
  induction entries generalizing t with
  | nil =>
    cases ht
    exact h
  | cons e rest ih =>
    rw [List.foldlM_cons] at ht
    cases he : t.push comments e with
    | error fault =>
      rw [he] at ht
      cases ht
    | ok next =>
      rw [he] at ht
      exact ih (step h he) ht

theorem push_eq_ok_iff : t.push comments e = .ok t' ↔
    t.entryById? e.id = none ∧ e.guardFault? = none ∧ (t.names e.kind).get? e.name = none ∧
      t' = t.enter comments e := by
  rw [push]
  split
  · next h => simp [h]
  · next hid =>
    split
    · next h => simp [h]
    · next hg =>
      split
      · next h => simp [h]
      · next hn => simp [hid, hg, hn, eq_comm]

namespace Indexed

theorem nil : Indexed {} where
  byId := .nil _
  names
    | .constructor => .nil _
    | .method => .nil _
  unions := ⟨.nil _, rfl, nofun⟩

theorem enter (h : t.Indexed) (id : t.byId.get? e.id = none)
    (name : (t.names e.kind).get? e.name = none) : (t.enter comments e).Indexed where
  byId := h.byId.append rfl id
  names kind := by
    show (((t.addName e).addMember comments e).names kind).Finds (t.entries ++ [e]) _
    rw [names_addMember, names_addName]
    split
    · next hk =>
      subst hk
      exact (h.names e.kind).append (if_pos rfl) name
    · next hk => exact (h.names kind).append_keyless (if_neg hk)
  unions := by
    have same : Grouped (t.addName e).entries (t.addName e).unions (t.addName e).unionIndex := by
      rw [entries_addName, unions_addName, unionIndex_addName]
      exact h.unions
    have added : Grouped _ ((t.addName e).addMember comments e).unions _ :=
      grouped_addMember same e
    rwa [entries_addName] at added

theorem get?_byId_eq_none_iff (h : t.Indexed) {id : UInt32} :
    t.byId.get? id = none ↔ t.entryById? id = none := by
  rw [h.byId.get?_eq_none_iff, entryById?, Option.eq_none_iff_forall_ne_some]
  simp [h.byId.bind_eq_some_iff]

theorem push (h : t.Indexed) (ht : t.push comments e = .ok t') : t'.Indexed := by
  obtain ⟨id, -, name, rfl⟩ := push_eq_ok_iff.mp ht
  exact h.enter (h.get?_byId_eq_none_iff.mpr id) name

theorem build {entries : List Entry} (ht : Tables.build comments entries = .ok t) : t.Indexed :=
  foldlM_push push nil ht

end Indexed

end Tables

end TypeLang
