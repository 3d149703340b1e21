import TypeLang.Proofs.Dict
import TypeLang.Proofs.Schema.Guards
import TypeLang.Proofs.Schema.Unions

namespace TypeLang

theorem map_filterMap_sublist {α β κ : Type} {f : α → Option β} {key : α → κ} {key' : β → κ}
    (h : ∀ a b, f a = some b → key' b = key a) (l : List α) :
    ((l.filterMap f).map key').Sublist (l.map key) := by
  induction l with
  | nil => exact .slnil
  | cons a l ih =>
    rw [List.filterMap_cons, List.map_cons]
    cases hf : f a with
    | none => exact ih.cons _
    | some b =>
      rw [List.map_cons, h a b hf]
      exact ih.cons_cons _

namespace Entry

def plain (e : Entry) : Entry := { e with comment := none }

@[simp] theorem key_plain (e : Entry) : e.plain.key = e.key := rfl

@[simp] theorem guardFault?_plain (e : Entry) : e.plain.guardFault? = e.guardFault? := rfl

theorem difference?_eq_none_iff {a b : Entry} : a.difference? b = none ↔ a.plain = b.plain := by
  obtain ⟨kind, name, id, type, generics, arguments, comment⟩ := a
  obtain ⟨kind', name', id', type', generics', arguments', comment'⟩ := b
  rw [difference?]
  simp only [plain, Entry.mk.injEq, and_true]
  split_ifs <;> simp_all

theorem sameDefinition_iff {a b : Entry} : a.sameDefinition b ↔ a.plain = b.plain := by
  rw [sameDefinition, Option.isNone_iff_eq_none, difference?_eq_none_iff]

theorem faultAfter?_eq_none_iff {before : List Entry} {e : Entry} : e.faultAfter? before = none ↔
    (∀ b ∈ before, b.id ≠ e.id) ∧ e.guardFault? = none ∧ ∀ b ∈ before, b.key ≠ e.key := by
  refine ⟨fun h => ⟨id_ne_of_faultAfter? h, guardFault?_eq_none_of_faultAfter? h,
    name_ne_of_faultAfter? h⟩, fun ⟨ids, guard, names⟩ => ?_⟩
  have id : before.find? (·.id = e.id) = none := by simpa using ids
  have name : (before.any fun b => b.kind = e.kind && b.name = e.name) = false := by
    simpa [key] using names
  rw [faultAfter?, id, guard]
  simp [name]

end Entry

def SchemaFault.IsDuplicateId : SchemaFault → Prop
  | .duplicateId .. => True
  | _ => False

theorem Entry.isDuplicateId_of_faultAfter? {before : List Entry} {e : Entry} {fault : SchemaFault}
    (guard : e.guardFault? = none) (names : ∀ b ∈ before, b.key ≠ e.key)
    (h : e.faultAfter? before = some fault) : fault.IsDuplicateId := by
  rw [faultAfter?] at h
  split at h
  · cases h
    trivial
  · rw [guard] at h
    dsimp only at h
    split at h
    · next hn =>
      obtain ⟨b, hb, he⟩ := List.any_eq_true.mp hn
      exact absurd (by simpa [key] using he) (names b hb)
    · cases h

namespace Schema

theorem faultAfter?_eq_none {before es : List Entry} (guards : ∀ e ∈ es, e.guardFault? = none)
    (ids : ((before ++ es).map (·.id)).Nodup) (keys : ((before ++ es).map Entry.key).Nodup) :
    faultAfter? before es = none := by
  induction es generalizing before with
  | nil => rfl
  | cons e es ih =>
    have new : e.faultAfter? before = none := by
      rw [List.map_append, List.nodup_append] at ids keys
      refine Entry.faultAfter?_eq_none_iff.mpr ⟨fun b hb => ?_, guards e List.mem_cons_self,
        fun b hb => ?_⟩
      · exact ids.2.2 _ (List.mem_map_of_mem hb) _ (by simp)
      · exact keys.2.2 _ (List.mem_map_of_mem hb) _ (by simp)
    rw [faultAfter?, new]
    refine ih (fun x hx => guards x (List.mem_cons_of_mem e hx)) ?_ ?_
    · rwa [List.append_assoc]
    · rwa [List.append_assoc]

theorem isDuplicateId_of_faultAfter? (before : List Entry) {es : List Entry} {fault : SchemaFault}
    (guards : ∀ e ∈ es, e.guardFault? = none) (keys : ((before ++ es).map Entry.key).Nodup)
    (h : faultAfter? before es = some fault) : fault.IsDuplicateId := by
  induction es generalizing before with
  | nil => cases h
  | cons e es ih =>
    rw [faultAfter?] at h
    split at h
    · next hf =>
      cases h
      refine Entry.isDuplicateId_of_faultAfter? (guards e List.mem_cons_self) (fun b hb => ?_) hf
      rw [List.map_append, List.nodup_append] at keys
      exact keys.2.2 _ (List.mem_map_of_mem hb) _ (by simp)
    · exact ih (before ++ [e]) (fun x hx => guards x (List.mem_cons_of_mem e hx))
        (by rwa [List.append_assoc]) h

section

variable {entries : List Entry} {comments : Dict String} {s : Schema}

variable (comments) in
theorem exists_ofEntries_iff (guards : ∀ e ∈ entries, e.guardFault? = none)
    (keys : (entries.map Entry.key).Nodup) :
    (∃ s, ofEntries entries comments = .ok s) ↔ (entries.map (·.id)).Nodup := by
  constructor
  · rintro ⟨s, h⟩
    have ids := ids_nodup s
    rwa [entries_eq h] at ids
  · intro ids
    exact ⟨_, ofEntries_of entries comments (faultAfter?_eq_none guards ids keys)⟩

theorem isDuplicateId_of_ofEntries {fault : SchemaFault}
    (guards : ∀ e ∈ entries, e.guardFault? = none) (keys : (entries.map Entry.key).Nodup)
    (h : ofEntries entries comments = .error fault) : fault.IsDuplicateId :=
  isDuplicateId_of_faultAfter? [] guards keys (ofEntries_eq_error_iff_faultAfter?.mp h)

theorem ofEntries_of_comments (h : ofEntries entries comments = .ok s) {comments' : Dict String}
    (same : ∀ u ∈ s.unions, comments'.get? u.name = u.comment) :
    ofEntries s.entries comments' = .ok s := by
  obtain ⟨hf, ht⟩ := ofEntries_eq_ok_iff.mp h
  rw [entries_eq h, ofEntries_eq_ok_iff, ← Tables.recomment_tabulate comments comments', ← ht]
  exact ⟨hf, (Tables.recomment_eq_self same).symm⟩

theorem get?_unionComments {u : Union} (hu : u ∈ s.unions) :
    s.unionComments.get? u.name = u.comment := by
  have named : ∀ (v : Union) (kv : String × String), v.comment.map (v.name, ·) = some kv →
      kv.1 = v.name := by
    intro v kv hv
    obtain ⟨c, -, rfl⟩ := Option.map_eq_some_iff.mp hv
    rfl
  cases hc : u.comment with
  | none =>
    refine Dict.get?_ofList_of_not_mem fun hm => ?_
    obtain ⟨⟨name, comment⟩, hm, rfl⟩ := List.mem_map.mp hm
    obtain ⟨v, hv, hvc⟩ := List.mem_filterMap.mp hm
    obtain ⟨c, hvc, he⟩ := Option.map_eq_some_iff.mp hvc
    injection he with hn _
    rw [union_unique hv hu hn, hc] at hvc
    cases hvc
  | some c =>
    refine Dict.get?_ofList_of_mem ((unionNames_nodup s).sublist
      (map_filterMap_sublist named s.unions)) ?_
    exact List.mem_filterMap.mpr ⟨u, hu, by rw [hc]; rfl⟩

/-- What a schema holds makes this schema again. -/
theorem ofEntries_unionComments (h : ofEntries entries comments = .ok s) :
    ofEntries s.entries s.unionComments = .ok s :=
  ofEntries_of_comments h fun _ => get?_unionComments

end

end Schema

end TypeLang
