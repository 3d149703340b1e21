import TypeLang.Proofs.Schema.Build

namespace TypeLang

theorem find?_eq_some_of_nodup {α κ : Type} [DecidableEq κ] {key : α → κ} {l : List α}
    (h : (l.map key).Nodup) {a : α} (ha : a ∈ l) : l.find? (key · = key a) = some a := by
  induction l with
  | nil => cases ha
  | cons b l ih =>
    rw [List.map_cons, List.nodup_cons] at h
    rcases List.mem_cons.mp ha with rfl | ha
    · simp
    · have hb : key b ≠ key a := fun e => h.1 (e ▸ List.mem_map_of_mem ha)
      rw [List.find?_cons_of_neg (by simpa using hb), ih h.2 ha]

theorem find?_eq_some_iff_of_nodup {α κ : Type} [DecidableEq κ] {key : α → κ} {l : List α}
    (h : (l.map key).Nodup) {k : κ} {a : α} :
    l.find? (key · = k) = some a ↔ a ∈ l ∧ key a = k := by
  constructor
  · intro ha
    exact ⟨List.mem_of_find?_eq_some ha, by simpa using List.find?_some ha⟩
  · rintro ⟨ha, rfl⟩
    exact find?_eq_some_of_nodup h ha

theorem nodup_map_of_place {α κ : Type} {key : α → κ} {l : List α}
    (place : ∀ (i j : Nat) (a b : α), l[i]? = some a → l[j]? = some b → key a = key b → i = j) :
    (l.map key).Nodup := by
  rw [List.nodup_iff_pairwise_ne, List.pairwise_map, List.pairwise_iff_getElem]
  intro i j hi hj lt same
  have one := place i j _ _ (List.getElem?_eq_getElem hi) (List.getElem?_eq_getElem hj) same
  exact Nat.ne_of_lt lt one

namespace Entry

def key (e : Entry) : Kind × String := (e.kind, e.name)

theorem id_ne_of_faultAfter? {before : List Entry} {e : Entry} (h : e.faultAfter? before = none) :
    ∀ b ∈ before, b.id ≠ e.id := by
  rw [faultAfter?] at h
  split at h
  · cases h
  · next hf =>
    rw [List.find?_eq_none] at hf
    intro b hb
    simpa using hf b hb

theorem name_ne_of_faultAfter? {before : List Entry} {e : Entry}
    (h : e.faultAfter? before = none) : ∀ b ∈ before, (b.kind, b.name) ≠ (e.kind, e.name) := by
  rw [faultAfter?] at h
  split at h
  · cases h
  · split at h
    · cases h
    · split at h
      · cases h
      · next hn =>
        intro b hb he
        apply hn
        rw [List.any_eq_true]
        exact ⟨b, hb, by simpa using he⟩

end Entry

namespace Schema

theorem keys_of_faultAfter? {κ : Type} {key : Entry → κ}
    (new : ∀ {before e}, e.faultAfter? before = none → ∀ b ∈ before, key b ≠ key e)
    {before es : List Entry} (h : faultAfter? before es = none) :
    (∀ e ∈ es, ∀ b ∈ before, key b ≠ key e) ∧ (es.map key).Nodup := by
  induction es generalizing before with
  | nil => simp
  | cons e es ih =>
    rw [faultAfter?] at h
    split at h
    · cases h
    · next he =>
      obtain ⟨hb, hd⟩ := ih h
      constructor
      · intro x hx b hm
        rcases List.mem_cons.mp hx with rfl | hx
        · exact new he b hm
        · exact hb x hx b (List.mem_append_left _ hm)
      · rw [List.map_cons, List.nodup_cons]
        refine ⟨?_, hd⟩
        intro hm
        obtain ⟨x, hx, hxe⟩ := List.mem_map.mp hm
        exact hb x hx e (by simp) hxe.symm

theorem find?_eq_some_iff {s : Schema} {kind : Kind} {name : String} {e : Entry} :
    s.find? kind name = some e ↔ e ∈ s.entries ∧ e.key = (kind, name) := by
  rw [Tables.find?, (s.indexed.names kind).bind_eq_some_iff]
  simp [Entry.nameAs?, Entry.key]

theorem mem_of_find? {s : Schema} {kind : Kind} {name : String} {e : Entry}
    (h : s.find? kind name = some e) : e ∈ s.entries ∧ e.kind = kind ∧ e.name = name := by
  rwa [find?_eq_some_iff, Entry.key, Prod.mk.injEq] at h

theorem ne_of_find? {s : Schema} {kind : Kind} {name : String} (h : s.find? kind name = none) :
    ∀ e ∈ s.entries, e.kind = kind → e.name ≠ name := by
  rintro e he hk rfl
  rw [find?_eq_some_iff.mpr ⟨he, hk ▸ rfl⟩] at h
  cases h

theorem ids_nodup (s : Schema) : (s.entries.map (·.id)).Nodup :=
  nodup_map_of_place fun _ _ _ _ ha hb same =>
    s.indexed.byId.place_unique ha hb (congrArg some same) rfl

theorem keys_nodup (s : Schema) : (s.entries.map Entry.key).Nodup := by
  refine nodup_map_of_place fun i j a b ha hb same => ?_
  obtain ⟨kind, name⟩ := Prod.mk.injEq .. ▸ same
  exact (s.indexed.names b.kind).place_unique ha hb (by rw [Entry.nameAs?, if_pos kind, name])
    (if_pos rfl)

theorem names_nodup {s : Schema}
    (kinds : ∀ e ∈ s.entries, ∀ f ∈ s.entries, e.name = f.name → e.kind = f.kind) :
    (s.entries.map (·.name)).Nodup := by
  have hk := keys_nodup s
  rw [List.nodup_iff_pairwise_ne, List.pairwise_map] at hk ⊢
  refine hk.imp_of_mem ?_
  intro e f he hf hne hn
  exact hne (by rw [Entry.key, Entry.key, kinds e he f hf hn, hn])

end Schema

end TypeLang
