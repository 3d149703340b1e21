import TypeLang.Proofs.Schema.Rebuild

namespace TypeLang

open Decl

/-- The first fault of a list behind the members `before`, where each member is judged by those
before it. -/
def firstFault? {α φ : Type} (judge : List α → α → Option φ) (before : List α) :
    List α → Option φ
  | [] => none
  | a :: rest =>
    match judge before a with
    | some fault => some fault
    | none => firstFault? judge (before ++ [a]) rest

section

variable {α φ : Type} {judge : List α → α → Option φ}

theorem firstFault?_append (before l₁ l₂ : List α) :
    firstFault? judge before (l₁ ++ l₂) =
      (firstFault? judge before l₁).or (firstFault? judge (before ++ l₁) l₂) := by
  induction l₁ generalizing before with
  | nil => simp [firstFault?]
  | cons a l₁ ih =>
    rw [List.cons_append, firstFault?, firstFault?]
    cases judge before a with
    | some fault => rfl
    | none => rw [ih, List.append_assoc, List.singleton_append]

theorem firstFault?_eq_none_iff {before l : List α} : firstFault? judge before l = none ↔
    ∀ left a right, l = left ++ a :: right → judge (before ++ left) a = none := by
  constructor
  · rintro h left a right rfl
    rw [firstFault?_append, Option.or_eq_none_iff, firstFault?] at h
    cases hj : judge (before ++ left) a with
    | none => rfl
    | some fault =>
      rw [hj] at h
      cases h.2
  · intro h
    induction l generalizing before with
    | nil => rfl
    | cons a l ih =>
      have ha : judge before a = none := by simpa using h [] a l rfl
      rw [firstFault?, ha]
      refine ih fun left b right hl => ?_
      rw [List.append_assoc]
      exact h (a :: left) b right (by rw [hl]; rfl)

theorem firstFault?_eq_some_iff {before l : List α} {fault : φ} :
    firstFault? judge before l = some fault ↔
      ∃ left a right, l = left ++ a :: right ∧ firstFault? judge before left = none ∧
        judge (before ++ left) a = some fault := by
  constructor
  · intro h
    induction l generalizing before with
    | nil => cases h
    | cons a l ih =>
      rw [firstFault?] at h
      cases hj : judge before a with
      | some cause =>
        rw [hj] at h
        cases h
        exact ⟨[], a, l, rfl, rfl, by rw [List.append_nil, hj]⟩
      | none =>
        rw [hj] at h
        obtain ⟨left, b, right, rfl, hl, hb⟩ := ih h
        refine ⟨a :: left, b, right, rfl, ?_, ?_⟩
        · rw [firstFault?, hj]
          exact hl
        · rwa [List.append_assoc] at hb
  · rintro ⟨left, a, right, rfl, hl, ha⟩
    rw [firstFault?_append, hl, firstFault?, ha]
    rfl

end

inductive Argument.BadGuard (before : List Argument) (a : Argument) (g : FlagBit) :
    GuardFault → Prop
  | onFlags : a.type = .flags → BadGuard before a g .onFlags
  | bitOutOfRange : a.type ≠ .flags → 32 ≤ g.bit → BadGuard before a g .bitOutOfRange
  | undeclared : a.type ≠ .flags → g.bit < 32 →
      (∀ b ∈ before, b.name = g.flags → b.type ≠ .flags) → BadGuard before a g .undeclared

def Argument.WellGuarded (before : List Argument) (a : Argument) : Prop :=
  ∀ g ∈ a.guard, a.type ≠ .flags ∧ g.bit < 32 ∧ ∃ b ∈ before, b.name = g.flags ∧ b.type = .flags

def WellGuarded (arguments : List Argument) : Prop :=
  ∀ before a behind, arguments = before ++ a :: behind → a.WellGuarded before

theorem Argument.guardFault?_eq_some_iff {before : List Argument} {a : Argument} {g : FlagBit}
    {fault : GuardFault} : a.guardFault? before = some (g, fault) ↔
      a.guard = some g ∧ BadGuard before a g fault := by
  rw [guardFault?]
  cases a.guard with
  | none => simp
  | some g' =>
    simp only [Option.some.injEq]
    constructor
    · intro h
      split at h
      · next ht =>
        cases h
        exact ⟨rfl, .onFlags ht⟩
      · next ht =>
        split at h
        · next hb =>
          cases h
          exact ⟨rfl, .bitOutOfRange ht hb⟩
        · next hb =>
          split at h
          · cases h
          · next hf =>
            cases h
            exact ⟨rfl, .undeclared ht (Nat.lt_of_not_le hb) (by simpa using hf)⟩
    · rintro ⟨rfl, bad⟩
      cases bad with
      | onFlags ht => rw [if_pos ht]
      | bitOutOfRange ht hb => rw [if_neg ht, if_pos hb]
      | undeclared ht hb hf =>
        rw [if_neg ht, if_neg (Nat.not_le.mpr hb), if_neg (by simpa using hf)]

namespace Entry

theorem guardFaultAfter?_eq_firstFault? (entry : String) (before arguments : List Argument) :
    guardFaultAfter? entry before arguments =
      firstFault? (fun left a => (a.guardFault? left).map fun (g, fault) =>
        .guard entry a.name g fault) before arguments := by
  induction arguments generalizing before with
  | nil => rfl
  | cons a rest ih =>
    rw [guardFaultAfter?, firstFault?, ih]
    cases a.guardFault? before with
    | none => rfl
    | some fault => rfl

theorem guardFaultAfter?_eq_none_iff {entry : String} {arguments : List Argument} :
    guardFaultAfter? entry [] arguments = none ↔ WellGuarded arguments := by
  rw [guardFaultAfter?_eq_firstFault?, firstFault?_eq_none_iff]
  simp only [List.nil_append, Option.map_eq_none_iff, guardFault?_eq_none_iff]
  rfl

theorem guardFault?_eq_some_iff {e : Entry} {fault : SchemaFault} :
    e.guardFault? = some fault ↔ ∃ left a right g why, e.arguments = left ++ a :: right ∧
      WellGuarded left ∧ a.guard = some g ∧ a.BadGuard left g why ∧
      fault = .guard e.name a.name g why := by
  rw [guardFault?, guardFaultAfter?_eq_firstFault?, firstFault?_eq_some_iff]
  simp only [← guardFaultAfter?_eq_firstFault?, guardFaultAfter?_eq_none_iff, List.nil_append,
    Option.map_eq_some_iff, Prod.exists, Argument.guardFault?_eq_some_iff]
  constructor
  · rintro ⟨left, a, right, hl, sound, g, why, ⟨hg, bad⟩, rfl⟩
    exact ⟨left, a, right, g, why, hl, sound, hg, bad, rfl⟩
  · rintro ⟨left, a, right, g, why, hl, sound, hg, bad, rfl⟩
    exact ⟨left, a, right, hl, sound, g, why, ⟨hg, bad⟩, rfl⟩

/-- How an entry clashes with the entries `before` or with itself. Its id is looked at first, then
its guards from left to right, and its name last. -/
inductive Clash (before : List Entry) (e : Entry) : SchemaFault → Prop
  | id {b : Entry} : b ∈ before → b.id = e.id → Clash before e (.duplicateId e.id b.name e.name)
  | guard {left right : List Argument} {a : Argument} {g : FlagBit} {why : GuardFault} :
      (∀ b ∈ before, b.id ≠ e.id) → e.arguments = left ++ a :: right → WellGuarded left →
      a.guard = some g → a.BadGuard left g why → Clash before e (.guard e.name a.name g why)
  | name {b : Entry} : (∀ b ∈ before, b.id ≠ e.id) → WellGuarded e.arguments → b ∈ before →
      b.key = e.key → Clash before e (.duplicateName e.kind e.name)

theorem any_key_iff {before : List Entry} {e : Entry} :
    (before.any fun b => b.kind = e.kind && b.name = e.name) ↔ ∃ b ∈ before, b.key = e.key := by
  simp [key]

theorem clash_of_faultAfter? {before : List Entry} {e : Entry} {fault : SchemaFault}
    (h : e.faultAfter? before = some fault) : e.Clash before fault := by
  rw [faultAfter?] at h
  cases hf : before.find? (·.id = e.id) with
  | some first =>
    rw [hf] at h
    cases h
    exact .id (List.mem_of_find?_eq_some hf) (by simpa using List.find?_some hf)
  | none =>
    have new : ∀ b ∈ before, b.id ≠ e.id := by simpa using hf
    rw [hf] at h
    cases hg : e.guardFault? with
    | some cause =>
      obtain ⟨left, a, right, g, why, hl, sound, hag, bad, rfl⟩ := guardFault?_eq_some_iff.mp hg
      rw [hg] at h
      cases h
      exact .guard new hl sound hag bad
    | none =>
      rw [hg] at h
      obtain ⟨taken, h⟩ := Option.ite_none_right_eq_some.mp h
      obtain ⟨b, hb, hk⟩ := any_key_iff.mp taken
      cases h
      exact .name new (guardFaultAfter?_eq_none_iff.mp hg) hb hk

theorem faultAfter?_of_clash {before : List Entry} (ids : (before.map (·.id)).Nodup) {e : Entry}
    {fault : SchemaFault} (h : e.Clash before fault) : e.faultAfter? before = some fault := by
  rw [faultAfter?]
  cases h with
  | id hb hid =>
    -- only one of the entries before has this id
    rw [(find?_eq_some_iff_of_nodup ids).mpr ⟨hb, hid⟩]
  | guard new hl sound hg bad =>
    have none : before.find? (·.id = e.id) = none := by simpa using new
    rw [none, guardFault?_eq_some_iff.mpr ⟨_, _, _, _, _, hl, sound, hg, bad, rfl⟩]
  | name new sound hb hk =>
    have none : before.find? (·.id = e.id) = none := by simpa using new
    rw [none, guardFault?, guardFaultAfter?_eq_none_iff.mpr sound]
    exact if_pos (any_key_iff.mpr ⟨_, hb, hk⟩)

end Entry

namespace Schema

structure Sound (entries : List Entry) : Prop where
  ids : (entries.map (·.id)).Nodup
  keys : (entries.map Entry.key).Nodup
  guards : ∀ e ∈ entries, WellGuarded e.arguments

theorem faultAfter?_eq_none_iff_sound {entries : List Entry} :
    faultAfter? [] entries = none ↔ Sound entries := by
  constructor
  · intro h
    exact ⟨(keys_of_faultAfter? Entry.id_ne_of_faultAfter? h).2,
      (keys_of_faultAfter? Entry.name_ne_of_faultAfter? h).2,
      fun e he => Entry.guardFaultAfter?_eq_none_iff.mp (guardFault?_eq_none h e he)⟩
  · intro h
    have guards (e : Entry) (he : e ∈ entries) : e.guardFault? = none :=
      Entry.guardFaultAfter?_eq_none_iff.mpr (h.guards e he)
    exact faultAfter?_eq_none guards h.ids h.keys

theorem faultAfter?_eq_firstFault? (before entries : List Entry) :
    faultAfter? before entries =
      firstFault? (fun left e => e.faultAfter? left) before entries := by
  induction entries generalizing before with
  | nil => rfl
  | cons e rest ih =>
    rw [faultAfter?, firstFault?, ih]
    cases e.faultAfter? before with
    | none => rfl
    | some fault => rfl

variable {entries : List Entry} {comments : Dict String}

theorem exists_ofEntries_iff_sound (comments : Dict String) :
    (∃ s, ofEntries entries comments = .ok s) ↔ Sound entries := by
  rw [← faultAfter?_eq_none_iff_sound]
  refine ⟨fun ⟨s, h⟩ => (ofEntries_eq_ok_iff.mp h).1, fun sound => ?_⟩
  exact ⟨_, ofEntries_of entries comments sound⟩

theorem ofEntries_eq_error_iff {fault : SchemaFault} :
    ofEntries entries comments = .error fault ↔
      ∃ before e behind, entries = before ++ e :: behind ∧ Sound before ∧
        e.Clash before fault := by
  rw [ofEntries_eq_error_iff_faultAfter?, faultAfter?_eq_firstFault?, firstFault?_eq_some_iff]
  simp only [← faultAfter?_eq_firstFault?, faultAfter?_eq_none_iff_sound, List.nil_append]
  constructor
  · rintro ⟨before, e, behind, rfl, sound, h⟩
    exact ⟨before, e, behind, rfl, sound, Entry.clash_of_faultAfter? h⟩
  · rintro ⟨before, e, behind, rfl, sound, h⟩
    exact ⟨before, e, behind, rfl, sound, Entry.faultAfter?_of_clash sound.ids h⟩

end Schema

end TypeLang
