import TypeLang.Proofs.Codec.Compiled
import TypeLang.Proofs.Schema.Guards
import TypeLang.Proofs.Schema.Unions

namespace TypeLang

open Decl

namespace Plan

/-- Why a type of a schema cannot be laid out: something that only an argument can be is a part of
it, or a bare name in it has no constructor to stand for, or more than one. -/
inductive Unlaid (s : Schema) : Ty → PlanFault.Reason → Prop
  | presence : Unlaid s .presence (.onlyArgument .presence)
  | flags : Unlaid s .flags (.onlyArgument .flags)
  | unknown {name : String} :
      (∀ e ∈ s.entries, e.kind = .constructor → e.name ≠ name) → (∀ u ∈ s.unions, u.name ≠ name) →
      Unlaid s (.named name true) (.unknownBare name)
  | ambiguous {u : Union} :
      (∀ e ∈ s.entries, e.kind = .constructor → e.name ≠ u.name) → u ∈ s.unions →
      u.members.length ≠ 1 → Unlaid s (.named u.name true) (.ambiguousBare u.name u.members.length)
  | vector {elem : Ty} {r : PlanFault.Reason} (isBoxed : Bool) :
      Unlaid s elem r → Unlaid s (.vector elem isBoxed) r

section

variable {entries : List Entry} {comments : Dict String} {s : Schema}

theorem unlaid_of_bareTarget {name : String} {r : PlanFault.Reason}
    (h : bareTarget s name = .error r) : Unlaid s (.named name true) r := by
  rw [bareTarget] at h
  split at h
  · cases h
  · next hf =>
    have none := Schema.ne_of_find? hf
    split at h
    · next hu =>
      cases h
      exact .unknown none (Schema.union?_eq_none_iff.mp hu)
    · next u hu =>
      obtain ⟨hm, rfl⟩ := Schema.union?_eq_some_iff.mp hu
      split at h
      · next member hmember =>
        split at h
        · cases h
        · next hfind =>
          -- a member of a union is a constructor of the schema
          obtain ⟨e, he, hn, hname⟩ :=
            (Schema.mem_members_iff hm).mp (hmember ▸ List.mem_singleton_self member)
          exact absurd hname (Schema.ne_of_find? hfind e he (Entry.kind_of_unionName? hn))
      · next hl =>
        cases h
        refine .ambiguous none hm fun hone => ?_
        obtain ⟨member, hmember⟩ := List.length_eq_one_iff.mp hone
        exact hl member hmember

theorem unlaid_of_layout {ty : Ty}
    {r : PlanFault.Reason} (h : layout s ty = .error r) : Unlaid s ty r := by
  induction ty with
  | named name bare =>
    cases bare with
    | false => cases h
    | true => exact unlaid_of_bareTarget (except_map_eq_error.mp h)
  | vector elem isBoxed ih => exact .vector isBoxed (ih (except_map_eq_error.mp h))
  | presence =>
    cases h
    exact .presence
  | flags =>
    cases h
    exact .flags
  | int | long | int128 | int256 | double | string | bytes | bool | generic => cases h

end

def SlotsOf (slots : Dict Nat) (before : List Argument) : Prop :=
  ∀ name, (slots.get? name).isSome ↔ ∃ b ∈ before, b.name = name ∧ b.type = .flags

theorem slotsOf_nil : SlotsOf [] [] := by simp [SlotsOf]

theorem SlotsOf.flags {slots : Dict Nat} {before : List Argument} (h : SlotsOf slots before)
    {a : Argument} (ha : a.type = .flags) (slot : Nat) :
    SlotsOf (Dict.insert a.name slot slots) (before ++ [a]) := by
  intro name
  by_cases hn : name = a.name
  · subst hn
    simp [ha]
  · rw [Dict.get?_insert_of_ne hn, h name]
    simp [Ne.symm hn]

theorem SlotsOf.other {slots : Dict Nat} {before : List Argument} (h : SlotsOf slots before)
    {a : Argument} (ha : a.type ≠ .flags) : SlotsOf slots (before ++ [a]) := by
  intro name
  rw [h name]
  simp [ha]

theorem exists_gate {slots : Dict Nat} {before : List Argument} (hs : SlotsOf slots before)
    {a : Argument} (h : a.guardFault? before = none) :
    ∃ g, gate slots a = .ok g ∧ (a.type = .flags → g = none) := by
  rw [gate]
  cases hg : a.guard with
  | none => exact ⟨none, rfl, fun _ => rfl⟩
  | some g =>
    obtain ⟨hn, hb, hflags⟩ := Entry.guardFault?_eq_none_iff.mp h g hg
    obtain ⟨slot, hslot⟩ := Option.isSome_iff_exists.mp ((hs g.flags).mpr hflags)
    dsimp only
    rw [hslot]
    dsimp only
    rw [if_neg (Nat.not_le.mpr hb)]
    exact ⟨_, rfl, fun ha => absurd ha hn⟩

theorem exists_of_fieldPlans_error {s : Schema} {entry : String} {slots : Dict Nat}
    {before args : List Argument} {r : PlanFault.Reason} (hs : SlotsOf slots before)
    (sound : Entry.guardFaultAfter? entry before args = none)
    (h : fieldPlans s slots args = .error r) :
    ∃ a ∈ args, a.type ≠ .flags ∧ a.type ≠ .presence ∧ layout s a.type = .error r := by
  induction args generalizing slots before with
  | nil => cases h
  | cons a rest ih =>
    rw [Entry.guardFaultAfter?] at sound
    split at sound
    · cases sound
    · next ha =>
      obtain ⟨g, hg, hflags⟩ := exists_gate hs ha
      have later : ∀ {slots}, SlotsOf slots (before ++ [a]) → fieldPlans s slots rest = .error r →
          ∃ b ∈ a :: rest, b.type ≠ .flags ∧ b.type ≠ .presence ∧ layout s b.type = .error r := by
        intro slots hs h
        obtain ⟨b, hb, h⟩ := ih hs sound h
        exact ⟨b, List.mem_cons_of_mem a hb, h⟩
      rw [fieldPlans, hg] at h
      rcases except_bind_eq_error.mp h with h | ⟨_, hok, h⟩
      · cases h
      cases hok
      dsimp only at h
      split at h
      · next ht =>
        rw [hflags ht] at h
        rcases except_bind_eq_error.mp h with h | ⟨_, hok, h⟩
        · cases h
        cases hok
        rcases except_bind_eq_error.mp h with h | ⟨_, -, h⟩
        · exact later (hs.flags ht _) h
        · cases h
      · next ht =>
        rcases except_bind_eq_error.mp h with h | ⟨_, hok, h⟩
        · cases h
        cases hok
        rcases except_bind_eq_error.mp h with h | ⟨_, -, h⟩
        · exact later (hs.other (by simp [ht])) h
        · cases h
      · next hflags hpresence =>
        rcases except_bind_eq_error.mp h with h | ⟨l, -, h⟩
        · exact ⟨a, List.mem_cons_self, hflags, hpresence, h⟩
        rcases except_bind_eq_error.mp h with h | ⟨_, hok, h⟩
        · cases h
        cases hok
        rcases except_bind_eq_error.mp h with h | ⟨_, -, h⟩
        · exact later (hs.other hflags) h
        · cases h

end Plan

def PlanFault.Reason.IsGuard : PlanFault.Reason → Prop
  | .undeclaredFlags .. | .bitOutOfRange .. | .guardedFlags _ => True
  | _ => False

def Entry.valueTypes (e : Entry) : List Ty :=
  (e.arguments.map (·.type)).filter (fun ty => ty ≠ .flags ∧ ty ≠ .presence) ++
    match e.kind with
    | .constructor => []
    | .method => [e.type]

theorem Plan.Unlaid.not_isGuard {s : Schema} {ty : Ty} {r : PlanFault.Reason}
    (h : Plan.Unlaid s ty r) : ¬ r.IsGuard := by
  induction h with
  | presence | flags | unknown | ambiguous => exact fun h => h
  | vector _ _ ih => exact ih

/-- An entry of a schema lacks a plan only for the sake of a type. -/
theorem Plan.exists_unlaid {entries : List Entry} {comments : Dict String} {s : Schema}
    (hs : Schema.ofEntries entries comments = .ok s) {e : Entry} (he : e ∈ s.entries)
    {fault : PlanFault} (h : ofEntry s e = .error fault) :
    e.name = fault.entry ∧ ∃ ty ∈ e.valueTypes, Unlaid s ty fault.reason := by
  have sound := Schema.guardFault?_eq_none (Schema.faultAfter?_of_ofEntries hs) e he
  rw [ofEntry] at h
  obtain ⟨r, hr, rfl⟩ := except_mapError_eq_error.mp h
  refine ⟨rfl, ?_⟩
  rcases except_bind_eq_error.mp hr with hr | ⟨fields, -, hr⟩
  · obtain ⟨a, ha, hflags, hpresence, hr⟩ := exists_of_fieldPlans_error slotsOf_nil sound hr
    refine ⟨a.type, List.mem_append_left _ (List.mem_filter.mpr ⟨?_, ?_⟩), unlaid_of_layout hr⟩
    · exact List.mem_map_of_mem ha
    · simp [hflags, hpresence]
  · rcases except_bind_eq_error.mp hr with hr | ⟨result, -, hr⟩
    · rw [resultLayout] at hr
      split at hr
      · cases hr
      · next hk =>
        refine ⟨e.type, ?_, unlaid_of_layout (except_map_eq_error.mp hr)⟩
        simp [Entry.valueTypes, hk]
    · cases hr

namespace Codec

/-- Who reads a text, who makes a schema and who makes a codec agree about guards: a text that can
be read makes a schema without bad guards, and a schema without a codec has a type that cannot be
laid out. -/
theorem guards_agree :
    (∀ rule text fault, Schema.parse rule text = .error fault → ¬ fault.IsGuard) ∧
      (∀ rule text fault, Layered.parse rule text = .error fault → ¬ fault.IsGuard) ∧
      ∀ s : Schema, s.Obtained → ∀ config unpack fault, ofSchema s config unpack = .error fault →
        ¬ fault.reason.IsGuard ∧ ∃ e ∈ s.entries, e.name = fault.entry ∧
          ∃ ty ∈ e.valueTypes, Plan.Unlaid s ty fault.reason := by
  refine ⟨?_, ?_, ?_⟩
  · intro rule text fault h
    exact Schema.not_isGuard_of_parse h
  · intro rule text fault h
    exact Schema.not_isGuard_of_parse (Schema.parse_eq_error_of_layered h)
  · intro s obtained config unpack fault h
    obtain ⟨entries, comments, hs⟩ := obtained.exists_entries
    rcases except_bind_eq_error.mp h with h | ⟨plans, -, h⟩
    · obtain ⟨e, he, h⟩ := exists_of_mapM_error h
      obtain ⟨hn, ty, hty, unlaid⟩ := Plan.exists_unlaid hs he h
      exact ⟨unlaid.not_isGuard, e, he, hn, ty, hty, unlaid⟩
    · cases h

/-- `box#1 flags:# x:flags.3?vector<true> = Box` -/
def box : Entry where
  kind := .constructor
  name := "box"
  id := 1
  type := .named "Box" false
  generics := []
  arguments := [⟨"flags", .flags, none⟩, ⟨"x", .vector .presence false, some ⟨"flags", 3⟩⟩]
  comment := none

theorem guards_agree_box : ∃ s fault, Schema.ofEntries [box] [] = .ok s ∧
    ofSchema s {} = .error fault ∧ ¬ fault.reason.IsGuard ∧
      ∃ e ∈ s.entries, e.name = fault.entry ∧ ∃ ty ∈ e.valueTypes, Plan.Unlaid s ty fault.reason := by
  have hs := Schema.ofEntries_of [box] [] rfl
  have hc : ofSchema (.of [box] [] rfl) {} = .error ⟨"box", .onlyArgument .presence⟩ := rfl
  exact ⟨_, _, hs, hc, guards_agree.2.2 _ (.entries hs) _ _ _ hc⟩

end Codec

end TypeLang
