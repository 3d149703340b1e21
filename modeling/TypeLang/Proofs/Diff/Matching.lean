import Mathlib.Data.List.Nodup
import TypeLang.Schema.Diff

/-!
Lists whose members are matched by their keys. Changes between two such lists can be replayed on the
old one, which gives the new one up to order and up to what the comparison looks over.
-/

namespace TypeLang

/-- How members of two lists are compared: what they are matched by, what tells two members of one
key apart, how this is put right, and what of a member counts. -/
structure Matching (α μ κ σ : Type) where
  key : α → κ
  title : μ → κ
  change? : α → α → Option μ
  amend : μ → α → α
  shape : α → σ

inductive Fate : Type
  | added
  | removed
  | modified
  | unchanged

namespace Matching

variable {α μ κ σ : Type}

/-- Whether two members of one key are told apart just by what counts, and their change turns the
old one into the new one. -/
structure Lawful (m : Matching α μ κ σ) (old new : List α) : Prop where
  keyed : ∀ a b, m.shape a = m.shape b → m.key a = m.key b
  change?_eq_none : ∀ a ∈ old, ∀ b ∈ new, m.key a = m.key b →
    (m.change? a b = none ↔ m.shape a = m.shape b)
  amend : ∀ a ∈ old, ∀ b ∈ new, m.key a = m.key b → ∀ d, m.change? a b = some d →
    m.title d = m.key b ∧ m.shape (m.amend d a) = m.shape b

def Meets (m : Matching α μ κ σ) (old new : List α) (c : Changes α μ) (k : κ) : Fate → Prop
  | .added => ∃ b ∈ c.added, m.key b = k
  | .removed => ∃ a ∈ c.removed, m.key a = k
  | .modified => ∃ d ∈ c.modified, m.title d = k
  | .unchanged => ∃ a ∈ old, ∃ b ∈ new, m.key a = k ∧ m.key b = k ∧ m.shape a = m.shape b

variable {m : Matching α μ κ σ} {old new : List α} {c : Changes α μ}

theorem Lawful.inj (law : m.Lawful old new) {l : List α} (h : (l.map m.key).Nodup) {a b : α}
    (ha : a ∈ l) (hb : b ∈ l) (hs : m.shape a = m.shape b) : a = b :=
  List.inj_on_of_nodup_map h ha hb (law.keyed a b hs)

variable [DecidableEq κ]

structure Compares (m : Matching α μ κ σ) (old new : List α) (c : Changes α μ) : Prop where
  added : c.added = new.filter fun b => m.key b ∉ old.map m.key
  removed : c.removed = old.filter fun a => m.key a ∉ new.map m.key
  modified : ∀ d, d ∈ c.modified ↔ ∃ a ∈ old, ∃ b ∈ new, m.key a = m.key b ∧ m.change? a b = some d

theorem filter_isNone {α κ : Type} [DecidableEq κ] {key : α → κ} {l : List α} {find : κ → Option α}
    (h : ∀ k a, find k = some a ↔ a ∈ l ∧ key a = k) (l' : List α) :
    (l'.filter fun b => (find (key b)).isNone) = l'.filter fun b => key b ∉ l.map key := by
  refine List.filter_congr fun b _ => ?_
  have missing : find (key b) = none ↔ key b ∉ l.map key := by
    rw [Option.eq_none_iff_forall_ne_some]
    simp [h]
  rw [Bool.eq_iff_iff, Option.isNone_iff_eq_none, missing, decide_eq_true_eq]

theorem compares_of_find {findOld findNew : κ → Option α}
    (ho : ∀ k a, findOld k = some a ↔ a ∈ old ∧ m.key a = k)
    (hn : ∀ k b, findNew k = some b ↔ b ∈ new ∧ m.key b = k)
    (added : c.added = new.filter fun b => (findOld (m.key b)).isNone)
    (removed : c.removed = old.filter fun a => (findNew (m.key a)).isNone)
    (modified : c.modified = old.filterMap fun a => (findNew (m.key a)).bind (m.change? a)) :
    m.Compares old new c where
  added := added.trans (filter_isNone ho new)
  removed := removed.trans (filter_isNone hn old)
  modified d := by
    simp only [modified, List.mem_filterMap, Option.bind_eq_some_iff, hn]
    constructor
    · rintro ⟨a, ha, b, ⟨hb, hk⟩, hd⟩
      exact ⟨a, ha, b, hb, hk.symm, hd⟩
    · rintro ⟨a, ha, b, hb, hk, hd⟩
      exact ⟨a, ha, b, ⟨hb, hk.symm⟩, hd⟩

def amended (m : Matching α μ κ σ) (c : Changes α μ) (a : α) : α :=
  match c.modified.find? (m.title · = m.key a) with
  | none => a
  | some d => m.amend d a

/-- Applies changes: what is removed goes, what is modified is put right where it stands, and what
is added comes last. -/
def replay (m : Matching α μ κ σ) (c : Changes α μ) (old : List α) : List α :=
  (old.filter fun a => m.key a ∉ c.removed.map m.key).map (m.amended c) ++ c.added

theorem shape_amended (law : m.Lawful old new) (h : m.Compares old new c)
    (ho : (old.map m.key).Nodup) (hn : (new.map m.key).Nodup) {a b : α} (ha : a ∈ old)
    (hb : b ∈ new) (hk : m.key a = m.key b) : m.shape (m.amended c a) = m.shape b := by
  rw [amended]
  cases hf : c.modified.find? (m.title · = m.key a) with
  | none =>
    refine (law.change?_eq_none a ha b hb hk).mp ?_
    by_contra hc
    obtain ⟨d, hd⟩ := Option.ne_none_iff_exists'.mp hc
    have hm : d ∈ c.modified := (h.modified d).mpr ⟨a, ha, b, hb, hk, hd⟩
    have ht := (law.amend a ha b hb hk d hd).1
    simpa [ht, hk] using List.find?_eq_none.mp hf d hm
  | some d =>
    have ht : m.title d = m.key a := by simpa using List.find?_some hf
    obtain ⟨a', ha', b', hb', hk', hd⟩ := (h.modified d).mp (List.mem_of_find?_eq_some hf)
    obtain ⟨ht', hs⟩ := law.amend a' ha' b' hb' hk' d hd
    have keys : m.key b' = m.key a := ht'.symm.trans ht
    obtain rfl := List.inj_on_of_nodup_map ho ha' ha (hk'.trans keys)
    obtain rfl := List.inj_on_of_nodup_map hn hb' hb (keys.trans hk)
    exact hs

theorem key_not_mem_removed_iff (h : m.Compares old new c) {a : α} (ha : a ∈ old) :
    m.key a ∉ c.removed.map m.key ↔ m.key a ∈ new.map m.key := by
  rw [← not_iff_not, not_not, h.removed]
  constructor
  · intro hr
    obtain ⟨a', ha', hk⟩ := List.mem_map.mp hr
    rw [← hk]
    simpa using (List.mem_filter.mp ha').2
  · intro hn
    exact List.mem_map_of_mem (List.mem_filter.mpr ⟨ha, by simpa using hn⟩)

theorem amended_perm (law : m.Lawful old new) (h : m.Compares old new c)
    (ho : (old.map m.key).Nodup) (hn : (new.map m.key).Nodup) :
    (((old.filter fun a => m.key a ∈ new.map m.key).map (m.amended c)).map m.shape).Perm
      ((new.filter fun b => m.key b ∈ old.map m.key).map m.shape) := by
  have partner : ∀ a ∈ old, m.key a ∈ new.map m.key → ∃ b ∈ new, m.key a = m.key b ∧
      m.shape (m.amended c a) = m.shape b := by
    intro a ha hk
    obtain ⟨b, hb, hk⟩ := List.mem_map.mp hk
    exact ⟨b, hb, hk.symm, shape_amended law h ho hn ha hb hk.symm⟩
  simp only [List.map_map]
  refine (List.perm_ext_iff_of_nodup ?_ ?_).mpr fun s => ?_
  · refine List.Nodup.map_on (fun a ha a' ha' hs => ?_) (ho.of_map m.key |>.filter _)
    simp only [List.mem_filter, decide_eq_true_eq] at ha ha'
    obtain ⟨b, -, hk, hb⟩ := partner a ha.1 ha.2
    obtain ⟨b', -, hk', hb'⟩ := partner a' ha'.1 ha'.2
    have keys : m.key a = m.key a' := by
      rw [hk, hk', law.keyed b b' (hb.symm.trans (hs.trans hb'))]
    exact List.inj_on_of_nodup_map ho ha.1 ha'.1 keys
  · refine List.Nodup.map_on (fun b hb b' hb' hs => ?_) (hn.of_map m.key |>.filter _)
    exact law.inj hn (List.mem_filter.mp hb).1 (List.mem_filter.mp hb').1 hs
  · simp only [List.mem_map, List.mem_filter, decide_eq_true_eq]
    constructor
    · rintro ⟨a, ⟨ha, b, hb, hk⟩, rfl⟩
      exact ⟨b, ⟨hb, a, ha, hk.symm⟩, (shape_amended law h ho hn ha hb hk.symm).symm⟩
    · rintro ⟨b, ⟨hb, a, ha, hk⟩, rfl⟩
      exact ⟨a, ⟨ha, b, hb, hk.symm⟩, shape_amended law h ho hn ha hb hk⟩

theorem replay_perm (law : m.Lawful old new) (h : m.Compares old new c)
    (ho : (old.map m.key).Nodup) (hn : (new.map m.key).Nodup) :
    ((m.replay c old).map m.shape).Perm (new.map m.shape) := by
  have stays : (old.filter fun a => m.key a ∉ c.removed.map m.key) =
      old.filter fun a => m.key a ∈ new.map m.key :=
    List.filter_congr fun a ha => by simp only [key_not_mem_removed_iff h ha]
  have parts : ((new.filter fun b => m.key b ∈ old.map m.key) ++ c.added).Perm new := by
    rw [h.added]
    simpa only [decide_not] using List.filter_append_perm (fun b => m.key b ∈ old.map m.key) new
  rw [replay, stays, List.map_append]
  refine ((amended_perm law h ho hn).append_right _).trans ?_
  rw [← List.map_append]
  exact parts.map m.shape

theorem isEmpty_iff (law : m.Lawful old new) (h : m.Compares old new c)
    (ho : (old.map m.key).Nodup) (hn : (new.map m.key).Nodup) :
    c.isEmpty ↔ (old.map m.shape).Perm (new.map m.shape) := by
  simp only [Changes.isEmpty, Bool.and_eq_true, List.isEmpty_iff]
  constructor
  · rintro ⟨⟨added, removed⟩, modified⟩
    have same : m.replay c old = old := by
      have id : m.amended c = fun a => a := by
        funext a
        rw [amended, modified]
        rfl
      rw [replay, added, removed, id]
      simp
    have replayed := replay_perm law h ho hn
    rwa [same] at replayed
  · intro perm
    have forward : ∀ a ∈ old, ∃ b ∈ new, m.shape b = m.shape a := fun a ha =>
      List.mem_map.mp (perm.mem_iff.mp (List.mem_map_of_mem ha))
    have backward : ∀ b ∈ new, ∃ a ∈ old, m.shape a = m.shape b := fun b hb =>
      List.mem_map.mp (perm.mem_iff.mpr (List.mem_map_of_mem hb))
    refine ⟨⟨?_, ?_⟩, ?_⟩
    · rw [h.added, List.filter_eq_nil_iff]
      intro b hb
      obtain ⟨a, ha, hs⟩ := backward b hb
      rw [← law.keyed a b hs]
      simpa using ⟨a, ha, rfl⟩
    · rw [h.removed, List.filter_eq_nil_iff]
      intro a ha
      obtain ⟨b, hb, hs⟩ := forward a ha
      rw [← law.keyed b a hs]
      simpa using ⟨b, hb, rfl⟩
    · rw [List.eq_nil_iff_forall_not_mem]
      intro d hd
      obtain ⟨a, ha, b, hb, hk, hd⟩ := (h.modified d).mp hd
      obtain ⟨b', hb', hs⟩ := forward a ha
      obtain rfl := List.inj_on_of_nodup_map hn hb' hb ((law.keyed b' a hs).trans hk)
      rw [(law.change?_eq_none a ha b' hb hk).mpr hs.symm] at hd
      cases hd

section

variable (law : m.Lawful old new) (h : m.Compares old new c) {k : κ}

include h in
theorem meets_added_iff : m.Meets old new c k .added ↔ k ∈ new.map m.key ∧ k ∉ old.map m.key := by
  rw [Meets, h.added]
  constructor
  · rintro ⟨b, hb, rfl⟩
    obtain ⟨hm, hk⟩ := List.mem_filter.mp hb
    exact ⟨List.mem_map_of_mem hm, of_decide_eq_true hk⟩
  · rintro ⟨hm, hk⟩
    obtain ⟨b, hb, rfl⟩ := List.mem_map.mp hm
    exact ⟨b, List.mem_filter.mpr ⟨hb, decide_eq_true hk⟩, rfl⟩

include h in
theorem meets_removed_iff :
    m.Meets old new c k .removed ↔ k ∈ old.map m.key ∧ k ∉ new.map m.key := by
  rw [Meets, h.removed]
  constructor
  · rintro ⟨a, ha, rfl⟩
    obtain ⟨hm, hk⟩ := List.mem_filter.mp ha
    exact ⟨List.mem_map_of_mem hm, of_decide_eq_true hk⟩
  · rintro ⟨hm, hk⟩
    obtain ⟨a, ha, rfl⟩ := List.mem_map.mp hm
    exact ⟨a, List.mem_filter.mpr ⟨ha, decide_eq_true hk⟩, rfl⟩

include law h in
theorem meets_modified_iff : m.Meets old new c k .modified ↔
    ∃ a ∈ old, ∃ b ∈ new, m.key a = k ∧ m.key b = k ∧ m.shape a ≠ m.shape b := by
  constructor
  · rintro ⟨d, hd, rfl⟩
    obtain ⟨a, ha, b, hb, hk, hd⟩ := (h.modified d).mp hd
    have ht := (law.amend a ha b hb hk d hd).1
    refine ⟨a, ha, b, hb, hk.trans ht.symm, ht.symm, fun hs => ?_⟩
    rw [(law.change?_eq_none a ha b hb hk).mpr hs] at hd
    cases hd
  · rintro ⟨a, ha, b, hb, rfl, hk, hs⟩
    have hc := mt (law.change?_eq_none a ha b hb hk.symm).mp hs
    obtain ⟨d, hd⟩ := Option.ne_none_iff_exists'.mp hc
    exact ⟨d, (h.modified d).mpr ⟨a, ha, b, hb, hk.symm, hd⟩,
      (law.amend a ha b hb hk.symm d hd).1.trans hk⟩

include law h in
theorem meets_iff_of_not_mem_new (ho : k ∈ old.map m.key) (hn : k ∉ new.map m.key) {fate : Fate} :
    m.Meets old new c k fate ↔ fate = .removed := by
  have missing : ∀ b ∈ new, m.key b ≠ k := fun b hb hk => hn (List.mem_map.mpr ⟨b, hb, hk⟩)
  cases fate with
  | added => simp [meets_added_iff h, hn]
  | removed => simp [meets_removed_iff h, ho, hn]
  | modified =>
    rw [meets_modified_iff law h]
    simpa using fun a _ b hb _ hk => absurd hk (missing b hb)
  | unchanged => simpa [Meets] using fun a _ b hb _ hk => absurd hk (missing b hb)

include law h in
theorem meets_iff_of_not_mem_old (ho : k ∉ old.map m.key) (hn : k ∈ new.map m.key) {fate : Fate} :
    m.Meets old new c k fate ↔ fate = .added := by
  have missing : ∀ a ∈ old, m.key a ≠ k := fun a ha hk => ho (List.mem_map.mpr ⟨a, ha, hk⟩)
  cases fate with
  | added => simp [meets_added_iff h, ho, hn]
  | removed => simp [meets_removed_iff h, ho]
  | modified =>
    rw [meets_modified_iff law h]
    simpa using fun a ha b _ hk => absurd hk (missing a ha)
  | unchanged => simpa [Meets] using fun a ha b _ hk => absurd hk (missing a ha)

include law h in
theorem meets_iff_of_mem (ho : (old.map m.key).Nodup) (hn : (new.map m.key).Nodup) {a b : α}
    (ha : a ∈ old) (hb : b ∈ new) (hak : m.key a = k) (hbk : m.key b = k) {fate : Fate} :
    m.Meets old new c k fate ↔
      fate = .unchanged ∧ m.shape a = m.shape b ∨ fate = .modified ∧ m.shape a ≠ m.shape b := by
  have only : ∀ P : α → α → Prop,
      (∃ a' ∈ old, ∃ b' ∈ new, m.key a' = k ∧ m.key b' = k ∧ P a' b') ↔ P a b := by
    refine fun P => ⟨?_, fun hP => ⟨a, ha, b, hb, hak, hbk, hP⟩⟩
    rintro ⟨a', ha', b', hb', hak', hbk', hP⟩
    rwa [List.inj_on_of_nodup_map ho ha' ha (hak'.trans hak.symm),
      List.inj_on_of_nodup_map hn hb' hb (hbk'.trans hbk.symm)] at hP
  have hko : k ∈ old.map m.key := List.mem_map.mpr ⟨a, ha, hak⟩
  have hkn : k ∈ new.map m.key := List.mem_map.mpr ⟨b, hb, hbk⟩
  cases fate with
  | added => simp [meets_added_iff h, hko]
  | removed => simp [meets_removed_iff h, hkn]
  | modified => simp [meets_modified_iff law h, only]
  | unchanged => simp [Meets, only]

include law h in
theorem existsUnique_fate (ho : (old.map m.key).Nodup) (hn : (new.map m.key).Nodup)
    (hk : k ∈ old.map m.key ∨ k ∈ new.map m.key) : ∃! fate, m.Meets old new c k fate := by
  by_cases hko : k ∈ old.map m.key
  · by_cases hkn : k ∈ new.map m.key
    · obtain ⟨a, ha, hak⟩ := List.mem_map.mp hko
      obtain ⟨b, hb, hbk⟩ := List.mem_map.mp hkn
      simp only [meets_iff_of_mem law h ho hn ha hb hak hbk]
      by_cases hs : m.shape a = m.shape b
      · simp [hs]
      · simp [hs]
    · simp only [meets_iff_of_not_mem_new law h hko hkn]
      exact existsUnique_eq
  · simp only [meets_iff_of_not_mem_old law h hko (hk.resolve_left hko)]
    exact existsUnique_eq

end

end Matching

end TypeLang
