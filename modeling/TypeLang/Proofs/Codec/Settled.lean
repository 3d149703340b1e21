import Mathlib.Logic.Function.Iterate
import Mathlib.Logic.Relation
import TypeLang.Proofs.Codec.Width
import TypeLang.Proofs.Schema.Guards

namespace TypeLang

def saturatingSum (ns : List Nat) : Nat := ns.foldl (fun sum n => saturate (sum + n)) 0

theorem foldl_saturate (ns : List Nat) (sum : Nat) :
    ns.foldl (fun sum n => saturate (sum + n)) (saturate sum) = saturate (sum + ns.sum) := by
  induction ns generalizing sum with
  | nil => rfl
  | cons n ns ih =>
    have step : saturate (saturate sum + n) = saturate (sum + n) := by
      simp only [saturate]
      omega
    rw [List.foldl_cons, step, ih, List.sum_cons, Nat.add_assoc]

/-- The constructors whose bodies stand within a body whenever there is one. -/
def Plan.required (p : Plan) : List UInt32 := p.fields.filterMap fun f =>
  match f.role with
  | .value (.bare target) none => some target
  | _ => none

theorem Plan.width_eq (p : Plan) (w : Widths) :
    p.width w = saturatingSum (p.fields.map (·.width w)) := by
  have sum := foldl_saturate (p.fields.map (·.width w)) 0
  rw [Nat.zero_add, List.sum_eq_foldr, List.foldr_map] at sum
  exact sum.symm

namespace Widths

def Requires (plans : List Plan) (a b : UInt32) : Prop := ∃ p ∈ plans, p.id = a ∧ b ∈ p.required

def Acyclic (plans : List Plan) : Prop := ∀ id, ¬ Relation.TransGen (Requires plans) id id

/-- Each width is the sum of those of the fields. -/
def Settled (plans : List Plan) (w : Widths) : Prop :=
  ∀ p ∈ plans, w.body p.id = saturatingSum (p.fields.map (·.width w))

/-- The widths in the course of a round, as one plan after the other gets its own anew. -/
def steps : List Plan → Widths → List Widths
  | [], w => [w]
  | p :: rest, w => w :: steps rest (w.put p.id (p.width w))

def stepsOf (plans : List Plan) : (rounds : Nat) → Widths → List Widths
  | 0, w => [w]
  | n + 1, w =>
    let next := round plans w
    if next = w then steps plans w else steps plans w ++ stepsOf plans n next

def course (plans : List Plan) : List Widths :=
  stepsOf plans (plans.length + 1) (plans.map fun p => (p.id, 0))

def Le (w w' : Widths) : Prop := ∀ id, w.body id ≤ w'.body id

theorem Le.refl (w : Widths) : w.Le w := fun _ => Nat.le_refl _

theorem Le.trans {u v w : Widths} (h : u.Le v) (h' : v.Le w) : u.Le w :=
  fun id => Nat.le_trans (h id) (h' id)

end Widths

section

variable {w w' : Widths}

theorem FieldPlan.width_mono (h : w.Le w') (f : FieldPlan) : f.width w ≤ f.width w' := by
  rw [FieldPlan.width, FieldPlan.width]
  split
  · exact Nat.le_refl _
  · exact Nat.le_refl _
  · exact Nat.le_refl _
  · next layout _ =>
    cases layout with
    | bare target => exact h target
    | _ => exact Nat.le_refl _

theorem Plan.width_mono (h : w.Le w') (p : Plan) : p.width w ≤ p.width w' := by
  have sum : p.fields.foldr (fun f rest => f.width w + rest) 0 ≤
      p.fields.foldr (fun f rest => f.width w' + rest) 0 := by
    induction p.fields with
    | nil => exact Nat.le_refl _
    | cons f rest ih => exact Nat.add_le_add (f.width_mono h) ih
  rw [Plan.width, Plan.width, saturate, saturate]
  omega

theorem Plan.width_congr {p : Plan} (h : ∀ id ∈ p.required, w.body id = w'.body id) :
    p.width w = p.width w' := by
  have same : ∀ f ∈ p.fields, f.width w = f.width w' := by
    intro f hf
    rw [FieldPlan.width, FieldPlan.width]
    split
    · rfl
    · rfl
    · rfl
    · next layout role =>
      cases layout with
      | bare target => exact h target (List.mem_filterMap.mpr ⟨f, hf, by rw [role]⟩)
      | _ => rfl
  rw [width_eq, width_eq, List.map_congr_left same]

end

namespace Widths

open Codec

section

variable {plans : List Plan} (ids : (plans.map (·.id)).Nodup) {w w' : Widths}

theorem body_put_of_ne {id other : UInt32} (ne : other ≠ id) (width : Nat) (w : Widths) :
    (w.put id width).body other = w.body other := by
  rcases body_put id other width w with h | ⟨h, -⟩
  · exact h
  · exact absurd h ne

theorem body_put_self {id : UInt32} {w : Widths} (h : id ∈ w.map (·.1)) (width : Nat) :
    (w.put id width).body id = width := by
  induction w with
  | nil => cases h
  | cons row w ih =>
    obtain ⟨i, v⟩ := row
    rw [put_cons, body, List.lookup_cons]
    by_cases hi : i = id
    · simp [hi]
    · rw [List.map_cons, List.mem_cons] at h
      have other : (id == i) = false := by simpa using Ne.symm hi
      rw [other]
      exact ih (h.resolve_left (Ne.symm hi))

theorem body_round_of_not_mem {id : UInt32} {plans : List Plan} (h : ∀ p ∈ plans, p.id ≠ id)
    (w : Widths) : (round plans w).body id = w.body id := by
  induction plans generalizing w with
  | nil => rfl
  | cons p rest ih =>
    rw [List.forall_mem_cons] at h
    exact (ih h.2 _).trans (body_put_of_ne h.1.symm _ w)

theorem keys_iterate (plans : List Plan) (n : Nat) (w : Widths) :
    ((round plans)^[n] w).map (·.1) = w.map (·.1) := by
  induction n with
  | zero => rfl
  | succ n ih => rw [Function.iterate_succ_apply', keys_round, ih]

theorem body_iterate_of_not_mem {id : UInt32} {plans : List Plan} (h : ∀ p ∈ plans, p.id ≠ id)
    (n : Nat) (w : Widths) : ((round plans)^[n] w).body id = w.body id := by
  induction n with
  | zero => rfl
  | succ n ih => rw [Function.iterate_succ_apply', body_round_of_not_mem h, ih]

theorem mem_steps_self (plans : List Plan) (w : Widths) : w ∈ steps plans w := by
  cases plans with
  | nil => exact List.mem_cons_self
  | cons p rest => exact List.mem_cons_self

/-- Each width is at most what it would be if it were found anew. -/
def Growing (plans : List Plan) (w : Widths) : Prop := ∀ p ∈ plans, w.body p.id ≤ p.width w

theorem Growing.le_put (h : Growing plans w) {p : Plan} (hp : p ∈ plans) :
    w.Le (w.put p.id (p.width w)) := by
  intro id
  rcases body_put p.id id (p.width w) w with he | ⟨rfl, he⟩
  · exact Nat.le_of_eq he.symm
  · rw [he]
    exact h p hp

structure Rises (plans part : List Plan) (w : Widths) : Prop where
  growing : Growing plans (round part w)
  le : ∀ v ∈ steps part w, w.Le v ∧ v.Le (round part w)
  ordered : (steps part w).Pairwise Le

include ids

theorem Growing.put (h : Growing plans w) {p : Plan} (hp : p ∈ plans) :
    Growing plans (w.put p.id (p.width w)) := by
  intro q hq
  have le := h.le_put hp
  rcases body_put p.id q.id (p.width w) w with he | ⟨hid, he⟩
  · rw [he]
    exact Nat.le_trans (h q hq) (q.width_mono le)
  · obtain rfl : q = p := List.inj_on_of_nodup_map ids hq hp hid
    rw [he]
    exact q.width_mono le

theorem Growing.rises {part : List Plan} (sub : ∀ p ∈ part, p ∈ plans) (h : Growing plans w) :
    Rises plans part w := by
  induction part generalizing w with
  | nil =>
    refine ⟨h, fun v hv => ?_, List.pairwise_singleton _ _⟩
    obtain rfl := List.mem_singleton.mp hv
    exact ⟨.refl v, .refl v⟩
  | cons p rest ih =>
    rw [List.forall_mem_cons] at sub
    have first := h.le_put sub.1
    obtain ⟨growing, le, ordered⟩ := ih sub.2 (h.put ids sub.1)
    refine ⟨growing, fun v hv => ?_, List.pairwise_cons.mpr ⟨fun v hv => ?_, ordered⟩⟩
    · rcases List.mem_cons.mp hv with rfl | hv
      · exact ⟨.refl v, first.trans (le _ (mem_steps_self rest _)).2⟩
      · exact ⟨first.trans (le v hv).1, (le v hv).2⟩
    · exact first.trans (le v hv).1

/-- By induction on the rounds: what is found in one is found again or exceeded in the next. -/
theorem Growing.stepsOf (h : Growing plans w) (n : Nat) :
    (stepsOf plans n w).Pairwise Le ∧ ∀ v ∈ Widths.stepsOf plans n w, w.Le v := by
  induction n generalizing w with
  | zero =>
    refine ⟨List.pairwise_singleton _ _, fun v hv => ?_⟩
    obtain rfl := List.mem_singleton.mp hv
    exact .refl v
  | succ n ih =>
    obtain ⟨growing, le, ordered⟩ := h.rises ids fun _ hp => hp
    rw [Widths.stepsOf]
    split
    · exact ⟨ordered, fun v hv => (le v hv).1⟩
    · obtain ⟨further, above⟩ := ih growing
      refine ⟨List.pairwise_append.mpr ⟨ordered, further, fun u hu v hv => ?_⟩, fun v hv => ?_⟩
      · exact (le u hu).2.trans (above v hv)
      · rcases List.mem_append.mp hv with hv | hv
        · exact (le v hv).1
        · exact (le w (mem_steps_self plans w)).2.trans (above v hv)

theorem Growing.iterate (h : Growing plans w) (n : Nat) : Growing plans ((round plans)^[n] w) := by
  induction n with
  | zero => exact h
  | succ n ih =>
    rw [Function.iterate_succ_apply']
    exact (ih.rises ids fun _ hp => hp).growing

theorem Growing.body_round (h : Growing plans w) (keys : w.map (·.1) = plans.map (·.id)) {p : Plan}
    (hp : p ∈ plans) :
    ∃ u, w.Le u ∧ u.Le (round plans w) ∧ (round plans w).body p.id = p.width u := by
  obtain ⟨before, after, rfl⟩ := List.append_of_mem hp
  have first := h.rises ids fun q hq => List.mem_append_left _ hq
  have second := first.growing.rises ids fun q hq => List.mem_append_right before hq
  have whole : round (before ++ p :: after) w = round (p :: after) (round before w) :=
    List.foldl_append
  refine ⟨round before w, (first.le w (mem_steps_self before w)).2, ?_, ?_⟩
  · rw [whole]
    exact (second.le _ (mem_steps_self (p :: after) _)).2
  · have others : ∀ q ∈ after, q.id ≠ p.id := by
      rw [List.map_append, List.map_cons] at ids
      intro q hq he
      exact (List.nodup_cons.mp ids.of_append_right).1 (he ▸ List.mem_map_of_mem hq)
    have mem : p.id ∈ (round before w).map (·.1) := by
      rw [keys_round, keys]
      exact List.mem_map_of_mem hp
    rw [whole]
    exact (body_round_of_not_mem others _).trans (body_put_self mem _)

theorem Growing.body_iterate_succ (h : Growing plans w) (keys : w.map (·.1) = plans.map (·.id))
    {p : Plan} (hp : p ∈ plans) {n : Nat} (settled : ∀ id ∈ p.required, ∀ m ≥ n,
      ((round plans)^[m] w).body id = ((round plans)^[n] w).body id) {m : Nat} (hm : n ≤ m) :
    ((round plans)^[m + 1] w).body p.id = p.width ((round plans)^[n] w) := by
  have keys' : ((round plans)^[m] w).map (·.1) = plans.map (·.id) := by
    rw [keys_iterate, keys]
  obtain ⟨u, above, below, body⟩ := (h.iterate ids m).body_round ids keys' hp
  rw [Function.iterate_succ_apply', body]
  refine Plan.width_congr fun id hid => ?_
  have low := settled id hid m hm
  have high := settled id hid (m + 1) (Nat.le_succ_of_le hm)
  rw [← Function.iterate_succ_apply' (round plans)] at below
  exact Nat.le_antisymm (high ▸ below id) (low ▸ above id)

end

/- How long it takes -/

variable {plans : List Plan}

/-- No more than `n` bodies stand one within the other within the body of the entry. -/
def Shallow (plans : List Plan) (n : Nat) (id : UInt32) : Prop :=
  ∀ inner, List.IsChain (Requires plans) (id :: inner) → inner.length ≤ n

theorem Shallow.of_requires {n : Nat} {a b : UInt32} (h : Shallow plans (n + 1) a)
    (hb : Requires plans a b) : Shallow plans n b := by
  intro inner chain
  have longer := h (b :: inner) (List.isChain_cons_cons.mpr ⟨hb, chain⟩)
  exact Nat.le_of_succ_le_succ longer

theorem not_requires_of_shallow {a b : UInt32} (h : Shallow plans 0 a) : ¬ Requires plans a b := by
  intro hb
  have none := h [b] (List.isChain_cons_cons.mpr ⟨hb, .singleton b⟩)
  cases none

theorem mem_ids_of_isChain {l : List UInt32} (chain : List.IsChain (Requires plans) l) :
    ∀ id ∈ l.dropLast, id ∈ plans.map (·.id) := by
  induction l with
  | nil => simp
  | cons a l ih =>
    cases l with
    | nil => simp
    | cons b l =>
      obtain ⟨⟨p, hp, rfl, -⟩, rest⟩ := List.isChain_cons_cons.mp chain
      rw [List.dropLast_cons_of_ne_nil (List.cons_ne_nil b l), List.forall_mem_cons]
      exact ⟨List.mem_map_of_mem hp, ih rest⟩

/-- Without cycles no entry comes twice in a chain, and there are only so many. -/
theorem Acyclic.shallow (h : Acyclic plans) (id : UInt32) : Shallow plans plans.length id := by
  intro inner chain
  have ordered : (id :: inner).Pairwise (Relation.TransGen (Requires plans)) :=
    List.isChain_iff_pairwise.mp (chain.imp fun _ _ => .single)
  have distinct : (id :: inner).Nodup := by
    refine ordered.imp ?_
    rintro a _ cycle rfl
    exact h a cycle
  have part : (id :: inner).dropLast ⊆ plans.map (·.id) := mem_ids_of_isChain chain
  have bound := (List.subperm_of_subset (distinct.sublist (List.dropLast_sublist _)) part).length_le
  simpa using bound

theorem acyclic_of_descends (h : ∀ p ∈ plans, p.required.all (· < p.id)) : Acyclic plans := by
  have step : ∀ a b, Requires plans a b → b < a := by
    rintro _ b ⟨p, hp, rfl, hb⟩
    exact of_decide_eq_true (List.all_eq_true.mp (h p hp) b hb)
  have descends : ∀ a b, Relation.TransGen (Requires plans) a b → b < a := by
    intro a b path
    induction path with
    | single hb => exact step _ _ hb
    | tail _ hb ih => exact UInt32.lt_trans (step _ _ hb) ih
  exact fun id cycle => UInt32.lt_irrefl id (descends id id cycle)

section

variable (ids : (plans.map (·.id)).Nodup) {w : Widths}

include ids

theorem Growing.body_iterate (h : Growing plans w) (keys : w.map (·.1) = plans.map (·.id)) {n : Nat}
    {id : UInt32} (shallow : Shallow plans n id) {m : Nat} (hm : n + 1 ≤ m) :
    ((round plans)^[m] w).body id = ((round plans)^[n + 1] w).body id := by
  by_cases hid : ∃ p ∈ plans, p.id = id
  · obtain ⟨p, hp, rfl⟩ := hid
    have settled : ∀ id ∈ p.required, ∀ m ≥ n,
        ((round plans)^[m] w).body id = ((round plans)^[n] w).body id := by
      intro id hid m hm
      have requires : Requires plans p.id id := ⟨p, hp, rfl, hid⟩
      cases n with
      | zero => exact absurd requires (not_requires_of_shallow shallow)
      | succ n => exact body_iterate h keys (shallow.of_requires requires) hm
    obtain ⟨k, rfl⟩ := Nat.exists_eq_add_of_le' hm
    have late := h.body_iterate_succ ids keys hp settled (Nat.le_add_left n k)
    have soon := h.body_iterate_succ ids keys hp settled (Nat.le_refl n)
    rw [← Nat.add_assoc, late, soon]
  · have none : ∀ p ∈ plans, p.id ≠ id := fun p hp he => hid ⟨p, hp, he⟩
    rw [body_iterate_of_not_mem none, body_iterate_of_not_mem none]

theorem Growing.settled (h : Growing plans w) (keys : w.map (·.1) = plans.map (·.id))
    (acyclic : Acyclic plans) : Settled plans ((round plans)^[plans.length + 1] w) := by
  intro p hp
  have stays := fun id m => h.body_iterate ids keys (acyclic.shallow id) (m := m)
  have next := h.body_iterate_succ ids keys hp (n := plans.length + 1)
    (fun id _ m hm => stays id m hm) (Nat.le_refl _)
  rw [← Plan.width_eq, ← next, stays p.id _ (Nat.le_succ _)]

end

theorem growing_zeros (plans : List Plan) : Growing plans (plans.map fun p => (p.id, 0)) := by
  intro p _
  rw [body_zeros]
  exact Nat.zero_le _

theorem settle_eq_iterate (plans : List Plan) (n : Nat) (w : Widths) :
    settle plans n w = (round plans)^[n] w := by
  induction n generalizing w with
  | zero => rfl
  | succ n ih =>
    rw [settle, Function.iterate_succ_apply]
    split
    · next same => rw [same, Function.iterate_fixed same]
    · exact ih _

theorem getLast?_steps (plans : List Plan) (w : Widths) :
    (steps plans w).getLast? = some (round plans w) := by
  induction plans generalizing w with
  | nil => rfl
  | cons p rest ih =>
    have ne : steps rest (w.put p.id (p.width w)) ≠ [] :=
      List.ne_nil_of_mem (mem_steps_self rest _)
    rw [steps, List.getLast?_cons_of_ne_nil ne, ih]
    rfl

theorem getLast?_stepsOf (plans : List Plan) (n : Nat) (w : Widths) :
    (stepsOf plans n w).getLast? = some (settle plans n w) := by
  induction n generalizing w with
  | zero => rfl
  | succ n ih =>
    rw [stepsOf, settle]
    split
    · next same => rw [getLast?_steps, same]
    · rw [List.getLast?_append, ih, Option.some_or]

end Widths

namespace Codec

/-- Where no body contains itself, the width of each entry is the sum of those of its fields, by the
widths of the codec. On the way to these, whatever the bodies contain, no width shrinks. -/
theorem widths_settled {s : Schema} {config : Config} {unpack : ByteArray → Option ByteArray}
    {c : Codec} (hc : ofSchema s config unpack = .ok c) :
    (Widths.Acyclic c.plans → Widths.Settled c.plans c.widths) ∧
      (Widths.course c.plans).getLast? = some c.widths ∧
      (Widths.course c.plans).Pairwise Widths.Le := by
  have compiled := ofSchema_eq_ok hc
  have ids : (c.plans.map (·.id)).Nodup := by
    rw [compiled.ids]
    exact Schema.ids_nodup _
  have growing := Widths.growing_zeros c.plans
  rw [compiled.widths, Widths.ofPlans]
  refine ⟨fun acyclic => ?_, Widths.getLast?_stepsOf _ _ _, (growing.stepsOf ids _).1⟩
  rw [Widths.settle_eq_iterate]
  exact growing.settled ids (by simp) acyclic

/-- `nest#3 shell:%Shell twig:string = Nest` -/
def nest : Entry where
  kind := .constructor
  name := "nest"
  id := 3
  type := .named "Nest" false
  generics := []
  arguments := [⟨"shell", .named "Shell" true, none⟩, ⟨"twig", .string, none⟩]
  comment := none

/-- `shell#2 flags:# yolk:%yolk white:flags.0?%yolk = Shell` -/
def shell : Entry where
  kind := .constructor
  name := "shell"
  id := 2
  type := .named "Shell" false
  generics := []
  arguments := [⟨"flags", .flags, none⟩, ⟨"yolk", .named "yolk" true, none⟩,
    ⟨"white", .named "yolk" true, some ⟨"flags", 0⟩⟩]
  comment := none

/-- `yolk#1 weight:long = Yolk` -/
def yolk : Entry where
  kind := .constructor
  name := "yolk"
  id := 1
  type := .named "Yolk" false
  generics := []
  arguments := [⟨"weight", .long, none⟩]
  comment := none

theorem widths_settled_nest : ∃ s c, s.Obtained ∧ ofSchema s {} = .ok c ∧
    Widths.Acyclic c.plans ∧ Widths.Settled c.plans c.widths ∧
    c.widths = [(3, 16), (2, 12), (1, 8)] := by
  have hs := Schema.ofEntries_of [nest, shell, yolk] [] rfl
  have hc : ofSchema (.of [nest, shell, yolk] [] rfl) {} = .ok _ := rfl
  obtain ⟨settled, -⟩ := widths_settled hc
  refine ⟨_, _, .entries hs, hc, Widths.acyclic_of_descends ?descends,
    settled (Widths.acyclic_of_descends ?descends), rfl⟩
  decide

end Codec

end TypeLang
