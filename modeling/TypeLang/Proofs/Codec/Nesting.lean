import TypeLang.Proofs.Codec.Levels
import TypeLang.Proofs.Codec.Width
import TypeLang.Proofs.Value

/-!
No decoded value is deeper than the limit. Readers with `n` levels return values of at most `n`
layers: a vector or an object takes a level and is made of what readers with one level less
return, and packed payloads and places that take any object take levels for which the value has no
layers.
-/

namespace TypeLang

open Read

def Read.Yields {α : Type} (P : α → Prop) (r : Read α) : Prop :=
  ∀ ⦃d d' a⦄, r d = .ok a d' → P a

namespace Read

variable {α β : Type} {P : α → Prop} {Q : β → Prop}

theorem yields_throw (P : α → Prop) (e : ReadFault) : Yields P (throw e : Read α) := by
  intro d d' a h
  cases h

theorem yields_pure {a : α} (h : P a) : Yields P (pure a : Read α) := by
  intro d d' a' h'
  cases h'
  exact h

theorem Yields.imp {P' : α → Prop} {r : Read α} (h : Yields P r) (hP : ∀ a, P a → P' a) :
    Yields P' r := fun _ _ a hr => hP a (h hr)

theorem Yields.bind {r : Read α} {f : α → Read β} (h : Yields P r)
    (h' : ∀ a, P a → Yields Q (f a)) : Yields Q (r >>= f) := by
  intro d d' b hr
  obtain ⟨a, m, hm, hf⟩ := bind_eq_ok.mp hr
  exact h' a (h hm) hf

theorem yields_bind {f : α → Read β} (r : Read α) (h : ∀ a, Yields Q (f a)) : Yields Q (r >>= f) :=
  Yields.bind (P := fun _ => True) (fun _ _ _ _ => trivial) fun a _ => h a

theorem Yields.rewinding {r : Read α} (h : Yields P r) : Yields P (rewinding r) :=
  fun _ _ _ hr => h (rewinding_eq_ok hr)

end Read

open Value

theorem CountGuard.yields_vector (guard : CountGuard) (width : Nat) {n : Nat} {r : Read Value}
    (h : Yields (NoDeeper n) r) : Yields (NoDeeper (n + 1)) (guard.vector width r) := by
  refine yields_bind word32 fun count d d' v hr => ?_
  rw [counted] at hr
  split at hr
  · cases hr
  · obtain ⟨items, m, hi, hr⟩ := bind_eq_ok.mp hr
    cases hr
    apply noDeeper_of_children
    intro w hw
    obtain ⟨e, e', he⟩ := ((Codec.items_of_readItems hi).2 w hw).resolve_left List.not_mem_nil
    exact h he

structure Readers.NoDeeper (n : Nat) (r : Readers) : Prop where
  any : Yields (Value.NoDeeper n) r.any
  as (layout : Layout) : Yields (Value.NoDeeper n) (r.as layout)
  packedAny : Yields (Value.NoDeeper n) r.packedAny
  packedAs (layout : Layout) : Yields (Value.NoDeeper n) (r.packedAs layout)
  packedBoxed (union : Option String) : Yields (Value.NoDeeper n) (r.packedBoxed union)

namespace Codec

variable {n : Nat} {read : Layout → Read Value}

theorem yields_readFields (h : ∀ layout, Yields (NoDeeper n) (read layout))
    (fields : List FieldPlan) (words : Words) {given : Fields}
    (hg : ∀ kv ∈ given, NoDeeper n kv.2) :
    Yields (fun out : Fields => ∀ kv ∈ out, NoDeeper n kv.2)
      (readFields read fields words given) := by
  have insert : ∀ {given : Fields} {name : String} {v : Value}, (∀ kv ∈ given, NoDeeper n kv.2) →
      NoDeeper n v → ∀ kv ∈ Dict.insert name v given, NoDeeper n kv.2 := by
    intro given name v hg hv kv hkv
    rcases Dict.mem_insert hkv with rfl | hkv
    · exact hv
    · exact hg kv hkv
  induction fields generalizing words given with
  | nil => exact yields_pure hg
  | cons f rest ih =>
    rw [readFields]
    split
    · exact yields_bind word32 fun _ => yields_bind _ fun _ => ih _ hg
    · exact yields_bind _ fun _ => ih _ (insert hg (noDeeper_of_leaf rfl n))
    · refine yields_bind _ fun isThere => ?_
      split
      · exact (h _).bind fun v hv => ih _ (insert hg hv)
      · exact ih _ hg

theorem yields_readBody (h : ∀ layout, Yields (NoDeeper n) (read layout)) (p : Plan) :
    Yields (fun o => NoDeeper (n + 1) o.toValue) (readBody read p) := by
  refine (yields_readFields h p.fields _ (List.forall_mem_nil _)).bind fun fields hf => ?_
  refine yields_pure (noDeeper_of_children fun w hw => ?_)
  obtain ⟨kv, hkv, rfl⟩ := List.mem_map.mp hw
  exact hf kv hkv

theorem yields_object (h : ∀ layout, Yields (NoDeeper n) (read layout)) (p : Plan) :
    Yields (NoDeeper (n + 1)) (do return (← readBody read p).toValue) :=
  (yields_readBody h p).bind fun _ ho => yields_pure ho

theorem yields_readUnpacked (c : Codec) {P : Value → Prop} {r : Read Value} (h : Yields P r) :
    Yields P (c.readUnpacked r) := by
  refine yields_bind bytes fun packed => ?_
  split
  · exact yields_throw P _
  · intro d d' v hr
    obtain ⟨inner, hi, -⟩ := within_eq_ok hr
    exact h hi

theorem yields_readBoxed (c : Codec) (h : ∀ layout, Yields (NoDeeper n) (read layout))
    {packed : Read Value} (hp : Yields (NoDeeper (n + 1)) packed) (union : Option String) :
    Yields (NoDeeper (n + 1)) (c.readBoxed union read packed) := by
  refine yields_bind word32 fun id => ?_
  split
  · exact hp
  · split
    · exact yields_throw _ _
    · split
      · exact yields_object h _
      · exact yields_throw _ _

section

variable (c : Codec) (guard : CountGuard) {r : Readers} (h : r.NoDeeper n)

include h

theorem yields_nextAny : Yields (NoDeeper (n + 1)) (c.nextAny guard r) := by
  refine yields_bind word32 fun id => ?_
  split
  · exact guard.yields_vector 4 h.any
  · split
    · exact yields_pure (noDeeper_of_leaf rfl _)
    · split
      · exact yields_pure (noDeeper_of_leaf rfl _)
      · split
        · exact h.packedAny.imp fun _ hv => hv.mono (Nat.le_succ n)
        · split
          · exact yields_throw _ _
          · exact yields_object h.as _

theorem yields_nextAs (layout : Layout) : Yields (NoDeeper (n + 1)) (c.nextAs guard r layout) := by
  have leaf : ∀ {α : Type} (r : Read α) (g : α → Value), (∀ a, (g a).isLayer = false) →
      Yields (NoDeeper (n + 1)) (do return g (← r)) := fun r g hg =>
    yields_bind r fun a => yields_pure (noDeeper_of_leaf (hg a) _)
  cases layout with
  | int => exact leaf Read.int Value.int fun _ => rfl
  | long => exact leaf Read.long Value.long fun _ => rfl
  | int128 => exact leaf (Read.take 16) Value.int128 fun _ => rfl
  | int256 => exact leaf (Read.take 32) Value.int256 fun _ => rfl
  | double => exact leaf Read.double Value.double fun _ => rfl
  | string => exact leaf Read.string Value.string fun _ => rfl
  | bytes => exact leaf Read.bytes Value.bytes fun _ => rfl
  | bool => exact leaf Read.bool Value.bool fun _ => rfl
  | boxed union =>
    exact c.yields_readBoxed h.as ((h.packedBoxed union).imp fun _ hv => hv.mono (Nat.le_succ n))
      union
  | bare target =>
    rw [nextAs_bare]
    split
    · exact yields_throw _ _
    · exact yields_object h.as _
  | vector elem isBoxed =>
    cases isBoxed with
    | false => exact guard.yields_vector _ (h.as elem)
    | true =>
      rw [nextAs_boxedVector]
      refine yields_bind word32 fun id => ?_
      split
      · exact guard.yields_vector _ (h.as elem)
      · split
        · exact (h.packedAs _).imp fun _ hv => hv.mono (Nat.le_succ n)
        · exact yields_throw _ _
  | generic => exact h.any.imp fun _ hv => hv.mono (Nat.le_succ n)

theorem noDeeper_next : (c.next guard r).NoDeeper (n + 1) where
  any := c.yields_nextAny guard h
  as := c.yields_nextAs guard h
  packedAny := c.yields_readUnpacked (h.any.imp fun _ hv => hv.mono (Nat.le_succ n))
  packedAs layout := c.yields_readUnpacked ((h.as layout).imp fun _ hv => hv.mono (Nat.le_succ n))
  packedBoxed union := c.yields_readUnpacked (c.yields_readBoxed h.as
    ((h.packedBoxed union).imp fun _ hv => hv.mono (Nat.le_succ n)) union)

end

theorem noDeeper_guardedReaders (c : Codec) (guard : CountGuard) (n : Nat) :
    (c.guardedReaders guard n).NoDeeper n := by
  induction n with
  | zero =>
    exact ⟨yields_throw _ _, fun _ => yields_throw _ _, yields_throw _ _, fun _ => yields_throw _ _,
      fun _ => yields_throw _ _⟩
  | succ n ih => exact c.noDeeper_next guard ih

theorem noDeeper_readers (c : Codec) (n : Nat) : (c.readers n).NoDeeper n := by
  rw [← guardedReaders_countFault?]
  exact c.noDeeper_guardedReaders _ n

/-- On any path inside a decoded value there are no more vectors and objects than the limit says.
The object around a body that is decoded as such, or behind its own id, is not counted by the
limit. -/
theorem decode_noDeeper (c : Codec) :
    Yields (NoDeeper c.config.maxDepth) c.decodeAny ∧
      (∀ method, Yields (NoDeeper c.config.maxDepth) (c.decodeResult method)) ∧
      (∀ key, Yields (fun o => NoDeeper (c.config.maxDepth + 1) o.toValue) (c.decodeAs key)) ∧
      ∀ key, Yields (fun o => NoDeeper (c.config.maxDepth + 1) o.toValue) (c.decodeBare key) := by
  have readers := c.noDeeper_readers c.config.maxDepth
  have body := yields_readBody readers.as
  refine ⟨readers.any.rewinding, ?_, ?_, ?_⟩
  · intro method
    refine yields_bind _ fun p => ?_
    split
    · exact (readers.as _).rewinding
    · exact yields_throw _ _
  · intro key
    refine yields_bind _ fun p => (yields_bind word32 fun id => ?_).rewinding
    split
    · exact body p
    · exact yields_throw _ _
  · intro key
    exact yields_bind _ fun p => (body p).rewinding

/-- `branch#5 twigs:vector<%Branch> = Branch`, whose bodies hold bodies of the same entry. -/
def branch : Entry where
  kind := .constructor
  name := "branch"
  id := 5
  type := .named "Branch" false
  generics := []
  arguments := [⟨"twigs", .vector (.named "Branch" true) false, none⟩]
  comment := none

def branchSchema : Schema := .of [branch] [] rfl

def branchPlan : Plan where
  id := 5
  name := "branch"
  kind := .constructor
  union := some "Branch"
  fields := [⟨"twigs", .vector (.named "Branch" true) false, .value (.vector (.bare 5) false) none⟩]
  flagsWords := 0
  result := none

def branchCodec (maxDepth : Nat) : Codec := ⟨{ maxDepth }, Deflate.unpack, [branchPlan], [(5, 4)]⟩

def branchBytes : ByteArray := ⟨#[5, 0, 0, 0, 1, 0, 0, 0, 0, 0, 0, 0]⟩

/-- The limits are reached: four levels let a value of four layers through, and three levels do so
too where the object around the body is not counted. -/
theorem decode_noDeeper_branch : ∃ o d, Schema.ofEntries [branch] [] = .ok branchSchema ∧
    ofSchema branchSchema { maxDepth := 4 } = .ok (branchCodec 4) ∧
      (branchCodec 4).decodeAny (.ofBytes branchBytes) = .ok o.toValue d ∧ NoDeeper 4 o.toValue ∧
      ofSchema branchSchema { maxDepth := 3 } = .ok (branchCodec 3) ∧
      (branchCodec 3).decodeAs (.id 5) (.ofBytes branchBytes) = .ok o d ∧
      NoDeeper (3 + 1) o.toValue ∧ ¬ NoDeeper 3 o.toValue := by
  let twig : Value := .object "branch" [("twigs", .vector [])]
  let o : Object := ⟨"branch", [("twigs", .vector [twig])]⟩
  have any : (branchCodec 4).decodeAny (.ofBytes branchBytes) =
    .ok o.toValue ⟨branchBytes, 12, []⟩ := by rfl
  have as : (branchCodec 3).decodeAs (.id 5) (.ofBytes branchBytes) =
    .ok o ⟨branchBytes, 12, []⟩ := by rfl
  have path : Path o.toValue [o.toValue, .vector [twig], twig, .vector []] :=
    .down List.mem_cons_self (.down List.mem_cons_self (.down List.mem_cons_self (.here _)))
  refine ⟨o, _, rfl, rfl, any, (decode_noDeeper _).1 any, rfl, as, (decode_noDeeper _).2.2.1 _ as,
    fun shallow => ?_⟩
  exact absurd (shallow _ path) (by decide)

end Codec

end TypeLang
