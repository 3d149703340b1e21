import TypeLang.Proofs.Codec.Conforms
import TypeLang.Proofs.Codec.Crash
import TypeLang.Proofs.Schema.Guards
import TypeLang.Proofs.Schema.Rebuild

namespace TypeLang

def Schema.IsFirst (s : Schema) (e : Entry) : Prop := s.entries.find? (·.name = e.name) = some e

theorem exists_find?_of_forall₂ {α β : Type} {R : α → β → Prop} {P : α → Bool} {Q : β → Bool}
    {l : List α} {r : List β} (h : List.Forall₂ R l r) (same : ∀ a b, R a b → P a = Q b) {a : α}
    (ha : l.find? P = some a) : ∃ b, r.find? Q = some b ∧ R a b := by
  induction h with
  | nil => cases ha
  | @cons x y l r hxy _ ih =>
    rw [List.find?_cons] at ha ⊢
    rw [← same x y hxy]
    cases hx : P x with
    | true =>
      rw [hx] at ha
      cases ha
      exact ⟨y, rfl, hxy⟩
    | false =>
      rw [hx] at ha
      exact ih ha

namespace Codec

open Read

section

variable {s : Schema} {config : Config} {unpack : ByteArray → Option ByteArray} {c : Codec}

theorem exists_plan?_of_find? (compiled : OfSchema s config unpack c) {name : String} {e : Entry}
    (h : s.entries.find? (·.name = name) = some e) :
    ∃ p, c.plan? (.name name) = some p ∧ Plan.OfEntry s e p :=
  exists_find?_of_forall₂ compiled.plans (fun a b hab => by rw [hab.name]) h

/-- What a method returns is decoded by the layout of its declared type, and not for want of a
method refused, if the method is the first entry of its name. If it is not, a constructor is, and
whatever is decoded is refused as if there were no method. -/
theorem decodeResult_iff_isFirst (obtained : s.Obtained) (hc : ofSchema s config unpack = .ok c)
    {name : String} {e : Entry} (hm : s.find? .method name = some e) :
    ∃ layout, Plan.Laid s e.type layout ∧
      (s.IsFirst e → c.decodeResult name = Read.rewinding (c.readAs config.maxDepth layout) ∧
        ∀ d d' key, c.decodeResult name d ≠ .error (.unknownEntry key) d') ∧
      (¬ s.IsFirst e → (∃ f ∈ s.entries, f.kind = .constructor ∧ f.name = name) ∧
        ∀ d, c.decodeResult name d = .error (.unknownEntry s!"method {name}") d) := by
  obtain ⟨entries, comments, hs⟩ := obtained.exists_entries
  have compiled := ofSchema_eq_ok hc
  obtain ⟨he, kind, rfl⟩ := Schema.mem_of_find? hm
  obtain ⟨q, -, hq⟩ := exists_plan?_id hc he
  have hr := hq.result
  rw [Plan.resultLayout, kind] at hr
  obtain ⟨layout, hl, -⟩ := except_map_eq_ok.mp hr
  refine ⟨layout, Plan.laid_of_layout hl, fun first => ?_, fun hidden => ?_⟩
  · obtain ⟨p, hp, ofEntry⟩ := exists_plan?_of_find? compiled first
    have result := ofEntry.result
    rw [Plan.resultLayout, kind, hl] at result
    have eq : c.decodeResult e.name = Read.rewinding (c.readAs config.maxDepth layout) := by
      rw [decodeResult, planToRead, hp, pure_bind, ← Except.ok.inj result, compiled.config]
    refine ⟨eq, fun d d' key h => ?_⟩
    rw [eq] at h
    exact (((readLaw_raises c).readers _).2.1 layout).rewinding h
  · obtain ⟨f, hf⟩ : ∃ f, s.entries.find? (·.name = e.name) = some f := by
      rw [← Option.isSome_iff_exists, List.find?_isSome]
      exact ⟨e, he, by simp⟩
    have hfe : f.name = e.name := by simpa using List.find?_some hf
    have hfm := List.mem_of_find?_eq_some hf
    -- two methods of one name are one entry
    have hk : f.kind = .constructor := by
      cases hk : f.kind with
      | constructor => rfl
      | method =>
        have again := Schema.find?_eq_some_iff.mpr ⟨hfm, by rw [Entry.key, hk, hfe]⟩
        cases hm.symm.trans again
        exact absurd hf hidden
    refine ⟨⟨f, hfm, hk, hfe⟩, fun d => ?_⟩
    obtain ⟨p, hp, ofEntry⟩ := exists_plan?_of_find? compiled hf
    have result := ofEntry.result
    rw [Plan.resultLayout, hk] at result
    rw [decodeResult, planToRead, hp, pure_bind, ← Except.ok.inj result]
    rfl

end

/-- `ping#1 = Ping`, a constructor -/
def pingEntry : Entry := ⟨.constructor, "ping", 1, .named "Ping" false, [], [], none⟩

/-- `ping#2 = Bool`, a method -/
def pingMethod : Entry := ⟨.method, "ping", 2, .bool, [], [], none⟩

def pingAnswer : ByteArray := ⟨#[0xb5, 0x75, 0x72, 0x99]⟩

theorem decodeResult_iff_isFirst_ping : ∃ s c layout,
    Schema.ofEntries [pingMethod, pingEntry] [] = .ok s ∧ ofSchema s {} = .ok c ∧
    s.find? .method "ping" = some pingMethod ∧ s.IsFirst pingMethod ∧ Plan.Laid s .bool layout ∧
    c.decodeResult "ping" = Read.rewinding (c.readAs 128 layout) ∧
    c.decodeResult "ping" (.ofBytes pingAnswer) = .ok (.bool true) ⟨pingAnswer, 4, []⟩ := by
  let s : Schema := .of [pingMethod, pingEntry] [] rfl
  have hs : Schema.ofEntries [pingMethod, pingEntry] [] = .ok s := Schema.ofEntries_of _ _ rfl
  have hc : ofSchema s {} = .ok _ := rfl
  have hm : s.find? .method "ping" = some pingMethod := rfl
  obtain ⟨layout, laid, first, -⟩ := decodeResult_iff_isFirst (.entries hs) hc hm
  exact ⟨s, _, layout, hs, hc, hm, rfl, laid, (first rfl).1, rfl⟩

/-- Behind the constructor of its name, it is not, although its result could be read. -/
theorem decodeResult_hidden_ping : ∃ s c, Schema.ofEntries [pingEntry, pingMethod] [] = .ok s ∧
    ofSchema s {} = .ok c ∧ s.find? .method "ping" = some pingMethod ∧
    Plan.Laid s pingMethod.type .bool ∧
    c.readAs 128 .bool (.ofBytes pingAnswer) = .ok (.bool true) ⟨pingAnswer, 4, []⟩ ∧
    c.decodeResult "ping" (.ofBytes pingAnswer) =
      .error (.unknownEntry "method ping") (.ofBytes pingAnswer) :=
  ⟨_, _, rfl, rfl, rfl, .bool, rfl, rfl⟩

end Codec

end TypeLang
