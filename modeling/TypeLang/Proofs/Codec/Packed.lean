import TypeLang.Proofs.Codec.Ahead
import TypeLang.Proofs.Codec.Limits
import TypeLang.Proofs.Codec.Width

/-!
Packed payloads are transparent. Wherever a value is read behind an id, a packed payload may stand
for it, and packed payloads in each other; what is read is what would be read from the bytes
inside, except that each payload takes levels of its own. How payloads are unpacked does not
matter for this.
-/

namespace TypeLang

open Read

def Wire.packed (b : ByteArray) : ByteArray := Wire.word32 Id.gzipPacked ++ Wire.bytes b

def Layout.IsBoxed : Layout → Prop
  | .boxed _ | .vector _ true | .generic => True
  | _ => False

namespace Codec

/-- Bytes that are packed `k` times, where other bytes may follow each payload inside another
one. -/
inductive Wrapped (c : Codec) (plain : ByteArray) : (k : Nat) → ByteArray → Prop
  | once {b : ByteArray} : b.size ≤ Wire.maxLength → c.unpack b = some plain →
      Wrapped c plain 1 (Wire.packed b)
  | again {k : Nat} {b w rest : ByteArray} : Wrapped c plain k w → b.size ≤ Wire.maxLength →
      c.unpack b = some (w ++ rest) → Wrapped c plain (k + 1) (Wire.packed b)

/-- On packed bytes the read answers as it answers on these bytes unpacked, and takes just the
packed bytes, if it is not too deep. -/
def Transparent (c : Codec) (r : Read Value) : Prop :=
  ∀ ⦃plain : ByteArray⦄ ⦃k : Nat⦄ ⦃w : ByteArray⦄, c.Wrapped plain k w →
    ∀ ⦃d e : Cursor⦄ ⦃t : List UInt8⦄, d.left = octets w ++ t → e.left = octets plain →
      ¬ TooDeep r d → answer r d = answer r e ∧
        ∀ v d', r d = .ok v d' → d'.bytes = d.bytes ∧ d'.pos = d.pos + w.size

/-- On packed bytes the read needs `cost` levels for each packing, and with these it answers as it
answers on these bytes unpacked. -/
def Costs (c : Codec) (cost : Nat) (r : Nat → Read Value) : Prop :=
  ∀ ⦃plain : ByteArray⦄ ⦃k : Nat⦄ ⦃w : ByteArray⦄, c.Wrapped plain k w →
    ∀ ⦃d e : Cursor⦄ ⦃t : List UInt8⦄, d.left = octets w ++ t → e.left = octets plain →
      (∀ n, answer (r (n + cost * k)) d = answer (r n) e) ∧ ∀ n < cost * k, TooDeep (r n) d

theorem bind_packed {α : Type} {b : ByteArray} {d : Cursor} {t : List UInt8}
    (h : d.left = octets (Wire.packed b) ++ t) (f : UInt32 → Read α) :
    (word32 >>= f) d = f Id.gzipPacked (d.move 4 []) := by
  rw [Wire.packed, octets_append, List.append_assoc] at h
  exact bind_of_ok (takes_word32 _ d _ h) f

theorem readUnpacked_eq {c : Codec} {b plain : ByteArray} {d : Cursor} {t : List UInt8}
    (h : d.left = octets (Wire.packed b) ++ t) (hb : b.size ≤ Wire.maxLength)
    (hu : c.unpack b = some plain) (r : Read Value) :
    c.readUnpacked r (d.move 4 []) = within b plain r (d.move (Wire.packed b).size []) := by
  rw [Wire.packed, octets_append, List.append_assoc] at h
  have hm : (d.move 4 []).left = octets (Wire.bytes b) ++ t :=
    Cursor.left_move_of_eq (b := octets (Wire.word32 Id.gzipPacked)) h []
  rw [readUnpacked, bind_of_ok (takes_bytes hb _ t hm), hu, Cursor.move_move, List.append_nil,
    Wire.packed, ByteArray.size_append, length_octets]
  rfl

/-- What a read does at a packed payload, by the number of its levels: it fails for want of a
level, or it takes `cost` of them and reads what is inside. -/
structure Unwraps (c : Codec) (cost : Nat) (r : Nat → Read Value) : Prop where
  ahead (n : Nat) : Ahead (r n)
  deeper {n m : Nat} : n ≤ m → Refines ReadFault.IsTooDeep (r n) (r m)
  short {b : ByteArray} {d : Cursor} {t : List UInt8} : d.left = octets (Wire.packed b) ++ t →
    ∀ n < cost, answer (r n) d = .error (.tooDeep c.config.maxDepth)
  unwrap {b : ByteArray} {d : Cursor} {t : List UInt8} : d.left = octets (Wire.packed b) ++ t →
    ∀ n, r (n + cost) d = c.readUnpacked (r n) (d.move 4 []) ∨
      answer (r (n + cost)) d = .error (.tooDeep c.config.maxDepth) ∧ r n = c.tooDeep

section

variable (c : Codec) (inflates : c.config.inflateGzip = true)

include inflates

theorem isPacked_gzipPacked : c.isPacked Id.gzipPacked = true := by
  rw [isPacked, inflates]
  rfl

theorem readAny_packed {b : ByteArray} {d : Cursor} {t : List UInt8}
    (h : d.left = octets (Wire.packed b) ++ t) (n : Nat) :
    c.readAny (n + 1) d = c.readPackedAny n (d.move 4 []) := by
  rw [readAny_succ, bind_packed h, readBehind, if_neg (by decide), if_neg (by decide),
    if_neg (by decide), if_pos (c.isPacked_gzipPacked inflates)]

theorem unwraps_readAny : c.Unwraps 2 c.readAny where
  ahead := c.ahead_readAny
  deeper := c.refines_readAny
  short {b d t} h n hn := by
    match n, hn with
    | 0, _ => rfl
    | 1, _ =>
      apply answer_of_error
      rw [c.readAny_packed inflates h]
      rfl
  unwrap {b d t} h n := by
    left
    rw [c.readAny_packed inflates h, readPackedAny]

theorem unwraps_boxed (union : Option String) : c.Unwraps 1 (c.readAs · (.boxed union)) where
  ahead n := c.ahead_readAs n _
  deeper h := c.refines_readAs h _
  short {b d t} _ n hn := by
    obtain rfl : n = 0 := Nat.lt_one_iff.mp hn
    rfl
  unwrap {b d t} h n := by
    have unpack : c.readAs (n + 1) (.boxed union) d =
        c.readPackedBoxed n union (d.move 4 []) := by
      rw [readAs, readBoxed, bind_packed h, if_pos (c.isPacked_gzipPacked inflates)]
    cases n with
    | zero => exact .inr ⟨answer_of_error unpack, rfl⟩
    | succ n => exact .inl unpack

theorem unwraps_vector (elem : Layout) : c.Unwraps 2 (c.readAs · (.vector elem true)) where
  ahead n := c.ahead_readAs n _
  deeper h := c.refines_readAs h _
  short {b d t} h n hn := by
    match n, hn with
    | 0, _ => rfl
    | 1, _ =>
      apply answer_of_error
      rw [readAs_boxedVector, bind_packed h, if_neg (by decide),
        if_pos (c.isPacked_gzipPacked inflates)]
      rfl
  unwrap {b d t} h n := by
    left
    rw [readAs_boxedVector, bind_packed h, if_neg (by decide),
      if_pos (c.isPacked_gzipPacked inflates), readPackedAs]

theorem unwraps_generic : c.Unwraps 2 (c.readAs · .generic) where
  ahead n := c.ahead_readAs n _
  deeper h := c.refines_readAs h _
  short {b d t} h n hn := by
    match n, hn with
    | 0, _ => rfl
    | 1, _ => rfl
  unwrap {b d t} h n := by
    cases n with
    | zero => exact .inr ⟨(c.unwraps_readAny inflates).short h 1 (by decide), rfl⟩
    | succ n => exact .inl (c.readAny_packed inflates h (n + 1))

end

namespace Unwraps

variable {c : Codec} {cost : Nat} {r : Nat → Read Value} (h : c.Unwraps cost r)

include h

theorem answer_packed {b plain : ByteArray} {d : Cursor} {t : List UInt8}
    (hd : d.left = octets (Wire.packed b) ++ t) (hb : b.size ≤ Wire.maxLength)
    (hu : c.unpack b = some plain) (n : Nat) :
    answer (r (n + cost)) d = answer (r n) (.ofBytes plain) ∧
      ∀ v d', r (n + cost) d = .ok v d' →
        d'.bytes = d.bytes ∧ d'.pos = d.pos + (Wire.packed b).size := by
  rcases h.unwrap hd n with unwrap | ⟨deep, zero⟩
  · rw [readUnpacked_eq hd hb hu] at unwrap
    constructor
    · rw [answer, outcome, unwrap, ← outcome, ← answer, answer_within]
      exact (h.ahead n).answer_eq rfl
    · intro v d' hr
      obtain ⟨inner, -, rfl⟩ := within_eq_ok (unwrap ▸ hr)
      exact ⟨rfl, rfl⟩
  · constructor
    · rw [deep, zero]
      rfl
    · intro v d' hr
      exact absurd ⟨_, deep⟩ (not_tooDeep_of_answer (answer_of_ok hr))

theorem costs : c.Costs cost r := by
  intro plain k w hw
  induction hw with
  | once hb hu =>
    intro d e t hd he
    rw [Nat.mul_one]
    refine ⟨fun n => ?_, fun n hn => ⟨_, h.short hd n hn⟩⟩
    rw [(h.answer_packed hd hb hu n).1]
    exact (h.ahead n).answer_eq he.symm
  | @again k b w rest _ hb hu ih =>
    intro d e t hd he
    have inner := @ih (.ofBytes (w ++ rest)) e (octets rest) (by simp) he
    rw [Nat.mul_succ]
    refine ⟨fun n => ?_, fun n hn => ?_⟩
    · rw [← Nat.add_assoc, (h.answer_packed hd hb hu _).1]
      exact inner.1 n
    · by_cases few : n < cost
      · exact ⟨_, h.short hd n few⟩
      · obtain ⟨m, rfl⟩ := Nat.exists_eq_add_of_le' (Nat.le_of_not_lt few)
        rw [TooDeep, (h.answer_packed hd hb hu m).1]
        exact inner.2 m (by omega)

theorem transparent (n : Nat) : c.Transparent (r n) := by
  intro plain k w hw d e t hd he shallow
  obtain ⟨same, short⟩ := h.costs hw hd he
  constructor
  · obtain ⟨m, rfl⟩ := Nat.exists_eq_add_of_le' (Nat.le_of_not_lt fun hn => shallow (short n hn))
    have deeper := h.deeper (Nat.le_add_right m (cost * k))
    have here : ¬ TooDeep (r m) e := by rwa [TooDeep, ← same m]
    rw [same m, answer, outcome, deeper.eq_of_not_tooDeep here, ← outcome, ← answer]
  · intro v d' hr
    have enough : cost ≤ n := by
      refine Nat.le_of_not_lt fun hn => shallow ?_
      cases hw with
      | once => exact ⟨_, h.short hd n hn⟩
      | again => exact ⟨_, h.short hd n hn⟩
    obtain ⟨m, rfl⟩ := Nat.exists_eq_add_of_le' enough
    cases hw with
    | once hb hu => exact (h.answer_packed hd hb hu m).2 v d' hr
    | again _ hb hu => exact (h.answer_packed hd hb hu m).2 v d' hr

end Unwraps

theorem Transparent.rewinding {c : Codec} {r : Read Value} (h : c.Transparent r) :
    c.Transparent (rewinding r) := by
  intro plain k w hw d e t hd he shallow
  rw [TooDeep, answer_rewinding] at shallow
  obtain ⟨same, taken⟩ := h hw hd he shallow
  rw [answer_rewinding, answer_rewinding]
  exact ⟨same, fun v d' hr => taken v d' (rewinding_eq_ok hr)⟩

/-- Decoding any value, and reading one wherever it stands behind an id, answers on bytes that are
packed any number of times as it answers on these bytes unpacked, unless it is too deep, and it
takes what is packed and no more. Each packing takes one level from a member of a union and two
levels from any other value; with just so many levels more the answer is the same. -/
theorem packed_transparent (c : Codec) (inflates : c.config.inflateGzip = true) :
    c.Transparent c.decodeAny ∧
      (∀ n, c.Transparent (c.readAny n) ∧
        ∀ layout, layout.IsBoxed → c.Transparent (c.readAs n layout)) ∧
      c.Costs 2 c.readAny ∧ (∀ union, c.Costs 1 (c.readAs · (.boxed union))) ∧
      (∀ elem, c.Costs 2 (c.readAs · (.vector elem true))) ∧ c.Costs 2 (c.readAs · .generic) := by
  have any := c.unwraps_readAny inflates
  have boxed := c.unwraps_boxed inflates
  have vector := c.unwraps_vector inflates
  have generic := c.unwraps_generic inflates
  refine ⟨(any.transparent _).rewinding, fun n => ⟨any.transparent n, fun layout hl => ?_⟩,
    any.costs, fun union => (boxed union).costs, fun elem => (vector elem).costs, generic.costs⟩
  cases layout with
  | boxed union => exact (boxed union).transparent n
  | vector elem isBoxed =>
    cases isBoxed with
    | true => exact (vector elem).transparent n
    | false => exact hl.elim
  | generic => exact generic.transparent n
  | _ => exact hl.elim

/-- `bareBytes` in a stored block of a zlib stream -/
def storedPoint : ByteArray :=
  ⟨#[0x78, 1, 1, 16, 0, 239, 255, 1, 0, 0, 0, 2, 0, 0, 0, 0x15, 0xc4, 0xb5, 0x1c, 0, 0, 0, 0,
    11, 6, 1, 174]⟩

def storedTwice : ByteArray :=
  ⟨#[0x78, 1, 1, 33, 0, 222, 255, 0xa1, 0xcf, 0x72, 0x30, 27, 0x78, 1, 1, 16, 0, 239, 255,
    1, 0, 0, 0, 2, 0, 0, 0, 0x15, 0xc4, 0xb5, 0x1c, 0, 0, 0, 0, 11, 6, 1, 174,
    9, 148, 149, 7, 28]⟩

theorem packed_transparent_point : ∃ v d d',
    pointCodec.decodeAny (.ofBytes bareBytes) = .ok v ⟨bareBytes, 16, []⟩ ∧
      pointCodec.decodeAny (.ofBytes (Wire.packed storedTwice ++ ⟨#[9]⟩)) = .ok v d ∧
      d.pos = 52 ∧
      pointCodec.readAs 4 (.boxed (some "Point"))
        (.ofBytes (Wire.packed storedTwice ++ ⟨#[9]⟩)) = .ok v d' ∧ d'.pos = 52 := by
  have wrapped : pointCodec.Wrapped bareBytes 2 (Wire.packed storedTwice) := by
    have once : pointCodec.Wrapped bareBytes 1 (Wire.packed storedPoint) :=
      .once (by decide) (by decide +kernel)
    have twice : pointCodec.unpack storedTwice = some (Wire.packed storedPoint ++ ⟨#[9]⟩) := by
      decide +kernel
    exact .again once (by decide) twice
  have ahead : (Cursor.ofBytes (Wire.packed storedTwice ++ ⟨#[9]⟩)).left =
      octets (Wire.packed storedTwice) ++ [9] := by simp [octets]
  have plain : (Cursor.ofBytes bareBytes).left = octets bareBytes := Cursor.left_ofBytes _
  obtain ⟨any, layouts, anyCosts, boxedCosts, -⟩ := packed_transparent pointCodec rfl
  let v : Value := .object "point" [("seen", .bool true), ("tags", .vector [])]
  have direct : pointCodec.decodeAny (.ofBytes bareBytes) = .ok v ⟨bareBytes, 16, []⟩ := by rfl
  have enough : answer pointCodec.decodeAny (.ofBytes (Wire.packed storedTwice ++ ⟨#[9]⟩)) =
      .ok v := by
    rw [decodeAny, answer_rewinding]
    exact ((anyCosts wrapped ahead plain).1 124).trans (by rfl)
  have boxed : answer (pointCodec.readAs 4 (.boxed (some "Point")))
      (.ofBytes (Wire.packed storedTwice ++ ⟨#[9]⟩)) = .ok v :=
    ((boxedCosts _ wrapped ahead plain).1 2).trans (by rfl)
  obtain ⟨d, hd⟩ := answer_eq_ok.mp enough
  obtain ⟨d', hd'⟩ := answer_eq_ok.mp boxed
  have taken := (any wrapped ahead plain (not_tooDeep_of_answer enough)).2 v d hd
  have transparent := (layouts 4).2 (.boxed (some "Point")) trivial
  have taken' := (transparent wrapped ahead plain (not_tooDeep_of_answer boxed)).2 v d' hd'
  exact ⟨v, d, d', direct, hd, taken.2, hd', taken'.2⟩

end Codec

end TypeLang
