import TypeLang.Proofs.Codec.RoundTrip
import TypeLang.Proofs.Codec.Stream
import TypeLang.Proofs.Read.Bytes
import TypeLang.Proofs.Value

namespace TypeLang

/-- The second cursor is on the bytes of the first one, whole words behind it. -/
structure Cursor.WordsBehind (c d : Cursor) : Prop where
  bytes : d.bytes = c.bytes
  words : ∃ n, d.pos = c.pos + 4 * n

namespace Cursor.WordsBehind

theorem refl (c : Cursor) : c.WordsBehind c := ⟨rfl, 0, rfl⟩

theorem trans {c d e : Cursor} (h : c.WordsBehind d) (h' : d.WordsBehind e) : c.WordsBehind e := by
  obtain ⟨n, hn⟩ := h.words
  obtain ⟨m, hm⟩ := h'.words
  exact ⟨h'.bytes.trans h.bytes, n + m, by omega⟩

theorem move {n : Nat} (h : 4 ∣ n) (c : Cursor) (sizes : List (Nat × Nat)) :
    c.WordsBehind (c.move n sizes) := by
  obtain ⟨k, rfl⟩ := h
  exact ⟨rfl, k, rfl⟩

end Cursor.WordsBehind

namespace Wire

theorem Spells.four_dvd {b : ByteArray} {w : List UInt8} (h : Spells b w) : 4 ∣ w.length := by
  obtain ⟨-, filling⟩ := h
  rw [List.length_append, List.length_append, length_octets]
  exact filling.2

theorem four_dvd_size_word32 (n : UInt32) : 4 ∣ (word32 n).size :=
  ⟨1, LittleEndian.size_pack 4 n.toNat⟩

theorem four_dvd_size_bytes (b : ByteArray) : 4 ∣ (bytes b).size := by
  simp only [bytes, ByteArray.size_append, LittleEndian.size_pack, padding]
  omega

end Wire

inductive Value.Rawless : Value → Prop
  | intro {v : Value} : (∀ b, v ≠ .raw b) → (∀ w ∈ v.children, Rawless w) → Rawless v

namespace Read

variable {α β : Type}

def Aligned (r : Read α) : Prop := ∀ ⦃c d a⦄, r c = .ok a d → c.WordsBehind d

theorem aligned_pure (a : α) : Aligned (pure a) := by
  intro c d _ h
  cases h
  exact .refl c

theorem aligned_throw (e : ReadFault) : Aligned (throw e : Read α) := by
  intro c d a h
  cases h

theorem Aligned.bind {r : Read α} {f : α → Read β} (h : Aligned r) (h' : ∀ a, Aligned (f a)) :
    Aligned (r >>= f) := by
  intro c d b hr
  obtain ⟨a, m, hm, hf⟩ := bind_eq_ok.mp hr
  exact (h hm).trans (h' a hf)

theorem Aligned.rewinding {r : Read α} (h : Aligned r) : Aligned (rewinding r) :=
  fun _ _ _ hr => h (rewinding_eq_ok hr)

theorem aligned_take {n : Nat} (hn : 4 ∣ n) : Aligned (take n) := by
  intro c d b h
  obtain ⟨t, ht⟩ := take_eq_ok h
  obtain ⟨-, rfl⟩ := (takes_take b.val b.property).unique ht h
  exact .move (by rwa [length_octets, b.property]) c []

theorem aligned_bytes : Aligned bytes := by
  intro c d b h
  obtain ⟨w, -, spells, -, rfl⟩ := bytes_eq_ok_iff.mp h
  exact .move spells.four_dvd c []

end Read

namespace Codec

open Read Write

theorem aligned_readCounted (c : Codec) (width : Nat) {r : Read Value} (h : Aligned r)
    (count : Nat) : Aligned (c.readCounted width r count) := by
  intro d d' v hr
  obtain ⟨-, items, hi, -⟩ := readCounted_eq_ok hr
  exact readItems_of_parts (P := Aligned) aligned_pure .bind h count [] hi

/-- What is unpacked does not count: outside, the cursor is behind the bytes that were packed. -/
theorem valueLaw_aligned (c : Codec) : ValueLaw c Aligned where
  pure a := aligned_pure a
  throw e _ := aligned_throw e
  bind hr hf := hr.bind hf
  word32 := (aligned_take ⟨1, rfl⟩).bind fun _ => aligned_pure _
  word64 := (aligned_take ⟨2, rfl⟩).bind fun _ => aligned_pure _
  block16 := aligned_take ⟨4, rfl⟩
  block32 := aligned_take ⟨8, rfl⟩
  bytes := aligned_bytes
  within packed plain r _ d d' v h := by
    obtain ⟨inner, -, rfl⟩ := within_eq_ok h
    exact ⟨rfl, 0, rfl⟩
  countedAny count hr := aligned_readCounted c 4 hr count
  countedAs elem count hr := aligned_readCounted c (elem.width c.widths) hr count

theorem aligned_decode (c : Codec) :
    Aligned c.decodeAny ∧ (∀ key, Aligned (c.decodeAs key)) ∧
      (∀ key, Aligned (c.decodeBare key)) ∧ ∀ method, Aligned (c.decodeResult method) :=
  (valueLaw_aligned c).decoders Aligned.rewinding fun _ => aligned_throw _

def WritesWords (c : Codec) (v : Value) : Prop :=
  ∀ ⦃layout site b⦄, Writes (c.writeAs v layout site) b () → 4 ∣ b.size

theorem four_dvd_size_chunks {words : Words} {payload : FieldPlan → Option ByteArray}
    {fields : List FieldPlan} (h : ∀ f ∈ fields, ∀ d, payload f = some d → 4 ∣ d.size) :
    4 ∣ (chunks words payload fields).size := by
  induction fields with
  | nil => exact Nat.dvd_zero 4
  | cons f rest ih =>
    obtain ⟨here, rest⟩ := List.forall_mem_cons.mp h
    have chunk : 4 ∣ (f.chunk words payload).size := by
      rw [FieldPlan.chunk]
      split
      · exact Wire.four_dvd_size_word32 _
      · exact Nat.dvd_zero 4
      · cases hp : payload f with
        | none => exact Nat.dvd_zero 4
        | some d => exact here d hp
    rw [chunks, ByteArray.size_append]
    exact Nat.dvd_add chunk (ih rest)

theorem four_dvd_size_body {c : Codec} {p : Plan} {fields : Fields} {b : ByteArray}
    (inner : ∀ kv ∈ fields, c.WritesWords kv.2)
    (h : Writes (writeBody p (c.pending fields)) b ()) : 4 ∣ b.size := by
  obtain ⟨-, -, writable, rfl⟩ := (writes_writeBody (c.uniform_pending fields) p b).mp h
  refine four_dvd_size_chunks fun f hf d hd => ?_
  rw [FieldPlan.payload?] at hd
  split at hd
  · next layout gate hr =>
    rw [get?_pending] at hd
    cases hv : Dict.get? fields f.name with
    | none =>
      rw [hv] at hd
      cases hd
    | some v =>
      rw [hv] at hd
      have given : Dict.get? (c.pending fields) f.name = some ⟨v, c.writeAs v⟩ := by
        rw [get?_pending, hv]
        rfl
      obtain ⟨d', hd'⟩ := writable f hf layout gate _ hr given
      cases hd'.output?_eq.symm.trans hd
      exact inner _ (Dict.mem_of_get? hv) hd'
  · cases hd

theorem four_dvd_size_items {c : Codec} {items : List Value} {elem : Layout} {site : Site}
    {b : ByteArray} (inner : ∀ v ∈ items, c.WritesWords v)
    (h : Writes (c.writeItems items elem site) b ()) : 4 ∣ b.size := by
  induction items generalizing b with
  | nil =>
    obtain ⟨rfl, -⟩ := h.unique (writes_pure ())
    exact Nat.dvd_zero 4
  | cons v rest ih =>
    obtain ⟨here, rest⟩ := List.forall_mem_cons.mp inner
    obtain ⟨_, d, e, hd, he, rfl⟩ := h.of_bind (c.uniform_writeAs v elem site)
      fun _ => c.uniform_writeItems _ elem site
    rw [ByteArray.size_append]
    exact Nat.dvd_add (here hd) (ih rest he)

theorem four_dvd_size_vector {c : Codec} {items : List Value} {elem : Layout} {isBoxed : Bool}
    {site : Site} {b : ByteArray} (inner : ∀ v ∈ items, c.WritesWords v)
    (h : Writes (c.writeAs (.vector items) (.vector elem isBoxed) site) b ()) : 4 ∣ b.size := by
  obtain ⟨body, hbody, rfl⟩ := writes_vector.mp h
  have id : 4 ∣ (if isBoxed then Wire.word32 Id.vector else .empty).size := by
    cases isBoxed with
    | true => exact Wire.four_dvd_size_word32 _
    | false => exact Nat.dvd_zero 4
  rw [ByteArray.size_append, ByteArray.size_append]
  exact Nat.dvd_add id (Nat.dvd_add (Wire.four_dvd_size_word32 _) (four_dvd_size_items inner hbody))

theorem four_dvd_size_boxed {c : Codec} {union : Option String} {name : String} {fields : Fields}
    {b : ByteArray} (inner : ∀ kv ∈ fields, c.WritesWords kv.2)
    (h : Writes (c.writeBoxed union name (c.pending fields)) b ()) : 4 ∣ b.size := by
  obtain ⟨p, body, -, -, hb, rfl⟩ := writes_of_writeBoxed h
  rw [ByteArray.size_append]
  exact Nat.dvd_add (Wire.four_dvd_size_word32 _) (four_dvd_size_body inner hb)

theorem writesWords_of_rawless (c : Codec) {v : Value} (h : v.Rawless) : c.WritesWords v := by
  induction h with
  | @intro v hv _ inner =>
    intro layout site b hw
    cases kinded_of_writes hw with
    | int n =>
      rw [writeAs] at hw
      rw [hw.of_emit]
      exact Wire.four_dvd_size_word32 _
    | long n =>
      rw [writeAs] at hw
      rw [hw.of_emit, Wire.long, LittleEndian.size_pack]
      exact ⟨2, rfl⟩
    | int128 n =>
      rw [writeAs] at hw
      rw [hw.of_emit, n.property]
      exact ⟨4, rfl⟩
    | int256 n =>
      rw [writeAs] at hw
      rw [hw.of_emit, n.property]
      exact ⟨8, rfl⟩
    | double d =>
      rw [writeAs] at hw
      rw [hw.of_emit, Wire.double, LittleEndian.size_pack]
      exact ⟨2, rfl⟩
    | string s =>
      rw [writeAs] at hw
      rw [hw.of_bytes.2]
      exact Wire.four_dvd_size_bytes _
    | text s =>
      rw [writeAs] at hw
      rw [hw.of_bytes.2]
      exact Wire.four_dvd_size_bytes _
    | bytes k =>
      rw [writeAs] at hw
      rw [hw.of_bytes.2]
      exact Wire.four_dvd_size_bytes _
    | bool k =>
      rw [writeAs] at hw
      rw [hw.of_emit]
      exact Wire.four_dvd_size_word32 _
    | vector items elem isBoxed => exact four_dvd_size_vector inner hw
    | boxed name fields union =>
      rw [writeAs] at hw
      exact four_dvd_size_boxed (List.forall_mem_map.mp inner) hw
    | bare name fields target =>
      obtain ⟨p, -, -, hb⟩ := writes_bare.mp hw
      exact four_dvd_size_body (List.forall_mem_map.mp inner) hb
    | generic name fields =>
      rw [writeAs] at hw
      exact four_dvd_size_boxed (List.forall_mem_map.mp inner) hw
    | raw b => exact absurd rfl (hv b)

theorem encode_aligned {c : Codec} (bare : Bool) {key : Key} {fields : Fields}
    {buffer buffer' : ByteArray} (rawless : ∀ kv ∈ fields, kv.2.Rawless)
    (h : (if bare then c.encodeBare key fields else c.encode key fields) buffer =
      .ok () buffer') : ∃ b, buffer' = buffer ++ b ∧ 4 ∣ b.size := by
  obtain ⟨p, body, -, hb, rfl⟩ := writes_of_encode h
  have words := four_dvd_size_body (fun kv hkv => c.writesWords_of_rawless (rawless kv hkv)) hb
  refine ⟨_, rfl, ?_⟩
  cases bare with
  | true => simpa using words
  | false =>
    rw [ByteArray.size_append]
    exact Nat.dvd_add (Wire.four_dvd_size_word32 _) words

/-- Everything is aligned to four bytes. What encoding appends has a multiple of four bytes if
there is no raw value inside; what any decoding takes has one, too, and is not empty where the
value brings its id. -/
theorem wire_aligned (c : Codec) :
    (∀ key fields buffer buffer', (∀ kv ∈ fields, kv.2.Rawless) →
      c.encode key fields buffer = .ok () buffer' ∨
        c.encodeBare key fields buffer = .ok () buffer' →
      ∃ b, buffer' = buffer ++ b ∧ 4 ∣ b.size) ∧
    (∀ d d' v, c.decodeAny d = .ok v d' → d.WordsBehind d' ∧ d.pos + 4 ≤ d'.pos) ∧
    (∀ key d d' o, c.decodeAs key d = .ok o d' → d.WordsBehind d') ∧
    (∀ key d d' o, c.decodeBare key d = .ok o d' → d.WordsBehind d') ∧
    ∀ method d d' v, c.decodeResult method d = .ok v d' → d.WordsBehind d' := by
  have aligned := aligned_decode c
  refine ⟨fun key fields buffer buffer' rawless h => ?_, fun d d' v h => ?_,
    fun key _ _ _ h => aligned.2.1 key h, fun key _ _ _ h => aligned.2.2.1 key h,
    fun method _ _ _ h => aligned.2.2.2 method h⟩
  · rcases h with h | h
    · exact encode_aligned false rawless h
    · exact encode_aligned true rawless h
  · exact ⟨aligned.1 h, (advances_of_decodeAny h).2⟩

/-- `note#7 text:bytes = Bool`, a method -/
def noteSchema : Schema :=
  .of [⟨.method, "note", 7, .bool, [], [⟨"text", .bytes, none⟩], none⟩] [] rfl

def noteCodec : Codec :=
  ⟨{}, Deflate.unpack,
    [⟨7, "note", .method, none, [⟨"text", .bytes, .value .bytes none⟩], 0, some .bool⟩], [(7, 4)]⟩

def noteFields : Fields := [("text", .bytes ⟨#[97, 98, 99, 100, 101]⟩)]

def noteBody : ByteArray := ⟨#[5, 97, 98, 99, 100, 101, 0, 0]⟩

def noteCall : ByteArray := ⟨#[7, 0, 0, 0, 5, 97, 98, 99, 100, 101, 0, 0]⟩

def noteAnswer : ByteArray := ⟨#[0xb5, 0x75, 0x72, 0x99]⟩

theorem wire_aligned_note : ∃ d e f, ofSchema noteSchema {} = .ok noteCodec ∧
    (∀ kv ∈ noteFields, kv.2.Rawless) ∧
    noteCodec.encode (.name "note") noteFields ⟨#[9]⟩ = .ok () (⟨#[9]⟩ ++ noteCall) ∧
    4 ∣ noteCall.size ∧
    noteCodec.encodeBare (.name "note") noteFields ⟨#[9]⟩ = .ok () (⟨#[9]⟩ ++ noteBody) ∧
    4 ∣ noteBody.size ∧
    noteCodec.decodeAny (.ofBytes (noteCall ++ ⟨#[9]⟩)) = .ok (.object "note" noteFields) d ∧
    (Cursor.ofBytes (noteCall ++ ⟨#[9]⟩)).WordsBehind d ∧
    noteCodec.decodeBare (.id 7) (.ofBytes noteBody) = .ok ⟨"note", noteFields⟩ e ∧
    (Cursor.ofBytes noteBody).WordsBehind e ∧
    noteCodec.decodeResult "note" (.ofBytes noteAnswer) = .ok (.bool true) f ∧
    (Cursor.ofBytes noteAnswer).WordsBehind f := by
  have rawless : ∀ kv ∈ noteFields, kv.2.Rawless := by
    rw [noteFields, List.forall_mem_singleton]
    exact .intro (by simp) (by simp [Value.children])
  have call : noteCodec.encode (.name "note") noteFields ⟨#[9]⟩ =
    .ok () (⟨#[9]⟩ ++ noteCall) := by rfl
  have body : noteCodec.encodeBare (.name "note") noteFields ⟨#[9]⟩ =
    .ok () (⟨#[9]⟩ ++ noteBody) := by rfl
  have any : noteCodec.decodeAny (.ofBytes (noteCall ++ ⟨#[9]⟩)) =
    .ok (.object "note" noteFields) ⟨noteCall ++ ⟨#[9]⟩, 12, []⟩ := by rfl
  have bare : noteCodec.decodeBare (.id 7) (.ofBytes noteBody) =
    .ok ⟨"note", noteFields⟩ ⟨noteBody, 8, []⟩ := by rfl
  have answer : noteCodec.decodeResult "note" (.ofBytes noteAnswer) =
    .ok (.bool true) ⟨noteAnswer, 4, []⟩ := by rfl
  obtain ⟨appended, ofAny, -, ofBare, ofAnswer⟩ := wire_aligned noteCodec
  obtain ⟨_, heq, whole⟩ := appended _ _ _ _ rawless (.inl call)
  rw [← append_left_cancel heq] at whole
  obtain ⟨_, heq', whole'⟩ := appended _ _ _ _ rawless (.inr body)
  rw [← append_left_cancel heq'] at whole'
  exact ⟨_, _, _, rfl, rawless, call, whole, body, whole', any, (ofAny _ _ _ any).1, bare,
    ofBare _ _ _ _ bare, answer, ofAnswer _ _ _ _ answer⟩

end Codec

end TypeLang
