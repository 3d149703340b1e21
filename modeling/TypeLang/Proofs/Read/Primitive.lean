import TypeLang.Proofs.Read.Takes
import TypeLang.Wire.Primitive

namespace TypeLang

@[simp] theorem octets_pack (w n : Nat) :
    octets (LittleEndian.pack w n) = LittleEndian.split w n := by
  simp [octets, LittleEndian.pack]

namespace Read

theorem take_eq {n : Nat} {c : Cursor} {b : ByteArray} {t : List UInt8} (h : b.size = n)
    (hc : c.left = octets b ++ t) : take n c = .ok ⟨b, h⟩ (c.move n []) := by
  have hn : n ≤ c.remaining := by
    rw [← c.length_left, hc, List.length_append, length_octets]
    omega
  have hb : c.bytes.extract c.pos (c.pos + n) = b := by
    apply octets_injective
    rw [octets_extract, List.drop_take, Nat.add_sub_cancel_left]
    change c.left.take n = octets b
    rw [hc, ← h, ← length_octets, List.take_left]
  simp only [take, hn, dif_pos, hb, Cursor.move, List.append_nil]

theorem takes_take {n : Nat} (b : ByteArray) (h : b.size = n) :
    Takes (take n) (octets b) ⟨b, h⟩ [] := by
  intro c t hc
  rw [take_eq h hc, length_octets, h]

theorem starves_take {n : Nat} {b : List UInt8} (h : b.length = n) : Starves (take n) b := by
  intro c t ht hc
  have hn : ¬ n ≤ c.remaining := by
    have := List.length_pos_iff.mpr ht
    rw [← c.length_left, ← h, ← hc, List.length_append]
    omega
  exact ⟨n, c.remaining, c, by simp only [take, hn, dif_neg, not_false_eq_true]⟩

theorem take_eq_ok {n : Nat} {c c' : Cursor} {a : Block n} (h : take n c = .ok a c') :
    ∃ t, c.left = octets a.val ++ t := by
  by_cases hn : n ≤ c.remaining
  · simp only [take, hn, dif_pos] at h
    injection h with ha _
    refine ⟨c.left.drop n, ?_⟩
    rw [← ha, octets_extract, List.drop_take, Nat.add_sub_cancel_left]
    exact (List.take_append_drop n c.left).symm
  · simp [take, hn] at h

theorem framed_take (n : Nat) : Framed (take n) := by
  intro c c' a h
  obtain ⟨t, ht⟩ := take_eq_ok h
  exact ⟨octets a.val, t, [], ht, takes_take a.val a.property, starves_take a.property⟩

theorem byte_eq {c : Cursor} {x : UInt8} {t : List UInt8} (hc : c.left = x :: t) :
    byte c = .ok x (c.move 1 []) := by
  have hs : c.pos < c.bytes.size := by
    have := c.length_left
    simp only [hc, List.length_cons, Cursor.remaining] at this
    omega
  have hx : c.bytes[c.pos] = x := by
    have h0 : c.left[0]? = some x := by rw [hc]; rfl
    simp only [Cursor.left, octets, List.getElem?_drop, Nat.add_zero] at h0
    exact (List.getElem?_eq_some_iff.mp h0).2
  simp only [byte, hs, dif_pos, hx, Cursor.move, List.append_nil]

theorem takes_byte (x : UInt8) : Takes byte [x] x [] := by
  intro c t hc
  exact byte_eq hc

theorem starves_byte (x : UInt8) : Starves byte [x] := by
  intro c t ht hc
  have hl : c.left = [] := by
    cases h : c.left with
    | nil => rfl
    | cons y u => simp_all
  have hs : ¬ c.pos < c.bytes.size := by
    have := c.length_left
    simp only [hl, List.length_nil, Cursor.remaining] at this
    omega
  exact ⟨1, c.remaining, c, by simp only [byte, hs, dif_neg, not_false_eq_true]⟩

theorem byte_eq_ok {c c' : Cursor} {x : UInt8} (h : byte c = .ok x c') :
    ∃ t, c.left = x :: t := by
  cases hc : c.left with
  | nil =>
    have := c.length_left
    simp only [hc, List.length_nil, Cursor.remaining] at this
    have hs : ¬ c.pos < c.bytes.size := by omega
    simp [byte, hs] at h
  | cons y t =>
    rw [byte_eq hc] at h
    cases h
    exact ⟨t, rfl⟩

theorem framed_byte : Framed byte := by
  intro c c' x h
  obtain ⟨t, ht⟩ := byte_eq_ok h
  exact ⟨[x], t, [], ht, takes_byte x, starves_byte x⟩

theorem failsWith_take {E : ReadFault → Prop} (truncated : ∀ needed remaining,
    E (.truncated needed remaining)) (n : Nat) : FailsWith E (take n) := by
  intro c d e h
  rw [take] at h
  split at h
  · cases h
  · cases h
    exact truncated _ _

theorem failsWith_byte {E : ReadFault → Prop} (truncated : ∀ needed remaining,
    E (.truncated needed remaining)) : FailsWith E byte := by
  intro c d e h
  rw [byte] at h
  split at h
  · cases h
  · cases h
    exact truncated _ _

theorem bytes_of_parts {P : ∀ {α : Type}, Read α → Prop}
    (pure : ∀ {α : Type} (a : α), P (pure a : Read α))
    (bind : ∀ {α β : Type} {r : Read α} {f : α → Read β}, P r → (∀ a, P (f a)) → P (r >>= f))
    (byte : P Read.byte) (take : ∀ n, P (Read.take n)) : P Read.bytes := by
  refine bind ?_ fun _ => bind (take _) fun _ => bind (take _) fun _ => pure _
  refine bind byte fun first => ?_
  split
  · exact pure _
  · exact bind byte fun _ => bind byte fun _ => bind byte fun _ => pure _

theorem takes_word32 (n : UInt32) : Takes word32 (octets (Wire.word32 n)) n [] := by
  have h := (takes_take (Wire.word32 n) (LittleEndian.size_pack 4 n.toNat)).map
    fun b => UInt32.ofNat (LittleEndian.unpack b.val)
  have e : LittleEndian.unpack (Wire.word32 n) = n.toNat := LittleEndian.unpack_pack n.toNat_lt
  rwa [e, UInt32.ofNat_toNat] at h

theorem takes_word64 (n : UInt64) :
    Takes word64 (octets (LittleEndian.pack 8 n.toNat)) n [] := by
  have h := (takes_take _ (LittleEndian.size_pack 8 n.toNat)).map
    fun b => UInt64.ofNat (LittleEndian.unpack b.val)
  have e : LittleEndian.unpack (LittleEndian.pack 8 n.toNat) = n.toNat :=
    LittleEndian.unpack_pack n.toNat_lt
  rwa [e, UInt64.ofNat_toNat] at h

theorem takes_int (n : Int32) : Takes int (octets (Wire.int n)) n [] := by
  have h := (takes_word32 n.toUInt32).map UInt32.toInt32
  rwa [Int32.toInt32_toUInt32] at h

theorem takes_long (n : Int64) : Takes long (octets (Wire.long n)) n [] := by
  have h := (takes_word64 n.toUInt64).map UInt64.toInt64
  rwa [Int64.toInt64_toUInt64] at h

theorem takes_double (d : Double) : Takes double (octets (Wire.double d)) d [] :=
  (takes_word64 d.bits).map Double.mk

theorem takes_bool (b : Bool) : Takes bool (octets (Wire.bool b)) b [] := by
  rw [← List.append_nil (octets _)]
  refine (takes_word32 _).bind ?_
  cases b with
  | true => exact takes_pure true
  | false => exact takes_pure false

theorem length_left_of_take {n : Nat} {c c' : Cursor} {a : Block n} (h : take n c = .ok a c') :
    c'.left.length + n = c.left.length := by
  obtain ⟨t, ht⟩ := take_eq_ok h
  rw [take_eq a.property ht] at h
  cases h
  rw [Cursor.left_move, List.length_drop, ht, List.length_append, length_octets, a.property]
  omega

theorem length_left_of_byte {c c' : Cursor} {x : UInt8} (h : byte c = .ok x c') :
    c'.left.length + 1 = c.left.length := by
  obtain ⟨t, ht⟩ := byte_eq_ok h
  rw [byte_eq ht] at h
  cases h
  rw [Cursor.left_move, ht, List.drop_one, List.tail_cons, List.length_cons]

theorem length_left_of_header {c c' : Cursor} {size length : Nat}
    (h : header c = .ok (size, length) c') :
    c'.left.length + size = c.left.length ∧ 0 < size ∧ length ≤ Wire.maxLength := by
  obtain ⟨first, m, h₁, h⟩ := bind_eq_ok.mp h
  have l₁ := length_left_of_byte h₁
  split at h
  · cases h
    have := first.toNat_lt
    simp only [Wire.maxLength]
    omega
  · obtain ⟨low, m₂, h₂, h⟩ := bind_eq_ok.mp h
    obtain ⟨middle, m₃, h₃, h⟩ := bind_eq_ok.mp h
    obtain ⟨high, m₄, h₄, h⟩ := bind_eq_ok.mp h
    cases h
    have l₂ := length_left_of_byte h₂
    have l₃ := length_left_of_byte h₃
    have l₄ := length_left_of_byte h₄
    have := LittleEndian.join_lt [low, middle, high]
    simp only [List.length_cons, List.length_nil, LittleEndian.limit] at this
    simp only [Wire.maxLength]
    omega

theorem length_left_of_bytes {c c' : Cursor} {b : ByteArray} (h : bytes c = .ok b c') :
    b.size ≤ Wire.maxLength ∧ ∃ size, 0 < size ∧
      c'.left.length + (size + b.size + Wire.padding (size + b.size)) = c.left.length := by
  obtain ⟨⟨size, length⟩, m₁, h₁, h⟩ := bind_eq_ok.mp h
  obtain ⟨a, m₂, h₂, h⟩ := bind_eq_ok.mp h
  obtain ⟨p, m₃, h₃, h⟩ := bind_eq_ok.mp h
  cases h
  obtain ⟨l₁, hs, hl⟩ := length_left_of_header h₁
  have l₂ := length_left_of_take h₂
  have l₃ := length_left_of_take h₃
  have := a.property
  refine ⟨by omega, size, hs, ?_⟩
  rw [a.property]
  omega

theorem atLeast_take (n : Nat) : AtLeast n (take n) := by
  intro c c' a h
  exact Nat.le_of_eq (length_left_of_take h)

theorem AtLeast.map {α β : Type} {w : Nat} {r : Read α} (h : AtLeast w r) (g : α → β) :
    AtLeast w (do return g (← r)) := h.bind fun a => atLeast_pure (g a)

theorem atLeast_word32 : AtLeast 4 word32 := (atLeast_take 4).map _

theorem atLeast_word64 : AtLeast 8 word64 := (atLeast_take 8).map _

theorem atLeast_bool : AtLeast 4 bool := by
  refine atLeast_word32.bind (w := 0) fun id => ?_
  split
  · exact atLeast_pure true
  · split
    · exact atLeast_pure false
    · exact atLeast_throw 0 _

theorem atLeast_bytes : AtLeast 4 bytes := by
  intro c c' b h
  obtain ⟨-, size, hs, hl⟩ := length_left_of_bytes h
  simp only [Wire.padding] at hl
  omega

theorem atLeast_string : AtLeast 4 string := by
  refine atLeast_bytes.bind (w := 0) fun b => ?_
  split
  · exact atLeast_pure _
  · exact atLeast_throw 0 _

theorem takes_header {n : Nat} (h : n ≤ Wire.maxLength) :
    Takes header (octets (Wire.header n)) ((Wire.header n).size, n) [] := by
  rw [Wire.header]
  split
  · next hn =>
    have hx : UInt8.ofNat n ≠ 254 := by
      intro he
      have := congrArg UInt8.toNat he
      simp only [UInt8.toNat_ofNat'] at this
      change n % 256 = 254 at this
      omega
    rw [octets_pack, LittleEndian.size_pack]
    refine (takes_byte (UInt8.ofNat n)).bind (d := []) (u := []) ?_
    rw [if_pos hx, UInt8.toNat_ofNat', Nat.mod_eq_of_lt (by omega)]
    exact takes_pure (1, n)
  · have hj : LittleEndian.join (LittleEndian.split 3 n) = n := by
      apply LittleEndian.join_split
      simp only [Wire.maxLength] at h
      simp only [LittleEndian.limit]
      omega
    rw [octets_append, octets_pack, octets_pack, ByteArray.size_append, LittleEndian.size_pack,
      LittleEndian.size_pack]
    refine (takes_byte 254).bind (u := []) ?_
    rw [if_neg (by simp)]
    refine (takes_byte _).bind (u := []) ((takes_byte _).bind (u := [])
      ((takes_byte _).bind (d := []) (u := []) ?_))
    change Takes (pure (4, LittleEndian.join (LittleEndian.split 3 n))) _ _ _
    rw [hj]
    exact takes_pure (4, n)

theorem takes_bytes {b : ByteArray} (h : b.size ≤ Wire.maxLength) :
    Takes bytes (octets (Wire.bytes b)) b [] := by
  simp only [Wire.bytes, octets_append, List.append_assoc]
  refine (takes_header h).bind (u := []) ((takes_take b rfl).bind (u := []) ?_)
  rw [← List.append_nil (octets _)]
  exact (takes_take _ (LittleEndian.size_pack _ 0)).bind (u := []) (takes_pure b)

theorem fromUTF8?_toUTF8 (s : String) : String.fromUTF8? s.toUTF8 = some s := by
  have h : s.toUTF8.IsValidUTF8 := s.isValidUTF8
  rw [String.fromUTF8?, dif_pos h]
  rfl

theorem toUTF8_of_fromUTF8? {b : ByteArray} {s : String} (h : String.fromUTF8? b = some s) :
    s.toUTF8 = b := by
  rw [String.fromUTF8?] at h
  split at h
  · cases h
    rfl
  · cases h

theorem takes_string {s : String} (h : s.toUTF8.size ≤ Wire.maxLength) :
    Takes string (octets (Wire.bytes s.toUTF8)) s [] := by
  rw [← List.append_nil (octets _)]
  refine (takes_bytes h).bind (u := []) ?_
  rw [fromUTF8?_toUTF8]
  exact takes_pure s

theorem bytes_of_string {c c' : Cursor} {s : String} (h : string c = .ok s c') :
    bytes c = .ok s.toUTF8 c' := by
  obtain ⟨b, m, hb, h⟩ := bind_eq_ok.mp h
  cases hu : String.fromUTF8? b with
  | none =>
    rw [hu] at h
    cases h
  | some u =>
    rw [hu] at h
    cases h
    rwa [toUTF8_of_fromUTF8? hu]

end Read

end TypeLang
