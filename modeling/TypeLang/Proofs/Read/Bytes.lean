import TypeLang.Proofs.Read.Primitive

namespace TypeLang

namespace Wire

inductive Counts (n : Nat) : List UInt8 → Prop
  | short {count : UInt8} : count ≠ 254 → count.toNat = n → Counts n [count]
  | long {low middle high : UInt8} :
      low.toNat + 256 * middle.toNat + 65536 * high.toNat = n → Counts n [254, low, middle, high]

/-- Whether as few bytes as possible fill up `n` bytes to a multiple of four, whatever they are. -/
def FillsUp (n : Nat) (filling : List UInt8) : Prop :=
  filling.length < 4 ∧ 4 ∣ n + filling.length

inductive Spells (b : ByteArray) : List UInt8 → Prop
  | intro {count filling : List UInt8} : Counts b.size count →
      FillsUp (count.length + b.size) filling → Spells b (count ++ octets b ++ filling)

/-- Whether the cursor `c` is at a form of a byte string, and `d` right behind it. -/
def SpelledAt (c : Cursor) (b : ByteArray) (d : Cursor) : Prop :=
  ∃ w t, Spells b w ∧ c.left = w ++ t ∧ d = c.move w.length []

theorem fillsUp_iff {n : Nat} {filling : List UInt8} :
    FillsUp n filling ↔ filling.length = padding n := by
  rw [FillsUp, padding]
  omega

end Wire

namespace Read

variable {α β : Type}

theorem left_of_byte {c m : Cursor} {x : UInt8} (h : byte c = .ok x m) : c.left = x :: m.left := by
  obtain ⟨t, ht⟩ := byte_eq_ok h
  obtain ⟨-, rfl⟩ := (takes_byte x).unique ht h
  rw [ht, Cursor.left_move_of_eq (b := [x]) ht]

theorem left_of_take {n : Nat} {c m : Cursor} {a : Block n} (h : take n c = .ok a m) :
    c.left = octets a.val ++ m.left := by
  obtain ⟨t, ht⟩ := take_eq_ok h
  obtain ⟨-, rfl⟩ := (takes_take a.val a.property).unique ht h
  rw [ht, Cursor.left_move_of_eq ht]

theorem takes_header_of_counts {n : Nat} {w : List UInt8} (h : Wire.Counts n w) :
    Takes header w (w.length, n) [] := by
  cases h with
  | @short count hc hn =>
    subst hn
    refine (takes_byte count).bind (d := []) (u := []) ?_
    rw [if_pos hc]
    exact takes_pure _
  | @long low middle high hn =>
    have join : LittleEndian.join [low, middle, high] = n := by
      simp only [LittleEndian.join]
      omega
    refine (takes_byte 254).bind (u := []) ?_
    rw [if_neg (by simp)]
    refine (takes_byte low).bind (u := []) ((takes_byte middle).bind (u := [])
      ((takes_byte high).bind (d := []) (u := []) ?_))
    rw [join]
    exact takes_pure _

theorem counts_of_header {c m : Cursor} {size length : Nat}
    (h : header c = .ok (size, length) m) :
    ∃ w, Wire.Counts length w ∧ w.length = size ∧ c.left = w ++ m.left := by
  obtain ⟨first, m₁, h₁, h⟩ := bind_eq_ok.mp h
  have l₁ := left_of_byte h₁
  split at h
  · next hc =>
    cases h
    exact ⟨[first], .short hc rfl, rfl, l₁⟩
  · next hc =>
    obtain rfl : first = 254 := by simpa using hc
    obtain ⟨low, m₂, h₂, h⟩ := bind_eq_ok.mp h
    obtain ⟨middle, m₃, h₃, h⟩ := bind_eq_ok.mp h
    obtain ⟨high, m₄, h₄, h⟩ := bind_eq_ok.mp h
    cases h
    refine ⟨[254, low, middle, high], .long ?_, rfl, ?_⟩
    · simp only [LittleEndian.join]
      omega
    · rw [l₁, left_of_byte h₂, left_of_byte h₃, left_of_byte h₄]
      rfl

theorem takes_bytes_of_spells {b : ByteArray} {w : List UInt8} (h : Wire.Spells b w) :
    Takes bytes w b [] := by
  cases h with
  | @intro count filling hc hf =>
    have size : (⟨filling.toArray⟩ : ByteArray).size = Wire.padding (count.length + b.size) :=
      Wire.fillsUp_iff.mp hf
    rw [List.append_assoc]
    refine (takes_header_of_counts hc).bind (u := []) ((takes_take b rfl).bind (u := []) ?_)
    exact (takes_take ⟨filling.toArray⟩ size).map fun _ => b

theorem spelledAt_of_bytes {c d : Cursor} {b : ByteArray} (h : bytes c = .ok b d) :
    Wire.SpelledAt c b d := by
  have read := h
  obtain ⟨⟨size, length⟩, m₁, h₁, h⟩ := bind_eq_ok.mp h
  obtain ⟨a, m₂, h₂, h⟩ := bind_eq_ok.mp h
  obtain ⟨p, m₃, h₃, h⟩ := bind_eq_ok.mp h
  cases h
  obtain ⟨count, hc, rfl, l₁⟩ := counts_of_header h₁
  have spells : Wire.Spells a.val (count ++ octets a.val ++ octets p.val) := by
    refine .intro (a.property.symm ▸ hc) (Wire.fillsUp_iff.mpr ?_)
    rw [length_octets, p.property, a.property]
  have left : c.left = count ++ octets a.val ++ octets p.val ++ d.left := by
    rw [l₁, left_of_take h₂, left_of_take h₃, List.append_assoc, List.append_assoc]
  exact ⟨_, _, spells, left, ((takes_bytes_of_spells spells).unique left read).2⟩

theorem bytes_eq_ok_iff {c d : Cursor} {b : ByteArray} :
    bytes c = .ok b d ↔ Wire.SpelledAt c b d := by
  constructor
  · exact spelledAt_of_bytes
  · rintro ⟨w, t, spells, left, rfl⟩
    exact takes_bytes_of_spells spells c t left

theorem truncated_of_bytes {c d : Cursor} {e : ReadFault} (h : bytes c = .error e d) :
    ∃ needed remaining, e = .truncated needed remaining := by
  let E (e : ReadFault) : Prop := ∃ needed remaining, e = .truncated needed remaining
  have truncated (needed remaining : Nat) : E (.truncated needed remaining) := ⟨_, _, rfl⟩
  exact bytes_of_parts (P := FailsWith E) failsWith_pure .bind
    (failsWith_byte truncated) (failsWith_take truncated) h

theorem bytes_truncated_iff {c : Cursor} :
    (∃ needed remaining d, bytes c = .error (.truncated needed remaining) d) ↔
      ∀ b d, ¬ Wire.SpelledAt c b d := by
  simp only [← bytes_eq_ok_iff]
  cases h : bytes c with
  | ok b d => simp
  | error e d =>
    obtain ⟨needed, remaining, rfl⟩ := truncated_of_bytes h
    simp

theorem string_of_bytes {c d : Cursor} {b : ByteArray} (h : bytes c = .ok b d) :
    string c = match String.fromUTF8? b with
      | some s => .ok s d
      | none => .error .invalidUtf8 d := by
  rw [string, bind_of_ok h]
  cases String.fromUTF8? b with
  | some s => rfl
  | none => rfl

theorem string_of_bytes_error {c d : Cursor} {e : ReadFault} (h : bytes c = .error e d) :
    string c = .error e d := bind_of_error h _

theorem string_eq_ok_iff {c d : Cursor} {s : String} :
    string c = .ok s d ↔ Wire.SpelledAt c s.toUTF8 d := by
  rw [← bytes_eq_ok_iff]
  constructor
  · exact bytes_of_string
  · intro h
    rw [string_of_bytes h, fromUTF8?_toUTF8]

theorem string_invalidUtf8_iff {c d : Cursor} :
    string c = .error .invalidUtf8 d ↔ ∃ b, Wire.SpelledAt c b d ∧ ¬ b.IsValidUTF8 := by
  constructor
  · intro h
    cases hb : bytes c with
    | ok b d' =>
      rw [string_of_bytes hb] at h
      split at h
      · cases h
      · next none =>
        cases h
        refine ⟨b, bytes_eq_ok_iff.mp hb, fun valid => ?_⟩
        rw [String.fromUTF8?, dif_pos valid] at none
        cases none
    | error e d' =>
      rw [string_of_bytes_error hb] at h
      cases h
      obtain ⟨_, _, he⟩ := truncated_of_bytes hb
      cases he
  · rintro ⟨b, spelled, invalid⟩
    rw [string_of_bytes (bytes_eq_ok_iff.mpr spelled), String.fromUTF8?, dif_neg invalid]

theorem string_truncated_iff {c : Cursor} :
    (∃ needed remaining d, string c = .error (.truncated needed remaining) d) ↔
      ∀ b d, ¬ Wire.SpelledAt c b d := by
  rw [← bytes_truncated_iff]
  cases hb : bytes c with
  | ok b d =>
    rw [string_of_bytes hb]
    cases String.fromUTF8? b with
    | some s => simp
    | none => simp
  | error e d => simp [string_of_bytes_error hb]

/-- Byte strings are read back from the form they are written in, whatever follows it. Reading
them succeeds just where a form of some bytes is ahead, with these bytes, and stops right behind
it; on everything else there are too few bytes. A text is read where these bytes are UTF-8, and
refused where they are not. -/
theorem bytes_exact :
    (∀ b, b.size ≤ Wire.maxLength → Takes bytes (octets (Wire.bytes b)) b []) ∧
      ∀ c : Cursor,
        (∀ b d, bytes c = .ok b d ↔ Wire.SpelledAt c b d) ∧
        (∀ s d, string c = .ok s d ↔ Wire.SpelledAt c s.toUTF8 d) ∧
        (∀ d, string c = .error .invalidUtf8 d ↔ ∃ b, Wire.SpelledAt c b d ∧ ¬ b.IsValidUTF8) ∧
        ((∃ needed remaining d, bytes c = .error (.truncated needed remaining) d) ↔
          ∀ b d, ¬ Wire.SpelledAt c b d) ∧
        ((∃ needed remaining d, string c = .error (.truncated needed remaining) d) ↔
          ∀ b d, ¬ Wire.SpelledAt c b d) :=
  ⟨fun _ => takes_bytes, fun _ => ⟨fun _ _ => bytes_eq_ok_iff, fun _ _ => string_eq_ok_iff,
    fun _ => string_invalidUtf8_iff, bytes_truncated_iff, string_truncated_iff⟩⟩

theorem bytes_exact_lone : ∃ b c d, b.size ≤ Wire.maxLength ∧
    Takes bytes (octets (Wire.bytes b)) b [] ∧ c.left = [254, 1, 0, 0, 0xff, 7, 7, 7, 9] ∧
      d.left = [9] ∧ bytes c = .ok b d ∧ string c = .error .invalidUtf8 d := by
  let b : ByteArray := ⟨#[0xff]⟩
  let c : Cursor := .ofBytes ⟨#[254, 1, 0, 0, 0xff, 7, 7, 7, 9]⟩
  have spells : Wire.Spells b ([254, 1, 0, 0] ++ octets b ++ [7, 7, 7]) :=
    .intro (.long rfl) ⟨by decide, by decide⟩
  have spelled : Wire.SpelledAt c b (c.move 8 []) := ⟨_, [9], spells, rfl, rfl⟩
  obtain ⟨written, read⟩ := bytes_exact
  obtain ⟨ok, -, refused, -⟩ := read c
  exact ⟨b, c, _, by decide, written b (by decide), rfl, rfl, (ok b _).mpr spelled,
    (refused _).mpr ⟨b, spelled, by decide⟩⟩

end Read

end TypeLang
