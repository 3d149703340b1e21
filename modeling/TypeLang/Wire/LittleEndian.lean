namespace TypeLang.LittleEndian

def split : (width : Nat) → (n : Nat) → List UInt8
  | 0, _ => []
  | w + 1, n => UInt8.ofNat n :: split w (n / 256)

def join : List UInt8 → Nat
  | [] => 0
  | b :: bs => b.toNat + 256 * join bs

def limit : (width : Nat) → Nat
  | 0 => 1
  | w + 1 => 256 * limit w

@[simp] theorem length_split (w n : Nat) : (split w n).length = w := by
  induction w generalizing n with
  | zero => rfl
  | succ w ih => simp [split, ih]

theorem join_split {w n : Nat} (h : n < limit w) : join (split w n) = n := by
  induction w generalizing n with
  | zero => simp_all [split, join, limit]
  | succ w ih =>
    have : n / 256 < limit w := by
      simp only [limit] at h
      omega
    simp only [split, join, ih this, UInt8.toNat_ofNat']
    omega

theorem join_lt (bs : List UInt8) : join bs < limit bs.length := by
  induction bs with
  | nil => simp [join, limit]
  | cons b bs ih =>
    have := b.toNat_lt
    simp only [join, List.length_cons, limit]
    omega

def pack (width n : Nat) : ByteArray := ⟨(split width n).toArray⟩

def unpack (b : ByteArray) : Nat := join b.data.toList

@[simp] theorem size_pack (w n : Nat) : (pack w n).size = w := by
  simp [pack, ByteArray.size]

theorem unpack_pack {w n : Nat} (h : n < limit w) : unpack (pack w n) = n := by
  simp [unpack, pack, join_split h]

end TypeLang.LittleEndian
