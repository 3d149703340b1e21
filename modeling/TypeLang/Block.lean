namespace TypeLang

abbrev Block (n : Nat) := { bytes : ByteArray // bytes.size = n }

def Block.ofBytes? (n : Nat) (b : ByteArray) : Option (Block n) :=
  if h : b.size = n then some ⟨b, h⟩ else none

end TypeLang
