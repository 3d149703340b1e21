import TypeLang.Wire.Cursor

/-!
Reading as a matter of the bytes that are left. A read *takes* some bytes if it succeeds on them
whatever follows, and it *starves* on what is less than these bytes. A *framed* read does both with
whatever it has been read from.
-/

namespace TypeLang

section

variable {ε σ α β : Type}

theorem bind_eq_ok {r : EStateM ε σ α} {f : α → EStateM ε σ β} {c c' : σ} {b : β} :
    (r >>= f) c = .ok b c' ↔ ∃ a m, r c = .ok a m ∧ f a m = .ok b c' := by
  change EStateM.bind r f c = .ok b c' ↔ _
  rw [EStateM.bind]
  cases r c with
  | ok a m =>
    constructor
    · intro h
      exact ⟨a, m, rfl, h⟩
    · rintro ⟨_, _, ⟨⟩, h⟩
      exact h
  | error e m => simp

theorem bind_of_ok {r : EStateM ε σ α} {c m : σ} {a : α} (h : r c = .ok a m)
    (f : α → EStateM ε σ β) : (r >>= f) c = f a m := by
  change EStateM.bind r f c = _
  rw [EStateM.bind, h]

theorem bind_of_error {r : EStateM ε σ α} {c m : σ} {e : ε} (h : r c = .error e m)
    (f : α → EStateM ε σ β) : (r >>= f) c = .error e m := by
  change EStateM.bind r f c = _
  rw [EStateM.bind, h]

theorem bind_eq_bind {r r' : EStateM ε σ α} {c c' : σ} (h : r c = r' c') (f : α → EStateM ε σ β) :
    (r >>= f) c = (r' >>= f) c' := by
  change EStateM.bind r f c = EStateM.bind r' f c'
  rw [EStateM.bind, EStateM.bind, h]

end

def octets (b : ByteArray) : List UInt8 := b.data.toList

@[simp] theorem length_octets (b : ByteArray) : (octets b).length = b.size := rfl

@[simp] theorem octets_append (a b : ByteArray) : octets (a ++ b) = octets a ++ octets b := by
  simp [octets]

theorem octets_extract (b : ByteArray) (i j : Nat) :
    octets (b.extract i j) = ((octets b).take j).drop i := by
  simp [octets, List.drop_take]

theorem octets_injective {a b : ByteArray} (h : octets a = octets b) : a = b := by
  apply ByteArray.ext
  exact Array.toList_inj.mp h

namespace Cursor

def left (c : Cursor) : List UInt8 := (octets c.bytes).drop c.pos

def move (c : Cursor) (n : Nat) (sizes : List (Nat × Nat)) : Cursor :=
  { c with pos := c.pos + n, unpacked := c.unpacked ++ sizes }

theorem length_left (c : Cursor) : c.left.length = c.remaining := by
  simp [left, remaining]

@[simp] theorem left_ofBytes (b : ByteArray) : (ofBytes b).left = octets b := rfl

@[simp] theorem move_zero (c : Cursor) : c.move 0 [] = c := by
  simp [move]

@[simp] theorem move_move (c : Cursor) (m n : Nat) (s t : List (Nat × Nat)) :
    (c.move m s).move n t = c.move (m + n) (s ++ t) := by
  simp [move, Nat.add_assoc]

theorem left_move (c : Cursor) (n : Nat) (sizes : List (Nat × Nat)) :
    (c.move n sizes).left = c.left.drop n := by
  simp [left, move]

theorem left_move_of_eq {c : Cursor} {b t : List UInt8} (h : c.left = b ++ t)
    (sizes : List (Nat × Nat)) : (c.move b.length sizes).left = t := by
  rw [left_move, h, List.drop_left]

end Cursor

namespace Read

variable {α β : Type}

/-- The read takes `b` and no more, whatever follows `b`. -/
def Takes (r : Read α) (b : List UInt8) (a : α) (sizes : List (Nat × Nat)) : Prop :=
  ∀ c t, c.left = b ++ t → r c = .ok a (c.move b.length sizes)

/-- The read fails for want of bytes where `b` breaks off. -/
def Starves (r : Read α) (b : List UInt8) : Prop :=
  ∀ c t, t ≠ [] → c.left ++ t = b →
    ∃ needed remaining c', r c = .error (.truncated needed remaining) c'

/-- Where the read succeeds, it takes what it has been read from and starves on less. -/
def Framed (r : Read α) : Prop :=
  ∀ ⦃c c' a⦄, r c = .ok a c' →
    ∃ b t sizes, c.left = b ++ t ∧ Takes r b a sizes ∧ Starves r b

def FailsWith (E : ReadFault → Prop) (r : Read α) : Prop := ∀ ⦃c d e⦄, r c = .error e d → E e

def AtLeast (w : Nat) (r : Read α) : Prop :=
  ∀ ⦃c c' a⦄, r c = .ok a c' → c'.left.length + w ≤ c.left.length

theorem takes_pure (a : α) : Takes (pure a) [] a [] := by
  intro c t _
  simp [pure, EStateM.pure]

theorem Takes.bind {r : Read α} {f : α → Read β} {a : α} {a' : β} {b d : List UInt8}
    {s u : List (Nat × Nat)} (h : Takes r b a s) (h' : Takes (f a) d a' u) :
    Takes (r >>= f) (b ++ d) a' (s ++ u) := by
  intro c t hc
  rw [List.append_assoc] at hc
  rw [bind_of_ok (h c _ hc), h' _ t (Cursor.left_move_of_eq hc s), Cursor.move_move,
    List.length_append]

theorem Takes.map {r : Read α} {a : α} {b : List UInt8} {s : List (Nat × Nat)}
    (h : Takes r b a s) (g : α → β) : Takes (do return g (← r)) b (g a) s := by
  have := h.bind (f := fun a => pure (g a)) (takes_pure (g a))
  rwa [List.append_nil, List.append_nil] at this

theorem Takes.unique {r : Read α} {a a' : α} {b : List UInt8} {s : List (Nat × Nat)}
    {c c' : Cursor} {t : List UInt8} (h : Takes r b a s) (hc : c.left = b ++ t)
    (hr : r c = .ok a' c') : a' = a ∧ c' = c.move b.length s := by
  have := (h c t hc).symm.trans hr
  injection this with ha hc'
  exact ⟨ha.symm, hc'.symm⟩

theorem Takes.le_length {r : Read α} {w : Nat} {a : α} {b : List UInt8} {s : List (Nat × Nat)}
    (h : Takes r b a s) (hw : AtLeast w r) : w ≤ b.length := by
  let c : Cursor := ⟨⟨b.toArray⟩, 0, []⟩
  have hc : c.left = b ++ [] := by simp [c, Cursor.left, octets]
  have := hw (h c [] hc)
  rw [Cursor.left_move_of_eq hc, hc] at this
  simpa using this

theorem starves_nil (r : Read α) : Starves r [] := by
  intro c t ht h
  exact absurd (List.append_eq_nil_iff.mp h).2 ht

theorem Starves.bind {r : Read α} {f : α → Read β} {a : α} {b b' : List UInt8}
    {s : List (Nat × Nat)} (ht : Takes r b a s) (h : Starves r b) (h' : Starves (f a) b') :
    Starves (r >>= f) (b ++ b') := by
  intro c t htne hc
  -- the bytes break off within `b`, right behind it, or within what the second read takes
  rcases List.append_eq_append_iff.mp hc with ⟨u, rfl, rfl⟩ | ⟨u, hl, rfl⟩
  · by_cases hu : u = []
    · subst hu
      have hl : c.left = c.left ++ [] := (List.append_nil _).symm
      rw [List.append_nil] at ht
      obtain ⟨n, m, c', he⟩ := h' (c.move c.left.length s) ([] ++ b') htne
        (by rw [Cursor.left_move_of_eq hl]; rfl)
      exact ⟨n, m, c', by rw [bind_of_ok (ht c _ hl), he]⟩
    · obtain ⟨n, m, c', he⟩ := h c u hu rfl
      exact ⟨n, m, c', bind_of_error he f⟩
  · obtain ⟨n, m, c', he⟩ := h' (c.move b.length s) t htne
      (by rw [Cursor.left_move_of_eq hl])
    exact ⟨n, m, c', by rw [bind_of_ok (ht c _ hl), he]⟩

theorem framed_pure (a : α) : Framed (pure a) := by
  intro c c' _ h
  cases h
  exact ⟨[], c.left, [], rfl, takes_pure a, starves_nil _⟩

theorem framed_throw (e : ReadFault) : Framed (throw e : Read α) := by
  intro c c' a h
  cases h

theorem Framed.bind {r : Read α} {f : α → Read β} (h : Framed r) (h' : ∀ a, Framed (f a)) :
    Framed (r >>= f) := by
  intro c c' a' hr
  obtain ⟨a, m, hm, hf⟩ := bind_eq_ok.mp hr
  obtain ⟨b, t, s, hc, ht, hs⟩ := h hm
  obtain ⟨_, rfl⟩ := ht.unique hc hm
  obtain ⟨b', t', s', hc', ht', hs'⟩ := h' a hf
  rw [Cursor.left_move_of_eq hc] at hc'
  exact ⟨b ++ b', t', s ++ s', by rw [hc, hc', List.append_assoc], ht.bind ht', hs.bind ht hs'⟩

theorem atLeast_pure (a : α) : AtLeast 0 (pure a : Read α) := by
  intro c c' _ h
  cases h
  exact Nat.le_refl _

theorem atLeast_throw (w : Nat) (e : ReadFault) : AtLeast w (throw e : Read α) := by
  intro c c' a h
  cases h

theorem AtLeast.bind {r : Read α} {f : α → Read β} {v w : Nat} (h : AtLeast v r)
    (h' : ∀ a, AtLeast w (f a)) : AtLeast (v + w) (r >>= f) := by
  intro c c' a' hr
  obtain ⟨a, m, hm, hf⟩ := bind_eq_ok.mp hr
  have := h hm
  have := h' a hf
  omega

theorem AtLeast.mono {r : Read α} {v w : Nat} (h : AtLeast w r) (hv : v ≤ w) : AtLeast v r := by
  intro c c' a hr
  have := h hr
  omega

theorem failsWith_pure {E : ReadFault → Prop} (a : α) : FailsWith E (pure a) := by
  intro c d e h
  cases h

theorem failsWith_throw {E : ReadFault → Prop} {e : ReadFault} (he : E e) :
    FailsWith E (throw e : Read α) := by
  intro c d e' h
  cases h
  exact he

theorem FailsWith.bind {E : ReadFault → Prop} {r : Read α} {f : α → Read β} (h : FailsWith E r)
    (h' : ∀ a, FailsWith E (f a)) : FailsWith E (r >>= f) := by
  intro c d e hr
  cases hm : r c with
  | ok a m =>
    rw [bind_of_ok hm] at hr
    exact h' a hr
  | error e' m =>
    rw [bind_of_error hm] at hr
    cases hr
    exact h hm

theorem FailsWith.rewinding {E : ReadFault → Prop} {r : Read α} (h : FailsWith E r) :
    FailsWith E (rewinding r) := by
  intro c d e hr
  rw [Read.rewinding] at hr
  split at hr
  · cases hr
  · next he =>
    cases hr
    exact h he

theorem rewinding_eq_ok {r : Read α} {c c' : Cursor} {a : α} (h : rewinding r c = .ok a c') :
    r c = .ok a c' := by
  rw [rewinding] at h
  split at h
  · next hok =>
    cases h
    exact hok
  · cases h

theorem rewinding_congr {r r' : Read α} {c : Cursor} (h : r c = r' c) :
    rewinding r c = rewinding r' c := by
  rw [rewinding, rewinding, h]

theorem map_rewinding (g : α → β) (r : Read α) :
    g <$> rewinding r = rewinding (r >>= fun a => pure (g a)) := by
  funext c
  rw [map_eq_pure_bind, rewinding]
  cases hr : r c with
  | ok a m =>
    rw [bind_of_ok hr, bind_of_ok (by rw [rewinding, hr])]
    rfl
  | error e m =>
    rw [bind_of_error hr, bind_of_error (by rw [rewinding, hr])]

end Read

end TypeLang
