namespace TypeLang

instance lawfulOrderMaxInt32 : Std.LawfulOrderMax Int32 where
  max_eq_or a b := by
    change (if a ≤ b then b else a) = a ∨ (if a ≤ b then b else a) = b
    split
    · exact .inr rfl
    · exact .inl rfl
  max_le_iff a b c := by
    change (if a ≤ b then b else a) ≤ c ↔ a ≤ c ∧ b ≤ c
    split
    · next h => exact ⟨fun hc => ⟨Int32.le_trans h hc, hc⟩, And.right⟩
    · next h =>
      have hb : b ≤ a := (Int32.le_total a b).resolve_left h
      exact ⟨fun hc => ⟨hc, Int32.le_trans hb hc⟩, And.left⟩

end TypeLang
