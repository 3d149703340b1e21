/-!
Dictionaries: association lists with strictly increasing keys. Keys are compared character by
character, which is also the order of their UTF-8 bytes.
-/

namespace TypeLang

universe u

abbrev Dict (α : Type u) := List (String × α)

namespace Dict

variable {α : Type u}

def get? (d : Dict α) (key : String) : Option α :=
  (d.find? (·.1 = key)).map (·.2)

def insert (key : String) (value : α) : Dict α → Dict α
  | [] => [(key, value)]
  | (k, v) :: rest =>
    if key < k then (key, value) :: (k, v) :: rest
    else if key = k then (key, value) :: rest
    else (k, v) :: insert key value rest

/-- The last of several values under one key counts. -/
def ofList (kvs : List (String × α)) : Dict α :=
  kvs.foldl (fun d (k, v) => insert k v d) []

@[simp] theorem get?_nil (key : String) : get? ([] : Dict α) key = none := rfl

@[simp] theorem get?_insert_self (key : String) (value : α) (d : Dict α) :
    get? (insert key value d) key = some value := by
  induction d with
  | nil => simp [insert, get?]
  | cons kv rest ih =>
    obtain ⟨k, v⟩ := kv
    simp only [insert]
    split
    · simp [get?]
    · split
      · simp [get?]
      · next h =>
        simp only [get?] at ih
        simp [get?, Ne.symm h, ih]

theorem get?_insert_of_ne {key other : String} (h : other ≠ key) (value : α) (d : Dict α) :
    get? (insert key value d) other = get? d other := by
  induction d with
  | nil => simp [insert, get?, Ne.symm h]
  | cons kv rest ih =>
    obtain ⟨k, v⟩ := kv
    simp only [insert]
    split
    · simp [get?, Ne.symm h]
    · split
      · next hk => subst hk; simp [get?, Ne.symm h]
      · simp only [get?] at ih
        by_cases hk : k = other
        · simp [get?, hk]
        · simp [get?, hk, ih]

end Dict

end TypeLang
