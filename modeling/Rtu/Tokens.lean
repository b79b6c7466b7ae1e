/-!
# Tables of tokens

A table pairs tokens with values, each token and each value at most once. Read one way it decodes, read the other way it encodes,
and the two are inverse to each other. Nothing here names a particular table.
-/

namespace Tokens

universe u v

/-- A table in which no token and no value occurs twice. A table that is written down is checked by evaluation. -/
structure TokenTable (κ : Type u) (α : Type v) where
  entries : List (κ × α)
  tokens_nodup : (entries.map Prod.fst).Nodup := by decide
  values_nodup : (entries.map Prod.snd).Nodup := by decide

variable {κ : Type u} {α : Type v}

/-- The tokens of a table. -/
def TokenTable.tokens (t : TokenTable κ α) : List κ := t.entries.map Prod.fst

/-- The value of a token. -/
def TokenTable.read [DecidableEq κ] (t : TokenTable κ α) (k : κ) : Option α :=
  (t.entries.find? (fun e => e.1 = k)).map Prod.snd

/-- The token of a value. -/
def TokenTable.write [DecidableEq α] (t : TokenTable κ α) (a : α) : Option κ :=
  (t.entries.find? (fun e => e.2 = a)).map Prod.fst

/-- Two entries of a list that agree on a part that occurs once are the same. -/
theorem eq_of_nodup_map {β : Type u} {γ : Type v} {f : β → γ} {l : List β} (h : (l.map f).Nodup) {x y : β} (hx : x ∈ l)
    (hy : y ∈ l) (hf : f x = f y) : x = y := by
  induction l with
  | nil => cases hx
  | cons z l ih =>
    rw [List.map_cons, List.nodup_cons] at h
    have hz : ∀ w ∈ l, f z ≠ f w := fun w hw hzw => h.1 (hzw ▸ List.mem_map_of_mem hw)
    rcases List.mem_cons.mp hx with rfl | hx' <;> rcases List.mem_cons.mp hy with rfl | hy'
    · rfl
    · exact absurd hf (hz y hy')
    · exact absurd hf.symm (hz x hx')
    · exact ih h.2 hx' hy'

/-- A token reads as a value exactly when the table pairs them. -/
theorem TokenTable.read_eq_some [DecidableEq κ] (t : TokenTable κ α) (k : κ) (a : α) :
    t.read k = some a ↔ (k, a) ∈ t.entries := by
  unfold TokenTable.read
  constructor
  · intro h
    obtain ⟨⟨k', a'⟩, hfind, rfl⟩ := Option.map_eq_some_iff.mp h
    have hk : k' = k := by simpa using List.find?_some hfind
    rw [← hk]
    exact List.mem_of_find?_eq_some hfind
  · intro hmem
    cases hfind : t.entries.find? (fun e => e.1 = k) with
    | none =>
      have hne := List.find?_eq_none.mp hfind (k, a) hmem
      simp at hne
    | some e =>
      have hk : e.1 = k := by simpa using List.find?_some hfind
      have he : e = (k, a) := eq_of_nodup_map t.tokens_nodup (List.mem_of_find?_eq_some hfind) hmem hk
      rw [he]
      rfl

/-- A value is written as a token exactly when the table pairs them. -/
theorem TokenTable.write_eq_some [DecidableEq α] (t : TokenTable κ α) (k : κ) (a : α) :
    t.write a = some k ↔ (k, a) ∈ t.entries := by
  unfold TokenTable.write
  constructor
  · intro h
    obtain ⟨⟨k', a'⟩, hfind, rfl⟩ := Option.map_eq_some_iff.mp h
    have ha : a' = a := by simpa using List.find?_some hfind
    rw [← ha]
    exact List.mem_of_find?_eq_some hfind
  · intro hmem
    cases hfind : t.entries.find? (fun e => e.2 = a) with
    | none =>
      have hne := List.find?_eq_none.mp hfind (k, a) hmem
      simp at hne
    | some e =>
      have ha : e.2 = a := by simpa using List.find?_some hfind
      have he : e = (k, a) := eq_of_nodup_map t.values_nodup (List.mem_of_find?_eq_some hfind) hmem ha
      rw [he]
      rfl

/-- Reading and writing are inverse to each other. -/
theorem TokenTable.read_iff_write [DecidableEq κ] [DecidableEq α] (t : TokenTable κ α) (k : κ) (a : α) :
    t.read k = some a ↔ t.write a = some k := by
  rw [t.read_eq_some, t.write_eq_some]

/-- A token reads as some value exactly when the table has it. -/
theorem TokenTable.read_isSome [DecidableEq κ] (t : TokenTable κ α) (k : κ) : (t.read k).isSome ↔ k ∈ t.tokens := by
  rw [Option.isSome_iff_exists]
  unfold TokenTable.tokens
  constructor
  · rintro ⟨a, ha⟩
    exact List.mem_map.mpr ⟨(k, a), (t.read_eq_some k a).mp ha, rfl⟩
  · intro hmem
    obtain ⟨⟨k', a⟩, he, rfl⟩ := List.mem_map.mp hmem
    exact ⟨a, (t.read_eq_some k' a).mpr he⟩

end Tokens
