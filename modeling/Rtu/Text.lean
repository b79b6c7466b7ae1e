import Mathlib.Algebra.GroupWithZero.Nat

/-!
# Texts in buffers

A text is written into a buffer with a terminator behind it; what the buffer held further on stays. It is read back up to the first
terminator. Of several texts written one after the other, each place keeps the last one that reached it. A text of fields, each with a
separator behind it, splits into the fields again. Nothing here names a particular alphabet or a particular text.
-/

namespace Text

universe u

variable {α : Type u} {n : Nat}

/-- A text and its terminator at the start of a buffer. -/
def write (nul : α) (buf : Vector α n) (text : List α) (fits : text.length < n) : Vector α n :=
  ⟨(text ++ nul :: buf.toList.drop (text.length + 1)).toArray, by
    simp only [List.size_toArray, List.length_append, List.length_cons, List.length_drop, Vector.length_toList]
    omega⟩

/-- As much of a text as a buffer has room for, and its terminator. -/
def writeBounded (nul : α) (buf : Vector α (n + 1)) (text : List α) : Vector α (n + 1) :=
  write nul buf (text.take n) (Nat.lt_succ_of_le (List.length_take_le n text))

/-- The text in a buffer. -/
def read [DecidableEq α] (nul : α) (buf : Vector α n) : List α := buf.toList.takeWhile fun a => a ≠ nul

theorem toList_write (nul : α) (buf : Vector α n) (text : List α) (fits : text.length < n) :
    (write nul buf text fits).toList = text ++ nul :: buf.toList.drop (text.length + 1) := rfl

/-- What was written is read. -/
theorem read_write [DecidableEq α] {nul : α} (buf : Vector α n) {text : List α} (fits : text.length < n) (hnul : nul ∉ text) :
    read nul (write nul buf text fits) = text := by
  have hall : ∀ a ∈ text, decide (a ≠ nul) = true := by
    intro a ha
    refine decide_eq_true ?_
    rintro rfl
    exact hnul ha
  unfold read
  rw [toList_write, List.takeWhile_append_of_pos hall, List.takeWhile_cons_of_neg (by simp), List.append_nil]

/-- A text that fits is written whole. -/
theorem writeBounded_of_fits (nul : α) (buf : Vector α (n + 1)) {text : List α} (fits : text.length < n + 1) :
    writeBounded nul buf text = write nul buf text fits := by
  have htake : text.take n = text := List.take_of_length_le (Nat.le_of_lt_succ fits)
  unfold writeBounded
  congr

/-- What is in a buffer after a text was written into it: the text and its terminator, and behind them what was there. -/
theorem getElem?_write (nul : α) (buf : Vector α n) {text : List α} (fits : text.length < n) (i : Nat) :
    (write nul buf text fits).toList[i]? = if i ≤ text.length then (text ++ [nul])[i]? else buf.toList[i]? := by
  have hsplit : (write nul buf text fits).toList = (text ++ [nul]) ++ buf.toList.drop (text.length + 1) := by
    rw [toList_write, List.append_assoc, List.singleton_append]
  have hlen : (text ++ [nul]).length = text.length + 1 := by simp
  rw [hsplit]
  split
  · exact List.getElem?_append_left (by omega)
  · rw [List.getElem?_append_right (by omega), List.getElem?_drop, hlen]
    congr 1
    omega

/-- A text written into two buffers leaves the same in both exactly when they held the same behind it. -/
theorem write_inj_iff (nul : α) (a b : Vector α n) {text : List α} (fits : text.length < n) :
    write nul a text fits = write nul b text fits ↔ ∀ i, text.length < i → a.toList[i]? = b.toList[i]? := by
  constructor
  · intro h i hi
    have hplace := congrArg (fun buf : Vector α n => buf.toList[i]?) h
    simpa only [getElem?_write, if_neg (Nat.not_le.mpr hi)] using hplace
  · intro h
    refine Vector.toList_inj.mp (List.ext_getElem? fun i => ?_)
    rw [getElem?_write, getElem?_write]
    split
    · rfl
    · exact h i (by omega)

/-! ## One text after another -/

/-- Texts written into a buffer, the last one first in the list. -/
def writeAll (nul : α) (buf : Vector α (n + 1)) (texts : List (List α)) : Vector α (n + 1) :=
  texts.foldr (fun text buf => writeBounded nul buf text) buf

/-- What they leave at a place: the last text that reached it, with its terminator, decides; else the buffer is as it was. -/
def residue (nul : α) (buf : Vector α n) (texts : List (List α)) (i : Nat) : Option α :=
  match texts.find? fun text => i ≤ text.length with
  | some text => (text ++ [nul])[i]?
  | none => buf.toList[i]?

theorem getElem?_writeAll (nul : α) (buf : Vector α (n + 1)) {texts : List (List α)} (fits : ∀ text ∈ texts, text.length < n + 1)
    (i : Nat) : (writeAll nul buf texts).toList[i]? = residue nul buf texts i := by
  induction texts with
  | nil => rfl
  | cons text texts ih =>
    obtain ⟨htext, htexts⟩ := List.forall_mem_cons.mp fits
    show (writeBounded nul (writeAll nul buf texts) text).toList[i]? = _
    rw [writeBounded_of_fits nul _ htext, getElem?_write, ih htexts]
    unfold residue
    by_cases hreach : i ≤ text.length
    · rw [if_pos hreach, List.find?_cons_of_pos (by simpa using hreach)]
    · rw [if_neg hreach, List.find?_cons_of_neg (by simpa using hreach)]

/-! ## Fields -/

/-- Fields, each with a separator behind it. -/
def terminated (sep : α) (fields : List (List α)) : List α := fields.flatMap fun field => field ++ [sep]

@[simp] theorem terminated_nil (sep : α) : terminated sep [] = [] := rfl

@[simp] theorem terminated_cons (sep : α) (field : List α) (fields : List (List α)) :
    terminated sep (field :: fields) = field ++ sep :: terminated sep fields := by
  simp [terminated]

theorem length_terminated (sep : α) (fields : List (List α)) :
    (terminated sep fields).length = (fields.map List.length).sum + fields.length := by
  induction fields with
  | nil => rfl
  | cons field fields ih =>
    simp only [terminated_cons, List.length_append, List.length_cons, ih, List.map_cons, List.sum_cons]
    omega

theorem mem_terminated {sep a : α} {fields : List (List α)} (h : a ∈ terminated sep fields) :
    a = sep ∨ ∃ field ∈ fields, a ∈ field := by
  obtain ⟨field, hfield, ha⟩ := List.mem_flatMap.mp h
  rcases List.mem_append.mp ha with ha | ha
  · exact Or.inr ⟨field, hfield, ha⟩
  · exact Or.inl (List.mem_singleton.mp ha)

/-- The fields are found again, if none of them has the separator in it. -/
theorem splitOn_terminated [BEq α] [LawfulBEq α] {sep : α} {fields : List (List α)} (h : ∀ field ∈ fields, sep ∉ field) :
    (terminated sep fields).splitOn sep = fields ++ [[]] := by
  induction fields with
  | nil => rfl
  | cons field fields ih =>
    rw [terminated_cons, List.splitOn_append_cons_self_of_not_mem (h field List.mem_cons_self),
      ih fun f hf => h f (List.mem_cons_of_mem field hf)]
    rfl

end Text
