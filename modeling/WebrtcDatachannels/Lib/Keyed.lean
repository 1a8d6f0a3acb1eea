import Mathlib.Data.List.Basic
import Mathlib.Data.List.Nodup
import Mathlib.Tactic.Common

/-!
# Lists of records found by key

The first record of a list with a given key (`find?`), and the update of that record in place
(`modify`), for any type of records with a key function. The lemmas say what a lookup returns after
an update, an append and a map that keep the keys, and that these keep the keys distinct.
-/

namespace Keyed

variable {α κ : Type*} [DecidableEq κ] (key : α → κ)

/-- The first record with key `k`. -/
def find? (k : κ) (l : List α) : Option α := l.find? fun a => key a = k

/-- Apply `f` to the first record with key `k`. -/
def modify (k : κ) (f : α → α) : List α → List α
  | [] => []
  | a :: l => if key a = k then f a :: l else a :: modify k f l

variable {key} {k k' : κ} {f : α → α} {l : List α} {a b : α}

theorem find?_cons : find? key k (a :: l) = if key a = k then some a else find? key k l := by
  by_cases h : key a = k <;> simp [find?, h]

/-- A record that a lookup returns is in the list and has the key. -/
theorem mem_of_find? (h : find? key k l = some a) : a ∈ l ∧ key a = k :=
  ⟨List.mem_of_find?_eq_some h, by simpa using List.find?_some h⟩

theorem find?_eq_none : find? key k l = none ↔ ∀ a ∈ l, key a ≠ k := by
  simp [find?]

/-- With distinct keys a record is found under its own key. -/
theorem find?_of_mem (hnd : (l.map key).Nodup) (ha : a ∈ l) : find? key (key a) l = some a := by
  induction l with
  | nil => cases ha
  | cons b l ih =>
    rw [List.map_cons, List.nodup_cons] at hnd
    rw [find?_cons]
    rcases List.mem_cons.1 ha with rfl | ha
    · rw [if_pos rfl]
    · have hne : key b ≠ key a := fun h => hnd.1 (h ▸ List.mem_map_of_mem ha)
      rw [if_neg hne, ih hnd.2 ha]

/-- An update that keeps the keys keeps the list of keys. -/
theorem map_key_modify (hf : ∀ a, key (f a) = key a) :
    (modify key k f l).map key = l.map key := by
  induction l with
  | nil => rfl
  | cons a l ih =>
    rw [modify]
    split
    · simp [hf]
    · simp [ih]

/-- A record of an updated list is one of the list, or the updated record with the key. -/
theorem mem_modify (h : b ∈ modify key k f l) : b ∈ l ∨ ∃ a ∈ l, key a = k ∧ b = f a := by
  induction l with
  | nil => cases h
  | cons a l ih =>
    rw [modify] at h
    split at h
    · next hk =>
      rcases List.mem_cons.1 h with rfl | h
      · exact .inr ⟨a, .head _, hk, rfl⟩
      · exact .inl (.tail _ h)
    · rcases List.mem_cons.1 h with rfl | h
      · exact .inl (.head _)
      · rcases ih h with h | ⟨c, hc, hk, rfl⟩
        · exact .inl (.tail _ h)
        · exact .inr ⟨c, .tail _ hc, hk, rfl⟩

/-- The updated record is found under its key. -/
theorem find?_modify_self (hf : ∀ a, key (f a) = key a) :
    find? key k (modify key k f l) = (find? key k l).map f := by
  induction l with
  | nil => rfl
  | cons a l ih =>
    rw [modify, find?_cons]
    split
    · next hk => rw [find?_cons, if_pos (by rw [hf, hk])]; rfl
    · next hk => rw [find?_cons, if_neg hk, ih]

/-- A lookup under another key does not see the update. -/
theorem find?_modify_ne (hf : ∀ a, key (f a) = key a) (hne : k' ≠ k) :
    find? key k' (modify key k f l) = find? key k' l := by
  induction l with
  | nil => rfl
  | cons a l ih =>
    rw [modify]
    split
    · next hk =>
      rw [find?_cons, find?_cons, if_neg (by rw [hf, hk]; exact Ne.symm hne),
        if_neg (by rw [hk]; exact Ne.symm hne)]
    · rw [find?_cons, find?_cons, ih]

/-- A lookup in an extended list sees the new record only when the old list has no such key. -/
theorem find?_concat :
    find? key k (l ++ [a]) = (find? key k l).or (if key a = k then some a else none) := by
  induction l with
  | nil => rw [List.nil_append, find?_cons]; rfl
  | cons b l ih =>
    rw [List.cons_append, find?_cons, find?_cons, ih]
    split <;> rfl

/-- A lookup commutes with a map that keeps the keys. -/
theorem find?_map (hf : ∀ a, key (f a) = key a) :
    find? key k (l.map f) = (find? key k l).map f := by
  induction l with
  | nil => rfl
  | cons a l ih =>
    rw [List.map_cons, find?_cons, find?_cons, hf, ih]
    split <;> rfl

end Keyed
