import Mathlib.Data.List.Basic
import Mathlib.Data.List.Induction
import Mathlib.Tactic.Common

/-!
# Maps that are filled entry by entry

A loop that inserts the entries of a list into a sorted map one after another: the map holds the
last entry of each key (`getElem?_fill`), so it holds every entry when the entries of one key agree
(`mem_fill_iff`).
-/

namespace Table

variable {κ ν : Type*} {cmp : κ → κ → Ordering}

/-- Insert the entries of a list, the first one first. -/
def fill (t : Std.TreeMap κ ν cmp) (l : List (κ × ν)) : Std.TreeMap κ ν cmp :=
  l.foldl (fun t e => t.insert e.1 e.2) t

section
variable {t : Std.TreeMap κ ν cmp} {l : List (κ × ν)} {k : κ} {v : ν}

@[simp] theorem fill_nil (t : Std.TreeMap κ ν cmp) : fill t [] = t := rfl

@[simp] theorem fill_cons (t : Std.TreeMap κ ν cmp) (e : κ × ν) (l : List (κ × ν)) :
    fill t (e :: l) = fill (t.insert e.1 e.2) l := rfl

theorem fill_append (t : Std.TreeMap κ ν cmp) (l l' : List (κ × ν)) :
    fill t (l ++ l') = fill (fill t l) l' := by
  simp [fill]

variable [Std.TransCmp cmp] [Std.LawfulEqCmp cmp]

theorem getElem?_insert_ne {k' : κ} (h : k' ≠ k) : (t.insert k' v)[k]? = t[k]? := by
  rw [Std.TreeMap.getElem?_insert, if_neg]
  rwa [Std.LawfulEqCmp.compare_eq_iff_eq]

/-- A filled map holds the last entry of each key, and beside that what it held before. -/
theorem getElem?_fill [DecidableEq κ] :
    (fill t l)[k]? = ((l.filter fun e => e.1 = k).getLast?.map Prod.snd).or t[k]? := by
  induction l using List.reverseRecOn with
  | nil => rfl
  | append_singleton l e ih =>
    rw [fill_append, fill_cons, fill_nil, List.filter_append]
    by_cases h : e.1 = k
    · subst h
      simp
    · rw [getElem?_insert_ne h, ih]
      simp [h]

/-- What a filled map holds was an entry, or was there before. -/
theorem mem_of_fill [DecidableEq κ] (h : (fill t l)[k]? = some v) :
    (k, v) ∈ l ∨ t[k]? = some v := by
  rw [getElem?_fill] at h
  cases hl : (l.filter fun e => e.1 = k).getLast? with
  | none => rw [hl] at h; exact .inr h
  | some e =>
    rw [hl] at h
    obtain ⟨he, hk⟩ := List.mem_filter.1 (List.mem_of_getLast? hl)
    cases h
    have hk : e.1 = k := by simpa using hk
    exact .inl (hk ▸ he)

/-- A map filled with entries of which those of one key agree holds them all. -/
theorem mem_fill_iff [DecidableEq κ]
    (hl : ∀ e ∈ l, ∀ e' ∈ l, e.1 = e'.1 → e.2 = e'.2) :
    (fill (∅ : Std.TreeMap κ ν cmp) l)[k]? = some v ↔ (k, v) ∈ l := by
  constructor
  · intro h
    rcases mem_of_fill h with h | h
    · exact h
    · rw [Std.TreeMap.getElem?_emptyc] at h; cases h
  · intro h
    rw [getElem?_fill]
    have hmem : (k, v) ∈ l.filter fun e => e.1 = k := List.mem_filter.2 ⟨h, by simp⟩
    cases hlast : (l.filter fun e => e.1 = k).getLast? with
    | none => rw [List.getLast?_eq_none_iff.1 hlast] at hmem; cases hmem
    | some e =>
      obtain ⟨he, hk⟩ := List.mem_filter.1 (List.mem_of_getLast? hlast)
      have hk : e.1 = k := by simpa using hk
      rw [Option.map_some, Option.some_or, hl e he (k, v) h hk]

end

end Table
