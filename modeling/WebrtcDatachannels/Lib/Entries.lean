import Mathlib.Data.List.Basic
import Mathlib.Data.List.Induction
import Mathlib.Data.List.Sort
import Mathlib.Tactic.Common

/-!
# Lists with one entry replaced

A system keeps its parties in a list, and a step replaces the entry of one of them. These lemmas
carry what is known of all entries, of some entry, of the entry at an index, of how many entries are
of a kind, of the list of those that are, or of what the entries show, across `List.set`.
-/

namespace Entries

variable {α : Type*} {l : List α} {x y : α} {k : Nat}

/-- What holds of every entry and of the new one holds of every entry afterwards. -/
theorem forall_mem_set {P : α → Prop} (hl : ∀ z ∈ l, P z) (hy : P y) : ∀ z ∈ l.set k y, P z := by
  intro z hz
  rcases List.mem_or_eq_of_mem_set hz with hz | rfl
  · exact hl z hz
  · exact hy

/-- What holds of every entry and of an added one holds of every entry afterwards. -/
theorem forall_mem_append {P : α → Prop} (hl : ∀ z ∈ l, P z) (hy : P y) : ∀ z ∈ l ++ [y], P z := by
  intro z hz
  rcases List.mem_append.1 hz with hz | hz
  · exact hl z hz
  · cases List.mem_singleton.1 hz
    exact hy

/-- An entry that is replaced leaves every other entry in the list. -/
theorem eq_or_mem_set (hk : l[k]? = some x) {z : α} (hz : z ∈ l) : z = x ∨ z ∈ l.set k y := by
  obtain ⟨j, hj⟩ := List.mem_iff_getElem?.1 hz
  by_cases hjk : k = j
  · subst hjk
    exact .inl (Option.some.inj (hj.symm.trans hk))
  · exact .inr (List.mem_iff_getElem?.2 ⟨j, by rw [List.getElem?_set_ne hjk, hj]⟩)

/-- The new entry is in the list. -/
theorem mem_set_self (hk : l[k]? = some x) : y ∈ l.set k y :=
  List.mem_set (List.getElem?_eq_some_iff.1 hk).1 y

/-- Some entry is of a kind after an entry has been replaced, when the new one keeps to the kind of
the old, exactly when some entry was or the new one is. -/
theorem exists_mem_set_iff {P : α → Prop} (hk : l[k]? = some x) (hxy : P x → P y) :
    (∃ z ∈ l.set k y, P z) ↔ (∃ z ∈ l, P z) ∨ P y := by
  constructor
  · rintro ⟨z, hz, h⟩
    rcases List.mem_or_eq_of_mem_set hz with hz | rfl
    · exact .inl ⟨z, hz, h⟩
    · exact .inr h
  · rintro (⟨z, hz, h⟩ | h)
    · rcases eq_or_mem_set (y := y) hk hz with rfl | hz
      · exact ⟨y, mem_set_self hk, hxy h⟩
      · exact ⟨z, hz, h⟩
    · exact ⟨y, mem_set_self hk, h⟩

/-- What holds of the entry at an index, and is passed on to the new entry, holds of the one there
afterwards. -/
theorem exists_getElem?_set {P : α → Prop} (hk : l[k]? = some x) (hxy : P x → P y) {j : Nat}
    (h : ∃ z, l[j]? = some z ∧ P z) : ∃ z, (l.set k y)[j]? = some z ∧ P z := by
  obtain ⟨z, hj, hz⟩ := h
  by_cases hjk : k = j
  · subst hjk
    obtain rfl : z = x := Option.some.inj (hj.symm.trans hk)
    exact ⟨y, List.getElem?_set_self (List.getElem?_eq_some_iff.1 hk).1, hxy hz⟩
  · exact ⟨z, by rw [List.getElem?_set_ne hjk, hj], hz⟩

/-- What holds of the entry at an index holds of it when an entry is added. -/
theorem exists_getElem?_append {P : α → Prop} {j : Nat} (h : ∃ z, l[j]? = some z ∧ P z) :
    ∃ z, (l ++ [y])[j]? = some z ∧ P z := by
  obtain ⟨z, hj, hz⟩ := h
  exact ⟨z, by rw [List.getElem?_append_left (List.getElem?_eq_some_iff.1 hj).1, hj], hz⟩

/-- How many entries are of a kind, the replaced one counted before and the new one after. -/
theorem countP_set (p : α → Bool) (hk : l[k]? = some x) :
    (l.set k y).countP p + (if p x then 1 else 0) = l.countP p + (if p y then 1 else 0) := by
  obtain ⟨hlt, rfl⟩ := List.getElem?_eq_some_iff.1 hk
  have hle : (if p l[k] then 1 else 0) ≤ l.countP p := by
    split
    · next hp => exact List.countP_pos_iff.2 ⟨_, List.getElem_mem hlt, hp⟩
    · exact Nat.zero_le _
  rw [List.countP_set hlt]
  omega

/-- There are no more entries of a kind than indices that hold all of them. -/
theorem countP_le_length {p : α → Bool} {m : List Nat}
    (h : ∀ i x, l[i]? = some x → p x = true → i ∈ m) : l.countP p ≤ m.length := by
  induction l using List.reverseRecOn generalizing m with
  | nil => exact Nat.zero_le _
  | append_singleton l x ih =>
    rw [List.countP_append, List.countP_singleton]
    by_cases hp : p x = true
    · -- the last index is one of them, and the others are left without it
      have hm : l.length ∈ m := h l.length x (by simp) hp
      have hle : l.countP p ≤ (m.erase l.length).length := by
        refine ih fun i y hi hy => ?_
        have hlt := (List.getElem?_eq_some_iff.1 hi).1
        refine (List.mem_erase_of_ne (Nat.ne_of_lt hlt)).2 (h i y ?_ hy)
        rw [List.getElem?_append_left hlt, hi]
      rw [List.length_erase_of_mem hm] at hle
      have hpos := List.length_pos_of_mem hm
      rw [if_pos hp]
      omega
    · rw [if_neg hp]
      refine ih fun i y hi hy => h i y ?_ hy
      rw [List.getElem?_append_left (List.getElem?_eq_some_iff.1 hi).1, hi]

/-- A list whose entries are all there. -/
theorem eq_map_some {m : List (Option α)} (h : ∀ z ∈ m, z.isSome = true) :
    ∃ l : List α, m = l.map some := by
  induction m with
  | nil => exact ⟨[], rfl⟩
  | cons z m ih =>
    obtain ⟨hz, hm⟩ := List.forall_mem_cons.1 h
    obtain ⟨l, rfl⟩ := ih hm
    obtain ⟨x, rfl⟩ := Option.isSome_iff_exists.1 hz
    exact ⟨x :: l, rfl⟩

/-- The entry at an index, where the list is cut. -/
theorem eq_take_cons_drop (hx : l[k]? = some x) : l = l.take k ++ x :: l.drop (k + 1) := by
  obtain ⟨hlt, rfl⟩ := List.getElem?_eq_some_iff.1 hx
  rw [← List.drop_eq_getElem_cons hlt, List.take_append_drop]

/-- An entry that is kept, among those that are. -/
theorem getElem?_filter (p : α → Bool) (hx : l[k]? = some x) (hp : p x = true) :
    (l.filter p)[(l.take k).countP p]? = some x := by
  rw [List.countP_eq_length_filter]
  conv_lhs => rw [eq_take_cons_drop hx, List.filter_append, List.filter_cons_of_pos hp]
  rw [← eq_take_cons_drop hx, List.getElem?_append_right (Nat.le_refl _), Nat.sub_self]
  rfl

/-- An entry that is kept is replaced by one that is. -/
theorem filter_set (p : α → Bool) (hx : l[k]? = some x) (hp : p x = true) (hy : p y = true) :
    (l.set k y).filter p = (l.filter p).set ((l.take k).countP p) y := by
  have hlt := (List.getElem?_eq_some_iff.1 hx).1
  rw [List.set_eq_take_append_cons_drop, if_pos hlt, List.filter_append,
    List.filter_cons_of_pos hy, List.countP_eq_length_filter]
  conv_rhs => rw [eq_take_cons_drop hx, List.filter_append, List.filter_cons_of_pos hp]
  rw [← eq_take_cons_drop hx, List.set_append_right _ _ (Nat.le_refl _), Nat.sub_self]
  rfl

/-- An entry that is not kept is replaced by one that is not. -/
theorem filter_set_of_not (p : α → Bool) (hx : l[k]? = some x) (hp : p x = false)
    (hy : p y = false) : (l.set k y).filter p = l.filter p := by
  have hlt := (List.getElem?_eq_some_iff.1 hx).1
  rw [List.set_eq_take_append_cons_drop, if_pos hlt]
  conv_rhs => rw [eq_take_cons_drop hx]
  simp only [List.filter_append, List.filter_cons, hp, hy, Bool.false_eq_true, if_false]

section
variable {β : Type*} (f : α → Option β)

/-- An entry that shows nothing is replaced: what the entries show gains what the new one shows. -/
theorem filterMap_set_perm (hx : l[k]? = some x) (hnone : f x = none) :
    ((l.set k y).filterMap f).Perm (l.filterMap f ++ (f y).toList) := by
  have hlt := (List.getElem?_eq_some_iff.1 hx).1
  have hold : l.filterMap f = (l.take k).filterMap f ++ (l.drop (k + 1)).filterMap f := by
    conv_lhs => rw [eq_take_cons_drop hx]
    rw [List.filterMap_append, List.filterMap_cons_none hnone]
  rw [hold, List.set_eq_take_append_cons_drop, if_pos hlt, List.filterMap_append]
  cases hy : f y with
  | none => rw [List.filterMap_cons_none hy, Option.toList_none, List.append_nil]
  | some b =>
    rw [List.filterMap_cons_some hy, Option.toList_some, List.append_assoc]
    exact (List.perm_append_singleton b _).symm.append_left _

/-- An entry is replaced by one that shows the same. -/
theorem filterMap_set_of_eq (hx : l[k]? = some x) (hxy : f y = f x) :
    (l.set k y).filterMap f = l.filterMap f := by
  have hlt := (List.getElem?_eq_some_iff.1 hx).1
  rw [List.set_eq_take_append_cons_drop, if_pos hlt]
  conv_rhs => rw [eq_take_cons_drop hx]
  simp only [List.filterMap_append, List.filterMap_cons, hxy]

/-- What the entries show is among what they show otherwise, when an entry that shows something
shows the same. -/
theorem filterMap_sublist {g : α → Option β} (h : ∀ x b, f x = some b → g x = some b)
    (l : List α) : (l.filterMap f).Sublist (l.filterMap g) := by
  induction l with
  | nil => exact List.Sublist.refl _
  | cons x l ih =>
    cases hf : f x with
    | some b =>
      rw [List.filterMap_cons_some hf, List.filterMap_cons_some (h x b hf)]
      exact ih.cons_cons b
    | none =>
      rw [List.filterMap_cons_none hf, List.filterMap_cons]
      split
      · exact ih
      · exact ih.cons _

/-- A list of what the entries show, in the order of their indices. -/
theorem filterMap_eq_of_numbered {g : List (Nat × β)} (hord : (g.map Prod.fst).Pairwise (· < ·))
    (hmem : ∀ i b, (i, b) ∈ g ↔ ∃ x, l[i]? = some x ∧ f x = some b) :
    l.filterMap f = g.map Prod.snd := by
  let numbered := l.zipIdx.filterMap fun p => (f p.1).map fun b => (p.2, b)
  have hshown : l.filterMap f = numbered.map Prod.snd := by
    conv_lhs => rw [← List.zipIdx_map_fst 0 l]
    rw [List.filterMap_map, List.map_filterMap]
    refine List.filterMap_congr fun p _ => ?_
    cases h : f p.1 <;> simp [h]
  have hsorted : numbered.Pairwise fun p q => p.1 < q.1 := by
    have hidx : (l.zipIdx.map Prod.snd).Pairwise (· < ·) := by
      rw [List.zipIdx_map_snd]
      exact List.pairwise_lt_range'
    refine (List.pairwise_map.1 hidx).filterMap _ fun p q hlt p' hp q' hq => ?_
    obtain ⟨b, -, rfl⟩ := Option.map_eq_some_iff.1 hp
    obtain ⟨c, -, rfl⟩ := Option.map_eq_some_iff.1 hq
    exact hlt
  have heq : numbered = g := by
    refine hsorted.eq_of_mem_iff (List.pairwise_map.1 hord) fun p => ?_
    rw [hmem, List.mem_filterMap]
    constructor
    · rintro ⟨⟨x, i⟩, hi, hp⟩
      obtain ⟨b, hb, rfl⟩ := Option.map_eq_some_iff.1 hp
      exact ⟨x, List.mk_mem_zipIdx_iff_getElem?.1 hi, hb⟩
    · rintro ⟨x, hi, hb⟩
      exact ⟨(x, p.1), List.mk_mem_zipIdx_iff_getElem?.2 hi, by rw [hb]; rfl⟩
  rw [hshown, heq]

end

end Entries
