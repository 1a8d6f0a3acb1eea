import Mathlib.Data.List.Basic
import Mathlib.Tactic.Common

/-!
# Lines

The lines of a sequence: the pieces that a separator ends, and what lies behind the last separator
when there is anything. `split_line` takes the first line off, and `split_append` cuts the sequence
behind a separator. A line of text is trimmed of the whitespace at its ends.
-/

namespace Lines

variable {α : Type*} [DecidableEq α] {sep x : α} {l rest : List α}

/-- The lines of a sequence. -/
def split (sep : α) : List α → List (List α)
  | [] => []
  | x :: xs =>
    if x = sep then [] :: split sep xs
    else
      match split sep xs with
      | [] => [[x]]
      | l :: ls => (x :: l) :: ls

@[simp] theorem split_nil : split sep [] = [] := rfl

@[simp] theorem split_sep_cons : split sep (sep :: rest) = [] :: split sep rest := by
  rw [split, if_pos rfl]

theorem split_cons (h : x ≠ sep) {ls : List (List α)} (hl : split sep rest = l :: ls) :
    split sep (x :: rest) = (x :: l) :: ls := by
  rw [split, if_neg h, hl]

/-- The first line ends at the first separator. -/
theorem split_line (h : sep ∉ l) : split sep (l ++ sep :: rest) = l :: split sep rest := by
  induction l with
  | nil => exact split_sep_cons
  | cons x l ih =>
    obtain ⟨hx, hl⟩ := List.ne_and_not_mem_of_not_mem_cons h
    exact split_cons (Ne.symm hx) (ih hl)

/-- What no separator ends is one line. -/
theorem split_of_not_mem (h : sep ∉ l) (hne : l ≠ []) : split sep l = [l] := by
  induction l with
  | nil => exact absurd rfl hne
  | cons x l ih =>
    obtain ⟨hx, hl⟩ := List.ne_and_not_mem_of_not_mem_cons h
    cases l with
    | nil => rw [split, if_neg (Ne.symm hx), split_nil]
    | cons y l => exact split_cons (Ne.symm hx) (ih hl (List.cons_ne_nil y l))

/-- A sequence has the lines up to a separator, and those behind it. -/
theorem split_append (l rest : List α) :
    split sep (l ++ sep :: rest) = split sep (l ++ [sep]) ++ split sep rest := by
  induction l with
  | nil => simp
  | cons x l ih =>
    by_cases hx : x = sep
    · subst hx
      simp only [List.cons_append, split_sep_cons, ih]
    · have hne : split sep (l ++ [sep]) ≠ [] := by
        cases l with
        | nil => simp
        | cons y l =>
          rw [List.cons_append, split]
          split
          · exact List.cons_ne_nil _ _
          · split <;> exact List.cons_ne_nil _ _
      obtain ⟨l₁, ls, hl⟩ := List.exists_cons_of_ne_nil hne
      rw [hl, List.cons_append] at ih
      rw [List.cons_append, List.cons_append, split_cons hx ih, split_cons hx hl, List.cons_append]

/-! ## Whitespace -/

/-- The characters with the property `White_Space`. -/
def isWhitespace (c : Char) : Bool :=
  let n := c.toNat
  (9 ≤ n && n ≤ 13) || n == 0x20 || n == 0x85 || n == 0xa0 || n == 0x1680 ||
    (0x2000 ≤ n && n ≤ 0x200a) || n == 0x2028 || n == 0x2029 || n == 0x202f || n == 0x205f ||
    n == 0x3000

/-- A text without the whitespace at its ends. -/
def trim (l : List Char) : List Char :=
  ((l.dropWhile isWhitespace).reverse.dropWhile isWhitespace).reverse

/-- What is trimmed does not end in whitespace. -/
theorem getLast?_trim {l : List Char} {c : Char} (h : (trim l).getLast? = some c) :
    isWhitespace c = false := by
  rw [trim, List.getLast?_reverse] at h
  have hnot := List.head?_dropWhile_not isWhitespace (l.dropWhile isWhitespace).reverse
  rwa [h] at hnot

/-- A text without whitespace is trimmed. -/
theorem trim_of_forall {l : List Char} (h : ∀ c ∈ l, isWhitespace c = false) : trim l = l := by
  have hdrop : ∀ m : List Char, (∀ c ∈ m, isWhitespace c = false) →
      m.dropWhile isWhitespace = m := by
    intro m hm
    cases m with
    | nil => rfl
    | cons c m => rw [List.dropWhile_cons, hm c List.mem_cons_self]; rfl
  rw [trim, hdrop l h, hdrop l.reverse (fun c hc => h c (List.mem_reverse.1 hc)),
    List.reverse_reverse]

end Lines
