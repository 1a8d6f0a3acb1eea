import Mathlib.Data.List.Basic
import Mathlib.Data.List.Induction
import Mathlib.Tactic.Common

/-!
# Runs of a guarded step function

A system is a step function `step : σ → α → Option σ`: `step s a = some s'` when the label `a` is
enabled in `s` and leads to `s'`, and `none` otherwise. `run step s as` takes the labels `as` one
after another. `invariant` is the induction principle over a run, `invariant_of` that over a run of
labels of one kind, and `relates` the one for what lies between its ends. `Meets` says that every
step of a run meets a condition on the label and the state before it, `Along` that a predicate holds
in every state a run reaches, and `along_iff_meets` turns a step lemma and a converse step lemma
into an equivalence of the two over whole runs; `along_of_meets` is for a condition that is only
enough.
`simulates` lifts a simulation of single steps to runs, `follows` one by operations on an abstract
state, and `projects` one by the labels that the steps show. `exists_last` is the rule for what has
happened since the last label of a kind, and `reaches` the one for a run that gets somewhere.
-/

namespace Runs

variable {σ α : Type*} {τ β : Type*}

/-- The state reached by taking the labels `as` from `s`; `none` when one of them is not enabled. -/
def run (step : σ → α → Option σ) (s : σ) (as : List α) : Option σ :=
  as.foldlM step s

/-- Every step of the run of `as` from `s` meets `C` in the state before it. -/
def Meets (step : σ → α → Option σ) (C : σ → α → Prop) : σ → List α → Prop
  | _, [] => True
  | s, a :: as => C s a ∧ ∀ s', step s a = some s' → Meets step C s' as

/-- `P` holds in every state that the run of `as` from `s` reaches, `s` included. -/
def Along (step : σ → α → Option σ) (P : σ → Prop) (s : σ) (as : List α) : Prop :=
  ∀ pre, pre <+: as → ∀ t, run step s pre = some t → P t

section
variable {step : σ → α → Option σ} {s s' t : σ} {a : α} {as bs : List α}

@[simp] theorem run_nil : run step s [] = some s := rfl

theorem run_cons : run step s (a :: as) = (step s a).bind fun s' => run step s' as := by
  simp [run]

/-- A run of `a :: as` takes `a` first. -/
theorem run_cons_eq_some :
    run step s (a :: as) = some t ↔ ∃ s', step s a = some s' ∧ run step s' as = some t := by
  rw [run_cons, Option.bind_eq_some_iff]

/-- A run of `as ++ bs` is a run of `as` followed by one of `bs`. -/
theorem run_append_eq_some :
    run step s (as ++ bs) = some t ↔ ∃ s', run step s as = some s' ∧ run step s' bs = some t := by
  rw [run, List.foldlM_append]
  exact Option.bind_eq_some_iff

@[simp] theorem meets_nil {C : σ → α → Prop} : Meets step C s [] := trivial

theorem meets_cons {C : σ → α → Prop} (h : step s a = some s') :
    Meets step C s (a :: as) ↔ C s a ∧ Meets step C s' as := by
  refine and_congr_right fun _ => ⟨fun hm => hm s' h, ?_⟩
  intro hm s'' h'
  rw [h] at h'
  cases h'
  exact hm

/-- A condition that every step meets is met along every run. -/
theorem meets_of_forall {C : σ → α → Prop} (h : ∀ s a, C s a) (s : σ) (as : List α) :
    Meets step C s as := by
  induction as generalizing s with
  | nil => trivial
  | cons a as ih => exact ⟨h s a, fun s' _ => ih s'⟩

/-- A condition that an invariant and the labels bring about is met. -/
theorem meets_of {I : σ → Prop} {C : σ → α → Prop} {Q : α → Prop}
    (hstep : ∀ s a s', I s → Q a → step s a = some s' → I s') (hC : ∀ s a, I s → Q a → C s a)
    (hs : I s) (hQ : ∀ a ∈ as, Q a) : Meets step C s as := by
  induction as generalizing s with
  | nil => trivial
  | cons a as ih =>
    obtain ⟨ha, hQ⟩ := List.forall_mem_cons.1 hQ
    exact ⟨hC s a hs ha, fun s' hs' => ih (hstep s a s' hs ha hs') hQ⟩

/-- Two conditions that agree on the steps of a system are met by the same runs. -/
theorem meets_congr {C D : σ → α → Prop} (hCD : ∀ s a s', step s a = some s' → (C s a ↔ D s a))
    (h : run step s as = some t) : Meets step C s as ↔ Meets step D s as := by
  induction as generalizing s with
  | nil => exact Iff.rfl
  | cons a as ih =>
    obtain ⟨s', ha, h⟩ := run_cons_eq_some.1 h
    rw [meets_cons ha, meets_cons ha, ih h, hCD s a s' ha]

/-- A predicate holds along a run when it holds at the start and along the rest. -/
theorem along_cons {P : σ → Prop} (h : step s a = some s') :
    Along step P s (a :: as) ↔ P s ∧ Along step P s' as := by
  constructor
  · intro hal
    refine ⟨hal [] (List.nil_prefix) s rfl, ?_⟩
    intro pre hpre t ht
    exact hal (a :: pre) (List.cons_prefix_cons.2 ⟨rfl, hpre⟩) t
      (run_cons_eq_some.2 ⟨s', h, ht⟩)
  · rintro ⟨hs, hal⟩ pre hpre t ht
    cases pre with
    | nil => cases ht; exact hs
    | cons b pre =>
      obtain ⟨rfl, hrest⟩ := List.cons_prefix_cons.1 hpre
      obtain ⟨s'', hb, ht⟩ := run_cons_eq_some.1 ht
      rw [h] at hb
      cases hb
      exact hal pre hrest t ht

@[simp] theorem along_nil {P : σ → Prop} : Along step P s [] ↔ P s := by
  constructor
  · exact fun h => h [] (List.nil_prefix) s rfl
  · intro h pre hpre t ht
    cases List.prefix_nil.1 hpre
    cases ht
    exact h

/-- What every step preserves holds at the end of every run from a state where it holds. -/
theorem invariant {I : σ → Prop} (hstep : ∀ s a s', I s → step s a = some s' → I s')
    (hs : I s) (h : run step s as = some t) : I t := by
  induction as generalizing s with
  | nil => cases h; exact hs
  | cons a as ih =>
    obtain ⟨s', ha, h⟩ := run_cons_eq_some.1 h
    exact ih (hstep s a s' hs ha) h

/-- What every step with a label of a kind `C` preserves holds at the end of every run of such
labels. -/
theorem invariant_of {I : σ → Prop} {C : α → Prop}
    (hstep : ∀ s a s', I s → C a → step s a = some s' → I s') (hs : I s) (hC : ∀ a ∈ as, C a)
    (h : run step s as = some t) : I t := by
  induction as generalizing s with
  | nil => cases h; exact hs
  | cons a as ih =>
    obtain ⟨s', ha, h⟩ := run_cons_eq_some.1 h
    exact ih (hstep s a s' hs (hC a (List.mem_cons_self ..)) ha)
      (fun b hb => hC b (List.mem_cons_of_mem a hb)) h

/-- A run whose labels are all of a kind `C`, when each such step keeps `I` and makes `μ` smaller,
is no longer than `μ` was at its start. -/
theorem descends (I : σ → Prop) (C : α → Prop) (μ : σ → Nat)
    (hstep : ∀ s a s', I s → C a → step s a = some s' → I s' ∧ μ s' < μ s)
    (hs : I s) (hC : ∀ a ∈ as, C a) (h : run step s as = some t) :
    I t ∧ as.length + μ t ≤ μ s := by
  induction as generalizing s with
  | nil => cases h; exact ⟨hs, by simp⟩
  | cons a as ih =>
    obtain ⟨s', ha, h⟩ := run_cons_eq_some.1 h
    obtain ⟨hs', hlt⟩ := hstep s a s' hs (hC a (List.mem_cons_self ..)) ha
    obtain ⟨ht, hle⟩ := ih hs' (fun b hb => hC b (List.mem_cons_of_mem a hb)) h
    refine ⟨ht, ?_⟩
    rw [List.length_cons]
    omega

/-- If every state of `I` short of `D` has a step with a label of a kind `C` that keeps `I` and
makes `μ` smaller, then steps of that kind lead to `D`. -/
theorem reaches {I D : σ → Prop} {C : α → Prop} (μ : σ → Nat)
    (hstep : ∀ s, I s → ¬ D s → ∃ a s', C a ∧ step s a = some s' ∧ I s' ∧ μ s' < μ s)
    (hs : I s) : ∃ as t, (∀ a ∈ as, C a) ∧ run step s as = some t ∧ I t ∧ D t := by
  induction hn : μ s using Nat.strongRecOn generalizing s with
  | _ n ih =>
    by_cases hD : D s
    · exact ⟨[], s, nofun, rfl, hs, hD⟩
    · obtain ⟨a, s', hC, ha, hs', hlt⟩ := hstep s hs hD
      obtain ⟨as, t, has, hrun, ht⟩ := ih (μ s') (hn ▸ hlt) hs' rfl
      refine ⟨a :: as, t, ?_, run_cons_eq_some.2 ⟨s', ha, hrun⟩, ht⟩
      exact List.forall_mem_cons.2 ⟨hC, has⟩

/-- A relation between the ends of a step that is reflexive and transitive relates the ends of a
run. -/
theorem relates {R : σ → σ → Prop} (hrefl : ∀ s, R s s)
    (htrans : ∀ s t u, R s t → R t u → R s u)
    (hstep : ∀ s a s', step s a = some s' → R s s') (h : run step s as = some t) : R s t := by
  induction as generalizing s with
  | nil => cases h; exact hrefl _
  | cons a as ih =>
    obtain ⟨s', ha, h⟩ := run_cons_eq_some.1 h
    exact htrans s s' t (hstep s a s' ha) (ih h)

/-- A predicate that a step brings about exactly when its label is of a kind `Q` holds at the end of
a run that has such a label, or that it held before. -/
theorem happened {I P : σ → Prop} {Q : α → Prop}
    (hstep : ∀ s a s', I s → step s a = some s' → I s' ∧ (P s' ↔ P s ∨ Q a))
    (hs : I s) (h : run step s as = some t) : P t ↔ P s ∨ ∃ a ∈ as, Q a := by
  induction as generalizing s with
  | nil => cases h; simp
  | cons a as ih =>
    obtain ⟨s', ha, h⟩ := run_cons_eq_some.1 h
    obtain ⟨hs', hP⟩ := hstep s a s' hs ha
    rw [ih hs' h, hP]
    simp [or_assoc]

/-- A relation to the states of another system, kept by every step for some run of that system, is
kept over a run. -/
theorem simulates {step' : τ → β → Option τ} {R : σ → τ → Prop} {q : τ}
    (hstep : ∀ s q a s', R s q → step s a = some s' →
      ∃ bs q', run step' q bs = some q' ∧ R s' q')
    (hR : R s q) (h : run step s as = some t) : ∃ bs q', run step' q bs = some q' ∧ R t q' := by
  induction as generalizing s q with
  | nil => cases h; exact ⟨[], q, rfl, hR⟩
  | cons a as ih =>
    obtain ⟨s', ha, h⟩ := run_cons_eq_some.1 h
    obtain ⟨bs, q', hbs, hR'⟩ := hstep s q a s' hR ha
    obtain ⟨bs', q'', hbs', hR''⟩ := ih hR' h
    exact ⟨bs ++ bs', q'', run_append_eq_some.2 ⟨q', hbs, hbs'⟩, hR''⟩

/-- The labels that the steps of a run show, each by `label`. -/
def shown (step : σ → α → Option σ) (label : σ → α → Option β) : σ → List α → List β
  | _, [] => []
  | s, a :: as => (label s a).toList ++ ((step s a).map fun s' => shown step label s' as).getD []

/-- A label that one step shows, and no other, is shown when that step is taken. -/
theorem mem_shown {label : σ → α → Option β} {b : β} {c : α}
    (hc : ∀ s a s', step s a = some s' → (label s a = some b ↔ a = c))
    (h : run step s as = some t) : b ∈ shown step label s as ↔ c ∈ as := by
  induction as generalizing s with
  | nil => simp [shown]
  | cons a as ih =>
    obtain ⟨s', ha, h⟩ := run_cons_eq_some.1 h
    simp only [shown, ha, Option.map_some, Option.getD_some, List.mem_append, List.mem_cons,
      Option.mem_toList, hc s a s' ha, ih h, eq_comm (a := c)]

/-- What holds of the labels that single steps show holds of those that a run shows. -/
theorem forall_mem_shown {label : σ → α → Option β} {I : σ → Prop} {P : β → Prop}
    (hstep : ∀ s a s', I s → step s a = some s' → I s')
    (hlabel : ∀ s a b, I s → label s a = some b → P b) (hs : I s) :
    ∀ b ∈ shown step label s as, P b := by
  induction as generalizing s with
  | nil => exact fun b hb => absurd hb List.not_mem_nil
  | cons a as ih =>
    intro b hb
    obtain hb | hb := List.mem_append.1 hb
    · exact hlabel s a b hs (Option.mem_toList.1 hb)
    · cases ha : step s a with
      | none => rw [ha] at hb; cases hb
      | some s' => rw [ha] at hb; exact ih (hstep s a s' hs ha) b hb

/-- If what is seen of the states makes the step that is shown, and stays when none is, it makes the
run that is shown. -/
theorem projects {step' : τ → β → Option τ} {label : σ → α → Option β} {I : σ → Prop} {f : σ → τ}
    (hstep : ∀ s a s', I s → step s a = some s' →
      I s' ∧ run step' (f s) (label s a).toList = some (f s'))
    (hs : I s) (h : run step s as = some t) :
    run step' (f s) (shown step label s as) = some (f t) := by
  induction as generalizing s with
  | nil => cases h; rfl
  | cons a as ih =>
    obtain ⟨s', ha, h⟩ := run_cons_eq_some.1 h
    obtain ⟨hs', hrun⟩ := hstep s a s' hs ha
    simp only [shown, ha, Option.map_some, Option.getD_some]
    exact run_append_eq_some.2 ⟨f s', hrun, ih hs' h⟩

/-- A run of a step function that is always enabled is a fold. -/
theorem run_some (f : τ → β → τ) (q : τ) (bs : List β) :
    run (fun q b => some (f q b)) q bs = some (bs.foldl f q) := by
  induction bs generalizing q with
  | nil => rfl
  | cons b bs ih => exact ih (f q b)

/-- A relation to an abstract state that every step keeps, for some operations `f` on that state, is
kept over a run. -/
theorem follows {R : σ → τ → Prop} {f : τ → β → τ} {q : τ}
    (hstep : ∀ s q a s', R s q → step s a = some s' → ∃ ops : List β, R s' (ops.foldl f q))
    (hR : R s q) (h : run step s as = some t) : ∃ ops : List β, R t (ops.foldl f q) := by
  have hsim : ∃ ops q', run (fun q b => some (f q b)) q ops = some q' ∧ R t q' := by
    refine simulates ?_ hR h
    intro s q a s' hR ha
    obtain ⟨ops, hR'⟩ := hstep s q a s' hR ha
    exact ⟨ops, ops.foldl f q, run_some f q ops, hR'⟩
  obtain ⟨ops, q', hrun, hR'⟩ := hsim
  rw [run_some] at hrun
  cases hrun
  exact ⟨ops, hR'⟩

/-- The rule for what has happened since the last label of a kind `Q`. If `W` is only entered by
such a label, which then starts `J`, and every other step that stays in `W` keeps `J`, then a run
that ends in `W` has a last label of that kind, and `J` lies between the state after it and the
end. -/
theorem exists_last {Q : α → Prop} {W : σ → Prop} {J : σ → σ → Prop}
    (hlast : ∀ s a s', step s a = some s' → Q a → W s' → J s' s')
    (hkeep : ∀ s a s', step s a = some s' → ¬ Q a → W s' → W s ∧ ∀ s₁, J s₁ s → J s₁ s')
    (hs : ¬ W s) (h : run step s as = some t) (ht : W t) :
    ∃ pre a post s₁, as = pre ++ a :: post ∧ Q a ∧ (∀ b ∈ post, ¬ Q b) ∧
      run step s (pre ++ [a]) = some s₁ ∧ J s₁ t := by
  induction as using List.reverseRecOn generalizing t with
  | nil => cases h; exact absurd ht hs
  | append_singleton as a ih =>
    obtain ⟨s₀, h₀, h₁⟩ := run_append_eq_some.1 h
    obtain ⟨s', ha, hnil⟩ := run_cons_eq_some.1 h₁
    cases hnil
    by_cases hq : Q a
    · exact ⟨as, a, [], t, rfl, hq, nofun, h, hlast _ _ _ ha hq ht⟩
    · obtain ⟨hW, hJ⟩ := hkeep _ _ _ ha hq ht
      obtain ⟨pre, b, post, s₁, rfl, hb, hpost, hpre, hj⟩ := ih h₀ hW
      refine ⟨pre, b, post ++ [a], s₁, by simp, hb, ?_, hpre, hJ _ hj⟩
      intro x hx
      rcases List.mem_append.1 hx with hx | hx
      · exact hpost x hx
      · rw [List.mem_singleton.1 hx]; exact hq

/-- A predicate holds in every state of a run exactly when every step meets `C`, as soon as an
invariant `I` implies it, the steps that meet `C` keep `I`, and a step that does not meet `C` ends
in a state without it. -/
theorem along_iff_meets {C : σ → α → Prop} {I P : σ → Prop} (hIP : ∀ s, I s → P s)
    (hgood : ∀ s a s', I s → C s a → step s a = some s' → I s')
    (hbad : ∀ s a s', I s → ¬ C s a → step s a = some s' → ¬ P s')
    (hs : I s) (h : run step s as = some t) : Along step P s as ↔ Meets step C s as := by
  induction as generalizing s with
  | nil => simpa using hIP s hs
  | cons a as ih =>
    obtain ⟨s', ha, h⟩ := run_cons_eq_some.1 h
    rw [along_cons ha, meets_cons ha]
    by_cases hC : C s a
    · rw [ih (hgood s a s' hs hC ha) h]
      simp [hC, hIP s hs]
    · have hP : ¬ Along step P s' as := fun hal =>
        hbad s a s' hs hC ha (hal [] (List.nil_prefix) s' rfl)
      simp [hC, hP]

/-- A predicate holds in every state of a run whose steps meet `C`, as soon as an invariant `I` that
these steps keep implies it. -/
theorem along_of_meets {C : σ → α → Prop} {I P : σ → Prop} (hIP : ∀ s, I s → P s)
    (hstep : ∀ s a s', I s → C s a → step s a = some s' → I s') (hs : I s)
    (hC : Meets step C s as) : Along step P s as := by
  induction as generalizing s with
  | nil => exact along_nil.2 (hIP s hs)
  | cons a as ih =>
    intro pre hpre t ht
    cases pre with
    | nil => cases ht; exact hIP s hs
    | cons b pre =>
      obtain ⟨rfl, hrest⟩ := List.cons_prefix_cons.1 hpre
      obtain ⟨s', ha, ht⟩ := run_cons_eq_some.1 ht
      exact ih (hstep s b s' hs hC.1 ha) (hC.2 s' ha) pre hrest t ht

end

end Runs
