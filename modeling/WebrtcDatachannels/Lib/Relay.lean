import WebrtcDatachannels.Lib.Runs

/-!
# A source, an ordered link and a sink

A `Source` is a system that puts items on a link, oldest first; `done` are the items that it has
reported as sent, and each is on the link once. A `Service` is a source that is called with its
items, and `Service.inTurn` calls it with a list of them, each when those before it are done: they
are on the link in the order of the list (`inTurn_in_order`). A `Sink` is a system that items arrive
at one by one; what it has handed over is what arrived, in order and read, up to some point, and all
of it in a state that is `Clear`. Over a link that keeps the order (`Link`), the sink hands over
what the source has put on it (`in_order`).
-/

namespace Relay

variable {α β : Type}

/-- A system that puts items on a link. -/
structure Source (α : Type) where
  State : Type
  Act : Type
  start : State
  step : State → Act → Option State
  out : State → List α
  done : State → List α
  grows : ∀ s a s', step s a = some s' → out s <+: out s'
  exact : ∀ as s, Runs.run step start as = some s → (out s).Perm (done s)

/-- A source that is called with its items; `made` are those of the calls, oldest first. -/
structure Service (α : Type) extends Source α where
  call : α → Act
  calls : Act → Option α
  made : State → List α
  calls_call : ∀ x, calls (call x) = some x
  made_start : made start = []
  made_step : ∀ s a s', step s a = some s' → made s' = made s ++ (calls a).toList
  done_sublist : ∀ s, (done s).Sublist (made s)

/-- A system that items arrive at. `Inv` ties its states to the items that have arrived. -/
structure Sink (α β : Type) where
  State : Type
  Act : Type
  start : State
  step : State → Act → Option State
  arrive : α → Act
  arrives : Act → Bool
  read : α → β
  got : State → List β
  Clear : State → Prop
  Inv : State → List α → Prop
  inv_start : Inv start []
  inv_arrive : ∀ s xs x s', Inv s xs → step s (arrive x) = some s' → Inv s' (xs ++ [x])
  inv_quiet : ∀ s xs a s', Inv s xs → arrives a = false → step s a = some s' → Inv s' xs
  faithful : ∀ s xs, Inv s xs → got s <+: xs.map read ∧ (Clear s → got s = xs.map read)

/-! ## Calls in turn -/

/-- A service and the items that it is still to be called with. -/
structure InTurn (S : Service α) where
  state : S.State
  todo : List α

/-- The next call is made, or the service acts. -/
inductive InTurnAct (S : Service α) where
  | call
  | other (a : S.Act)

namespace InTurn

variable {S : Service α}

/-- One step. A call is made when every call before it is done, and there are no other calls. -/
def step (c : InTurn S) : InTurnAct S → Option (InTurn S)
  | .call =>
    match c.todo with
    | [] => none
    | x :: rest =>
      if (S.done c.state).length = (S.made c.state).length then
        (S.step c.state (S.call x)).map fun state => { state, todo := rest }
      else none
  | .other a =>
    if (S.calls a).isSome then none else (S.step c.state a).map fun state => { c with state }

/-- Only the last call can be without its item on the link. -/
def Settled (out made : List α) : Prop := out = made ∨ ∃ x, made = out ++ [x]

/-- What has been put on the link is what the calls were made with. -/
theorem Settled.of_perm {out out' done made : List α} (hpre : out <+: out') (hperm : out'.Perm done)
    (hsub : done.Sublist made) (hmade : Settled out made) : Settled out' made := by
  obtain ⟨new, rfl⟩ := hpre
  have hle := Nat.le_trans (Nat.le_of_eq hperm.length_eq) hsub.length_le
  rw [List.length_append] at hle
  match new with
  | [] =>
    rw [List.append_nil]
    exact hmade
  | y :: new =>
    obtain rfl | ⟨x, rfl⟩ := hmade
    · rw [List.length_cons] at hle
      omega
    · -- the one item that was missing is there
      rw [List.length_append, List.length_cons, List.length_singleton] at hle
      obtain rfl : new = [] := List.length_eq_zero_iff.1 (by omega)
      have hdone : done = out ++ [x] := by
        refine hsub.eq_of_length_le ?_
        rw [← hperm.length_eq, List.length_append, List.length_append]
        exact Nat.le_refl _
      rw [hdone] at hperm
      have hyx := List.singleton_perm_singleton.1 ((List.perm_append_left_iff out).1 hperm)
      exact .inl (congrArg (out ++ [·]) hyx)

/-- The service is in a state that it reaches, what it is called with are the items in turn, and
what it has put on the link is the same up to the last call. -/
structure Inv (xs : List α) (c : InTurn S) : Prop where
  reached : ∃ bs, Runs.run S.step S.start bs = some c.state
  made : S.made c.state ++ c.todo = xs
  settled : Settled (S.out c.state) (S.made c.state)

variable {xs : List α} {c c' : InTurn S} {a : InTurnAct S}

theorem inv_start (S : Service α) (xs : List α) : Inv xs ⟨S.start, xs⟩ where
  reached := ⟨[], rfl⟩
  made := by rw [S.made_start, List.nil_append]
  settled := by
    have hdone := S.done_sublist S.start
    rw [S.made_start, List.sublist_nil] at hdone
    have hout := S.exact [] S.start rfl
    rw [hdone] at hout
    exact .inl (hout.eq_nil.trans S.made_start.symm)

/-- A step of the service is taken. -/
theorem Inv.reach (hi : c.Inv xs) {b : S.Act} {state : S.State}
    (h : S.step c.state b = some state) : ∃ bs, Runs.run S.step S.start bs = some state := by
  obtain ⟨bs, hbs⟩ := hi.reached
  exact ⟨bs ++ [b], Runs.run_append_eq_some.2 ⟨_, hbs, Runs.run_cons_eq_some.2 ⟨_, h, rfl⟩⟩⟩

theorem Inv.step (hi : c.Inv xs) (h : c.step a = some c') : c'.Inv xs := by
  cases a with
  | call =>
    simp only [InTurn.step] at h
    split at h
    · cases h
    · next x rest htodo =>
      obtain ⟨hlen, h⟩ := Option.ite_none_right_eq_some.1 h
      obtain ⟨state, hs, rfl⟩ := Option.map_eq_some_iff.1 h
      obtain ⟨bs, hbs⟩ := hi.reach hs
      obtain ⟨as, has⟩ := hi.reached
      have hmade := S.made_step _ _ _ hs
      rw [S.calls_call, Option.toList_some] at hmade
      -- every call before is done, so all their items are on the link
      have hsame : (S.out c.state).length = (S.made c.state).length :=
        (S.exact _ _ has).length_eq.trans hlen
      have hold : S.out c.state = S.made c.state := by
        obtain hold | ⟨y, hy⟩ := hi.settled
        · exact hold
        · rw [hy, List.length_append, List.length_singleton] at hsame
          omega
      refine ⟨⟨bs, hbs⟩, ?_, ?_⟩
      · dsimp only
        rw [hmade, List.append_assoc, ← hi.made, htodo]
        rfl
      · refine .of_perm (S.grows _ _ _ hs) (S.exact _ _ hbs) (S.done_sublist _) (.inr ⟨x, ?_⟩)
        dsimp only
        rw [hmade, hold]
  | other a =>
    simp only [InTurn.step] at h
    split at h
    · cases h
    · next hquiet =>
      obtain ⟨state, hs, rfl⟩ := Option.map_eq_some_iff.1 h
      obtain ⟨bs, hbs⟩ := hi.reach hs
      have hmade := S.made_step _ _ _ hs
      rw [Option.not_isSome_iff_eq_none.1 hquiet, Option.toList_none, List.append_nil] at hmade
      refine ⟨⟨bs, hbs⟩, ?_, ?_⟩
      · dsimp only
        rw [hmade]
        exact hi.made
      · refine .of_perm (S.grows _ _ _ hs) (S.exact _ _ hbs) (S.done_sublist _) ?_
        dsimp only
        rw [hmade]
        exact hi.settled

end InTurn

/-- A service that is called with these items in turn. -/
def Service.inTurn (S : Service α) (xs : List α) : Source α where
  State := InTurn S
  Act := InTurnAct S
  start := ⟨S.start, xs⟩
  step := InTurn.step
  out c := S.out c.state
  done c := S.done c.state
  grows c a c' h := by
    cases a with
    | call =>
      simp only [InTurn.step] at h
      split at h
      · cases h
      · obtain ⟨-, h⟩ := Option.ite_none_right_eq_some.1 h
        obtain ⟨state, hs, rfl⟩ := Option.map_eq_some_iff.1 h
        exact S.grows _ _ _ hs
    | other a =>
      obtain ⟨-, h⟩ := Option.ite_none_left_eq_some.1 h
      obtain ⟨state, hs, rfl⟩ := Option.map_eq_some_iff.1 h
      exact S.grows _ _ _ hs
  exact as c h := by
    have hi : c.Inv xs :=
      Runs.invariant (fun _ _ _ hi hs => InTurn.Inv.step hi hs) (InTurn.inv_start S xs) h
    obtain ⟨bs, hbs⟩ := hi.reached
    exact S.exact _ _ hbs

/-- Items that a service is called with in turn are on the link in that order, and all of them when
every call has been made and is done. -/
theorem inTurn_in_order {S : Service α} {xs : List α} {as : List (S.inTurn xs).Act} {c : InTurn S}
    (h : Runs.run (S.inTurn xs).step (S.inTurn xs).start as = some c) :
    S.out c.state <+: xs ∧
      ((S.done c.state).length = xs.length → S.out c.state = xs) := by
  have hi : c.Inv xs :=
    Runs.invariant (fun _ _ _ hi hs => InTurn.Inv.step hi hs) (InTurn.inv_start S xs) h
  obtain ⟨bs, hbs⟩ := hi.reached
  have hpre : S.out c.state <+: xs := by
    rw [← hi.made]
    obtain hout | ⟨x, hx⟩ := hi.settled
    · rw [hout]
      exact List.prefix_append _ _
    · rw [hx, List.append_assoc]
      exact List.prefix_append _ _
  exact ⟨hpre, fun hlen => hpre.eq_of_length ((S.exact _ _ hbs).length_eq.trans hlen)⟩

/-! ## The link -/

/-- The two with the link between them: `carried` items have arrived. -/
structure Link (S : Source α) (R : Sink α β) where
  source : S.State
  sink : R.State
  carried : Nat

/-- The source acts, the next item arrives, or the sink acts. -/
inductive LinkAct (S : Source α) (R : Sink α β) where
  | source (a : S.Act)
  | carry
  | sink (a : R.Act)

namespace Link

variable {S : Source α} {R : Sink α β}

def start (S : Source α) (R : Sink α β) : Link S R := ⟨S.start, R.start, 0⟩

/-- One step. Nothing arrives at the sink but what the link carries. -/
def step (l : Link S R) : LinkAct S R → Option (Link S R)
  | .source a => (S.step l.source a).map fun source => { l with source }
  | .carry =>
    ((S.out l.source)[l.carried]?).bind fun x =>
      (R.step l.sink (R.arrive x)).map fun sink => { l with sink, carried := l.carried + 1 }
  | .sink a =>
    if R.arrives a then none else (R.step l.sink a).map fun sink => { l with sink }

/-- The act of the source that a step shows. -/
def sourceAct (_ : Link S R) : LinkAct S R → Option S.Act
  | .source a => some a
  | .carry | .sink _ => none

/-- What has arrived is what the source put out first. -/
structure Inv (l : Link S R) : Prop where
  le : l.carried ≤ (S.out l.source).length
  arrived : R.Inv l.sink ((S.out l.source).take l.carried)

variable {l l' t : Link S R} {a : LinkAct S R} {as : List (LinkAct S R)}

theorem inv_start (S : Source α) (R : Sink α β) : (start S R).Inv :=
  ⟨Nat.zero_le _, by rw [start, List.take_zero]; exact R.inv_start⟩

theorem Inv.step (hi : l.Inv) (h : l.step a = some l') : l'.Inv := by
  cases a with
  | source a =>
    obtain ⟨s, hs, rfl⟩ := Option.map_eq_some_iff.1 h
    obtain ⟨more, hmore⟩ := S.grows _ _ _ hs
    refine ⟨Nat.le_trans hi.le (S.grows _ _ _ hs).length_le, ?_⟩
    dsimp only
    rw [← hmore, List.take_append_of_le_length hi.le]
    exact hi.arrived
  | carry =>
    obtain ⟨x, hx, h⟩ := Option.bind_eq_some_iff.1 h
    obtain ⟨r, hr, rfl⟩ := Option.map_eq_some_iff.1 h
    obtain ⟨hlt, hget⟩ := List.getElem?_eq_some_iff.1 hx
    refine ⟨hlt, ?_⟩
    dsimp only
    rw [List.take_add_one, hx]
    exact R.inv_arrive _ _ _ _ hi.arrived hr
  | sink a =>
    simp only [Link.step] at h
    split at h
    · cases h
    · next hquiet =>
      obtain ⟨r, hr, rfl⟩ := Option.map_eq_some_iff.1 h
      exact ⟨hi.le, R.inv_quiet _ _ _ _ hi.arrived (eq_false_of_ne_true hquiet) hr⟩

/-- A step of a link is a step of its source, or leaves it alone. -/
theorem source_step (h : l.step a = some l') :
    Runs.run S.step l.source (sourceAct l a).toList = some l'.source := by
  cases a with
  | source a =>
    obtain ⟨s, hs, rfl⟩ := Option.map_eq_some_iff.1 h
    exact Runs.run_cons_eq_some.2 ⟨s, hs, rfl⟩
  | carry =>
    obtain ⟨x, -, h⟩ := Option.bind_eq_some_iff.1 h
    obtain ⟨r, -, rfl⟩ := Option.map_eq_some_iff.1 h
    rfl
  | sink a =>
    simp only [Link.step] at h
    split at h
    · cases h
    · obtain ⟨r, -, rfl⟩ := Option.map_eq_some_iff.1 h
      rfl

/-- The source of a link makes a run of its own. -/
theorem run_source (h : Runs.run step (start S R) as = some t) :
    ∃ bs, Runs.run S.step S.start bs = some t.source :=
  ⟨_, Runs.projects (f := Link.source) (I := fun _ => True)
    (fun _ _ _ _ hs => ⟨trivial, source_step hs⟩) trivial h⟩

/-- The sink hands over what the source put out, in order and read: each item that the source has
reported once at most, and all of them when they have arrived and the sink is clear. -/
theorem in_order (h : Runs.run step (start S R) as = some t) :
    R.got t.sink <+: (S.out t.source).map R.read ∧
      (S.out t.source).Perm (S.done t.source) ∧
      (R.Clear t.sink → t.carried = (S.out t.source).length →
        R.got t.sink = (S.out t.source).map R.read) := by
  have hi : t.Inv := Runs.invariant (fun _ _ _ hi hs => Inv.step hi hs) (inv_start S R) h
  obtain ⟨hpre, hall⟩ := R.faithful _ _ hi.arrived
  obtain ⟨bs, hbs⟩ := run_source h
  refine ⟨hpre.trans ?_, S.exact bs _ hbs, fun hclear hcarried => ?_⟩
  · exact (List.take_prefix _ _).map R.read
  · rw [hall hclear, hcarried, List.take_length]

end Link

end Relay
