import WebrtcDatachannels.Host.DataChannel

/-!
# Tearing a Wasmtime peer connection down

`wasmtime-impl/src/peer_connection.rs`. `new_with` returns a handle at once and leaves the build of
the connection to a detached task, which puts it into a slot that `close` and the drop of the last
handle empty. A `Teardown` is that slot, the close signal, the calls of `close` under way, and the
connections handed to `close_peer_connections`. A step is one operation on what the threads share:
the slot, or the flag or the sender of the signal.

Along every run a connection is in one place, the slot or what was handed over, and there once
(`Teardown.Conserved`, `Teardown.handed_at_most_once`). `Teardown.torn_down_iff` says along which
runs it is handed over when it should be.
-/

namespace WebrtcDatachannels.Host

variable {Pc : Type}

/-- A close signal: its flag, and whether its sender is taken and the waiters are woken. Source:
`CloseTrigger`, `CloseSignal`. -/
structure Signal where
  flag : Bool
  sent : Bool
deriving DecidableEq, Repr

/-- Both halves of `fire` are done. -/
def Signal.Fired (s : Signal) : Prop := s.flag = true ∧ s.sent = true

instance (s : Signal) : Decidable s.Fired := inferInstanceAs (Decidable (_ ∧ _))

/-- A call of `close`: made, with the flag stored, with the signal fired, or returned. Source:
`PeerConnection::close`. -/
inductive Closing where
  | called
  | flagged
  | fired
  | returned
deriving DecidableEq, Repr

/-- What a call of `close` has made of the signal. -/
def Closing.Done (signal : Signal) : Closing → Prop
  | .called => True
  | .flagged => signal.flag = true
  | .fired | .returned => signal.Fired

/-- A signal further on keeps what a call has done. -/
theorem Closing.Done.mono {c : Closing} {signal signal' : Signal} (h : c.Done signal)
    (hf : signal.flag = true → signal'.flag = true)
    (hs : signal.sent = true → signal'.sent = true) : c.Done signal' := by
  cases c with
  | called => trivial
  | flagged => exact hf h
  | fired | returned => exact ⟨hf h.1, hs h.2⟩

/-- A peer connection from its constructor to its end: the outcome of the build, once there is one,
the slot, the signal, the handles alive, the calls of `close`, and every connection handed to
`close_peer_connections`, with whether the signal had fired by then. Source: `Inner`. -/
structure Teardown (Pc : Type) where
  built : Option (Except WebrtcError Pc)
  pc : Option Pc
  signal : Signal
  handles : Nat
  calls : List Closing
  handedOver : List (Pc × Bool)

/-- What the threads do: the build task ends or is cancelled, the state handler of the connection
stores the flag of the signal and wakes its waiters, a handle is cloned or dropped, a call of
`close` is made or takes its next operation. -/
inductive TeardownAct (Pc : Type) where
  | build (result : Except String Pc)
  | cancel
  | stored
  | woken
  | clone
  | drop
  | close
  | proceed (k : Nat)

namespace Teardown

/-- A new connection, with or without a Tokio runtime for its build. Source:
`PeerConnection::new_with`. -/
def newWith (runtime : Bool) : Teardown Pc where
  built :=
    if runtime then none
    else some (.error (.other "peer connection requires a running tokio runtime"))
  pc := none
  signal := { flag := false, sent := false }
  handles := 1
  calls := []
  handedOver := []

/-- The connection built, if any. -/
def connection (s : Teardown Pc) : Option Pc :=
  match s.built with
  | some (.ok pc) => some pc
  | some (.error _) | none => none

/-- Source: `close_peer_connections`. -/
def closePeerConnections (s : Teardown Pc) (connections : List Pc) : Teardown Pc :=
  { s with handedOver := s.handedOver ++ connections.map fun pc => (pc, decide s.signal.Fired) }

/-- The slot is emptied and what was in it handed over. Source: `PeerConnection::close`,
`Drop for Inner`. -/
def takePc (s : Teardown Pc) : Teardown Pc :=
  { s with pc := none }.closePeerConnections s.pc.toList

/-- One step of one thread. The last handle is dropped only when no call of `close` borrows it. -/
def step (s : Teardown Pc) : TeardownAct Pc → Option (Teardown Pc)
  | .build result =>
    match s.built, result with
    | some _, _ => none
    | none, .ok pc => some { s with pc := some pc, built := some (.ok pc) }
    | none, .error err => some { s with built := some (.error (.other err)) }
  | .cancel =>
    match s.built with
    | some _ => none
    | none => some { s with built := some (.error (.other "peer connection build was cancelled")) }
  | .stored => some { s with signal.flag := true }
  | .woken => if s.signal.flag then some { s with signal.sent := true } else none
  | .clone => if 0 < s.handles then some { s with handles := s.handles + 1 } else none
  | .drop =>
    if 1 < s.handles then some { s with handles := s.handles - 1 }
    else if s.handles = 1 ∧ ∀ c ∈ s.calls, c = .returned then some { s with handles := 0 }.takePc
    else none
  | .close => if 0 < s.handles then some { s with calls := s.calls ++ [.called] } else none
  | .proceed k =>
    match s.calls[k]? with
    | some .called => some { s with signal.flag := true, calls := s.calls.set k .flagged }
    | some .flagged => some { s with signal.sent := true, calls := s.calls.set k .fired }
    | some .fired => some { s with calls := s.calls.set k .returned }.takePc
    | some .returned | none => none

/-- The handle is closed, by a call that has returned, or all of its clones are dropped. -/
def Ended (s : Teardown Pc) : Prop := .returned ∈ s.calls ∨ s.handles = 0

instance (s : Teardown Pc) : Decidable s.Ended := inferInstanceAs (Decidable (_ ∨ _))

/-- The purpose of the slot: a connection that was built and whose handle has ended has been handed
over, once, and after the signal. -/
def TornDown (s : Teardown Pc) : Prop :=
  ∀ pc, s.built = some (.ok pc) → s.Ended → s.handedOver = [(pc, true)]

/-- A step that leaves nothing behind: the build comes before the handle ends, and the last handle
is dropped with an empty slot or after the signal. -/
def Orderly (s : Teardown Pc) : TeardownAct Pc → Prop
  | .build (.ok _) => ¬ s.Ended
  | .drop => s.handles = 1 → s.pc ≠ none → s.signal.Fired
  | _ => True

section
variable {s s' : Teardown Pc} {a : TeardownAct Pc}

/-- What a step does: it sets or fires the signal, fails the build, counts handles, moves a call on,
fills the slot or empties it. -/
inductive Effect (s : Teardown Pc) : TeardownAct Pc → Teardown Pc → Prop where
  | signal {a : TeardownAct Pc} {signal : Signal} (hf : s.signal.flag = true → signal.flag = true)
      (hs : s.signal.sent = true → signal.sent = true) (ha : s.Orderly a) :
      Effect s a { s with signal }
  | failed {a : TeardownAct Pc} {err : WebrtcError} (hb : s.built = none) (ha : s.Orderly a) :
      Effect s a { s with built := some (.error err) }
  | handles {a : TeardownAct Pc} {n : Nat} (h : s.handles ≠ 0) (hn : n ≠ 0) (ha : s.Orderly a) :
      Effect s a { s with handles := n }
  | made (h : s.handles ≠ 0) : Effect s .close { s with calls := s.calls ++ [.called] }
  | stores {k : Nat} (hk : s.calls[k]? = some .called) :
      Effect s (.proceed k) { s with signal.flag := true, calls := s.calls.set k .flagged }
  | wakes {k : Nat} (hk : s.calls[k]? = some .flagged) :
      Effect s (.proceed k) { s with signal.sent := true, calls := s.calls.set k .fired }
  | built {pc : Pc} (hb : s.built = none) :
      Effect s (.build (.ok pc)) { s with pc := some pc, built := some (.ok pc) }
  | returns {k : Nat} (hk : s.calls[k]? = some .fired) :
      Effect s (.proceed k) { s with calls := s.calls.set k .returned }.takePc
  | dropped (hn : s.handles = 1) (hc : ∀ c ∈ s.calls, c = .returned) :
      Effect s .drop { s with handles := 0 }.takePc

/-- A step has its effect. -/
theorem step_effect (h : s.step a = some s') : s.Effect a s' := by
  cases a with
  | build result =>
    simp only [step] at h
    split at h
    · cases h
    · next hb => cases h; exact .built hb
    · next hb => cases h; exact .failed hb trivial
  | cancel =>
    simp only [step] at h
    split at h
    · cases h
    · next hb => cases h; exact .failed hb trivial
  | stored => cases h; exact .signal (fun _ => rfl) (fun h => h) trivial
  | woken =>
    simp only [step] at h
    split at h
    · cases h; exact .signal (fun h => h) (fun _ => rfl) trivial
    · cases h
  | clone =>
    simp only [step] at h
    split at h
    · next hn => cases h; exact .handles (by omega) (by omega) trivial
    · cases h
  | drop =>
    simp only [step] at h
    split at h
    · next hn =>
      cases h
      exact .handles (by omega) (by omega) fun h1 => by omega
    · split at h
      · next hn => cases h; exact .dropped hn.1 hn.2
      · cases h
  | close =>
    simp only [step] at h
    split at h
    · next hn => cases h; exact .made (by omega)
    · cases h
  | proceed k =>
    simp only [step] at h
    split at h
    · next hk => cases h; exact .stores hk
    · next hk => cases h; exact .wakes hk
    · next hk => cases h; exact .returns hk
    · cases h
    · cases h

/-- Only the build task ends the build. -/
theorem step_built (h : s.step a = some s') (hb : ∀ result, a ≠ .build result)
    (hc : a ≠ .cancel) : s'.built = s.built := by
  cases a with
  | build result => exact absurd rfl (hb result)
  | cancel => exact absurd rfl hc
  | stored => cases h; rfl
  | proceed k =>
    simp only [step] at h
    split at h
    all_goals cases h
    all_goals rfl
  | woken | clone | close =>
    simp only [step] at h
    split at h
    · cases h; rfl
    · cases h
  | drop =>
    simp only [step] at h
    split at h
    · cases h; rfl
    · split at h
      · cases h; rfl
      · cases h

/-- The outcome of the build stays. -/
theorem step_built_some {result : Except WebrtcError Pc} (h : s.step a = some s')
    (hb : s.built = some result) : s'.built = some result := by
  cases a with
  | build | cancel => simp [step, hb] at h
  | stored | woken | clone | drop | close | proceed => rw [step_built h nofun nofun, hb]

/-! ## A connection is in one place -/

/-- The connection built is in the slot or was handed over, and nowhere twice. -/
def Conserved (s : Teardown Pc) : Prop :=
  s.pc.toList ++ s.handedOver.map Prod.fst = s.connection.toList

/-- With a connection in the slot, none has been handed over. -/
theorem Conserved.full (h : s.Conserved) {pc : Pc} (hpc : s.pc = some pc) :
    s.built = some (.ok pc) ∧ s.handedOver = [] := by
  rw [Conserved, hpc, connection] at h
  split at h
  · next pc' hb =>
    simp only [Option.toList_some, List.cons_append, List.nil_append, List.cons.injEq,
      List.map_eq_nil_iff] at h
    exact ⟨h.1 ▸ hb, h.2⟩
  · cases h
  · cases h

/-- What is taken out of the slot is handed over. -/
theorem Conserved.takePc (h : s.Conserved) : s.takePc.Conserved := by
  cases hpc : s.pc with
  | none => simpa [Conserved, Teardown.takePc, closePeerConnections, connection, hpc] using h
  | some pc =>
    obtain ⟨hb, hh⟩ := h.full hpc
    simp [Conserved, Teardown.takePc, closePeerConnections, connection, hpc, hb, hh]

/-- Every step keeps the connection in one place. -/
theorem Conserved.step (hc : s.Conserved) (h : s.step a = some s') : s'.Conserved := by
  cases step_effect h with
  | signal | handles | made | stores | wakes => exact hc
  | failed hb | built hb =>
    have hnone : s.connection = none := by rw [connection, hb]
    rw [Conserved, hnone, Option.toList_none, List.append_eq_nil_iff] at hc
    obtain ⟨hpc, hh⟩ := hc
    simp [Conserved, connection, hpc, hh]
  | @returns k =>
    have hc' : { s with calls := s.calls.set k .returned }.Conserved := hc
    exact hc'.takePc
  | dropped =>
    have hc' : { s with handles := 0 }.Conserved := hc
    exact hc'.takePc

/-- At most one connection is ever handed over, and it is the one that was built. -/
theorem handed_at_most_once {runtime : Bool} {as : List (TeardownAct Pc)}
    (h : Runs.run step (newWith runtime) as = some s) :
    s.handedOver = [] ∨ ∃ pc fired, s.built = some (.ok pc) ∧ s.handedOver = [(pc, fired)] := by
  have hc : s.Conserved :=
    Runs.invariant (fun _ _ _ hc hs => hc.step hs) (by cases runtime <;> rfl) h
  cases hpc : s.pc with
  | some pc => exact .inl (hc.full hpc).2
  | none =>
    rw [Conserved, hpc, Option.toList_none, List.nil_append, connection] at hc
    split at hc
    · next pc hb =>
      obtain ⟨⟨pc', fired⟩, hh, rfl⟩ := List.map_eq_singleton_iff.1 hc
      exact .inr ⟨pc', fired, hb, hh⟩
    · exact .inl (List.map_eq_nil_iff.1 hc)
    · exact .inl (List.map_eq_nil_iff.1 hc)

/-! ## Nothing is left behind -/

/-- What carries `TornDown` over a run: each call has done its part of the signal, every connection
was handed over after it, and an ended handle has an empty slot. -/
structure TeardownInv (s : Teardown Pc) : Prop where
  conserved : s.Conserved
  done : ∀ c ∈ s.calls, c.Done s.signal
  early : ∀ h ∈ s.handedOver, h.2 = true
  emptied : s.Ended → s.pc = none

theorem teardownInv_newWith (runtime : Bool) : (newWith runtime : Teardown Pc).TeardownInv where
  conserved := by cases runtime <;> rfl
  done := nofun
  early := nofun
  emptied _ := rfl

/-- The invariant gives the promise. -/
theorem TeardownInv.tornDown (hi : s.TeardownInv) : s.TornDown := by
  intro pc hb he
  have hc := hi.conserved
  rw [Conserved, connection, hb, hi.emptied he] at hc
  obtain ⟨⟨pc', fired⟩, hh, rfl⟩ := List.map_eq_singleton_iff.1 hc
  have hfired : fired = true := hi.early _ (hh ▸ List.mem_singleton_self _)
  rw [hh, hfired]

/-- A call goes on: the others keep what they have done. -/
theorem TeardownInv.done_set (hi : s.TeardownInv) {k : Nat} {c : Closing} {signal : Signal}
    (hf : s.signal.flag = true → signal.flag = true)
    (hs : s.signal.sent = true → signal.sent = true) (hc : c.Done signal) :
    ∀ c' ∈ s.calls.set k c, c'.Done signal := by
  intro c' hc'
  rcases List.mem_or_eq_of_mem_set hc' with hc' | rfl
  · exact (hi.done c' hc').mono hf hs
  · exact hc

/-- The slot is emptied, after the signal if there is something in it. -/
theorem teardownInv_takePc (hc : s.Conserved) (hd : ∀ c ∈ s.calls, c.Done s.signal)
    (he : ∀ h ∈ s.handedOver, h.2 = true) (hf : s.pc ≠ none → s.signal.Fired) :
    s.takePc.TeardownInv where
  conserved := hc.takePc
  done := hd
  early := by
    intro h hh
    rcases List.mem_append.1 hh with hh | hh
    · exact he h hh
    · obtain ⟨pc, hpc, rfl⟩ := List.mem_map.1 hh
      exact decide_eq_true (hf (Option.ne_none_iff_exists'.2 ⟨pc, Option.mem_toList.1 hpc⟩))
  emptied _ := rfl

/-- An orderly step keeps the invariant. -/
theorem TeardownInv.step (hi : s.TeardownInv) (hC : s.Orderly a) (h : s.step a = some s') :
    s'.TeardownInv := by
  have hconserved := hi.conserved.step h
  cases step_effect h with
  | signal hf hs => exact ⟨hconserved, fun c hc => (hi.done c hc).mono hf hs, hi.early, hi.emptied⟩
  | failed => exact ⟨hconserved, hi.done, hi.early, hi.emptied⟩
  | handles hn hn' =>
    exact ⟨hconserved, hi.done, hi.early, fun he => hi.emptied (he.imp_right (absurd · hn'))⟩
  | made hn =>
    refine ⟨hconserved, ?_, hi.early, fun he => hi.emptied ?_⟩
    · intro c hc
      rcases List.mem_append.1 hc with hc | hc
      · exact hi.done c hc
      · cases List.mem_singleton.1 hc
        trivial
    · refine he.imp_left ?_
      intro hr
      simpa using hr
  | stores hk =>
    refine ⟨hconserved, hi.done_set (fun _ => rfl) (fun h => h) rfl, hi.early, ?_⟩
    intro he
    refine hi.emptied (he.imp_left ?_)
    intro hr
    exact (List.mem_or_eq_of_mem_set hr).resolve_right nofun
  | wakes hk =>
    have hflag : s.signal.flag = true := hi.done _ (List.mem_of_getElem? hk)
    refine ⟨hconserved, hi.done_set (fun h => h) (fun _ => rfl) ⟨hflag, rfl⟩, hi.early, ?_⟩
    intro he
    refine hi.emptied (he.imp_left fun hr => ?_)
    exact (List.mem_or_eq_of_mem_set hr).resolve_right nofun
  | built => exact ⟨hconserved, hi.done, hi.early, fun he => absurd he hC⟩
  | @returns k hk =>
    have hfired : s.signal.Fired := hi.done _ (List.mem_of_getElem? hk)
    exact teardownInv_takePc (s := { s with calls := s.calls.set k .returned }) hi.conserved
      (hi.done_set (fun h => h) (fun h => h) hfired) hi.early fun _ => hfired
  | dropped hn =>
    exact teardownInv_takePc (s := { s with handles := 0 }) hi.conserved hi.done hi.early (hC hn)

/-- A step that is not orderly leaves a connection behind, or hands it over without the signal. -/
theorem TeardownInv.not_tornDown (hi : s.TeardownInv) (hC : ¬ s.Orderly a)
    (h : s.step a = some s') : ¬ s'.TornDown := by
  intro ht
  cases step_effect h with
  | signal _ _ ha | failed _ ha | handles _ _ ha => exact hC ha
  | made | stores | wakes | returns => exact hC trivial
  | @built pc hb =>
    -- nothing was handed over before the build, and the handle has ended already
    have hc := hi.conserved
    rw [Conserved, connection, hb, Option.toList_none, List.append_eq_nil_iff,
      List.map_eq_nil_iff] at hc
    have hh : s.handedOver = [(pc, true)] := ht pc rfl (Decidable.not_not.1 hC)
    rw [hc.2] at hh
    cases hh
  | dropped hn =>
    have hpc : ∃ pc, s.pc = some pc := by
      by_contra hne
      exact hC fun _ h => absurd (Option.ne_none_iff_exists'.1 h) hne
    obtain ⟨pc, hpc⟩ := hpc
    have hfired : ¬ s.signal.Fired := fun hf => hC fun _ _ => hf
    obtain ⟨hb, hh⟩ := hi.conserved.full hpc
    have := ht pc hb (.inr rfl)
    simp [takePc, closePeerConnections, hpc, hh, hfired] at this

end

/-- **When a connection is torn down.** Along every run, a connection whose handle has ended has
been handed over once and after the signal, in every state, exactly when every step is orderly. -/
theorem torn_down_iff {runtime : Bool} {as : List (TeardownAct Pc)} {s : Teardown Pc}
    (h : Runs.run step (newWith runtime) as = some s) :
    Runs.Along step TornDown (newWith runtime) as ↔
      Runs.Meets step Orderly (newWith runtime) as :=
  Runs.along_iff_meets (fun _ hi => hi.tornDown) (fun _ _ _ hi hC hs => hi.step hC hs)
    (fun _ _ _ hi hC hs => hi.not_tornDown hC hs) (teardownInv_newWith runtime) h

/-- A connection built while it is being closed, and handed over by that call alone: its handle is
cloned, closed again and dropped. -/
theorem torn_down_iff_of_built :
    Runs.Along step TornDown (newWith true : Teardown Nat)
      [.close, .proceed 0, .build (.ok 7), .proceed 0, .proceed 0, .clone, .close, .proceed 1,
        .proceed 1, .proceed 1, .drop, .drop] := by
  refine (torn_down_iff rfl).2 ?_
  iterate 2 refine (Runs.meets_cons rfl).2 ⟨trivial, ?_⟩
  refine (Runs.meets_cons rfl).2 ⟨show ¬ Ended _ by decide, ?_⟩
  iterate 7 refine (Runs.meets_cons rfl).2 ⟨trivial, ?_⟩
  iterate 2 refine (Runs.meets_cons rfl).2 ⟨fun _ h => absurd rfl h, ?_⟩
  trivial

/-- Closed before the build ends, or dropped before, a connection is never handed over; dropped
after it, a connection is handed over with the signal not fired. -/
theorem torn_down_missed :
    (∃ s : Teardown Nat,
      Runs.run step (newWith true) [.close, .proceed 0, .proceed 0, .proceed 0, .build (.ok 7)] =
          some s ∧
        s.Ended ∧ s.built = some (.ok 7) ∧ s.handedOver = [] ∧ ¬ s.TornDown) ∧
    (∃ s : Teardown Nat, Runs.run step (newWith true) [.drop, .build (.ok 7)] = some s ∧
      s.Ended ∧ s.built = some (.ok 7) ∧ s.handedOver = [] ∧ ¬ s.TornDown) ∧
    ∃ s : Teardown Nat, Runs.run step (newWith true) [.build (.ok 7), .drop] = some s ∧
      s.Ended ∧ s.built = some (.ok 7) ∧ s.handedOver = [(7, false)] ∧ ¬ s.TornDown := by
  have hnot : ∀ {s : Teardown Nat} {l : List (Nat × Bool)}, s.Ended → s.built = some (.ok 7) →
      s.handedOver = l → l ≠ [(7, true)] → ¬ s.TornDown := by
    intro s l he hb hl hne ht
    exact hne (hl.symm.trans (ht 7 hb he))
  refine ⟨⟨_, rfl, ?_⟩, ⟨_, rfl, ?_⟩, ⟨_, rfl, ?_⟩⟩
  · exact ⟨by decide, rfl, rfl, hnot (by decide) rfl rfl (by decide)⟩
  · exact ⟨by decide, rfl, rfl, hnot (by decide) rfl rfl (by decide)⟩
  · exact ⟨by decide, rfl, rfl, hnot (by decide) rfl rfl (by decide)⟩

end Teardown

end WebrtcDatachannels.Host
