import WebrtcDatachannels.Utf8

/-!
# What a `send-via-stream` promises

The interface of `send-via-stream`, as `wit/webrtc.wit` gives it, over what each implementation
shows of a call: the elements of the guest's stream, the messages handed to the WebRTC stack, the
element whose send failed, and the result.
-/

namespace WebrtcDatachannels.Contract

/-- The payload is what the element declares. Source: `types.stream-message`. -/
structure Kept (e : StreamMessage) : Prop where
  total : e.data.length = e.length
  text : e.kind = .string → (fromUtf8 e.data).isSome

instance (e : StreamMessage) : Decidable (Kept e) :=
  decidable_of_iff (e.data.length = e.length ∧ (e.kind = .string → (fromUtf8 e.data).isSome))
    ⟨fun h => ⟨h.1, h.2⟩, fun h => ⟨h.1, h.2⟩⟩

/-- The message is the element: of its kind, and exactly its payload bytes. -/
def Carries : Message → StreamMessage → Prop
  | .binary data, e => e.kind = .binary ∧ data = e.data
  | .string text, e => e.kind = .string ∧ intoBytes text = e.data

/-- The `i`-th message handed over is the `i`-th element, which is what it declares. -/
def Matches (elements : List StreamMessage) (handed : List Message) : Prop :=
  ∀ (i : Nat) (m : Message), handed[i]? = some m →
    ∃ e, elements[i]? = some e ∧ Carries m e ∧ Kept e

/-- A call sends exactly the declared messages: those handed over are the first elements, the call
ends at an element whose send failed, it fails at an element that does not keep its promise or whose
send failed only, with that element's index, and it succeeds when all are handed over. -/
structure Faithful (elements : List StreamMessage) (handed : List Message) (failed : Option Nat)
    (result : Option (Except SendViaStreamError Unit)) : Prop where
  sends : Matches elements handed
  stopped : ∀ n, failed = some n → ∃ error, result = some (.error ⟨error, n⟩)
  error : ∀ e, result = some (.error e) → e.sent = handed.length ∧
    ∃ x, elements[e.sent]? = some x ∧ (failed = some e.sent ∨ ¬ Kept x)
  ok : result = some (.ok ()) → handed.length = elements.length

section
variable {elements : List StreamMessage} {handed : List Message} {m : Message} {e : StreamMessage}

theorem matches_nil : Matches elements [] := nofun

/-- One more message is handed over. -/
theorem matches_append (h : Matches elements handed) (he : elements[handed.length]? = some e)
    (hm : Carries m e) (hk : Kept e) : Matches elements (handed ++ [m]) := by
  intro i m' hi
  rw [List.getElem?_append] at hi
  split at hi
  · exact h i m' hi
  · next hlt =>
    rw [List.getElem?_singleton] at hi
    split at hi
    · next h0 =>
      cases hi
      obtain rfl : i = handed.length := Nat.le_antisymm (Nat.sub_eq_zero_iff_le.1 h0)
        (Nat.not_lt.1 hlt)
      exact ⟨e, he, hm, hk⟩
    · cases hi

/-- No more messages are handed over than there are elements. -/
theorem Matches.length_le (h : Matches elements handed) : handed.length ≤ elements.length := by
  by_contra hlt
  have hlt := Nat.not_le.1 hlt
  obtain ⟨e, he, -⟩ := h elements.length _ (List.getElem?_eq_getElem hlt)
  rw [List.getElem?_eq_none (Nat.le_refl _)] at he
  cases he

/-- The last message handed over is an element that is what it declares. -/
theorem Matches.last (h : Matches elements (handed ++ [m]))
    (he : elements[handed.length]? = some e) : Kept e := by
  obtain ⟨e', he', -, hk⟩ := h handed.length m (by simp)
  obtain rfl : e = e' := Option.some.inj (he.symm.trans he')
  exact hk

/-- A call that has not returned. -/
theorem faithful_pending (h : Matches elements handed) : Faithful elements handed none none :=
  ⟨h, nofun, nofun, nofun⟩

/-- A call that has handed over every element. -/
theorem faithful_ok (h : Matches elements handed) (hall : handed.length = elements.length) :
    Faithful elements handed none (some (.ok ())) :=
  ⟨h, nofun, nofun, fun _ => hall⟩

/-- A call that ended at the first element not handed over, whose send failed or which is not what
it declares. -/
theorem faithful_error {failed : Option Nat} (error : Error) (h : Matches elements handed)
    (he : elements[handed.length]? = some e)
    (hcause : failed = some handed.length ∨ failed = none ∧ ¬ Kept e) :
    Faithful elements handed failed (some (.error ⟨error, handed.length⟩)) := by
  refine ⟨h, fun n hn => ?_, ?_, nofun⟩
  · rcases hcause with hfailed | ⟨hfailed, -⟩
    · rw [hfailed] at hn
      cases hn
      exact ⟨error, rfl⟩
    · rw [hfailed] at hn
      cases hn
  · rintro _ ⟨⟩
    exact ⟨rfl, e, he, hcause.imp_right (·.2)⟩

/-- A text with the payload's bytes carries a `string` element. -/
theorem carries_string {text : String} (hk : e.kind = .string)
    (ht : fromUtf8 e.data = some text) : Carries (.string text) e :=
  ⟨hk, fromUtf8_eq_some.1 ht⟩

end

end WebrtcDatachannels.Contract
