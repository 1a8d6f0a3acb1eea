import WebrtcDatachannels.Guest.Provider
import WebrtcDatachannels.Lib.Lines
import WebrtcDatachannels.Utf8

/-!
# Manual signaling over standard input and output

`examples/cli-signaling/src/lib.rs`. A peer embeds the candidates that its stream yields into its
SDP and prints it as one line of base64; the other peer reads its standard input line by line, from
whatever reads the stream yields, until a line decodes. What the one presents is what the other gets
(`request_present`).
-/

namespace WebrtcDatachannels.Examples

open Guest (StreamResult)
open Lines (trim)

/-! ## Streams -/

/-- What one `read` of a stream yields. -/
structure Read (α : Type) where
  status : StreamResult
  batch : List α

/-- The reads of a stream end it: the last one, and none before. -/
def Ends {α : Type} : Bool → List (Read α) → Prop
  | done, [] => done = true
  | done, r :: reads => done = false ∧ Ends r.status.ended reads

/-- What reads yield. -/
def contents {α : Type} (reads : List (Read α)) : List α := reads.flatMap (·.batch)

/-! ## The candidates -/

/-- A candidate as an attribute. Source: the loop body of `with_candidates`. -/
def candidateLine (c : IceCandidate) : String :=
  if c.candidate = "" then "" else "a=" ++ c.candidate ++ "\r\n"

/-- The SDP, on lines of its own. Source: `with_candidates`. -/
def terminated (sdp : String) : String :=
  if sdp.toList.getLast? = some '\n' then sdp else sdp ++ "\r\n"

/-- The loop of `with_candidates`; `none` while the stream neither yields nor ends. -/
def drain (full : String) : List (Read IceCandidate) → Option String
  | [] => none
  | r :: reads =>
    let full := r.batch.foldl (fun full c => full ++ candidateLine c) full
    if r.status.ended then some (full ++ "a=end-of-candidates\r\n") else drain full reads

/-- Source: `with_candidates`. -/
def withCandidates (sdp : String) (reads : List (Read IceCandidate)) : Option String :=
  drain (terminated sdp) reads

/-- The SDP with all candidates. -/
def embedded (sdp : String) (candidates : List IceCandidate) : String :=
  candidates.foldl (fun full c => full ++ candidateLine c) (terminated sdp) ++
    "a=end-of-candidates\r\n"

theorem drain_eq (full : String) {reads : List (Read IceCandidate)} (h : Ends false reads) :
    drain full reads =
      some ((contents reads).foldl (fun full c => full ++ candidateLine c) full ++
        "a=end-of-candidates\r\n") := by
  induction reads generalizing full with
  | nil => cases h
  | cons r reads ih =>
    rw [drain, contents, List.flatMap_cons, List.foldl_append]
    cases hr : r.status.ended with
    | true =>
      obtain rfl : reads = [] := by
        cases reads with
        | nil => rfl
        | cons r' reads => rw [Ends, Ends, hr] at h; exact absurd h.2.1 (by decide)
      simp
    | false =>
      rw [Ends, hr] at h
      simpa [contents] using ih _ h.2

/-- The candidates do not depend on the batches that they come in. -/
theorem withCandidates_eq (sdp : String) {reads : List (Read IceCandidate)} (h : Ends false reads) :
    withCandidates sdp reads = some (embedded sdp (contents reads)) :=
  drain_eq _ h

/-! ## Standard input -/

/-- The standard input: what the reader is going to yield, the bytes read behind the last line, and
whether the reader has ended. Source: `Stdin`. -/
structure Stdin where
  reads : List (Read UInt8)
  buffer : Bytes
  done : Bool

/-- A line feed. -/
def newline : UInt8 := 10

/-- Source: `trim_end_matches('\r')` on the lossy text of a line. -/
def lineText (l : Bytes) : String :=
  String.ofList (((fromUtf8Lossy l).toList.reverse.dropWhile (· = '\r')).reverse)

/-- What `read_line` returns without a read, if it can. -/
def ready (reads : List (Read UInt8)) (buffer : Bytes) (done : Bool) :
    Option (Option String × Stdin) :=
  match buffer.findIdx? (· == newline) with
  | some pos => some (some (lineText (buffer.take pos)), ⟨reads, buffer.drop (pos + 1), done⟩)
  | none =>
    if done then
      if buffer = [] then some (none, ⟨reads, buffer, done⟩)
      else some (some (lineText buffer), ⟨reads, [], done⟩)
    else none

/-- The loop of `read_line`; `none` while the reader neither yields nor ends. -/
def readFrom (buffer : Bytes) (done : Bool) : List (Read UInt8) → Option (Option String × Stdin)
  | [] => ready [] buffer done
  | r :: reads =>
    match ready (r :: reads) buffer done with
    | some x => some x
    | none => readFrom (buffer ++ r.batch) r.status.ended reads

/-- Source: `Stdin::read_line`. -/
def Stdin.readLine (s : Stdin) : Option (Option String × Stdin) :=
  readFrom s.buffer s.done s.reads

/-- The bytes that are yet to be taken. -/
def Stdin.input (s : Stdin) : Bytes := s.buffer ++ contents s.reads

/-- What `read_line` returns of a stream that ends: nothing when no line is left, else the first
line, and the others stay. -/
def Takes (input : Bytes) (x : Option String × Stdin) : Prop :=
  Ends x.2.done x.2.reads ∧
    ((Lines.split newline input = [] ∧ x.1 = none) ∨
      ∃ l, Lines.split newline input = l :: Lines.split newline x.2.input ∧
        x.1 = some (lineText l))

theorem ends_true {α : Type} {reads : List (Read α)} (h : Ends true reads) : reads = [] := by
  cases reads with
  | nil => rfl
  | cons r reads => exact absurd h.1 (by decide)

theorem ready_takes {reads : List (Read UInt8)} {buffer : Bytes} {done : Bool}
    {x : Option String × Stdin} (hends : Ends done reads) (h : ready reads buffer done = some x) :
    Takes (buffer ++ contents reads) x := by
  unfold ready at h
  split at h
  · next pos hpos =>
    cases h
    obtain ⟨hlt, hnl, hbefore⟩ := List.findIdx?_eq_some_iff_getElem.1 hpos
    have hcut : buffer ++ contents reads =
        buffer.take pos ++ newline :: (buffer.drop (pos + 1) ++ contents reads) := by
      have hget : buffer[pos] = newline := by simpa using hnl
      rw [← hget, ← List.cons_append, ← List.append_assoc, ← List.drop_eq_getElem_cons hlt,
        List.take_append_drop]
    have hline : newline ∉ buffer.take pos := by
      intro hmem
      obtain ⟨i, hi, heq⟩ := List.getElem_of_mem hmem
      rw [List.length_take] at hi
      rw [List.getElem_take] at heq
      exact absurd heq (by simpa using hbefore i (by omega))
    rw [hcut]
    exact ⟨hends, .inr ⟨_, Lines.split_line hline, rfl⟩⟩
  · next hno =>
    split at h
    · next hdone =>
      subst hdone
      obtain rfl := ends_true hends
      have hline : newline ∉ buffer := by
        intro hmem
        have := List.findIdx?_eq_none_iff.1 hno newline hmem
        simp at this
      split at h
      · next hempty =>
        cases h
        subst hempty
        exact ⟨rfl, .inl ⟨rfl, rfl⟩⟩
      · next hne =>
        cases h
        have hinput : buffer ++ contents ([] : List (Read UInt8)) = buffer := List.append_nil _
        rw [hinput]
        exact ⟨rfl, .inr ⟨_, Lines.split_of_not_mem hline hne, rfl⟩⟩
    · cases h

/-- **The lines do not depend on the reads.** -/
theorem readFrom_takes {reads : List (Read UInt8)} (buffer : Bytes) {done : Bool}
    (h : Ends done reads) :
    ∃ x, readFrom buffer done reads = some x ∧ Takes (buffer ++ contents reads) x := by
  induction reads generalizing buffer done with
  | nil =>
    cases hr : ready [] buffer done with
    | some x => exact ⟨x, hr, ready_takes h hr⟩
    | none =>
      -- the reader has ended
      obtain rfl : done = true := h
      unfold ready at hr
      split at hr
      · cases hr
      · rw [if_pos rfl] at hr
        split at hr <;> cases hr
  | cons r reads ih =>
    rw [readFrom]
    cases hr : ready (r :: reads) buffer done with
    | some x => exact ⟨x, rfl, ready_takes h hr⟩
    | none =>
      obtain ⟨x, hx, htakes⟩ := ih (buffer ++ r.batch) h.2
      refine ⟨x, hx, ?_⟩
      rwa [contents, List.flatMap_cons, ← List.append_assoc]

/-- A line that is returned is taken. -/
theorem ready_shrinks {reads : List (Read UInt8)} {buffer : Bytes} {done : Bool} {line : String}
    {s : Stdin} (h : ready reads buffer done = some (some line, s)) :
    s.input.length < (buffer ++ contents reads).length := by
  unfold ready at h
  split at h
  · next pos hpos =>
    cases h
    obtain ⟨hlt, -, -⟩ := List.findIdx?_eq_some_iff_getElem.1 hpos
    simp only [Stdin.input, List.length_append, List.length_drop]
    omega
  · split at h
    · split at h
      · cases h
      · next hne =>
        cases h
        have hpos := List.length_pos_iff.2 hne
        simp only [Stdin.input, List.nil_append, List.length_append]
        omega
    · cases h

theorem readLine_shrinks {s s' : Stdin} {line : String}
    (h : s.readLine = some (some line, s')) : s'.input.length < s.input.length := by
  have hfrom : ∀ (reads : List (Read UInt8)) (buffer : Bytes) (done : Bool),
      readFrom buffer done reads = some (some line, s') →
        s'.input.length < (buffer ++ contents reads).length := by
    intro reads
    induction reads with
    | nil => exact fun buffer done h => ready_shrinks h
    | cons r reads ih =>
      intro buffer done h
      rw [readFrom] at h
      split at h
      · next x hx =>
        cases h
        exact ready_shrinks hx
      · have hlt := ih _ _ h
        rwa [List.append_assoc] at hlt
  exact hfrom s.reads s.buffer s.done h

/-! ## Requests -/

/-- What a line that was read is to `request`. -/
inductive LineKind where
  | blank
  | blob (text : String)
  | garbled
deriving DecidableEq, Repr

/-- Source: the loop body of `request`. -/
def classify (decode : Bytes → Option Bytes) (line : String) : LineKind :=
  let l := trim line.toList
  if l = [] then .blank
  else
    match decode (intoBytes (String.ofList l)) with
    | some bytes => .blob (fromUtf8Lossy bytes)
    | none => .garbled

/-- What is printed behind a line that does not decode. Source: `request`. -/
def tryAgain : String := "That did not look like a base64 blob; try again:\n"

/-- The loop of `request`, with the texts that it prints; `none` while it waits for a line. -/
def requestLoop (decode : Bytes → Option Bytes) (s : Stdin) :
    Option (String × List String × Stdin) :=
  match _h : s.readLine with
  | none => none
  | some (none, s') => some ("", [], s')
  | some (some line, s') =>
    match classify decode line with
    | .blank => requestLoop decode s'
    | .blob text => some (text, [], s')
    | .garbled =>
      (requestLoop decode s').map fun x => (x.1, tryAgain :: x.2.1, x.2.2)
termination_by s.input.length
decreasing_by all_goals exact readLine_shrinks _h

/-- Source: `request`. -/
def request (decode : Bytes → Option Bytes) (title : String) (s : Stdin) :
    Option (String × List String × Stdin) :=
  (requestLoop decode s).map fun x =>
    (x.1, ("\nPaste the " ++ title ++ " from the other peer, then press Enter:\n") :: x.2.1, x.2.2)

/-- What `present` prints. -/
def present (encode : Bytes → String) (title sdp : String) : String :=
  "\nCopy this " ++ title ++ " to the other peer (a single line):\n" ++ encode (intoBytes sdp) ++
    "\n"

/-- The text of the first blob among some lines. -/
def firstBlob (decode : Bytes → Option Bytes) : List Bytes → String
  | [] => ""
  | l :: ls =>
    match classify decode (lineText l) with
    | .blob text => text
    | .blank | .garbled => firstBlob decode ls

/-- A request returns the first blob, however the reads cut what the stream holds. -/
theorem requestLoop_eq (decode : Bytes → Option Bytes) (s : Stdin) (h : Ends s.done s.reads) :
    ∃ x, requestLoop decode s = some x ∧ x.1 = firstBlob decode (Lines.split newline s.input) := by
  induction hn : s.input.length using Nat.strongRecOn generalizing s with
  | _ n ih =>
    obtain ⟨⟨line, s'⟩, hread, hends, htakes⟩ := readFrom_takes s.buffer h
    have hread : s.readLine = some (line, s') := hread
    rw [requestLoop.eq_def]
    obtain ⟨hnil, rfl⟩ | ⟨l, hcons, rfl⟩ := htakes
    · have hnil : Lines.split newline s.input = [] := hnil
      rw [hnil]
      split
      · next hnone => rw [hread] at hnone; cases hnone
      · exact ⟨_, rfl, rfl⟩
      · next hsome => rw [hread] at hsome; cases hsome
    · have hcons : Lines.split newline s.input = l :: Lines.split newline s'.input := hcons
      obtain ⟨x, hx, htext⟩ := ih _ (hn ▸ readLine_shrinks hread) s' hends rfl
      rw [hcons, firstBlob]
      split
      · next hnone => rw [hread] at hnone; cases hnone
      · next hnone => rw [hread] at hnone; cases hnone
      · next line s₁ hsome =>
        rw [hread] at hsome
        cases hsome
        cases classify decode (lineText l) with
        | blank => exact ⟨x, hx, htext⟩
        | blob text => exact ⟨_, rfl, rfl⟩
        | garbled =>
          refine ⟨(x.1, tryAgain :: x.2.1, x.2.2), ?_, htext⟩
          rw [hx]
          rfl

/-! ## From one peer to the other -/

/-- The characters of base64: letters, digits, `+`, `/` and `=`. -/
def base64Char (c : Char) : Bool :=
  let n := c.toNat
  (65 ≤ n && n ≤ 90) || (97 ≤ n && n ≤ 122) || (48 ≤ n && n ≤ 57) || n == 43 || n == 47 || n == 61

theorem base64Char_range {c : Char} (h : base64Char c = true) : 33 ≤ c.toNat ∧ c.toNat ≤ 127 := by
  simp only [base64Char, Bool.or_eq_true, Bool.and_eq_true, decide_eq_true_eq, beq_iff_eq] at h
  omega

theorem base64Char_not_whitespace {c : Char} (h : base64Char c = true) :
    Lines.isWhitespace c = false := by
  obtain ⟨hlo, hhi⟩ := base64Char_range h
  simp only [Lines.isWhitespace, Bool.or_eq_false_iff, Bool.and_eq_false_iff,
    decide_eq_false_iff_not, beq_eq_false_iff_ne]
  omega

/-- A character of ASCII is one byte. -/
theorem newline_not_mem_encode {c : Char} (hhi : c.toNat ≤ 127) (hne : c.toNat ≠ 10) :
    newline ∉ String.utf8EncodeChar c := by
  have hone : c.utf8Size = 1 := Char.utf8Size_eq_one_iff.2 (UInt32.le_iff_toNat_le.2 hhi)
  rw [String.utf8EncodeChar_eq_singleton hone, List.mem_singleton]
  intro heq
  have hnat := congrArg UInt8.toNat heq
  simp only [newline, UInt32.toNat_toUInt8] at hnat
  have hval : c.val.toNat = c.toNat := rfl
  rw [hval, Nat.mod_eq_of_lt (by omega)] at hnat
  exact hne hnat.symm

/-- A text of ASCII without a line feed is one line. -/
theorem newline_not_mem {text : String}
    (h : ∀ c ∈ text.toList, c.toNat ≤ 127 ∧ c.toNat ≠ 10) : newline ∉ intoBytes text := by
  rw [← String.ofList_toList (s := text), intoBytes_ofList, List.mem_flatMap]
  rintro ⟨c, hc, hmem⟩
  exact newline_not_mem_encode (h c hc).1 (h c hc).2 hmem

/-- The text of a line that ends in no carriage return. -/
theorem lineText_intoBytes {text : String} (h : text.toList.getLast? ≠ some '\r') :
    lineText (intoBytes text) = text := by
  have hdrop : text.toList.reverse.dropWhile (· = '\r') = text.toList.reverse := by
    cases hr : text.toList.reverse with
    | nil => rfl
    | cons c l =>
      have hc : c ≠ '\r' := by
        rintro rfl
        rw [← List.head?_reverse, hr] at h
        exact h rfl
      simp [hc]
  rw [lineText, fromUtf8Lossy_intoBytes, hdrop, List.reverse_reverse, String.ofList_toList]

theorem firstBlob_append {decode : Bytes → Option Bytes} {ls : List Bytes} (rest : List Bytes)
    (h : ∀ l ∈ ls, ∀ text, classify decode (lineText l) ≠ .blob text) :
    firstBlob decode (ls ++ rest) = firstBlob decode rest := by
  induction ls with
  | nil => rfl
  | cons l ls ih =>
    have hl := h l List.mem_cons_self
    have ih := ih fun l hl => h l (List.mem_cons_of_mem _ hl)
    rw [List.cons_append, firstBlob]
    cases hk : classify decode (lineText l) with
    | blob text => exact absurd hk (hl text)
    | blank => exact ih
    | garbled => exact ih

/-- Lines that are no blob and end in a line feed do not hide the ones behind them. -/
theorem firstBlob_skip {decode : Bytes → Option Bytes} {junk : Bytes} (rest : Bytes)
    (hend : junk = [] ∨ junk.getLast? = some newline)
    (h : ∀ l ∈ Lines.split newline junk, ∀ text, classify decode (lineText l) ≠ .blob text) :
    firstBlob decode (Lines.split newline (junk ++ rest)) =
      firstBlob decode (Lines.split newline rest) := by
  obtain rfl | hlast := hend
  · rfl
  · obtain ⟨ls, rfl⟩ := List.getLast?_eq_some_iff.1 hlast
    rw [List.append_assoc, List.singleton_append, Lines.split_append, firstBlob_append _ h]

/-- Text with a space inside is not base64. -/
theorem classify_of_space {decode : Bytes → Option Bytes}
    (hspace : ∀ b : Bytes, 32 ∈ b → decode b = none) {line : String}
    (h : ' ' ∈ trim line.toList) : classify decode line = .garbled := by
  have hne : trim line.toList ≠ [] := List.ne_nil_of_mem h
  have hmem : (32 : UInt8) ∈ intoBytes (String.ofList (trim line.toList)) := by
    rw [intoBytes_ofList, List.mem_flatMap]
    exact ⟨' ', h, by decide⟩
  simp only [classify, hne, if_false, hspace _ hmem]

section
variable {encode : Bytes → String} {decode : Bytes → Option Bytes} {sdp title : String}

/-- The line of a blob is a blob. -/
theorem classify_blob (hchars : ∀ c ∈ (encode (intoBytes sdp)).toList, base64Char c = true)
    (hne : encode (intoBytes sdp) ≠ "")
    (hround : decode (intoBytes (encode (intoBytes sdp))) = some (intoBytes sdp)) :
    newline ∉ intoBytes (encode (intoBytes sdp)) ∧
      classify decode (lineText (intoBytes (encode (intoBytes sdp)))) = .blob sdp := by
  generalize encode (intoBytes sdp) = blob at hchars hne hround
  have htrim : trim blob.toList = blob.toList :=
    Lines.trim_of_forall fun c hc => base64Char_not_whitespace (hchars c hc)
  have hlast : blob.toList.getLast? ≠ some '\r' := fun hr =>
    absurd (hchars _ (List.mem_of_getLast? hr)) (by decide)
  have hlist : blob.toList ≠ [] := fun hnil => hne (String.toList_eq_nil_iff.1 hnil)
  constructor
  · refine newline_not_mem fun c hc => ?_
    obtain ⟨hlo, hhi⟩ := base64Char_range (hchars c hc)
    omega
  · rw [lineText_intoBytes hlast, classify]
    simp only [htrim, hlist, if_false, String.ofList_toList, hround, fromUtf8Lossy_intoBytes]

/-- The line in front of a blob. -/
def copyThis (title : String) : String :=
  "Copy this " ++ title ++ " to the other peer (a single line):"

/-- What is presented has the blob on a line of its own. -/
theorem present_eq (encode : Bytes → String) (title sdp : String) :
    intoBytes (present encode title sdp) =
      newline :: (intoBytes (copyThis title) ++
        newline :: (intoBytes (encode (intoBytes sdp)) ++ [newline])) := by
  have hfirst : ("\nCopy this " : String) = "\n" ++ "Copy this " := by decide
  have hlast : (" to the other peer (a single line):\n" : String) =
      " to the other peer (a single line):" ++ "\n" := by decide
  have hnl : intoBytes "\n" = [newline] := (intoBytes_ofList ['\n']).trans (by decide)
  simp only [present, copyThis, hfirst, hlast, intoBytes_append, hnl, List.append_assoc,
    List.cons_append, List.nil_append]

/-- The line in front of a blob is none itself. -/
theorem classify_copyThis (htitle : title = "offer" ∨ title = "answer")
    (hspace : ∀ b : Bytes, 32 ∈ b → decode b = none) :
    newline ∉ intoBytes (copyThis title) ∧
      classify decode (lineText (intoBytes (copyThis title))) = .garbled := by
  have hline : (copyThis title).toList.all (fun c => c.toNat ≤ 127 && c.toNat != 10) = true := by
    obtain rfl | rfl := htitle <;> rfl
  have hlast : (copyThis title).toList.getLast? ≠ some '\r' := by
    obtain rfl | rfl := htitle <;> decide
  have hmid : ' ' ∈ trim (copyThis title).toList := by
    obtain rfl | rfl := htitle <;> decide
  refine ⟨newline_not_mem fun c hc => by simpa using List.all_eq_true.1 hline c hc, ?_⟩
  rw [lineText_intoBytes hlast]
  exact classify_of_space hspace hmid

theorem firstBlob_present (htitle : title = "offer" ∨ title = "answer")
    (hspace : ∀ b : Bytes, 32 ∈ b → decode b = none)
    (hchars : ∀ c ∈ (encode (intoBytes sdp)).toList, base64Char c = true)
    (hne : encode (intoBytes sdp) ≠ "")
    (hround : decode (intoBytes (encode (intoBytes sdp))) = some (intoBytes sdp)) (rest : Bytes) :
    firstBlob decode (Lines.split newline (intoBytes (present encode title sdp) ++ rest)) =
      sdp := by
  obtain ⟨hcopy, hgarbled⟩ := classify_copyThis htitle hspace
  obtain ⟨hline, hblob⟩ := classify_blob hchars hne hround
  have hempty : classify decode (lineText []) = .blank := by
    have htext : lineText [] = "" := by decide
    rw [htext]
    rfl
  rw [present_eq]
  simp only [List.cons_append, List.append_assoc, List.nil_append, Lines.split_sep_cons,
    Lines.split_line hcopy, Lines.split_line hline, firstBlob, hempty, hgarbled, hblob]

theorem embedded_ne_nil (sdp : String) (candidates : List IceCandidate) :
    embedded sdp candidates ≠ "" := by
  intro hempty
  rw [embedded, String.append_eq_empty_iff] at hempty
  exact absurd hempty.2 (by decide)

/-- **A request gets what the other peer presents, with all its candidates.** The paste may hold
lines that are no blob in front of it and whatever behind it, and the reads cut it anywhere. -/
theorem request_present {candidates : List (Read IceCandidate)} {junk rest : Bytes} {s : Stdin}
    (hcands : Ends false candidates) (htitle : title = "offer" ∨ title = "answer")
    (hspace : ∀ b : Bytes, 32 ∈ b → decode b = none)
    (hround : decode (intoBytes (encode (intoBytes (embedded sdp (contents candidates))))) =
      some (intoBytes (embedded sdp (contents candidates))))
    (hchars : ∀ c ∈ (encode (intoBytes (embedded sdp (contents candidates)))).toList,
      base64Char c = true)
    (hne : ∀ b, b ≠ [] → encode b ≠ "")
    (hstdin : Ends s.done s.reads)
    (hend : junk = [] ∨ junk.getLast? = some newline)
    (hjunk : ∀ l ∈ Lines.split newline junk, ∀ text, classify decode (lineText l) ≠ .blob text)
    (hinput : s.input =
      junk ++ (intoBytes (present encode title (embedded sdp (contents candidates))) ++ rest)) :
    withCandidates sdp candidates = some (embedded sdp (contents candidates)) ∧
      ∃ printed s',
        request decode title s = some (embedded sdp (contents candidates), printed, s') := by
  refine ⟨withCandidates_eq sdp hcands, ?_⟩
  have hempty := embedded_ne_nil sdp (contents candidates)
  generalize embedded sdp (contents candidates) = full at hround hchars hinput hempty ⊢
  have hbytes : intoBytes full ≠ [] := by
    intro hnil
    have htext : full = "" := by rw [← fromUtf8Lossy_intoBytes full, hnil]; rfl
    exact hempty htext
  obtain ⟨x, hx, htext⟩ := requestLoop_eq decode s hstdin
  rw [hinput, firstBlob_skip _ hend hjunk,
    firstBlob_present htitle hspace hchars (hne _ hbytes) hround] at htext
  rw [request, hx, Option.map_some, htext]
  exact ⟨_, _, rfl⟩

theorem request_present_of_blank :
    let candidates : List (Read IceCandidate) :=
      [⟨.complete, [⟨"candidate:1", none, none⟩]⟩, ⟨.dropped, [⟨"", none, none⟩]⟩]
    let blob := "dj0wDQphPWNhbmRpZGF0ZToxDQphPWVuZC1vZi1jYW5kaWRhdGVzDQo="
    let full := "v=0\r\na=candidate:1\r\na=end-of-candidates\r\n"
    let decode := fun b => if b = intoBytes blob then some (intoBytes full) else none
    let input := [13, newline] ++ (intoBytes (present (fun _ => blob) "offer" full) ++ [newline])
    let s : Stdin := ⟨[⟨.complete, input.take 9⟩, ⟨.dropped, input.drop 9⟩], [], false⟩
    withCandidates "v=0" candidates = some full ∧
      ∃ printed s', request decode "offer" s = some (full, printed, s') := by
  intro candidates blob full decode input s
  have hfull : embedded "v=0" (contents candidates) = full := by decide
  have hchars : ∀ c ∈ blob.toList, base64Char c = true :=
    List.all_eq_true.1 (by decide : blob.toList.all base64Char = true)
  have hspace : ∀ b : Bytes, 32 ∈ b → decode b = none := by
    intro b hmem
    refine if_neg ?_
    rintro rfl
    rw [← String.ofList_toList (s := blob), intoBytes_ofList] at hmem
    exact absurd hmem (by decide)
  have hblank : classify decode (lineText [13]) = .blank := by
    have htext : lineText [13] = "" := by decide
    rw [htext]
    rfl
  have hinput : s.input =
      [13, newline] ++ (intoBytes (present (fun _ => blob) "offer" full) ++ [newline]) := by
    simp only [Stdin.input, s, contents, List.nil_append, List.flatMap_cons, List.flatMap_nil,
      List.append_nil, List.take_append_drop, input]
  have hround : decode (intoBytes blob) = some (intoBytes full) := if_pos rfl
  have hjunk : ∀ l ∈ Lines.split newline [13, newline], ∀ text,
      classify decode (lineText l) ≠ .blob text := by
    intro l hl text h
    rw [show Lines.split newline [13, newline] = [[13]] by decide, List.mem_singleton] at hl
    rw [hl, hblank] at h
    cases h
  have hstdin : Ends s.done s.reads := ⟨rfl, rfl, rfl⟩
  rw [← hfull] at hround hinput ⊢
  exact request_present ⟨rfl, rfl, rfl⟩ (.inl rfl) hspace hround hchars (fun b hb => by decide)
    hstdin (.inr rfl) hjunk hinput

end

end WebrtcDatachannels.Examples
