import WebrtcDatachannels.Wit

/-!
# Valid UTF-8

What `fromUtf8`, `intoBytes` and `fromUtf8Lossy` have to do with one another. A string is the
decoding of exactly one byte sequence, its bytes (`fromUtf8_eq_some`), and the lossy decoding of a
valid sequence loses nothing (`fromUtf8Lossy_of_fromUtf8`). The second is by the form of a
character's encoding: one, two, three or four bytes, each of which `utf8Step` takes whole.
-/

namespace WebrtcDatachannels

/-! ## The bytes of a string -/

/-- `ByteArray.toList` adds the `n` bytes from `i` on, the last ones, to what it has read. -/
theorem toList_loop {bs : ByteArray} :
    ∀ {n i : Nat} (r : List UInt8), i + n = bs.data.toList.length →
      ByteArray.toList.loop bs i r = r.reverse ++ bs.data.toList.drop i
  | 0, i, r, h => by
    have hsize : ¬ i < bs.size := by simp [ByteArray.size, ← Array.length_toList, ← h]
    have hi : bs.data.toList.length ≤ i := Nat.le_of_eq h.symm
    rw [ByteArray.toList.loop, if_neg hsize, List.drop_eq_nil_of_le hi, List.append_nil]
  | n + 1, i, r, h => by
    have hi : i < bs.data.toList.length := by omega
    have hsize : i < bs.size := by simpa using hi
    have hbyte : bs.get! i = bs.data.toList[i] := getElem!_pos bs.data i hsize
    rw [ByteArray.toList.loop, if_pos hsize, toList_loop (n := n) _ (by omega), hbyte,
      List.drop_eq_getElem_cons hi, List.reverse_cons, List.append_assoc, List.singleton_append]

/-- The bytes of a string, as a list. -/
theorem intoBytes_eq (text : String) : intoBytes text = text.toByteArray.data.toList := by
  unfold intoBytes ByteArray.toList
  rw [toList_loop [] (Nat.zero_add _)]
  rfl

/-- The bytes of a string are its characters' encodings. -/
theorem intoBytes_ofList (cs : List Char) :
    intoBytes (String.ofList cs) = cs.flatMap String.utf8EncodeChar := by
  rw [intoBytes_eq]
  exact List.toList_data_toByteArray

/-- A byte sequence decodes to the string with these bytes. -/
theorem fromUtf8_eq_some {data : Bytes} {text : String} :
    fromUtf8 data = some text ↔ intoBytes text = data := by
  unfold fromUtf8 String.fromUTF8?
  constructor
  · intro h
    split at h
    · cases h
      rw [intoBytes_eq]
      rfl
    · cases h
  · rintro rfl
    have hbytes : (⟨(intoBytes text).toArray⟩ : ByteArray) = text.toByteArray := by
      rw [intoBytes_eq]
    have hv : ByteArray.IsValidUTF8 ⟨(intoBytes text).toArray⟩ := hbytes ▸ text.isValidUTF8
    rw [dif_pos hv]
    exact congrArg some (String.toByteArray_inj.1 hbytes)

/-! ## One sequence -/

/-- A continuation byte and its bits. -/
theorem cont_byte : ∀ i : Fin 64,
    isCont (UInt8.ofNat (i + 0x80)) = true ∧ contBits (UInt8.ofNat (i + 0x80)) = i := by
  decide

/-- The first byte of a two-byte sequence. -/
theorem two_byte : ∀ i : Fin 32, 2 ≤ i.val →
    ¬ UInt8.ofNat (i + 0xC0) < 0x80 ∧
      (0xC2 ≤ UInt8.ofNat (i + 0xC0) && UInt8.ofNat (i + 0xC0) ≤ 0xDF) = true ∧
      (UInt8.ofNat (i + 0xC0) &&& 0x1F).toNat = i := by
  decide

/-- The first byte of a three-byte sequence. -/
theorem three_byte : ∀ i : Fin 16,
    ¬ UInt8.ofNat (i + 0xE0) < 0x80 ∧
      (0xC2 ≤ UInt8.ofNat (i + 0xE0) && UInt8.ofNat (i + 0xE0) ≤ 0xDF) = false ∧
      (0xE0 ≤ UInt8.ofNat (i + 0xE0) && UInt8.ofNat (i + 0xE0) ≤ 0xEF) = true ∧
      (UInt8.ofNat (i + 0xE0) &&& 0x0F).toNat = i := by
  decide

/-- The first byte of a four-byte sequence. -/
theorem four_byte : ∀ i : Fin 5,
    ¬ UInt8.ofNat (i + 0xF0) < 0x80 ∧
      (0xC2 ≤ UInt8.ofNat (i + 0xF0) && UInt8.ofNat (i + 0xF0) ≤ 0xDF) = false ∧
      (0xE0 ≤ UInt8.ofNat (i + 0xF0) && UInt8.ofNat (i + 0xF0) ≤ 0xEF) = false ∧
      (0xF0 ≤ UInt8.ofNat (i + 0xF0) && UInt8.ofNat (i + 0xF0) ≤ 0xF4) = true ∧
      (UInt8.ofNat (i + 0xF0) &&& 0x07).toNat = i := by
  decide

/-- The second byte of a three-byte sequence is in its range, unless the sequence is overlong or a
surrogate. -/
theorem three_second : ∀ (i : Fin 16) (j : Fin 64), (i.val = 0 → 32 ≤ j.val) →
    (i.val = 13 → j.val < 32) →
    ((secondRange (UInt8.ofNat (i + 0xE0))).1 ≤ UInt8.ofNat (j + 0x80) &&
      UInt8.ofNat (j + 0x80) ≤ (secondRange (UInt8.ofNat (i + 0xE0))).2) = true := by
  decide

/-- The second byte of a four-byte sequence is in its range, unless the sequence is overlong or past
the last character. -/
theorem four_second : ∀ (i : Fin 5) (j : Fin 64), (i.val = 0 → 16 ≤ j.val) →
    (i.val = 4 → j.val < 16) →
    ((secondRange (UInt8.ofNat (i + 0xF0))).1 ≤ UInt8.ofNat (j + 0x80) &&
      UInt8.ofNat (j + 0x80) ≤ (secondRange (UInt8.ofNat (i + 0xF0))).2) = true := by
  decide

section
variable (rest : Bytes)

/-- A two-byte sequence that is not overlong is a character. -/
theorem utf8Step_two (i : Fin 32) (j : Fin 64) (hi : 2 ≤ i.val) :
    utf8Step (UInt8.ofNat (i + 0xC0)) (UInt8.ofNat (j + 0x80) :: rest) =
      (some (Char.ofNat (i * 64 + j)), rest) := by
  obtain ⟨h1, h2, hb⟩ := two_byte i hi
  obtain ⟨hc, hj⟩ := cont_byte j
  simp only [utf8Step, if_neg h1, if_pos h2, if_pos hc, hb, hj]

/-- A three-byte sequence that is neither overlong nor a surrogate is a character. -/
theorem utf8Step_three (i : Fin 16) (j k : Fin 64) (h0 : i.val = 0 → 32 ≤ j.val)
    (h13 : i.val = 13 → j.val < 32) :
    utf8Step (UInt8.ofNat (i + 0xE0))
        (UInt8.ofNat (j + 0x80) :: UInt8.ofNat (k + 0x80) :: rest) =
      (some (Char.ofNat ((i * 64 + j) * 64 + k)), rest) := by
  obtain ⟨h1, h2, h3, hb⟩ := three_byte i
  obtain ⟨-, hj⟩ := cont_byte j
  obtain ⟨hk, hk'⟩ := cont_byte k
  simp only [utf8Step, if_neg h1, h2, h3, three_second i j h0 h13, hk, hb, hj, hk', Bool.not_true,
    Bool.false_eq_true, if_true, if_false]

/-- A four-byte sequence that is neither overlong nor past the last character is a character. -/
theorem utf8Step_four (i : Fin 5) (j k l : Fin 64) (h0 : i.val = 0 → 16 ≤ j.val)
    (h4 : i.val = 4 → j.val < 16) :
    utf8Step (UInt8.ofNat (i + 0xF0))
        (UInt8.ofNat (j + 0x80) :: UInt8.ofNat (k + 0x80) :: UInt8.ofNat (l + 0x80) :: rest) =
      (some (Char.ofNat (((i * 64 + j) * 64 + k) * 64 + l)), rest) := by
  obtain ⟨h1, h2, h3, h5, hb⟩ := four_byte i
  obtain ⟨-, hj⟩ := cont_byte j
  obtain ⟨hk, hk'⟩ := cont_byte k
  obtain ⟨hl, hl'⟩ := cont_byte l
  simp only [utf8Step, if_neg h1, h2, h3, h5, four_second i j h0 h4, hk, hl, hb, hj, hk', hl',
    Bool.not_true, Bool.false_eq_true, if_true, if_false]

/-- The first sequence of an encoding is its first character. -/
theorem utf8Step_encode (c : Char) :
    ∃ b bs, String.utf8EncodeChar c = b :: bs ∧ utf8Step b (bs ++ rest) = (some c, rest) := by
  have hc : Char.ofNat c.val.toNat = c := Char.ofNat_toNat c
  have hv : c.val.toNat < 0xD800 ∨ 0xDFFF < c.val.toNat ∧ c.val.toNat < 0x110000 := c.valid
  unfold String.utf8EncodeChar
  generalize c.val.toNat = v at hc hv
  simp only
  split
  · next h =>
    refine ⟨_, _, rfl, ?_⟩
    have hb : UInt8.ofNat v < 0x80 := by
      rw [UInt8.lt_iff_toNat_lt, UInt8.toNat_ofNat']
      exact Nat.lt_of_le_of_lt (Nat.mod_le _ _) (Nat.lt_succ_of_le h)
    have hn : (UInt8.ofNat v).toNat = v := by
      rw [UInt8.toNat_ofNat', Nat.mod_eq_of_lt (by omega)]
    simp only [utf8Step, if_pos hb, hn, hc, List.nil_append]
  · split
    · next h1 h2 =>
      refine ⟨_, _, rfl, ?_⟩
      have hstep := utf8Step_two rest ⟨v / 64 % 0x20, by omega⟩ ⟨v % 0x40, by omega⟩ (by
        simp only; omega)
      have he : v / 64 % 0x20 * 64 + v % 0x40 = v := by omega
      simpa only [he, hc, List.cons_append, List.nil_append] using hstep
    · split
      · next h1 h2 h3 =>
        refine ⟨_, _, rfl, ?_⟩
        have hstep := utf8Step_three rest ⟨v / 4096 % 0x10, by omega⟩ ⟨v / 64 % 0x40, by omega⟩
          ⟨v % 0x40, by omega⟩ (by simp only; omega) (by simp only; omega)
        have he : (v / 4096 % 0x10 * 64 + v / 64 % 0x40) * 64 + v % 0x40 = v := by omega
        simpa only [he, hc, List.cons_append, List.nil_append] using hstep
      · next h1 h2 h3 =>
        refine ⟨_, _, rfl, ?_⟩
        have hi : v / 262144 % 0x08 < 5 := by omega
        have hstep := utf8Step_four rest ⟨v / 262144 % 0x08, hi⟩ ⟨v / 4096 % 0x40, by omega⟩
          ⟨v / 64 % 0x40, by omega⟩ ⟨v % 0x40, by omega⟩ (by simp only; omega) (by simp only; omega)
        have he : ((v / 262144 % 0x08 * 64 + v / 4096 % 0x40) * 64 + v / 64 % 0x40) * 64 +
            v % 0x40 = v := by omega
        simpa only [he, hc, List.cons_append, List.nil_append] using hstep

end

/-! ## The lossy decoding -/

/-- The lossy decoding of an encoding is what was encoded. -/
theorem lossyChars_encode :
    ∀ {cs : List Char} {fuel : Nat}, (cs.flatMap String.utf8EncodeChar).length ≤ fuel →
      lossyChars fuel (cs.flatMap String.utf8EncodeChar) = cs
  | [], fuel, _ => by cases fuel <;> rfl
  | c :: cs, fuel, h => by
    obtain ⟨b, bs, he, hstep⟩ := utf8Step_encode (cs.flatMap String.utf8EncodeChar) c
    rw [List.flatMap_cons, he] at h ⊢
    cases fuel with
    | zero => exact absurd h (by simp)
    | succ fuel =>
      have hfuel : (cs.flatMap String.utf8EncodeChar).length ≤ fuel := by
        simp only [List.cons_append, List.length_cons, List.length_append] at h
        omega
      rw [List.cons_append, lossyChars, hstep, lossyChars_encode hfuel]
      rfl

/-- The lossy decoding of valid data loses nothing. -/
theorem fromUtf8Lossy_of_fromUtf8 {data : Bytes} {text : String}
    (h : fromUtf8 data = some text) : fromUtf8Lossy data = text := by
  have hd : data = text.toList.flatMap String.utf8EncodeChar := by
    rw [← intoBytes_ofList, String.ofList_toList, fromUtf8_eq_some.1 h]
  unfold fromUtf8Lossy
  rw [hd, lossyChars_encode (Nat.le_refl _), String.ofList_toList]

theorem fromUtf8Lossy_intoBytes (text : String) : fromUtf8Lossy (intoBytes text) = text :=
  fromUtf8Lossy_of_fromUtf8 (fromUtf8_eq_some.2 rfl)

theorem intoBytes_append (a b : String) : intoBytes (a ++ b) = intoBytes a ++ intoBytes b := by
  rw [← String.ofList_toList (s := a), ← String.ofList_toList (s := b), ← String.ofList_append,
    intoBytes_ofList, intoBytes_ofList, intoBytes_ofList, List.flatMap_append]

end WebrtcDatachannels
