import TableLexer.Text.Utf8

/-!
# UTF-8 reads what it writes

Every character is written as one sequence whose first byte announces its length and whose payload
is the code point. So what is written for a text is read as that text, and nothing else is.
-/

namespace TableLexer.Text.Utf8

theorem toNat_lt (c : Char) : c.toNat < 0x110000 := by
  have valid := c.valid
  simp only [UInt32.isValidChar, Nat.isValidChar] at valid
  show c.val.toNat < _
  omega

theorem payload_encodeChar (c : Char) : payload (encodeChar c) = c.toNat := by
  have bound := toNat_lt c
  have same : c.val.toNat = c.toNat := rfl
  simp only [encodeChar, String.utf8EncodeChar, same]
  split
  · simp only [payload, UInt8.toNat_ofNat']
    omega
  · split
    · simp only [payload, UInt8.toNat_ofNat']
      omega
    · split <;>
      · simp only [payload, UInt8.toNat_ofNat']
        omega

theorem decodeChar?_encodeChar (c : Char) : decodeChar? (encodeChar c) = some c := by
  rw [decodeChar?, payload_encodeChar, Char.ofNat_toNat]
  exact if_pos rfl

/-- The length that a first byte announces, by its number. -/
theorem sequenceLength?_eq (lead : UInt8) : sequenceLength? lead =
    if lead.toNat ≤ 127 then some 1
    else if 194 ≤ lead.toNat ∧ lead.toNat ≤ 223 then some 2
    else if 224 ≤ lead.toNat ∧ lead.toNat ≤ 239 then some 3
    else if 240 ≤ lead.toNat ∧ lead.toNat ≤ 244 then some 4
    else none := by
  simp only [sequenceLength?, Bool.and_eq_true, decide_eq_true_eq, UInt8.le_iff_toNat_le]
  rfl

/-- The first byte of a character announces how many bytes it is written as. -/
theorem exists_encodeChar (c : Char) : ∃ lead more, encodeChar c = lead :: more ∧
    sequenceLength? lead = some (encodeChar c).length := by
  have bound := toNat_lt c
  have same : c.val.toNat = c.toNat := rfl
  simp only [encodeChar, String.utf8EncodeChar, same]
  split
  · refine ⟨_, _, rfl, ?_⟩
    rw [sequenceLength?_eq, UInt8.toNat_ofNat', if_pos (by omega)]
    rfl
  · split
    · refine ⟨_, _, rfl, ?_⟩
      rw [sequenceLength?_eq, UInt8.toNat_ofNat', if_neg (by omega), if_pos (by omega)]
      rfl
    · split
      · refine ⟨_, _, rfl, ?_⟩
        rw [sequenceLength?_eq, UInt8.toNat_ofNat', if_neg (by omega), if_neg (by omega),
          if_pos (by omega)]
        rfl
      · refine ⟨_, _, rfl, ?_⟩
        rw [sequenceLength?_eq, UInt8.toNat_ofNat', if_neg (by omega), if_neg (by omega),
          if_neg (by omega), if_pos (by omega)]
        rfl

theorem encodeChar_ne_nil (c : Char) : encodeChar c ≠ [] := by
  obtain ⟨lead, more, form, -⟩ := exists_encodeChar c
  rw [form]
  exact List.cons_ne_nil lead more

/-- A character of the lowest range is one byte. -/
theorem encodeChar_of_toNat_lt {c : Char} (low : c.toNat < 128) :
    encodeChar c = [UInt8.ofNat c.toNat] := by
  rw [encodeChar, String.utf8EncodeChar]
  exact if_pos (Nat.le_of_lt_succ low)

theorem encode_of_toNat_lt {cs : List Char} (low : ∀ c ∈ cs, c.toNat < 128) :
    encode cs = cs.map fun c => UInt8.ofNat c.toNat := by
  induction cs with
  | nil => rfl
  | cons c cs ih =>
      rw [encode_cons, encodeChar_of_toNat_lt (low c List.mem_cons_self),
        ih fun d mem => low d (List.mem_cons_of_mem c mem), List.map_cons, List.singleton_append]

/-- The bytes of any other character are none of that range. -/
theorem le_of_mem_encodeChar {c : Char} {b : UInt8} (high : 128 ≤ c.toNat)
    (mem : b ∈ encodeChar c) : 128 ≤ b.toNat := by
  have bound := toNat_lt c
  have same : c.val.toNat = c.toNat := rfl
  simp only [encodeChar, String.utf8EncodeChar, same, if_neg (Nat.not_le.mpr high)] at mem
  split at mem <;> try split at mem
  all_goals
    simp only [List.mem_cons, List.not_mem_nil, or_false] at mem
    rcases mem with rfl | rfl | rfl | rfl <;> rw [UInt8.toNat_ofNat'] <;> omega

/-- A text has at most as many characters as bytes. -/
theorem length_le_length_encode (cs : List Char) : cs.length ≤ (encode cs).length := by
  induction cs with
  | nil => exact Nat.le_refl _
  | cons c cs ih =>
      have first := List.length_pos_iff.mpr (encodeChar_ne_nil c)
      rw [encode_cons, List.length_append, List.length_cons]
      omega

theorem decodeWithin?_encode {fuel : Nat} (cs : List Char) (enough : cs.length ≤ fuel) :
    decodeWithin? fuel (encode cs) = some cs := by
  induction cs generalizing fuel with
  | nil => cases fuel <;> rfl
  | cons c cs ih =>
      obtain ⟨fuel, rfl⟩ : ∃ k, fuel = k + 1 := ⟨fuel - 1, by simp at enough; omega⟩
      obtain ⟨lead, more, form, length⟩ := exists_encodeChar c
      have whole : encode (c :: cs) = lead :: (more ++ encode cs) := by
        rw [encode_cons, form, List.cons_append]
      have back : lead :: (more ++ encode cs) = encodeChar c ++ encode cs := by
        rw [form, List.cons_append]
      rw [whole, decodeWithin?, length, back]
      simp only [Option.bind_eq_bind, Option.bind_some, List.take_left, List.drop_left,
        decodeChar?_encodeChar, ih (Nat.le_of_succ_le_succ enough)]
      rfl

/-- What is written for a text is read as that text. -/
theorem decode?_encode (cs : List Char) : decode? (encode cs) = some (String.ofList cs) := by
  rw [decode?, decodeWithin?_encode cs (length_le_length_encode cs), Option.map_some]

@[simp] theorem decode?_ofString (text : String) : decode? (ofString text) = some text := by
  rw [ofString, decode?_encode, String.ofList_toList]

/-- Nothing is read as characters but what is written for them. -/
theorem encode_of_decodeWithin? {fuel : Nat} {bytes : List UInt8} {cs : List Char}
    (read : decodeWithin? fuel bytes = some cs) : encode cs = bytes := by
  induction fuel generalizing bytes cs with
  | zero =>
      cases bytes with
      | nil => cases read; rfl
      | cons lead rest => cases read
  | succ fuel ih =>
      cases bytes with
      | nil => cases read; rfl
      | cons lead rest =>
          simp only [decodeWithin?, Option.bind_eq_bind, Option.bind_eq_some_iff] at read
          obtain ⟨n, -, c, first, others, later, whole⟩ := read
          cases whole
          rw [encode_cons, encodeChar_of_decodeChar? first, ih later, List.take_append_drop]

theorem ofString_of_decode? {bytes : List UInt8} {text : String}
    (read : decode? bytes = some text) : ofString text = bytes := by
  obtain ⟨cs, chars, rfl⟩ := Option.map_eq_some_iff.mp read
  rw [ofString, String.toList_ofList, encode_of_decodeWithin? chars]

end TableLexer.Text.Utf8
