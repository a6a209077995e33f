import Mathlib.Data.List.Basic
import Mathlib.Data.List.TakeDrop
import TableLexer.Json.Reader
import TableLexer.Json.Writer
import TableLexer.Proofs.Utf8

/-!
# JSON reads what it writes

A written value is read back whatever follows it, as long as a number is not followed by what would
go on with it. Strings are read in pieces, and the pieces that a character is written as spell that
character again; numbers are written without a sign, a fraction or a superfluous zero. Both layouts
differ in white space only, which the reader leaves out.
-/

namespace TableLexer.Json

open Text.Utf8

/-! ## Strings -/

/-- The front of a string's content is read as the units, which spell the bytes. -/
structure Spells (front : List UInt8) (units : List StringUnit) (bytes : List UInt8) : Prop where
  read : ∀ {rest last : List UInt8} {more : List StringUnit},
    readUnits rest = some (more, last) → readUnits (front ++ rest) = some (units ++ more, last)
  spell : ∀ {more : List StringUnit} {others : List UInt8},
    unitBytes? more = some others → unitBytes? (units ++ more) = some (bytes ++ others)

namespace Spells

variable {front front' spelt spelt' : List UInt8} {units units' : List StringUnit}

theorem nil : Spells [] [] [] := ⟨fun h => h, fun h => h⟩

theorem append (first : Spells front units spelt) (second : Spells front' units' spelt') :
    Spells (front ++ front') (units ++ units') (spelt ++ spelt') where
  read h := by
    rw [List.append_assoc, List.append_assoc]
    exact first.read (second.read h)
  spell h := by
    rw [List.append_assoc, List.append_assoc]
    exact first.spell (second.spell h)

/-- A byte as it stands. -/
theorem byte {b : UInt8} (quote : b ≠ 0x22) (shown : ¬ b < 0x20) (backslash : b ≠ 0x5C) :
    Spells [b] [.byte b] [b] where
  read h := by
    rw [List.singleton_append, readUnits.eq_def]
    simp only [if_neg quote, if_neg shown, if_neg backslash, h]
    rfl
  spell h := by
    rw [List.singleton_append, unitBytes?, h]
    rfl

theorem bytes {bs : List UInt8} (plain : ∀ b ∈ bs, b ≠ 0x22 ∧ ¬ b < 0x20 ∧ b ≠ 0x5C) :
    Spells bs (bs.map .byte) bs := by
  induction bs with
  | nil => exact .nil
  | cons b bs ih =>
      obtain ⟨quote, shown, backslash⟩ := plain b List.mem_cons_self
      have others := ih fun d mem => plain d (List.mem_cons_of_mem b mem)
      exact (byte quote shown backslash).append others

/-- A byte that is escaped by a letter. -/
theorem letter {l c : UInt8} (unit : l ≠ 0x75) (stands : escapedByte? l = some c) :
    Spells [0x5C, l] [.byte c] [c] where
  read {rest last more} h := by
    show readUnits (0x5C :: l :: rest) = _
    rw [readUnits.eq_def]
    simp only [if_neg unit, stands, h]
    rfl
  spell h := by
    rw [List.singleton_append, unitBytes?, h]
    rfl

/-- A code unit that is escaped by its number. -/
theorem unit {h₁ h₂ h₃ h₄ : UInt8} {n₁ n₂ n₃ n₄ : Nat} {c : Char} (first : hexValue? h₁ = some n₁)
    (second : hexValue? h₂ = some n₂) (third : hexValue? h₃ = some n₃)
    (fourth : hexValue? h₄ = some n₄) (code : ((n₁ * 16 + n₂) * 16 + n₃) * 16 + n₄ = c.toNat)
    (low : c.toNat < 0xD800) :
    Spells [0x5C, 0x75, h₁, h₂, h₃, h₄] [.unit c.toNat] (encodeChar c) where
  read {rest last more} h := by
    show readUnits (0x5C :: 0x75 :: h₁ :: h₂ :: h₃ :: h₄ :: rest) = _
    rw [readUnits.eq_def]
    simp only [first, second, third, fourth, h, ← code]
    rfl
  spell h := by
    have scalar : (decide (c.toNat < 0xD800) || decide (0xDFFF < c.toNat)) = true := by simp [low]
    rw [List.singleton_append, unitBytes?.eq_def]
    simp only [if_pos scalar, h, Char.ofNat_toNat]
    rfl

end Spells

/-- A digit in base sixteen is one byte, from which its value is read. -/
theorem exists_encodeChar_hexDigit {n : Nat} (small : n < 16) :
    ∃ b, encodeChar (hexDigit n) = [b] ∧ hexValue? b = some n := by
  have byte : ∀ n < 16, (hexDigit n).toNat < 128 := by decide
  have value : ∀ n < 16, hexValue? (UInt8.ofNat (hexDigit n).toNat) = some n := by decide
  exact ⟨_, encodeChar_of_toNat_lt (byte n small), value n small⟩

theorem spells_control {c : Char} (control : c.toNat < 32) :
    Spells
      (encode ['\\', 'u', '0', '0', hexDigit (c.toNat / 16), hexDigit (c.toNat % 16)])
      [.unit c.toNat] (encodeChar c) := by
  obtain ⟨high, highByte, highValue⟩ :=
    exists_encodeChar_hexDigit (show c.toNat / 16 < 16 by omega)
  obtain ⟨low, lowByte, lowValue⟩ := exists_encodeChar_hexDigit (Nat.mod_lt c.toNat (by decide))
  have zero : hexValue? 0x30 = some 0 := rfl
  have code : ((0 * 16 + 0) * 16 + c.toNat / 16) * 16 + c.toNat % 16 = c.toNat := by omega
  simp only [encode_cons, highByte, lowByte, encode_nil]
  exact .unit zero zero highValue lowValue code (by omega)

theorem spells_plain {c : Char} (quote : c ≠ '\x22') (backslash : c ≠ '\\')
    (shown : ¬ c.toNat < 32) :
    Spells (encodeChar c) ((encodeChar c).map .byte) (encodeChar c) := by
  have code : ∀ {d : Char}, c ≠ d → c.toNat ≠ d.toNat := fun apart same =>
    apart (Char.toNat_inj.mp same)
  have noQuote : c.toNat ≠ 34 := code quote
  have noBackslash : c.toNat ≠ 92 := code backslash
  apply Spells.bytes
  intro b mem
  have bound : b.toNat ≠ 34 ∧ ¬ b.toNat < 32 ∧ b.toNat ≠ 92 := by
    by_cases low : c.toNat < 128
    · rw [encodeChar_of_toNat_lt low, List.mem_singleton] at mem
      rw [mem, UInt8.toNat_ofNat']
      omega
    · have high := le_of_mem_encodeChar (Nat.not_lt.mp low) mem
      omega
  refine ⟨?_, fun low => bound.2.1 (UInt8.lt_iff_toNat_lt.mp low), ?_⟩
  · rintro rfl
    exact bound.1 rfl
  · rintro rfl
    exact bound.2.2 rfl

/-- Every character is written as pieces that spell it. -/
theorem exists_spells_escapeChar (c : Char) :
    ∃ units, Spells (encode (escapeChar c)) units (encodeChar c) := by
  have letter : ∀ {l d : UInt8}, l ≠ 0x75 → escapedByte? l = some d →
      ∃ units, Spells [0x5C, l] units [d] := fun unit stands => ⟨_, Spells.letter unit stands⟩
  rw [escapeChar]
  split
  · next same =>
      subst same
      exact letter (l := 0x22) (by decide) rfl
  split
  · next same =>
      subst same
      exact letter (l := 0x5C) (by decide) rfl
  split
  · next same =>
      subst same
      exact letter (l := 0x62) (by decide) rfl
  split
  · next same =>
      subst same
      exact letter (l := 0x66) (by decide) rfl
  split
  · next same =>
      subst same
      exact letter (l := 0x6E) (by decide) rfl
  split
  · next same =>
      subst same
      exact letter (l := 0x72) (by decide) rfl
  split
  · next same =>
      subst same
      exact letter (l := 0x74) (by decide) rfl
  split
  · next control => exact ⟨_, spells_control control⟩
  · next quote backslash _ _ _ _ _ shown =>
      rw [encode_cons, encode_nil, List.append_nil]
      exact ⟨_, spells_plain quote backslash shown⟩

theorem exists_spells_flatMap (cs : List Char) :
    ∃ units, Spells (encode (cs.flatMap escapeChar)) units (encode cs) := by
  induction cs with
  | nil => exact ⟨[], .nil⟩
  | cons c cs ih =>
      obtain ⟨first, spellsFirst⟩ := exists_spells_escapeChar c
      obtain ⟨others, spellsOthers⟩ := ih
      rw [List.flatMap_cons, encode_append, encode_cons]
      exact ⟨first ++ others, spellsFirst.append spellsOthers⟩

/-- The bytes of a written text behind its opening quote. -/
def stringTail (text : String) : List UInt8 := encode (text.toList.flatMap escapeChar) ++ [0x22]

theorem encode_writeString (text : String) :
    encode (writeString text) = 0x22 :: stringTail text := by
  rw [writeString, List.cons_append, encode_cons, encode_append]
  rfl

/-- A written text is read back up to its closing quote. -/
theorem readUnits_stringTail (text : String) (rest : List UInt8) :
    ∃ units, readUnits (stringTail text ++ rest) = some (units, rest) ∧
      unitText? units = some text := by
  obtain ⟨units, spells⟩ := exists_spells_flatMap text.toList
  have close : readUnits (0x22 :: rest) = some ([], rest) := by
    rw [readUnits.eq_def]
    rfl
  have read := spells.read close
  have spelt := spells.spell (show unitBytes? [] = some [] from rfl)
  rw [List.append_nil] at read
  rw [List.append_nil, List.append_nil] at spelt
  refine ⟨units, ?_, ?_⟩
  · rw [stringTail, List.append_assoc]
    exact read
  · rw [unitText?, spelt, Option.bind_some, decode?_encode, String.ofList_toList]

/-! ## Numbers -/

/-- Digits that spell a number without a superfluous zero. -/
structure Spelling (digits : List UInt8) (n : Nat) : Prop where
  digit : ∀ b ∈ digits, isDigit b = true
  value : decimal digits = n
  ne_nil : digits ≠ []
  lead : digits.head? = some 0x30 → digits.length = 1

theorem ne_of_isDigit {b d : UInt8} (digit : isDigit b = true) (other : isDigit d = false) :
    b ≠ d := by
  rintro rfl
  rw [digit] at other
  cases other

/-- A spelling begins with a digit. -/
theorem Spelling.exists_cons {digits : List UInt8} {n : Nat} (spells : Spelling digits n) :
    ∃ b more, digits = b :: more ∧ isDigit b = true := by
  obtain ⟨b, more, rfl⟩ := List.exists_cons_of_ne_nil spells.ne_nil
  exact ⟨b, more, rfl, spells.digit b List.mem_cons_self⟩

/-- One digit, by its number. -/
theorem spelling_digitChar {n : Nat} (small : n < 10) :
    ∃ b, encodeChar n.digitChar = [b] ∧ isDigit b = true ∧ b.toNat - 0x30 = n ∧
      (b = 0x30 → n = 0) := by
  have ascii : ∀ n < 10, n.digitChar.toNat < 128 := by decide
  have digit : ∀ n < 10, isDigit (UInt8.ofNat n.digitChar.toNat) = true ∧
      (UInt8.ofNat n.digitChar.toNat).toNat - 0x30 = n ∧
      (UInt8.ofNat n.digitChar.toNat = 0x30 → n = 0) := by decide
  exact ⟨_, encodeChar_of_toNat_lt (ascii n small), digit n small⟩

theorem decimal_concat (digits : List UInt8) (b : UInt8) :
    decimal (digits ++ [b]) = 10 * decimal digits + (b.toNat - 0x30) := by
  simp [decimal]

/-- A number is written with its digits, and a zero leads only when it stands alone. -/
theorem spelling_toDigits (n : Nat) : Spelling (encode (Nat.toDigits 10 n)) n ∧
    ((encode (Nat.toDigits 10 n)).head? = some 0x30 → n = 0) := by
  induction n using Nat.strongRecOn with
  | ind n ih =>
      by_cases small : n < 10
      · obtain ⟨b, byte, digit, value, zero⟩ := spelling_digitChar small
        rw [Nat.toDigits_of_lt_base small, encode_cons, encode_nil, List.append_nil, byte]
        refine ⟨⟨?_, ?_, List.cons_ne_nil b [], fun _ => rfl⟩, ?_⟩
        · intro d mem
          exact List.mem_singleton.mp mem ▸ digit
        · rw [← value]
          simp [decimal]
        · intro lead
          exact zero (Option.some.inj lead)
      · have large : 10 ≤ n := Nat.not_lt.mp small
        obtain ⟨b, byte, digit, value, -⟩ := spelling_digitChar (Nat.mod_lt n (by decide : 10 > 0))
        obtain ⟨front, positive⟩ := ih (n / 10) (by omega)
        have noZero : (encode (Nat.toDigits 10 (n / 10))).head? ≠ some 0x30 := fun lead => by
          have := positive lead
          omega
        have head : (encode (Nat.toDigits 10 (n / 10)) ++ [b]).head? =
            (encode (Nat.toDigits 10 (n / 10))).head? :=
          List.head?_append_of_ne_nil _ front.ne_nil
        rw [Nat.toDigits_of_base_le (by decide) large, encode_append, encode_cons, encode_nil,
          List.append_nil, byte]
        refine ⟨⟨?_, ?_, ?_, ?_⟩, ?_⟩
        · intro d mem
          obtain old | new := List.mem_append.mp mem
          · exact front.digit d old
          · exact List.mem_singleton.mp new ▸ digit
        · rw [decimal_concat, front.value, value]
          omega
        · exact List.append_ne_nil_of_right_ne_nil _ (List.cons_ne_nil b [])
        · intro lead
          exact absurd (head ▸ lead) noZero
        · intro lead
          exact absurd (head ▸ lead) noZero

/-- What follows does not go on with a number. -/
def EndsNumber (rest : List UInt8) : Prop :=
  ∀ b ∈ rest.head?, isDigit b = false ∧ continuesNumber [b] = false

theorem readWhole_append {digits rest : List UInt8} {n : Nat} (spells : Spelling digits n)
    (ends : EndsNumber rest) : readWhole (digits ++ rest) = some (digits, rest) := by
  have front : (digits ++ rest).span isDigit = (digits, rest) := by
    rw [List.span_eq_takeWhile_dropWhile, List.takeWhile_append_of_pos spells.digit,
      List.dropWhile_append_of_pos spells.digit]
    cases rest with
    | nil => simp
    | cons b rest =>
        have stop := (ends b rfl).1
        simp [stop]
  have read : readDigits (digits ++ rest) = some (digits, rest) := by
    rw [readDigits, front]
    split
    · next none =>
        cases none
        exact absurd rfl spells.ne_nil
    · next some => cases some; rfl
  have short : ¬ (digits.head? = some 0x30 ∧ 1 < digits.length) := by
    rintro ⟨lead, long⟩
    have := spells.lead lead
    omega
  rw [readWhole, read, Option.bind_eq_bind, Option.bind_some]
  exact if_neg (by simpa using short)

theorem EndsNumber.not_continues {rest : List UInt8} (ends : EndsNumber rest) :
    continuesNumber rest = false := by
  cases rest with
  | nil => rfl
  | cons b rest => exact (ends b rfl).2

/-- A written number is read back. -/
theorem readNumber_append {digits rest : List UInt8} {n : Nat} (spells : Spelling digits n)
    (ends : EndsNumber rest) : readNumber (digits ++ rest) = some (number n, rest) := by
  obtain ⟨b, more, rfl, digit⟩ := spells.exists_cons
  have whole := readWhole_append spells ends
  rw [List.cons_append] at whole ⊢
  rw [readNumber, if_neg (ne_of_isDigit digit rfl), whole, Option.bind_eq_bind, Option.bind_some]
  simp only [ends.not_continues, spells.value]
  rfl

/-! ## White space -/

section Gaps

variable {gap rest : List UInt8} {b : UInt8}

theorem skipSpace_append (blank : ∀ d ∈ gap, isSpace d = true) :
    skipSpace (gap ++ rest) = skipSpace rest := List.dropWhile_append_of_pos blank

theorem skipSpace_cons (solid : isSpace b = false) : skipSpace (b :: rest) = b :: rest := by
  rw [skipSpace, List.dropWhile_cons_of_neg (by simp [solid])]

theorem skipSpace_gap (blank : ∀ d ∈ gap, isSpace d = true) (solid : isSpace b = false) :
    skipSpace (gap ++ b :: rest) = b :: rest :=
  (skipSpace_append blank).trans (skipSpace_cons solid)

theorem blank_newLine (layout : Option Nat) : ∀ d ∈ encode (newLine layout), isSpace d = true := by
  cases layout with
  | none => exact fun d mem => absurd mem List.not_mem_nil
  | some depth =>
      intro d mem
      have low : ∀ c ∈ newLine (some depth), c.toNat < 128 ∧
          isSpace (UInt8.ofNat c.toNat) = true := by
        intro c mem
        obtain rfl | space := List.mem_cons.mp mem
        · decide
        · rw [List.eq_of_mem_replicate space]
          decide
      rw [encode_of_toNat_lt fun c mem => (low c mem).1] at mem
      obtain ⟨c, listed, rfl⟩ := List.mem_map.mp mem
      exact (low c listed).2

theorem blank_colonSpace (layout : Option Nat) :
    ∀ d ∈ encode (colonSpace layout), isSpace d = true := by
  cases layout with
  | none => exact fun d mem => absurd mem List.not_mem_nil
  | some depth =>
      show ∀ d ∈ [(0x20 : UInt8)], _
      intro d mem
      rw [List.mem_singleton.mp mem]
      rfl

/-- White space does not go on with a number. -/
theorem endsNumber_of_isSpace (space : isSpace b = true) :
    isDigit b = false ∧ continuesNumber [b] = false := by
  simp only [isSpace, Bool.or_eq_true, decide_eq_true_eq] at space
  obtain ((rfl | rfl) | rfl) | rfl := space <;> decide

theorem isSpace_of_isDigit (digit : isDigit b = true) : isSpace b = false := by
  rw [Bool.eq_false_iff]
  intro space
  rw [(endsNumber_of_isSpace space).1] at digit
  cases digit

theorem endsNumber_gap (blank : ∀ d ∈ gap, isSpace d = true) (digit : isDigit b = false)
    (goesOn : continuesNumber [b] = false) : EndsNumber (gap ++ b :: rest) := by
  cases gap with
  | nil =>
      rintro d ⟨⟩
      exact ⟨digit, goesOn⟩
  | cons g gap =>
      rintro d ⟨⟩
      exact endsNumber_of_isSpace (blank g List.mem_cons_self)

theorem readValue_gap (blank : ∀ d ∈ gap, isSpace d = true) (fuel : Nat) :
    readValue fuel (gap ++ rest) = readValue fuel rest := by
  cases fuel with
  | zero => rfl
  | succ fuel => rw [readValue, readValue, skipSpace_append blank]

theorem readItems_gap (blank : ∀ d ∈ gap, isSpace d = true) (fuel : Nat) :
    readItems fuel (gap ++ rest) = readItems fuel rest := by
  cases fuel with
  | zero => rfl
  | succ fuel => rw [readItems, readItems, readValue_gap blank]

theorem readMembers_gap (blank : ∀ d ∈ gap, isSpace d = true) (fuel : Nat) :
    readMembers fuel (gap ++ rest) = readMembers fuel rest := by
  cases fuel with
  | zero => rfl
  | succ fuel => rw [readMembers, readMembers, skipSpace_append blank]

end Gaps

/-! ## Values -/

/-- A value of which every part can be written. -/
inductive Usable : Json → Prop where
  | null : Usable null
  | bool (value : Bool) : Usable (bool value)
  | number (value : Nat) : Usable (number value)
  | string (text : String) : Usable (string text)
  | array {items : List Json} (each : ∀ v ∈ items, Usable v) : Usable (array items)
  | object {members : List (String × Json)} (each : ∀ m ∈ members, Usable m.2) :
      Usable (object members)

/-- With steps enough for its length, the written value is read back and leaves what follows. -/
def ReadsBack (v : Json) : Prop :=
  ∀ {layout : Option Nat} {fuel : Nat} {rest : List UInt8},
    2 * (encode (v.write layout)).length ≤ fuel → EndsNumber rest →
      readValue fuel (encode (v.write layout) ++ rest) = some (v, rest)

/-- No value begins with white space or a closing bracket. -/
theorem exists_encode_write (v : Json) (layout : Option Nat) :
    ∃ b more, encode (v.write layout) = b :: more ∧ isSpace b = false ∧ b ≠ 0x5D := by
  match v with
  | null | unusable => exact ⟨0x6E, _, rfl, by decide, by decide⟩
  | bool true => exact ⟨0x74, _, rfl, by decide, by decide⟩
  | bool false => exact ⟨0x66, _, rfl, by decide, by decide⟩
  | string text =>
      exact ⟨0x22, _, by rw [write, encode_writeString], by decide, by decide⟩
  | array [] | array (_ :: _) =>
      simp only [write, List.cons_append, encode_cons]
      exact ⟨0x5B, _, rfl, by decide, by decide⟩
  | object [] | object (_ :: _) =>
      simp only [write, List.cons_append, encode_cons]
      exact ⟨0x7B, _, rfl, by decide, by decide⟩
  | number n =>
      obtain ⟨spells, -⟩ := spelling_toDigits n
      obtain ⟨b, more, form, digit⟩ := spells.exists_cons
      exact ⟨b, more, by rw [write, form], isSpace_of_isDigit digit, ne_of_isDigit digit rfl⟩

theorem readValue_number (n fuel : Nat) {rest : List UInt8} (ends : EndsNumber rest) :
    readValue (fuel + 1) (encode (Nat.toDigits 10 n) ++ rest) = some (number n, rest) := by
  obtain ⟨spells, -⟩ := spelling_toDigits n
  have read := readNumber_append spells ends
  obtain ⟨b, more, form, digit⟩ := spells.exists_cons
  have other : ∀ {d : UInt8}, isDigit d = false → b ≠ d := ne_of_isDigit digit
  rw [form, List.cons_append] at read ⊢
  rw [readValue, skipSpace_cons (isSpace_of_isDigit digit)]
  simp only [if_neg (other (d := 0x7B) rfl), if_neg (other (d := 0x5B) rfl),
    if_neg (other (d := 0x22) rfl), if_neg (other (d := 0x6E) rfl),
    if_neg (other (d := 0x74) rfl), if_neg (other (d := 0x66) rfl), read]

theorem readValue_string (text : String) (fuel : Nat) (rest : List UInt8) :
    readValue (fuel + 1) (encode (writeString text) ++ rest) = some (string text, rest) := by
  obtain ⟨units, read, spelt⟩ := readUnits_stringTail text rest
  rw [encode_writeString, List.cons_append, readValue, skipSpace_cons (by decide)]
  simp only [read, Option.map_some, spelt]
  rfl

section Items

variable {v : Json} {vs : List Json} {layout : Option Nat} {fuel : Nat} {gap rest last : List UInt8}

/-- The last item is followed by the closing bracket. -/
theorem readItems_last (back : ReadsBack v) (enough : 2 * (encode (v.write layout)).length ≤ fuel)
    (blank : ∀ d ∈ gap, isSpace d = true) :
    readItems (fuel + 1) (encode (v.write layout) ++ (gap ++ 0x5D :: rest)) = some ([v], rest) := by
  rw [readItems, back enough (endsNumber_gap blank rfl rfl), Option.bind_eq_bind, Option.bind_some]
  simp only [skipSpace_gap blank (show isSpace 0x5D = false from rfl)]
  rfl

/-- Any other item is followed by a comma. -/
theorem readItems_more (back : ReadsBack v) (enough : 2 * (encode (v.write layout)).length ≤ fuel)
    (others : readItems fuel rest = some (vs, last)) :
    readItems (fuel + 1) (encode (v.write layout) ++ 0x2C :: rest) = some (v :: vs, last) := by
  have ends : EndsNumber (0x2C :: rest) := by
    rintro d ⟨⟩
    decide
  rw [readItems, back enough ends, Option.bind_eq_bind, Option.bind_some]
  simp only [skipSpace_cons (show isSpace 0x2C = false from rfl), others]
  rfl

/-- Written items are read back up to the closing bracket. -/
theorem readItems_write (rest : List UInt8) (each : ∀ w ∈ v :: vs, ReadsBack w)
    (blank : ∀ d ∈ gap, isSpace d = true)
    (enough : 2 * (encode (v.write layout ++ writeItems layout vs)).length < fuel) :
    readItems fuel (encode (v.write layout ++ writeItems layout vs) ++ (gap ++ 0x5D :: rest)) =
      some (v :: vs, rest) := by
  induction vs generalizing v fuel with
  | nil =>
      obtain ⟨fuel, rfl⟩ : ∃ k, fuel = k + 1 := ⟨fuel - 1, by omega⟩
      rw [writeItems, List.append_nil] at enough ⊢
      exact readItems_last (each v List.mem_cons_self) (by omega) blank
  | cons w ws ih =>
      obtain ⟨fuel, rfl⟩ : ∃ k, fuel = k + 1 := ⟨fuel - 1, by omega⟩
      have comma : encodeChar ',' = [0x2C] := rfl
      simp only [writeItems, encode_append, encode_cons, comma, List.cons_append, List.nil_append,
        List.append_assoc, List.length_append, List.length_cons] at enough ih ⊢
      apply readItems_more (each v List.mem_cons_self) (by omega)
      rw [readItems_gap (blank_newLine layout)]
      exact ih (fun x mem => each x (List.mem_cons_of_mem v mem)) (by omega)

end Items

section Members

variable {name : String} {v : Json} {ms : List (String × Json)} {layout : Option Nat} {fuel : Nat}
  {gap space rest last : List UInt8} {read : List (Option String × Json)}

/-- The last member is followed by the closing bracket. -/
theorem readMembers_last (back : ReadsBack v)
    (enough : 2 * (encode (v.write layout)).length ≤ fuel) (free : ∀ d ∈ space, isSpace d = true)
    (blank : ∀ d ∈ gap, isSpace d = true) :
    readMembers (fuel + 1) (0x22 :: (stringTail name ++
      0x3A :: (space ++ (encode (v.write layout) ++ (gap ++ 0x7D :: rest))))) =
        some ([(some name, v)], rest) := by
  obtain ⟨units, content, spelt⟩ := readUnits_stringTail name
    (0x3A :: (space ++ (encode (v.write layout) ++ (gap ++ 0x7D :: rest))))
  have ends : EndsNumber (gap ++ 0x7D :: rest) := endsNumber_gap blank rfl rfl
  rw [readMembers, skipSpace_cons rfl]
  simp only [if_true, content, skipSpace_cons (show isSpace 0x3A = false from rfl),
    readValue_gap free, back enough ends, skipSpace_gap blank (show isSpace 0x7D = false from rfl),
    spelt, Option.bind_eq_bind, Option.bind_some]
  rfl

/-- Any other member is followed by a comma. -/
theorem readMembers_more (back : ReadsBack v)
    (enough : 2 * (encode (v.write layout)).length ≤ fuel) (free : ∀ d ∈ space, isSpace d = true)
    (others : readMembers fuel rest = some (read, last)) :
    readMembers (fuel + 1) (0x22 :: (stringTail name ++
      0x3A :: (space ++ (encode (v.write layout) ++ 0x2C :: rest)))) =
        some ((some name, v) :: read, last) := by
  obtain ⟨units, content, spelt⟩ := readUnits_stringTail name
    (0x3A :: (space ++ (encode (v.write layout) ++ 0x2C :: rest)))
  have ends : EndsNumber (0x2C :: rest) := by
    rintro d ⟨⟩
    decide
  rw [readMembers, skipSpace_cons rfl]
  simp only [if_true, content, skipSpace_cons (show isSpace 0x3A = false from rfl),
    readValue_gap free, back enough ends, skipSpace_cons (show isSpace 0x2C = false from rfl),
    spelt, others, Option.bind_eq_bind, Option.bind_some]
  rfl

/-- Written members are read back up to the closing bracket. -/
theorem readMembers_write (rest : List UInt8) (each : ∀ m ∈ (name, v) :: ms, ReadsBack m.2)
    (free : ∀ d ∈ space, isSpace d = true) (blank : ∀ d ∈ gap, isSpace d = true)
    (enough : 2 * (encode (v.write layout ++ writeMembers layout ms)).length < fuel) :
    readMembers fuel (0x22 :: (stringTail name ++ 0x3A :: (space ++
      (encode (v.write layout ++ writeMembers layout ms) ++ (gap ++ 0x7D :: rest))))) =
        some (((name, v) :: ms).map fun m => (some m.1, m.2), rest) := by
  induction ms generalizing name v fuel space with
  | nil =>
      obtain ⟨fuel, rfl⟩ : ∃ k, fuel = k + 1 := ⟨fuel - 1, by omega⟩
      rw [writeMembers, List.append_nil] at enough ⊢
      exact readMembers_last (each (name, v) List.mem_cons_self) (by omega) free blank
  | cons m ms ih =>
      obtain ⟨name', w⟩ := m
      obtain ⟨fuel, rfl⟩ : ∃ k, fuel = k + 1 := ⟨fuel - 1, by omega⟩
      have comma : encodeChar ',' = [0x2C] := rfl
      have colon : encodeChar ':' = [0x3A] := rfl
      simp only [writeMembers, encode_append, encode_cons, comma, colon, encode_writeString,
        List.cons_append, List.nil_append, List.append_assoc, List.length_append,
        List.length_cons] at enough ih ⊢
      have back : ReadsBack v := each (name, v) List.mem_cons_self
      apply readMembers_more back (by omega) free
      rw [readMembers_gap (blank_newLine layout)]
      exact ih (fun x mem => each x (List.mem_cons_of_mem _ mem)) (blank_colonSpace layout)
        (by omega)

theorem objectOf_map (ms : List (String × Json)) :
    objectOf (ms.map fun m => (some m.1, m.2)) = object ms := by
  have named : (ms.map fun m => (some m.1, m.2)).mapM
      (fun m : Option String × Json => m.1.map (·, m.2)) = some ms := by
    induction ms with
    | nil => rfl
    | cons m ms ih =>
        rw [List.map_cons, List.mapM_cons, ih]
        rfl
  rw [objectOf, show List.mapM _ (ms.map _) = some ms from named]

end Members

/-! ## All values -/

section Brackets

variable {layout : Option Nat} {fuel : Nat} {rest : List UInt8}

theorem encode_write_array (layout : Option Nat) (v : Json) (vs : List Json) :
    encode ((array (v :: vs)).write layout) =
      0x5B :: (encode (newLine (layout.map (· + 1))) ++
        (encode (v.write (layout.map (· + 1)) ++ writeItems (layout.map (· + 1)) vs) ++
          (encode (newLine layout) ++ [0x5D]))) := by
  simp only [write, List.cons_append, encode_cons, encode_append, encode_nil, List.append_assoc]
  rfl

theorem encode_write_object (layout : Option Nat) (name : String) (v : Json)
    (ms : List (String × Json)) :
    encode ((object ((name, v) :: ms)).write layout) =
      0x7B :: (encode (newLine (layout.map (· + 1))) ++ 0x22 :: (stringTail name ++
        0x3A :: (encode (colonSpace layout) ++
          (encode (v.write (layout.map (· + 1)) ++ writeMembers (layout.map (· + 1)) ms) ++
            (encode (newLine layout) ++ [0x7D]))))) := by
  simp only [write, List.cons_append, encode_cons, encode_append, encode_nil, List.append_assoc,
    encode_writeString]
  rfl

theorem readValue_array {v : Json} {vs : List Json} (each : ∀ w ∈ v :: vs, ReadsBack w)
    (enough : 2 * (encode ((array (v :: vs)).write layout)).length ≤ fuel + 1) :
    readValue (fuel + 1) (encode ((array (v :: vs)).write layout) ++ rest) =
      some (array (v :: vs), rest) := by
  obtain ⟨b, more, form, solid, inside⟩ := exists_encode_write v (layout.map (· + 1))
  rw [encode_write_array] at enough ⊢
  simp only [List.length_cons, List.length_append] at enough
  have read := readItems_write rest each (blank_newLine layout)
    (show 2 * (encode (v.write (layout.map (· + 1)) ++
      writeItems (layout.map (· + 1)) vs)).length < fuel by omega)
  rw [encode_append, form] at read ⊢
  simp only [List.cons_append, List.append_assoc, List.nil_append] at read ⊢
  rw [readValue, skipSpace_cons rfl]
  simp only [skipSpace_gap (blank_newLine _) solid, if_neg inside, read]
  rfl

theorem readValue_object {name : String} {v : Json} {ms : List (String × Json)}
    (each : ∀ m ∈ (name, v) :: ms, ReadsBack m.2)
    (enough : 2 * (encode ((object ((name, v) :: ms)).write layout)).length ≤ fuel + 1) :
    readValue (fuel + 1) (encode ((object ((name, v) :: ms)).write layout) ++ rest) =
      some (object ((name, v) :: ms), rest) := by
  rw [encode_write_object] at enough ⊢
  simp only [List.length_cons, List.length_append] at enough
  have read := readMembers_write rest each (blank_colonSpace layout)
    (blank_newLine layout) (show 2 * (encode (v.write (layout.map (· + 1)) ++
      writeMembers (layout.map (· + 1)) ms)).length < fuel by omega)
  simp only [List.cons_append, List.append_assoc, List.nil_append] at read ⊢
  rw [readValue, skipSpace_cons rfl]
  simp only [if_true, skipSpace_gap (blank_newLine _) (show isSpace 0x22 = false from rfl),
    if_neg (show (0x22 : UInt8) ≠ 0x7D by decide), read, Option.map_some, objectOf_map]

end Brackets

theorem exists_succ_of_enough {v : Json} {layout : Option Nat} {fuel : Nat}
    (enough : 2 * (encode (v.write layout)).length ≤ fuel) : ∃ k, fuel = k + 1 := by
  obtain ⟨b, more, form, -⟩ := exists_encode_write v layout
  rw [form, List.length_cons] at enough
  exact ⟨fuel - 1, by omega⟩

/-- Every value of which every part can be written is read back, in both layouts. -/
theorem Usable.readsBack {v : Json} (usable : Usable v) : ReadsBack v := by
  induction usable with
  | null =>
      intro layout fuel rest enough ends
      obtain ⟨fuel, rfl⟩ := exists_succ_of_enough enough
      rfl
  | bool value =>
      intro layout fuel rest enough ends
      obtain ⟨fuel, rfl⟩ := exists_succ_of_enough enough
      cases value <;> rfl
  | number n =>
      intro layout fuel rest enough ends
      obtain ⟨fuel, rfl⟩ := exists_succ_of_enough enough
      rw [write]
      exact readValue_number n fuel ends
  | string text =>
      intro layout fuel rest enough ends
      obtain ⟨fuel, rfl⟩ := exists_succ_of_enough enough
      rw [write]
      exact readValue_string text fuel rest
  | @array items each ih =>
      intro layout fuel rest enough ends
      obtain ⟨fuel, rfl⟩ := exists_succ_of_enough enough
      cases items with
      | nil => rfl
      | cons v vs => exact readValue_array ih enough
  | @object members each ih =>
      intro layout fuel rest enough ends
      obtain ⟨fuel, rfl⟩ := exists_succ_of_enough enough
      cases members with
      | nil => rfl
      | cons m ms => exact readValue_object ih enough

/-- What is written for a value is a text for it. -/
theorem Usable.read?_write {v : Json} (usable : Usable v) (layout : Option Nat) :
    read? (encode (v.write layout)) = some v := by
  have ends : EndsNumber [] := fun b none => nomatch none
  have read : readValue _ (encode (v.write layout) ++ []) = some (v, []) :=
    usable.readsBack (Nat.le_add_right _ 2) ends
  rw [List.append_nil] at read
  rw [read?, read]
  rfl

end TableLexer.Json
