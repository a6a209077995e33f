import TableLexer.Alphabet

/-!
# Columns of an alphabet

An alphabet grows by registrations. Whatever their order, the columns it hands out stay inside the
table and no character is ever given the column of the end of the stream.

Where case counts, more is true: a column past the reserved ones belongs to one character only,
and a character's column separates words exactly if the character was registered as a separator.
Promoting a separator to a column of its own therefore never changes which characters separate
words.
-/

namespace TableLexer

/-- One call that registers characters. -/
inductive Registration where
  | char (c : Char) (ignoreCase : Bool)
  | chars (cs : List Char) (ignoreCase : Bool)
  | separator (c : Char)

namespace Alphabet

/-- An alphabet after one more registration. -/
def enroll (a : Alphabet) : Registration → Alphabet
  | .char c ignoreCase => a.register c ignoreCase
  | .chars cs ignoreCase => a.registerAll cs ignoreCase
  | .separator c => a.registerSeparator c

/-- The alphabet that a sequence of registrations makes. -/
def ofRegistrations (calls : List Registration) : Alphabet := calls.foldl enroll empty

variable {a : Alphabet}

theorem isSeparator_mark {s x : Symbol} :
    (a.mark s).isSeparator x = true ↔ x = s ∨ a.isSeparator x = true := by
  simp only [isSeparator, mark, Std.ExtTreeSet.contains_insert, Bool.or_eq_true, beq_iff_eq,
    Std.LawfulEqCmp.compare_eq_iff_eq]
  exact or_congr_left eq_comm

@[simp] theorem symbols_mark (s : Symbol) : (a.mark s).symbols = a.symbols := rfl

@[simp] theorem symbolOf_mark (s : Symbol) (c : Option Char) :
    (a.mark s).symbolOf c = a.symbolOf c := by
  cases c <;> rfl

@[simp] theorem isSeparator_allot (c : Char) (ignoreCase : Bool) (s : Symbol) :
    (a.allot c ignoreCase).isSeparator s = a.isSeparator s := rfl

theorem symbolOf_of_getElem? {c : Char} {s : Symbol} (h : a.symbols[c]? = some s) :
    a.symbolOf (some c) = s := by
  simp [symbolOf, h]

/-- Only a character with a column of its own, or in the shared one, has a symbol past the
wildcard. -/
theorem getElem?_of_symbolOf {c : Char} {s : Symbol} (same : a.symbolOf (some c) = s)
    (low : Symbol.separator ≤ s) : a.symbols[c]? = some s := by
  cases found : a.symbols[c]? with
  | none =>
      rw [symbolOf, found] at same
      rw [← same] at low
      exact absurd low (by decide)
  | some x => rw [← same, symbolOf_of_getElem? found]

/-- A symbol in the map after cells were filled in where none was: it was there, or it is new. -/
theorem getElem?_foldl_insertIfNew {m : Std.ExtTreeMap Char Symbol} {cs : List Char} {n s : Symbol}
    {c : Char} (h : (cs.foldl (·.insertIfNew · n) m)[c]? = some s) : m[c]? = some s ∨ s = n := by
  induction cs generalizing m with
  | nil => exact .inl h
  | cons d cs ih =>
      obtain old | new := ih h
      · rw [Std.ExtTreeMap.getElem?_insertIfNew] at old
        split at old
        · exact .inr (Option.some.inj old).symm
        · exact .inl old
      · exact .inr new

/-- Alloting touches no symbol but the fresh one. -/
theorem getElem?_allot {c d : Char} {ignoreCase : Bool} {s : Symbol}
    (h : (a.allot c ignoreCase).symbols[d]? = some s) : a.symbols[d]? = some s ∨ s = a.size := by
  have own : (a.symbols.insert c a.size)[d]? = some s ∨ s = a.size := by
    cases ignoreCase with
    | false => exact .inl h
    | true => exact getElem?_foldl_insertIfNew h
  obtain own | fresh := own
  · rw [Std.ExtTreeMap.getElem?_insert] at own
    split at own
    · exact .inr (Option.some.inj own).symm
    · exact .inl own
  · exact .inr fresh

/-- Columns in use are columns of the table, and the two columns that no character owns stay
free. -/
structure InRange (a : Alphabet) : Prop where
  size_ge : Symbol.firstFree ≤ a.size
  symbol_mem : ∀ {c : Char} {s : Symbol}, a.symbols[c]? = some s → Symbol.separator ≤ s ∧ s < a.size
  marked_mem : ∀ {s : Symbol}, a.isSeparator s = true → Symbol.separator ≤ s ∧ s < a.size

namespace InRange

theorem empty : Alphabet.empty.InRange where
  size_ge := Nat.le_refl _
  symbol_mem h := by simp [Alphabet.empty] at h
  marked_mem h := by simp [Alphabet.empty, isSeparator] at h

theorem separator_lt_size (h : a.InRange) : Symbol.separator < a.size := h.size_ge

theorem mark (h : a.InRange) {s : Symbol} (low : Symbol.separator ≤ s) (high : s < a.size) :
    (a.mark s).InRange where
  size_ge := h.size_ge
  symbol_mem := h.symbol_mem
  marked_mem marked := by
    obtain rfl | old := isSeparator_mark.mp marked
    · exact ⟨low, high⟩
    · exact h.marked_mem old

theorem allot (h : a.InRange) (c : Char) (ignoreCase : Bool) : (a.allot c ignoreCase).InRange where
  size_ge := Nat.le_succ_of_le h.size_ge
  symbol_mem found := by
    obtain old | rfl := getElem?_allot found
    · exact ⟨(h.symbol_mem old).1, Nat.lt_succ_of_lt (h.symbol_mem old).2⟩
    · exact ⟨Nat.le_of_lt h.separator_lt_size, Nat.lt_succ_self _⟩
  marked_mem marked := ⟨(h.marked_mem marked).1, Nat.lt_succ_of_lt (h.marked_mem marked).2⟩

theorem register (h : a.InRange) (c : Char) (ignoreCase : Bool) :
    (a.register c ignoreCase).InRange := by
  rw [Alphabet.register]
  split
  · exact h.allot c ignoreCase
  · split
    · refine ((h.allot c ignoreCase).mark ?_ (Nat.lt_succ_self _)).mark (Nat.le_refl _) ?_
      · exact Nat.le_of_lt h.separator_lt_size
      · exact Nat.lt_succ_of_lt h.separator_lt_size
    · exact h

theorem registerAll (h : a.InRange) (cs : List Char) (ignoreCase : Bool) :
    (a.registerAll cs ignoreCase).InRange := by
  induction cs generalizing a with
  | nil => exact h
  | cons c cs ih => exact ih (h.register c ignoreCase)

theorem registerSeparator (h : a.InRange) (c : Char) : (a.registerSeparator c).InRange := by
  rw [Alphabet.registerSeparator]
  split
  · next s found => exact h.mark (h.symbol_mem found).1 (h.symbol_mem found).2
  · have shared : InRange { a with symbols := a.symbols.insert c Symbol.separator } := by
      refine ⟨h.size_ge, ?_, h.marked_mem⟩
      intro d s found
      rw [Std.ExtTreeMap.getElem?_insert] at found
      split at found
      · cases found
        exact ⟨Nat.le_refl _, h.separator_lt_size⟩
      · exact h.symbol_mem found
    exact shared.mark (Nat.le_refl _) h.separator_lt_size

theorem foldl_registerSeparator (h : a.InRange) (cs : List Char) :
    (cs.foldl Alphabet.registerSeparator a).InRange := by
  induction cs generalizing a with
  | nil => exact h
  | cons c cs ih => exact ih (h.registerSeparator c)

theorem enroll (h : a.InRange) (call : Registration) : (a.enroll call).InRange := by
  cases call with
  | char c ignoreCase => exact h.register c ignoreCase
  | chars cs ignoreCase => exact h.registerAll cs ignoreCase
  | separator c => exact h.registerSeparator c

/-- Every sequence of registrations keeps the columns in range. -/
theorem ofRegistrations (calls : List Registration) : (ofRegistrations calls).InRange := by
  suffices ∀ b : Alphabet, b.InRange → (calls.foldl Alphabet.enroll b).InRange from this _ .empty
  induction calls with
  | nil => exact fun _ h => h
  | cons call calls ih => exact fun b h => ih _ (h.enroll call)

theorem symbolOf_lt (h : a.InRange) (c : Option Char) : a.symbolOf c < a.size := by
  have bound : 2 < a.size := h.size_ge
  match c with
  | none =>
      show 0 < a.size
      omega
  | some c =>
      cases found : a.symbols[c]? with
      | none =>
          have wild : a.symbolOf (some c) = 1 := by simp [symbolOf, found, Symbol.wildcard]
          rw [wild]
          exact Nat.lt_of_succ_lt bound
      | some s =>
          rw [symbolOf_of_getElem? found]
          exact (h.symbol_mem found).2

theorem symbolOf_ne_endOfStream (h : a.InRange) (c : Char) :
    a.symbolOf (some c) ≠ Symbol.endOfStream := by
  cases found : a.symbols[c]? with
  | none => simp [symbolOf, found, Symbol.wildcard, Symbol.endOfStream]
  | some s =>
      rw [symbolOf_of_getElem? found]
      have low : 2 ≤ s := (h.symbol_mem found).1
      exact Nat.ne_of_gt (Nat.lt_of_lt_of_le Nat.zero_lt_two low)

theorem endOfStream_lt_size (h : a.InRange) : Symbol.endOfStream < a.size := h.symbolOf_lt none

end InRange

/-- What holds of an alphabet in which case counts and the given characters were registered as
separators: own columns have one owner, and separating is a matter of the characters alone. -/
structure CaseSensitive (a : Alphabet) (declared : List Char) : Prop extends InRange a where
  owner_unique : ∀ {c d : Char} {s : Symbol}, a.symbols[c]? = some s → a.symbols[d]? = some s →
    s ≠ Symbol.separator → c = d
  shared_separates : ∀ {c : Char}, a.symbols[c]? = some Symbol.separator →
    a.isSeparator Symbol.separator = true
  separates_iff : ∀ c, a.isSeparator (a.symbolOf (some c)) = true ↔ c ∈ declared

namespace CaseSensitive

variable {declared : List Char}

theorem empty : Alphabet.empty.CaseSensitive [] where
  toInRange := .empty
  owner_unique h := by simp [Alphabet.empty] at h
  shared_separates h := by simp [Alphabet.empty] at h
  separates_iff c := by simp [Alphabet.empty, isSeparator]

theorem symbols_allot (c d : Char) :
    (a.allot c false).symbols[d]? = if c = d then some a.size else a.symbols[d]? := by
  simp [Alphabet.allot, Std.ExtTreeMap.getElem?_insert]

theorem symbolOf_allot (c d : Char) :
    (a.allot c false).symbolOf (some d) = if c = d then a.size else a.symbolOf (some d) := by
  simp only [symbolOf, symbols_allot]
  split <;> rfl

/-- No character owns the next free column. -/
theorem size_ne_of_getElem? (h : a.CaseSensitive declared) {c : Char} {s : Symbol}
    (found : a.symbols[c]? = some s) : s ≠ a.size :=
  Nat.ne_of_lt (h.symbol_mem found).2

/-- A fresh column has one owner, as have all others. -/
theorem owner_unique_allot (h : a.CaseSensitive declared) (e : Char) {c d : Char} {s : Symbol}
    (hc : (a.allot e false).symbols[c]? = some s) (hd : (a.allot e false).symbols[d]? = some s)
    (own : s ≠ Symbol.separator) : c = d := by
  rw [symbols_allot] at hc hd
  split at hc <;> split at hd
  · simp_all
  · cases hc
    exact absurd rfl (h.size_ne_of_getElem? hd)
  · cases hd
    exact absurd rfl (h.size_ne_of_getElem? hc)
  · exact h.owner_unique hc hd own

/-- A character without a column separates nothing. -/
theorem not_mem_of_getElem?_eq_none (h : a.CaseSensitive declared) {c : Char}
    (free : a.symbols[c]? = none) : c ∉ declared := by
  intro mem
  have marked := (h.separates_iff c).mpr mem
  rw [symbolOf, free] at marked
  exact absurd (h.toInRange.marked_mem marked).1 (by decide)

/-- A character in the shared column was registered as a separator. -/
theorem mem_of_shared (h : a.CaseSensitive declared) {c : Char}
    (found : a.symbols[c]? = some Symbol.separator) : c ∈ declared := by
  rw [← h.separates_iff, symbolOf_of_getElem? found]
  exact h.shared_separates found

/-- A fresh column for a character that had none separates nothing. -/
theorem allot (h : a.CaseSensitive declared) {c : Char} (free : a.symbols[c]? = none) :
    (a.allot c false).CaseSensitive declared := by
  refine ⟨h.toInRange.allot c false, h.owner_unique_allot c, ?_, ?_⟩
  · intro d found
    rw [symbols_allot] at found
    split at found
    · exact absurd (Option.some.inj found) (Nat.ne_of_gt h.separator_lt_size)
    · exact h.shared_separates found
  · intro d
    rw [isSeparator_allot, symbolOf_allot]
    split
    · next same =>
        subst same
        constructor
        · intro marked
          exact absurd (h.toInRange.marked_mem marked).2 (Nat.lt_irrefl _)
        · intro mem
          exact absurd mem (h.not_mem_of_getElem?_eq_none free)
    · exact h.separates_iff d

/-- A character that leaves the shared column separates words as before. -/
theorem promote (h : a.CaseSensitive declared) {c : Char}
    (shared : a.symbols[c]? = some Symbol.separator) :
    (((a.allot c false).mark a.size).mark Symbol.separator).CaseSensitive declared := by
  have range := h.toInRange.register c false
  simp only [Alphabet.register, shared, if_true] at range
  refine ⟨range, h.owner_unique_allot c, fun _ => isSeparator_mark.mpr (.inl rfl), ?_⟩
  intro d
  rw [isSeparator_mark, isSeparator_mark, isSeparator_allot, symbolOf_mark, symbolOf_mark,
    symbolOf_allot]
  split
  · next same =>
      subst same
      constructor
      · intro _
        exact h.mem_of_shared shared
      · intro _
        exact .inr (.inl rfl)
  · rw [← h.separates_iff]
    constructor
    · rintro (same | fresh | marked)
      · rw [same]
        exact h.shared_separates (getElem?_of_symbolOf same (Nat.le_refl _))
      · exact absurd fresh (Nat.ne_of_lt (h.symbolOf_lt _))
      · exact marked
    · intro marked
      exact .inr (.inr marked)

/-- A rule's character changes no separator. -/
theorem register (h : a.CaseSensitive declared) (c : Char) :
    (a.register c false).CaseSensitive declared := by
  rw [Alphabet.register]
  split
  · next free => exact h.allot free
  · next s found =>
      split
      · next shared => exact h.promote (shared ▸ found)
      · exact h

theorem registerAll (h : a.CaseSensitive declared) (cs : List Char) :
    (a.registerAll cs false).CaseSensitive declared := by
  induction cs generalizing a with
  | nil => exact h
  | cons c cs ih => exact ih (h.register c)

/-- A character that has a column already makes it separate words, and no other character does. -/
theorem mark (h : a.CaseSensitive declared) {c : Char} {s : Symbol}
    (found : a.symbols[c]? = some s) : (a.mark s).CaseSensitive (declared ++ [c]) := by
  have column := h.symbol_mem found
  refine ⟨h.toInRange.mark column.1 column.2, h.owner_unique, fun shared => ?_, fun d => ?_⟩
  · exact isSeparator_mark.mpr (.inr (h.shared_separates shared))
  · rw [isSeparator_mark, symbolOf_mark, List.mem_append, List.mem_singleton, or_comm,
      h.separates_iff]
    constructor
    · rintro (mem | same)
      · exact .inl mem
      · have held := getElem?_of_symbolOf same column.1
        by_cases shared : s = Symbol.separator
        · exact .inl (h.mem_of_shared (shared ▸ held))
        · exact .inr (h.owner_unique held found shared)
    · rintro (mem | rfl)
      · exact .inl mem
      · exact .inr (symbolOf_of_getElem? found)

/-- A character without a column joins the shared one. -/
theorem share (h : a.CaseSensitive declared) {c : Char} (free : a.symbols[c]? = none) :
    ({ a with symbols := a.symbols.insert c Symbol.separator }.mark
      Symbol.separator).CaseSensitive (declared ++ [c]) := by
  have range := h.toInRange.registerSeparator c
  simp only [Alphabet.registerSeparator, free] at range
  have cells : ∀ d : Char, (a.symbols.insert c Symbol.separator)[d]? =
      if c = d then some Symbol.separator else a.symbols[d]? := by
    intro d
    simp [Std.ExtTreeMap.getElem?_insert]
  refine ⟨range, ?_, fun _ => isSeparator_mark.mpr (.inl rfl), ?_⟩
  · intro d e s hd he own
    simp only [symbols_mark, cells] at hd he
    split at hd
    · exact absurd (Option.some.inj hd).symm own
    · split at he
      · exact absurd (Option.some.inj he).symm own
      · exact h.owner_unique hd he own
  · intro d
    rw [isSeparator_mark, List.mem_append, List.mem_singleton]
    simp only [symbolOf, symbols_mark, cells]
    split
    · next same => simp [same]
    · next other =>
        have apart : d ≠ c := fun same => other same.symm
        have old := h.separates_iff d
        rw [symbolOf] at old
        show _ ∨ a.isSeparator _ = true ↔ _
        rw [old]
        constructor
        · rintro (shared | mem)
          · exact .inl (h.mem_of_shared (getElem?_of_symbolOf shared (Nat.le_refl _)))
          · exact .inl mem
        · intro mem
          exact .inr (mem.resolve_right apart)

/-- Registering a separator makes this character separate words and no other one. -/
theorem registerSeparator (h : a.CaseSensitive declared) (c : Char) :
    (a.registerSeparator c).CaseSensitive (declared ++ [c]) := by
  rw [Alphabet.registerSeparator]
  split
  · next s found => exact h.mark found
  · next free => exact h.share free

/-- A separator list registers each of its characters. -/
theorem foldl_registerSeparator (h : a.CaseSensitive declared) (cs : List Char) :
    (cs.foldl Alphabet.registerSeparator a).CaseSensitive (declared ++ cs) := by
  induction cs generalizing a declared with
  | nil => simpa using h
  | cons c cs ih => simpa using ih (h.registerSeparator c)

end CaseSensitive

/-- The character has a column that it need not share with the separators. -/
def OwnsColumn (a : Alphabet) (c : Char) : Prop :=
  ∃ s, a.symbols[c]? = some s ∧ s ≠ Symbol.separator

namespace OwnsColumn

/-- Registering another character of a rule takes no column away. -/
theorem register {c d : Char} (h : a.OwnsColumn d) : (a.register c false).OwnsColumn d := by
  obtain ⟨s, found, own⟩ := h
  rw [Alphabet.register]
  split
  · next free =>
      have apart : c ≠ d := fun same => by simp [same, found] at free
      exact ⟨s, by rw [CaseSensitive.symbols_allot, if_neg apart, found], own⟩
  · next x held =>
      split
      · next shared =>
          have apart : c ≠ d := fun same => by
            subst same
            exact own (Option.some.inj (found.symm.trans (held.trans (congrArg some shared))))
          refine ⟨s, ?_, own⟩
          rw [symbols_mark, symbols_mark, CaseSensitive.symbols_allot, if_neg apart, found]
      · exact ⟨s, found, own⟩

theorem registerAll {d : Char} (cs : List Char) (h : a.OwnsColumn d) :
    (a.registerAll cs false).OwnsColumn d := by
  induction cs generalizing a with
  | nil => exact h
  | cons c cs ih => exact ih h.register

/-- A registered character of a rule owns a column. -/
theorem of_register (h : a.InRange) (c : Char) : (a.register c false).OwnsColumn c := by
  have fresh : (a.allot c false).OwnsColumn c :=
    ⟨a.size, by simp [CaseSensitive.symbols_allot], Nat.ne_of_gt h.separator_lt_size⟩
  rw [Alphabet.register]
  split
  · exact fresh
  · next s found =>
      split
      · exact fresh
      · next own => exact ⟨s, found, own⟩

theorem of_registerAll (h : a.InRange) {c : Char} {cs : List Char} (mem : c ∈ cs) :
    (a.registerAll cs false).OwnsColumn c := by
  induction cs generalizing a with
  | nil => cases mem
  | cons d cs ih =>
      cases mem with
      | head => exact registerAll cs (of_register h c)
      | tail _ rest => exact ih (h.register d false) rest

end OwnsColumn

/-- Where case counts, a character that owns its column shares it with no other. -/
theorem CaseSensitive.symbolOf_eq_iff {declared : List Char} (h : a.CaseSensitive declared)
    {c d : Char} (own : a.OwnsColumn c) :
    a.symbolOf (some d) = a.symbolOf (some c) ↔ d = c := by
  obtain ⟨s, found, apart⟩ := own
  constructor
  · intro same
    rw [symbolOf_of_getElem? found] at same
    exact h.owner_unique (getElem?_of_symbolOf same (h.symbol_mem found).1) found apart
  · intro same
    rw [same]

end Alphabet

end TableLexer
