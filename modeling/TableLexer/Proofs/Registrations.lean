import Mathlib.Logic.ExistsUnique
import TableLexer.Proofs.Columns

/-!
# Sequences of registrations

A registration gives at most one fresh column away and never takes one back. A character that left
the wildcard keeps its column, except that a separator in the shared column may move once, to a
column that separates words as well. So whatever the order of the calls, every column past the
reserved ones has an owner, and a separator stays one.

Where case never is ignored, owners are unique and nothing else separates words.
-/

namespace TableLexer

namespace Registration

/-- Whether case variants may share the columns that a call gives away. -/
def ignoresCase : Registration → Bool
  | char _ ignoreCase | chars _ ignoreCase => ignoreCase
  | separator _ => false

/-- The characters that a call registers as separators. -/
def declares : Registration → List Char
  | separator c => [c]
  | char _ _ | chars _ _ => []

theorem mem_declares {call : Registration} {c : Char} :
    c ∈ call.declares ↔ call = .separator c := by
  cases call <;> simp [declares, eq_comm]

end Registration

namespace Alphabet

variable {a b : Alphabet} {c d : Char} {s : Symbol} {ignoreCase : Bool}

/-! ## One registration -/

theorem getElem?_foldl_insertIfNew_of_some {m : Std.ExtTreeMap Char Symbol} {n : Symbol}
    (cs : List Char) (h : m[c]? = some s) : (cs.foldl (·.insertIfNew · n) m)[c]? = some s := by
  induction cs generalizing m with
  | nil => exact h
  | cons d cs ih =>
      have taken : ¬ (compare d c = .eq ∧ d ∉ m) := fun ⟨same, free⟩ => by
        cases Std.LawfulEqCmp.compare_eq_iff_eq.mp same
        simp [Std.ExtTreeMap.mem_iff_isSome_getElem?, h] at free
      exact ih (by rw [Std.ExtTreeMap.getElem?_insertIfNew, if_neg taken, h])

/-- An allotment leaves alone whatever it finds after its first step. -/
theorem symbols_allot_of_own (h : (a.symbols.insert c a.size)[d]? = some s) :
    (a.allot c ignoreCase).symbols[d]? = some s := by
  cases ignoreCase with
  | false => exact h
  | true => exact getElem?_foldl_insertIfNew_of_some _ h

theorem symbols_allot_self (a : Alphabet) (c : Char) (ignoreCase : Bool) :
    (a.allot c ignoreCase).symbols[c]? = some a.size :=
  symbols_allot_of_own Std.ExtTreeMap.getElem?_insert_self

/-- No other character loses its column. -/
theorem symbols_allot_of_ne (apart : d ≠ c) (h : a.symbols[d]? = some s) :
    (a.allot c ignoreCase).symbols[d]? = some s := by
  apply symbols_allot_of_own
  have other : compare c d ≠ .eq := fun same =>
    apart (Std.LawfulEqCmp.compare_eq_iff_eq.mp same).symm
  simpa [Std.ExtTreeMap.getElem?_insert, other] using h

/-- What registering a character of a rule can do: a character without a column, or one in the
shared column of the separators, gets its own; any other is left alone. -/
theorem register_cases (a : Alphabet) (c : Char) (ignoreCase : Bool) :
    (a.symbols[c]? = none ∧ a.register c ignoreCase = a.allot c ignoreCase) ∨
    (a.symbols[c]? = some Symbol.separator ∧ a.register c ignoreCase =
      ((a.allot c ignoreCase).mark a.size).mark Symbol.separator) ∨
    (∃ s, a.symbols[c]? = some s ∧ s ≠ Symbol.separator) ∧ a.register c ignoreCase = a := by
  cases found : a.symbols[c]? with
  | none => exact .inl ⟨rfl, by simp only [register, found]⟩
  | some s =>
      by_cases shared : s = Symbol.separator
      · exact .inr (.inl ⟨congrArg some shared, by simp only [register, found, if_pos shared]⟩)
      · exact .inr (.inr ⟨⟨s, rfl, shared⟩, by simp only [register, found, if_neg shared]⟩)

/-- What registering a separator can do: a character without a column joins the shared one, and the
column of the character is marked. -/
theorem registerSeparator_cases (a : Alphabet) (c : Char) :
    (a.symbols[c]? = none ∧ a.registerSeparator c =
      { a with symbols := a.symbols.insert c Symbol.separator }.mark Symbol.separator) ∨
    ∃ s, a.symbols[c]? = some s ∧ a.registerSeparator c = a.mark s := by
  cases found : a.symbols[c]? with
  | none => exact .inl ⟨rfl, by simp only [registerSeparator, found]⟩
  | some s => exact .inr ⟨s, rfl, by simp only [registerSeparator, found]⟩

/-- What each single registration keeps is kept by every sequence of calls. -/
theorem foldl_enroll_induction {P : Alphabet → Prop}
    (char : ∀ {a : Alphabet} (c : Char) (ignoreCase : Bool), P a → P (a.register c ignoreCase))
    (separator : ∀ {a : Alphabet} (c : Char), P a → P (a.registerSeparator c))
    (calls : List Registration) (h : P a) : P (calls.foldl enroll a) := by
  induction calls generalizing a with
  | nil => exact h
  | cons call calls ih =>
      apply ih
      cases call with
      | char c ignoreCase => exact char c ignoreCase h
      | separator c => exact separator c h
      | chars cs ignoreCase =>
          show P (cs.foldl (·.register · ignoreCase) a)
          clear ih
          induction cs generalizing a with
          | nil => exact h
          | cons c cs ih => exact ih (char c ignoreCase h)

/-! ## What is never taken back -/

/-- A later alphabet has the columns of an earlier one: characters keep their own columns, and a
character that separates words goes on to do so. -/
structure Grows (a b : Alphabet) : Prop where
  size_le : a.size ≤ b.size
  owned : ∀ {c : Char} {s : Symbol}, a.symbols[c]? = some s → s ≠ Symbol.separator →
    b.symbols[c]? = some s
  separates : ∀ {c : Char}, a.isSeparator (a.symbolOf (some c)) = true →
    b.isSeparator (b.symbolOf (some c)) = true

/-- A character that separates words has a column. -/
theorem InRange.getElem?_of_separates (h : a.InRange)
    (marked : a.isSeparator (a.symbolOf (some c)) = true) :
    a.symbols[c]? = some (a.symbolOf (some c)) :=
  getElem?_of_symbolOf rfl (h.marked_mem marked).1

namespace Grows

theorem refl (a : Alphabet) : a.Grows a := ⟨Nat.le_refl _, fun h _ => h, id⟩

theorem trans {e : Alphabet} (first : a.Grows b) (second : b.Grows e) : a.Grows e where
  size_le := Nat.le_trans first.size_le second.size_le
  owned held own := second.owned (first.owned held own) own
  separates marked := second.separates (first.separates marked)

theorem mark (a : Alphabet) (s : Symbol) : a.Grows (a.mark s) where
  size_le := Nat.le_refl _
  owned held _ := held
  separates marked := isSeparator_mark.mpr (.inr (by rwa [symbolOf_mark]))

/-- A character joins the separators or gets a fresh column, while all others keep their place. -/
theorem of_kept (h : a.InRange) (larger : a.size ≤ b.size) (new : ∀ s, a.symbols[c]? = some s →
      s = Symbol.separator ∧ b.isSeparator (b.symbolOf (some c)) = true)
    (kept : ∀ {d s}, d ≠ c → a.symbols[d]? = some s → b.symbols[d]? = some s)
    (marks : ∀ {s}, a.isSeparator s = true → b.isSeparator s = true) : a.Grows b where
  size_le := larger
  owned {d s} held own := by
    have apart : d ≠ c := fun same => own (new s (same ▸ held)).1
    exact kept apart held
  separates {d} marked := by
    have held := h.getElem?_of_separates marked
    by_cases same : d = c
    · subst same
      exact (new _ held).2
    · rw [symbolOf_of_getElem? (kept same held)]
      exact marks marked

theorem register (h : a.InRange) (c : Char) (ignoreCase : Bool) :
    a.Grows (a.register c ignoreCase) := by
  obtain ⟨free, done⟩ | ⟨shared, done⟩ | ⟨-, done⟩ := a.register_cases c ignoreCase
  · rw [done]
    exact of_kept h (Nat.le_succ _) (by simp [free]) symbols_allot_of_ne id
  · rw [done]
    refine of_kept h (Nat.le_succ _) (fun s held => ⟨?_, ?_⟩) symbols_allot_of_ne fun marked => ?_
    · exact Option.some.inj (held.symm.trans shared)
    · have fresh := symbolOf_of_getElem? (a.symbols_allot_self c ignoreCase)
      rw [symbolOf_mark, symbolOf_mark, fresh]
      exact isSeparator_mark.mpr (.inr (isSeparator_mark.mpr (.inl rfl)))
    · exact isSeparator_mark.mpr (.inr (isSeparator_mark.mpr (.inr marked)))
  · rw [done]
    exact refl a

theorem registerSeparator (h : a.InRange) (c : Char) : a.Grows (a.registerSeparator c) := by
  obtain ⟨free, done⟩ | ⟨s, -, done⟩ := a.registerSeparator_cases c
  · rw [done]
    refine of_kept (c := c) h (Nat.le_refl _) (by simp [free]) (fun apart held => ?_)
      fun marked => ?_
    · have other : compare c _ ≠ .eq := fun same =>
        apart (Std.LawfulEqCmp.compare_eq_iff_eq.mp same).symm
      simpa [Std.ExtTreeMap.getElem?_insert, other] using held
    · exact isSeparator_mark.mpr (.inr marked)
  · rw [done]
    exact mark a s

/-- Whatever is called later, the alphabet grows. -/
theorem foldl_enroll (h : a.InRange) (calls : List Registration) :
    a.Grows (calls.foldl enroll a) := by
  have run : (calls.foldl enroll a).InRange ∧ a.Grows (calls.foldl enroll a) := by
    refine foldl_enroll_induction (P := fun b => b.InRange ∧ a.Grows b) ?_ ?_ calls ⟨h, refl a⟩
    · exact fun c ignoreCase before =>
        ⟨before.1.register c ignoreCase, before.2.trans (register before.1 c ignoreCase)⟩
    · exact fun c before =>
        ⟨before.1.registerSeparator c, before.2.trans (registerSeparator before.1 c)⟩
  exact run.2

theorem symbolOf_eq (h : a.Grows b) (own : Symbol.firstFree ≤ a.symbolOf (some c)) :
    b.symbolOf (some c) = a.symbolOf (some c) :=
  symbolOf_of_getElem? (h.owned (getElem?_of_symbolOf rfl (Nat.le_of_lt own)) (Nat.ne_of_gt own))

end Grows

/-- The separator that a call registers separates words. -/
theorem isSeparator_registerSeparator (a : Alphabet) (c : Char) :
    (a.registerSeparator c).isSeparator ((a.registerSeparator c).symbolOf (some c)) = true := by
  obtain ⟨-, done⟩ | ⟨s, held, done⟩ := a.registerSeparator_cases c
  · have joined : (a.symbols.insert c Symbol.separator)[c]? = some Symbol.separator :=
      Std.ExtTreeMap.getElem?_insert_self
    rw [done, symbolOf_mark]
    exact isSeparator_mark.mpr (.inl (symbolOf_of_getElem? joined))
  · rw [done, symbolOf_mark]
    exact isSeparator_mark.mpr (.inl (symbolOf_of_getElem? held))

/-- Once registered as a separator, a character separates words whatever is called later. -/
theorem isSeparator_ofRegistrations {calls : List Registration}
    (mem : .separator c ∈ calls) :
    (ofRegistrations calls).isSeparator ((ofRegistrations calls).symbolOf (some c)) = true := by
  obtain ⟨before, after, rfl⟩ := List.append_of_mem mem
  have range := InRange.ofRegistrations before
  have later := Grows.foldl_enroll (range.registerSeparator c) after
  have whole : ofRegistrations (before ++ .separator c :: after) =
      after.foldl enroll ((ofRegistrations before).registerSeparator c) := by
    simp [ofRegistrations, enroll]
  rw [whole]
  exact later.separates ((ofRegistrations before).isSeparator_registerSeparator c)

/-! ## Owners -/

/-- Every column past the reserved ones belongs to some character. -/
def Owned (a : Alphabet) : Prop :=
  ∀ s : Symbol, Symbol.firstFree ≤ s → s < a.size → ∃ c : Char, a.symbols[c]? = some s

namespace Owned

theorem empty : Alphabet.empty.Owned := by
  intro s low high
  exact absurd high (Nat.not_lt.mpr low)

/-- Columns that were there before keep their owners, so only the fresh ones need any. -/
theorem of_grows (h : a.Owned) (grows : a.Grows b)
    (fresh : ∀ s : Symbol, a.size ≤ s → s < b.size → ∃ c : Char, b.symbols[c]? = some s) :
    b.Owned := by
  intro s low high
  by_cases old : s < a.size
  · obtain ⟨c, held⟩ := h s low old
    exact ⟨c, grows.owned held (Nat.ne_of_gt low)⟩
  · exact fresh s (Nat.not_lt.mp old) high

theorem register (h : a.Owned) (range : a.InRange) (c : Char) (ignoreCase : Bool) :
    (a.register c ignoreCase).Owned := by
  have own : ∀ s : Symbol, a.size ≤ s → s < a.size + 1 →
      ∃ d : Char, (a.allot c ignoreCase).symbols[d]? = some s := by
    intro s low high
    obtain rfl : a.size = s := Nat.le_antisymm low (Nat.le_of_lt_succ high)
    exact ⟨c, a.symbols_allot_self c ignoreCase⟩
  have grows := Grows.register range c ignoreCase
  obtain ⟨-, done⟩ | ⟨-, done⟩ | ⟨-, done⟩ := a.register_cases c ignoreCase
  · exact h.of_grows grows (done ▸ own)
  · exact h.of_grows grows (done ▸ own)
  · rwa [done]

theorem registerSeparator (h : a.Owned) (range : a.InRange) (c : Char) :
    (a.registerSeparator c).Owned := by
  have same : (a.registerSeparator c).size = a.size := by
    obtain ⟨-, done⟩ | ⟨s, -, done⟩ := a.registerSeparator_cases c <;> rw [done] <;> rfl
  refine h.of_grows (Grows.registerSeparator range c) fun s low high => ?_
  exact absurd (same ▸ high) (Nat.not_lt.mpr low)

/-- Every sequence of registrations leaves every column with an owner. -/
theorem ofRegistrations (calls : List Registration) : (Alphabet.ofRegistrations calls).Owned := by
  have run : (Alphabet.ofRegistrations calls).InRange ∧ (Alphabet.ofRegistrations calls).Owned := by
    refine foldl_enroll_induction (P := fun a => a.InRange ∧ a.Owned) ?_ ?_ calls ⟨.empty, empty⟩
    · exact fun c ignoreCase before =>
        ⟨before.1.register c ignoreCase, before.2.register before.1 c ignoreCase⟩
    · exact fun c before =>
        ⟨before.1.registerSeparator c, before.2.registerSeparator before.1 c⟩
  exact run.2

end Owned

/-! ## Where case counts -/

theorem CaseSensitive.enroll {declared : List Char} (h : a.CaseSensitive declared)
    {call : Registration} (counts : call.ignoresCase = false) :
    (a.enroll call).CaseSensitive (declared ++ call.declares) := by
  cases call with
  | char c ignoreCase =>
      cases counts
      simpa [Alphabet.enroll, Registration.declares] using h.register c
  | chars cs ignoreCase =>
      cases counts
      simpa [Alphabet.enroll, Registration.declares] using h.registerAll cs
  | separator c => exact h.registerSeparator c

/-- Where no call ignores case, the characters that separate words are those registered so. -/
theorem CaseSensitive.ofRegistrations {calls : List Registration}
    (counts : ∀ call ∈ calls, call.ignoresCase = false) :
    (Alphabet.ofRegistrations calls).CaseSensitive (calls.flatMap Registration.declares) := by
  suffices ∀ (a : Alphabet) (declared : List Char), a.CaseSensitive declared →
      (calls.foldl Alphabet.enroll a).CaseSensitive
        (declared ++ calls.flatMap Registration.declares) from this _ [] .empty
  induction calls with
  | nil =>
      intro a declared h
      simpa using h
  | cons call calls ih =>
      intro a declared h
      have first := h.enroll (counts call List.mem_cons_self)
      have others := ih (fun call mem => counts call (List.mem_cons_of_mem _ mem)) _ _ first
      simpa using others

/-- Where case counts, a column past the reserved ones has no second owner. -/
theorem CaseSensitive.eq_of_symbolOf_eq {declared : List Char} (h : a.CaseSensitive declared)
    (hc : a.symbolOf (some c) = s) (hd : a.symbolOf (some d) = s) (own : Symbol.firstFree ≤ s) :
    c = d :=
  h.owner_unique (getElem?_of_symbolOf hc (Nat.le_of_lt own))
    (getElem?_of_symbolOf hd (Nat.le_of_lt own)) (Nat.ne_of_gt own)

/-! ## The list of separating columns -/

theorem mem_separators_iff : s ∈ a.separators.toList ↔ a.isSeparator s = true :=
  Std.ExtTreeSet.mem_toList.trans Std.ExtTreeSet.mem_iff_contains

theorem separators_sorted (a : Alphabet) : a.separators.toList.Pairwise (· < ·) :=
  a.separators.ordered_toList.imp Nat.compare_eq_lt.mp

/-- A character without a column of its own, and out of the shared one, is a wildcard. -/
theorem InRange.symbolOf_cases (h : a.InRange) (c : Char) :
    a.symbolOf (some c) = Symbol.wildcard ∨
      Symbol.separator ≤ a.symbolOf (some c) ∧ a.symbolOf (some c) < a.size := by
  cases held : a.symbols[c]? with
  | none => exact .inl (by simp [symbolOf, held])
  | some s => exact .inr (symbolOf_of_getElem? held ▸ h.symbol_mem held)

end Alphabet

/-- After any registrations, a character is a wildcard or has a column behind the wildcard's. Every
column past the reserved ones has an owner, and no later call takes one from its owner. The columns
that separate words are listed in order. A character registered as a separator separates words from
then on. Where no call ignored case, owners are unique and no other character separates words. -/
theorem registrations_keep_columns (calls : List Registration) :
    let a := Alphabet.ofRegistrations calls
    (∀ c, a.symbolOf (some c) ≠ Symbol.endOfStream ∧
      (a.symbolOf (some c) = Symbol.wildcard ∨
        Symbol.separator ≤ a.symbolOf (some c) ∧ a.symbolOf (some c) < a.size)) ∧
    (∀ s, Symbol.firstFree ≤ s → s < a.size → ∃ c, a.symbolOf (some c) = s) ∧
    (∀ later, let b := Alphabet.ofRegistrations (calls ++ later)
      a.size ≤ b.size ∧ ∀ c, Symbol.firstFree ≤ a.symbolOf (some c) →
        b.symbolOf (some c) = a.symbolOf (some c)) ∧
    (a.separators.toList.Pairwise (· < ·) ∧ ∀ s,
      (s ∈ a.separators.toList ↔ a.isSeparator s = true) ∧
        (a.isSeparator s = true → Symbol.separator ≤ s ∧ s < a.size)) ∧
    (∀ c, .separator c ∈ calls → a.isSeparator (a.symbolOf (some c)) = true) ∧
    ((∀ call ∈ calls, call.ignoresCase = false) →
      (∀ s, Symbol.firstFree ≤ s → s < a.size → ∃! c, a.symbolOf (some c) = s) ∧
      ∀ c, a.isSeparator (a.symbolOf (some c)) = true ↔ .separator c ∈ calls) := by
  intro a
  have range : a.InRange := .ofRegistrations calls
  have owner : ∀ s, Symbol.firstFree ≤ s → s < a.size → ∃ c, a.symbolOf (some c) = s := by
    intro s low high
    obtain ⟨c, held⟩ := Alphabet.Owned.ofRegistrations calls s low high
    exact ⟨c, Alphabet.symbolOf_of_getElem? held⟩
  refine ⟨fun c => ⟨range.symbolOf_ne_endOfStream c, range.symbolOf_cases c⟩, owner, ?_, ?_, ?_, ?_⟩
  · intro later b
    have whole : b = later.foldl Alphabet.enroll a := List.foldl_append
    have grows : a.Grows b := whole ▸ .foldl_enroll range later
    exact ⟨grows.size_le, fun c => grows.symbolOf_eq⟩
  · exact ⟨a.separators_sorted, fun s => ⟨Alphabet.mem_separators_iff, range.marked_mem⟩⟩
  · exact fun c => Alphabet.isSeparator_ofRegistrations
  · intro counts
    have sensitive := Alphabet.CaseSensitive.ofRegistrations counts
    constructor
    · intro s low high
      obtain ⟨c, owns⟩ := owner s low high
      exact ⟨c, owns, fun d same => sensitive.eq_of_symbolOf_eq same owns low⟩
    · intro c
      rw [sensitive.separates_iff, List.mem_flatMap]
      simp [Registration.mem_declares]

/-- A line feed that moves to a column of its own, and a letter that is declared a separator only
after a rule has used it. -/
theorem promoted_separator_keeps_columns :
    let calls : List Registration :=
      [.separator '\n', .separator ' ', .chars ['\n', 'a'] false, .separator 'a']
    let a := Alphabet.ofRegistrations calls
    (∀ call ∈ calls, call.ignoresCase = false) ∧
      a.isSeparator (a.symbolOf (some '\n')) = true ∧ (∃! c, a.symbolOf (some c) = 3) ∧
      ∀ c, a.isSeparator (a.symbolOf (some c)) = true ↔ c = '\n' ∨ c = ' ' ∨ c = 'a' := by
  intro calls a
  have counts : ∀ call ∈ calls, call.ignoresCase = false := by
    simp [calls, Registration.ignoresCase]
  obtain ⟨-, -, -, -, declared, sensitive⟩ := registrations_keep_columns calls
  obtain ⟨owner, separates⟩ := sensitive counts
  refine ⟨counts, declared '\n' (by simp [calls]), ?_, fun c => ?_⟩
  · exact owner 3 (Nat.le_refl _) (by decide +kernel)
  · simpa [calls] using separates c

end TableLexer
