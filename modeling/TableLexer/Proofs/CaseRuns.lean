import Mathlib
import TableLexer.Text.Folding

/-!
# Case variants of a character

Case mappings move runs of code points. A run is an arithmetic progression and so is what it moves
to, so the tables are compared run by run, not character by character: what is in lower case has no
lower-case form of its own, and what a character becomes in upper case has one. A character in lower
case is therefore a variant of no other character in lower case.
-/

namespace TableLexer.Unicode

namespace CaseRun

/-- The code points that a run moves to, as a run that moves nothing. -/
def image (run : CaseRun) : CaseRun :=
  ⟨(run.first + run.shift).toNat, (run.last + run.shift).toNat, run.step, 0⟩

/-- A run moves to code points of characters. -/
def lands (run : CaseRun) : Bool :=
  0 ≤ run.first + run.shift &&
    (run.image.last < 0xD800 || 0xDFFF < run.image.first && run.image.last < 0x110000)

/-- Whether a run takes steps that the other one takes too, or none. -/
def treads (run other : CaseRun) : Bool :=
  run.step % other.step == 0 || run.first == run.last

/-- Whether all code points of a run are code points of the other one. -/
def within (run other : CaseRun) : Bool :=
  other.first.ble run.first && run.last.ble other.last &&
    (run.first - other.first) % other.step == 0 && run.treads other

/-- Whether no code point of a run is a code point of the other one. -/
def avoids (run other : CaseRun) : Bool :=
  run.last.blt other.first || other.last.blt run.first ||
    (other.first.ble run.first && (run.first - other.first) % other.step != 0 && run.treads other)

variable {run other : CaseRun} {code : Nat}

theorem covers_iff : run.covers code = true ↔
    run.first ≤ code ∧ code ≤ run.last ∧ run.step ∣ code - run.first := by
  simp only [covers, Bool.and_eq_true, decide_eq_true_eq, beq_iff_eq, Nat.dvd_iff_mod_eq_zero,
    and_assoc]

theorem covers_image (low : 0 ≤ run.first + run.shift) (held : run.covers code = true) :
    run.image.covers (code + run.shift).toNat = true := by
  obtain ⟨first, last, steps⟩ := covers_iff.mp held
  refine covers_iff.mpr ⟨?_, ?_, ?_⟩
  · show (run.first + run.shift).toNat ≤ _
    omega
  · show _ ≤ (run.last + run.shift).toNat
    omega
  · have same : (code + run.shift).toNat - (run.first + run.shift).toNat = code - run.first := by
      omega
    show run.step ∣ _ - (run.first + run.shift).toNat
    rwa [same]

/-- The way from the first code point is made of steps of the other run. -/
theorem dvd_of_treads (treads : run.treads other = true) (held : run.covers code = true) :
    other.step ∣ code - run.first := by
  obtain ⟨first, last, steps⟩ := covers_iff.mp held
  simp only [CaseRun.treads, Bool.or_eq_true, beq_iff_eq, ← Nat.dvd_iff_mod_eq_zero] at treads
  obtain strides | single := treads
  · exact Nat.dvd_trans strides steps
  · have none : code - run.first = 0 := by omega
    rw [none]
    exact Nat.dvd_zero _

theorem covers_of_within (inside : run.within other = true) (held : run.covers code = true) :
    other.covers code = true := by
  obtain ⟨first, last, -⟩ := covers_iff.mp held
  simp only [within, Bool.and_eq_true, Nat.ble_eq, beq_iff_eq,
    ← Nat.dvd_iff_mod_eq_zero] at inside
  obtain ⟨⟨⟨low, high⟩, start⟩, treads⟩ := inside
  refine covers_iff.mpr ⟨by omega, by omega, ?_⟩
  have whole := Nat.dvd_add (dvd_of_treads treads held) start
  rwa [show code - run.first + (run.first - other.first) = code - other.first by omega] at whole

theorem not_covers_of_avoids (apart : run.avoids other = true) (held : run.covers code = true) :
    other.covers code = false := by
  rw [Bool.eq_false_iff]
  intro both
  obtain ⟨first, last, -⟩ := covers_iff.mp held
  obtain ⟨low, high, steps⟩ := covers_iff.mp both
  simp only [avoids, Bool.or_eq_true, Bool.and_eq_true, Nat.blt_eq, Nat.ble_eq, bne_iff_ne, ne_eq,
    ← Nat.dvd_iff_mod_eq_zero] at apart
  obtain (below | above) | ⟨⟨start, off⟩, treads⟩ := apart
  · omega
  · omega
  · rw [show code - other.first = code - run.first + (run.first - other.first) by omega] at steps
    exact off ((Nat.dvd_add_right (dvd_of_treads treads held)).mp steps)

end CaseRun

/-- A character stays, or it is moved to where a run that covers it leads. -/
theorem moveCase_cases {runs : List CaseRun} (lands : runs.all CaseRun.lands = true) (c : Char) :
    (∀ run ∈ runs, run.covers c.toNat = false) ∧ moveCase runs c = c ∨
      ∃ run ∈ runs, run.image.covers (moveCase runs c).toNat = true := by
  cases found : runs.find? (·.covers c.toNat) with
  | none =>
      refine .inl ⟨fun run mem => ?_, by rw [moveCase, found]⟩
      exact Bool.eq_false_iff.mpr (List.find?_eq_none.mp found run mem)
  | some run =>
      have mem := List.mem_of_find?_eq_some found
      have held : run.covers c.toNat = true := by simpa using List.find?_some found
      have legal := List.all_eq_true.mp lands run mem
      simp only [CaseRun.lands, Bool.and_eq_true, Bool.or_eq_true, decide_eq_true_eq] at legal
      have image := CaseRun.covers_image legal.1 held
      obtain ⟨first, last, -⟩ := CaseRun.covers_iff.mp image
      refine .inr ⟨run, mem, ?_⟩
      have valid : (c.toNat + run.shift).toNat.isValidChar := by
        unfold Nat.isValidChar
        omega
      rw [moveCase, found, Char.toNat_ofNat, if_pos valid]
      exact image

/-! ## The tables -/

/-- Whether the table has a lower-case form for a character. -/
def hasLower (c : Char) : Bool := lowerRuns.any (·.covers c.toNat)

theorem lowerRuns_land : lowerRuns.all CaseRun.lands = true := by decide +kernel

theorem upperRuns_land : upperRuns.all CaseRun.lands = true := by decide +kernel

theorem lowerRuns_avoid :
    (lowerRuns.all fun run => lowerRuns.all run.image.avoids) = true := by decide +kernel

theorem upperRuns_within :
    (upperRuns.all fun run => lowerRuns.any run.image.within) = true := by decide +kernel

theorem hasLower_eq_false_iff {c : Char} :
    hasLower c = false ↔ ∀ run ∈ lowerRuns, run.covers c.toNat = false := by
  simp [hasLower, List.any_eq_false]

theorem toLower_of_hasLower {c : Char} (none : hasLower c = false) : toLower c = c := by
  rw [toLower, moveCase, List.find?_eq_none.mpr]
  intro run mem
  exact Bool.eq_false_iff.mp (hasLower_eq_false_iff.mp none run mem)

/-- What is in lower case has no lower-case form of its own. -/
theorem hasLower_toLower (c : Char) : hasLower (toLower c) = false := by
  rw [hasLower_eq_false_iff, toLower]
  obtain ⟨none, stays⟩ | ⟨run, mem, image⟩ := moveCase_cases lowerRuns_land c
  · rwa [stays]
  · intro other held
    have apart := List.all_eq_true.mp (List.all_eq_true.mp lowerRuns_avoid run mem) other held
    exact CaseRun.not_covers_of_avoids apart image

/-- What a character becomes in upper case has a lower-case form. -/
theorem toUpper_eq_or_hasLower (c : Char) : toUpper c = c ∨ hasLower (toUpper c) = true := by
  obtain ⟨-, stays⟩ | ⟨run, mem, image⟩ := moveCase_cases upperRuns_land c
  · exact .inl stays
  · have listed := List.all_eq_true.mp upperRuns_within run mem
    obtain ⟨other, held, inside⟩ := List.any_eq_true.mp listed
    exact .inr (List.any_eq_true.mpr ⟨other, held, CaseRun.covers_of_within inside image⟩)

@[simp] theorem toLower_toLower (c : Char) : toLower (toLower c) = toLower c :=
  toLower_of_hasLower (hasLower_toLower c)

theorem hasLower_of_toLower {c : Char} (lower : toLower c = c) : hasLower c = false :=
  lower ▸ hasLower_toLower c

end TableLexer.Unicode

namespace TableLexer.Text

/-- A character in lower case is a variant of itself and of no other character in lower case. -/
theorem mem_caseVariants_iff {c d : Char} (lower : Unicode.toLower c = c)
    (lower' : Unicode.toLower d = d) : d ∈ caseVariants c ↔ d = c := by
  rw [caseVariants, List.mem_cons, List.mem_singleton, lower]
  constructor
  · rintro (same | upper)
    · exact same
    · obtain stays | moved := Unicode.toUpper_eq_or_hasLower c
      · exact upper.trans stays
      · rw [← upper, Unicode.hasLower_of_toLower lower'] at moved
        cases moved
  · exact .inl

end TableLexer.Text
