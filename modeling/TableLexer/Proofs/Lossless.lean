import Mathlib.Data.List.Chain
import TableLexer.Proofs.Scanning

/-!
# Scans with compiled tables are lossless

The tokens of a text, put together in order, are the text, and each of them begins where the one
before it ends. This holds of every rule set, whichever case its rules are in: cutting a text into
segments loses nothing, and joining them loses nothing either.
-/

namespace TableLexer

namespace Segment

variable {ι : Type}

theorem head?_locate (start : Position) (ps : List (Segment ι)) :
    ∀ first ∈ (locate start ps).head?, first.1 = start := by
  intro first mem
  cases ps with
  | nil => cases mem
  | cons p ps =>
      cases mem
      rfl

/-- Each located segment begins where the one before it ends. -/
theorem isChain_locate (start : Position) (ps : List (Segment ι)) :
    (locate start ps).IsChain fun before after => after.1 = before.1.afterAll before.2.text := by
  induction ps generalizing start with
  | nil => exact .nil
  | cons p ps ih =>
      have rest := ih (start.afterAll p.text)
      rw [locate]
      cases ps with
      | nil => exact .singleton _
      | cons q ps => exact .cons_cons rfl rest

end Segment

namespace Blueprint.Lexing

variable {b : Blueprint}

/-- The kind of a token is that of its state, and no token is of the kind that states without text
have. -/
theorem kind_of_mem_join (h : b.Lexing) {text : List Char} {p : Segment StateId}
    (mem : p ∈ Segment.join (b.segments text)) :
    p.kind ≠ .empty ∧ p.kind = (Tables.ofBlueprint b).kindOf p.label := by
  refine Segment.forall_join (P := fun p => p.kind ≠ .empty ∧
    p.kind = (Tables.ofBlueprint b).kindOf p.label) ?_ (fun _ _ kind _ => kind) p mem
  refine h.forall_segments (fun m stops => ⟨h.kindAt_ne_empty stops.reads, ?_⟩) text
  simp only [Munch.segment, stateAt]
  split
  · next word => rw [word, h.toFormed.sound.kindOf_word]
  · exact (kindOf_number stops.mem).symm

end Blueprint.Lexing

/-- The tokens of a text by the tables of a rule set make up the text. None of them is empty,
their kinds are those of their states, and they stand one behind the other from the first position
on. -/
theorem tokenize_lossless (ds : List Declaration) (text : String) :
    let t := (RuleSet.ofDeclarations ds).compile
    let tokens := t.tokenize text false
    String.join (tokens.map Token.text) = text ∧
      (∀ token ∈ tokens,
        token.text ≠ "" ∧ token.kind ≠ .empty ∧ token.kind = t.kindOf token.state) ∧
      (∀ first ∈ tokens.head?, first.start = ⟨1, 1⟩) ∧
      tokens.IsChain fun before after =>
        after.start = before.start.afterAll before.text.toList := by
  intro t tokens
  have h := Blueprint.Lexing.of_declarations ds
  set segments := Segment.join ((RuleSet.ofDeclarations ds).blueprint.segments text.toList)
  have located : tokens = Segment.tokens (Segment.locate .start segments) :=
    h.tokenize_eq text
  refine ⟨?_, ?_, ?_, ?_⟩
  · apply String.toList_injective
    have texts : (tokens.map Token.text).flatMap String.toList =
        ((Segment.locate .start segments).map Prod.snd).flatMap Segment.text := by
      simp [located, List.flatMap_map, Segment.tokens, Segment.token]
    rw [String.toList_join, texts, Segment.map_snd_locate, Segment.flatMap_join,
      Blueprint.flatMap_segments]
  · intro token mem
    rw [located] at mem
    obtain ⟨start, p, held, rfl⟩ := Segment.mem_tokens.mp mem
    have known : p ∈ segments := Segment.mem_of_mem_locate held
    refine ⟨?_, h.kind_of_mem_join known⟩
    have more := Blueprint.text_ne_of_mem_join known
    simpa [Segment.token, ← String.toList_eq_nil_iff] using more
  · intro first mem
    rw [located, Segment.tokens, List.head?_map] at mem
    obtain ⟨⟨start, p⟩, held, rfl⟩ := Option.map_eq_some_iff.mp mem
    exact Segment.head?_locate .start segments _ held
  · rw [located, Segment.tokens, List.isChain_map]
    apply (Segment.isChain_locate .start segments).imp
    intro before after next
    simpa [Segment.token] using next

end TableLexer
