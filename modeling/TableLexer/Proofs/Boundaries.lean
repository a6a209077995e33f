import TableLexer.Proofs.Scanning

/-!
# Token boundaries are clean cuts

Nothing that a scan has met before a token boundary matters behind it, and nothing behind the
boundary matters before it. A segment ends where its characters cannot be continued, and the end of
the stream continues nothing either; so a text that stops at the end of a segment is cut like the
longer one. Word text is joined across segments, but a boundary between two tokens is one between
two segments that are not joined.
-/

namespace TableLexer

namespace Segment

variable {ι : Type} {p q : Segment ι} {ps : List (Segment ι)}

/-- A segment either joins the first of those behind it or stands alone. -/
theorem before_cases (p : Segment ι) (ps : List (Segment ι)) :
    (∃ q rest, ps = q :: rest ∧ p.kind = .word ∧ q.kind = .word) ∨
      ∀ count, p.before (ps.take count) = p :: ps.take count := by
  cases ps with
  | nil => exact .inr fun count => by rw [List.take_nil, before]
  | cons q rest =>
      by_cases both : p.kind = .word ∧ q.kind = .word
      · exact .inl ⟨q, rest, rfl, both⟩
      · refine .inr fun count => ?_
        cases count with
        | zero => rfl
        | succ count => exact if_neg both

/-- Any number of tokens is made by some number of segments, and the other tokens by the other
segments. -/
theorem exists_take_join (ps : List (Segment ι)) (count : Nat) : ∃ n,
    join (ps.take n) = (join ps).take count ∧ join (ps.drop n) = (join ps).drop count := by
  induction ps generalizing count with
  | nil => exact ⟨0, by simp, by simp⟩
  | cons p ps ih =>
      cases count with
      | zero => exact ⟨0, rfl, rfl⟩
      | succ count =>
          obtain ⟨q, more, joined, both⟩ | apart := p.before_cases (join ps)
          · -- The segment and the first token of the others count once.
            obtain ⟨n, front, rest⟩ := ih (count + 1)
            refine ⟨n + 1, ?_, ?_⟩
            · simp only [List.take_succ_cons, join_cons, front, joined, before_cons, if_pos both]
            · simpa only [List.drop_succ_cons, join_cons, joined, before_cons, if_pos both]
                using rest
          · obtain ⟨n, front, rest⟩ := ih count
            have whole : p.before (join ps) = p :: join ps := by
              simpa using apart (join ps).length
            refine ⟨n + 1, ?_, ?_⟩
            · simp only [List.take_succ_cons, join_cons, front, whole, apart count]
            · simpa only [List.drop_succ_cons, join_cons, whole] using rest

theorem locate_take (start : Position) (ps : List (Segment ι)) (count : Nat) :
    locate start (ps.take count) = (locate start ps).take count := by
  induction ps generalizing start count with
  | nil => simp [locate]
  | cons p ps ih =>
      cases count with
      | zero => rfl
      | succ count => simp only [List.take_succ_cons, locate, ih]

end Segment

namespace Blueprint

/-- What is gathered at one go does not depend on how far the text goes on behind it. -/
theorem munch_of_prefix (b : Blueprint) (place : Place) (input : List Char) {front : List Char}
    (part : front <+: (b.munch place input).rest) :
    b.munch place ((b.munch place input).text ++ front) =
      { b.munch place input with rest := front } := by
  induction input generalizing place with
  | nil =>
      obtain rfl : front = [] := List.prefix_nil.mp part
      rfl
  | cons c rest ih =>
      by_cases more : (b.onward place (some c)).consumes = true
      · have cut : b.munch place (c :: rest) = (b.munch (b.onward place (some c)) rest).carry c :=
          if_pos more
        have longer : ∀ text, b.munch place (c :: text) =
            (b.munch (b.onward place (some c)) text).carry c := fun _ => if_pos more
        simp only [cut, Munch.carry] at part ⊢
        rw [List.cons_append, longer, ih _ part]
        rfl
      · have cut : ∀ text, b.munch place (c :: text) = ⟨[], place, c :: text⟩ :=
          fun _ => if_neg more
        simp only [cut, List.nil_append] at part ⊢
        cases front with
        | nil => rfl
        | cons d front =>
            obtain ⟨rfl, -⟩ := List.cons_prefix_cons.mp part
            exact cut front

/-- The first segment stays the same if the text ends somewhere behind it. -/
theorem segments_of_prefix (b : Blueprint) (c : Char) (rest : List Char) {front : List Char}
    (part : front <+: (b.first c rest).rest) :
    b.segments ((b.first c rest).text ++ front) =
      (b.first c rest).segment b :: b.segments front := by
  have same : b.first c ((b.munch (b.onward .startToken (some c)) rest).text ++ front) =
      { b.first c rest with rest := front } :=
    congrArg (Munch.carry c) (b.munch_of_prefix _ rest part)
  have cut := b.segments_cons c ((b.munch (b.onward .startToken (some c)) rest).text ++ front)
  rw [same] at cut
  exact cut

/-- A text that is divided behind some of its segments is cut like the two parts. -/
theorem exists_segments_split (b : Blueprint) (text : List Char) (count : Nat) :
    ∃ front rest, text = front ++ rest ∧ b.segments front = (b.segments text).take count ∧
      b.segments rest = (b.segments text).drop count := by
  induction text using segments.induct b generalizing count with
  | case1 => exact ⟨[], [], rfl, by simp, by simp⟩
  | case2 c rest ih =>
      cases count with
      | zero => exact ⟨[], c :: rest, rfl, by simp, rfl⟩
      | succ count =>
          obtain ⟨front, back, whole, before, behind⟩ := ih count
          refine ⟨(b.first c rest).text ++ front, back, ?_, ?_, ?_⟩
          · calc c :: rest = (b.first c rest).text ++ (b.first c rest).rest :=
                  (b.first_append c rest).symm
              _ = (b.first c rest).text ++ front ++ back := by rw [whole, List.append_assoc]
          · rw [b.segments_of_prefix c rest ⟨back, whole.symm⟩, before, segments_cons]
            rfl
          · rw [behind, segments_cons]
            rfl

end Blueprint

/-- What a token is apart from its place: its kind, its text and its state. -/
def Token.content (token : Token) : Segment StateId :=
  ⟨token.kind, token.text.toList, token.state⟩

theorem Segment.map_content_tokens (start : Position) (ps : List (Segment StateId)) :
    (tokens (locate start ps)).map Token.content = ps := by
  have same : (tokens (locate start ps)).map Token.content = (locate start ps).map Prod.snd := by
    rw [tokens, List.map_map]
    apply List.map_congr_left
    rintro ⟨start, p⟩ -
    simp [Token.content, Segment.token]
  exact same.trans (map_snd_locate start ps)

/-- A text may be divided behind any of its tokens. The tokens before the boundary are the tokens of
the text up to it, and those behind it are the tokens of what is left, but for the places where they
begin. -/
theorem tokenize_splits_at_boundaries (ds : List Declaration) (text : String) (count : Nat) :
    let t := (RuleSet.ofDeclarations ds).compile
    let tokens := t.tokenize text false
    let front := String.join ((tokens.take count).map Token.text)
    t.tokenize front false = tokens.take count ∧
      ∃ rest, text = front ++ rest ∧
        (t.tokenize rest false).map Token.content = (tokens.drop count).map Token.content := by
  intro t tokens front
  have h := Blueprint.Lexing.of_declarations ds
  let b := (RuleSet.ofDeclarations ds).blueprint
  have located : ∀ text, t.tokenize text false =
      Segment.tokens (Segment.locate .start (Segment.join (b.segments text.toList))) :=
    h.tokenize_eq
  -- The boundary between the tokens is one between segments, and the text is divided there.
  obtain ⟨n, joined, joined'⟩ := Segment.exists_take_join (b.segments text.toList) count
  obtain ⟨before, behind, whole, cut, cut'⟩ := b.exists_segments_split text.toList n
  have taken : tokens.take count =
      Segment.tokens (Segment.locate .start (Segment.join (b.segments before))) := by
    rw [cut, joined, Segment.locate_take, show tokens = _ from located text]
    exact List.map_take.symm
  have spelled : front.toList = before := by
    show (String.join ((tokens.take count).map Token.text)).toList = before
    rw [taken, Segment.toList_join_tokens, Segment.flatMap_join, Blueprint.flatMap_segments]
  refine ⟨?_, String.ofList behind, ?_, ?_⟩
  · rw [located, spelled, taken]
  · apply String.toList_injective
    simp [spelled, whole]
  · have dropped : (tokens.drop count).map Token.content =
        (Segment.join (b.segments text.toList)).drop count := by
      rw [List.map_drop, show tokens = _ from located text, Segment.map_content_tokens]
    rw [located, Segment.map_content_tokens, String.toList_ofList, cut', joined', dropped]

end TableLexer
