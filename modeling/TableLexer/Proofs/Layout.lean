import Mathlib.Algebra.GroupWithZero.Nat
import Mathlib.Data.List.Flatten
import TableLexer.Proofs.Columns
import TableLexer.Proofs.Paths
import TableLexer.Tables

/-!
# Layout of an automaton

The states of an automaton are the places of its rule forest, each once, so that a state's number
and its place determine each other. Statements about the numbered rows of compiled tables can then
be made about places and their rows: the next state of a place's number is the number of the place
that the row leads to.
-/

namespace TableLexer

namespace Place

/-- Whether the scan reads on at a place. The other four places steer it. -/
def consumes : Place → Bool
  | finish | startToken | endToken | flush => false
  | _ => true

end Place

namespace Region

theorem kind_ne_empty (region : Region) : region.kind ≠ .empty := by
  cases region <;> exact TokenKind.noConfusion

theorem kind_ne_word (region : Region) : region.kind ≠ .word := by
  cases region <;> exact TokenKind.noConfusion

theorem isExact_kind (region : Region) : region.kind.isExact = false := by
  cases region <;> rfl

end Region

namespace RuleForest

/-- The tries are well formed, and an opening text opens only comments and literals that are
there. -/
structure Formed (f : RuleForest) : Prop where
  opening : f.opening.Formed
  comments : ∀ t ∈ f.comments, t.Formed
  literals : ∀ t ∈ f.literals, t.Formed
  opens_mem : ∀ {path : List Char} {region : Region},
    f.opening.accept? path = some (.opens region) → region ∈ f.regions

variable {f : RuleForest}

theorem mem_regions {region : Region} : region ∈ f.regions ↔
    match region with
    | .comment i => i < f.comments.length
    | .literal i => i < f.literals.length := by
  cases region <;> simp [regions]

theorem regions_nodup (f : RuleForest) : f.regions.Nodup := by
  refine List.nodup_append.mpr ⟨?_, ?_, ?_⟩
  · exact List.nodup_range.map fun _ _ same => Region.comment.inj same
  · exact List.nodup_range.map fun _ _ same => Region.literal.inj same
  · simp

theorem Formed.closing (h : f.Formed) (region : Region) : (f.closing region).Formed := by
  have family : ∀ {tries : List RuleTrie} (i : Nat), (∀ t ∈ tries, t.Formed) →
      ((tries[i]?).getD .empty).Formed := by
    intro tries i formed
    cases found : tries[i]? with
    | none => exact .empty
    | some t => exact formed t (List.mem_of_getElem? found)
  cases region with
  | comment i => exact family i h.comments
  | literal i => exact family i h.literals

theorem mem_regionPlaces {region : Region} {place : Place} : place ∈ f.regionPlaces region ↔
    place = .body region ∨
      ∃ path, (f.closing region).contains path = true ∧ place = .closing region path := by
  simp only [regionPlaces, List.mem_cons, List.mem_map, RuleTrie.contains_iff,
    (f.closing region).preorder_perm.mem_iff]
  refine or_congr_right ⟨?_, ?_⟩
  · rintro ⟨node, mem, rfl⟩
    exact ⟨node.path, ⟨node, mem, rfl⟩, rfl⟩
  · rintro ⟨path, ⟨node, mem, rfl⟩, rfl⟩
    exact ⟨node, mem, rfl⟩

/-- The places of a forest, by what they mean. -/
theorem mem_places {place : Place} : place ∈ f.places ↔
    match place with
    | .opening path => f.opening.contains path = true
    | .body region => region ∈ f.regions
    | .closing region path => region ∈ f.regions ∧ (f.closing region).contains path = true
    | _ => True := by
  simp only [places, List.mem_append, List.mem_map, List.mem_flatMap, mem_regionPlaces,
    f.opening.preorder_perm.mem_iff]
  cases place <;> simp [Place.reserved, RuleTrie.contains_iff]

theorem mem_places_of_reserved (f : RuleForest) {place : Place}
    (reserved : place ∈ Place.reserved) :
    place ∈ f.places := by
  simp [places, reserved]

theorem startToken_mem (f : RuleForest) : Place.startToken ∈ f.places :=
  f.mem_places_of_reserved (by decide)

/-- An opening text that does something has a place. -/
theorem opening_mem {path : List Char} {accept : Accept}
    (found : f.opening.accept? path = some accept) : Place.opening path ∈ f.places :=
  mem_places.mpr (RuleTrie.contains_of_accept? found)

/-- What is gathered at an opening text depends on what the text does. -/
theorem kindAt_opening {path : List Char} {accept? : Option Accept}
    (found : f.opening.accept? path = accept?) :
    f.kindAt (.opening path) = (accept?.map Accept.kind).getD .word := by
  rw [← found]
  rfl

/-- Six reserved states, one for each node of the opening trie, and for each comment and literal
one for the body and one for each node of the closing trie. -/
theorem length_places (f : RuleForest) : f.places.length =
    6 + f.opening.size + (f.comments.map fun t => 1 + t.size).sum +
      (f.literals.map fun t => 1 + t.size).sum := by
  have single : ∀ region, (f.regionPlaces region).length = 1 + (f.closing region).size := by
    intro region
    simp [regionPlaces, RuleTrie.length_preorder, Nat.add_comm]
  have family : ∀ tries : List RuleTrie, ((List.range tries.length).map fun i =>
      1 + ((tries[i]?).getD .empty).size) = tries.map fun t => 1 + t.size := by
    intro tries
    apply List.ext_getElem (by simp)
    intro i low high
    simp only [List.length_map] at high
    simp [high]
  simp only [places, List.length_append, List.length_map, List.length_flatMap, regions,
    List.map_append, List.map_map, List.sum_append, Function.comp_def, single, closing, family,
    RuleTrie.length_preorder]
  simp [Place.reserved, Nat.add_assoc]

theorem Formed.regionPlaces_nodup (h : f.Formed) (region : Region) :
    (f.regionPlaces region).Nodup := by
  refine List.nodup_cons.mpr ⟨by simp, ?_⟩
  have paths : ((f.closing region).preorder.map TrieNode.path).Nodup :=
    ((f.closing region).preorder_perm.map _).nodup_iff.mpr (h.closing region).nodup
  have := paths.map (f := Place.closing region) fun _ _ same => (Place.closing.inj same).2
  rwa [List.map_map] at this

/-- No two states have the same meaning. -/
theorem Formed.places_nodup (h : f.Formed) : f.places.Nodup := by
  have paths : (f.opening.preorder.map TrieNode.path).Nodup :=
    (f.opening.preorder_perm.map _).nodup_iff.mpr h.opening.nodup
  have openings := paths.map (f := Place.opening) fun _ _ same => Place.opening.inj same
  rw [List.map_map] at openings
  have bodies : (f.regions.flatMap f.regionPlaces).Nodup := by
    refine List.nodup_flatMap.mpr ⟨fun region _ => h.regionPlaces_nodup region, ?_⟩
    refine f.regions_nodup.imp fun {one other} apart => ?_
    simp only [Function.onFun, List.disjoint_left, mem_regionPlaces]
    rintro _ (rfl | ⟨path, -, rfl⟩) (same | ⟨path', -, same⟩)
    · exact apart (Place.body.inj same)
    · cases same
    · cases same
    · exact apart (Place.closing.inj same).1
  refine List.nodup_append.mpr ⟨List.nodup_append.mpr ⟨by decide, openings, ?_⟩, bodies, ?_⟩
  · simp [Place.reserved]
  · simp only [List.mem_append, List.mem_map, List.mem_flatMap, mem_regionPlaces]
    rintro place (reserved | ⟨node, -, rfl⟩) _ ⟨region, -, rfl | ⟨path, -, rfl⟩⟩
    · rintro rfl
      simp [Place.reserved] at reserved
    · rintro rfl
      simp [Place.reserved] at reserved
    · simp
    · simp

end RuleForest

namespace Blueprint

/-- The state of a place. -/
def number (b : Blueprint) (place : Place) : StateId := b.forest.places.idxOf place

variable {b : Blueprint} {place other : Place} {s : Symbol}

theorem number_lt (mem : place ∈ b.forest.places) : b.number place < b.forest.places.length :=
  List.idxOf_lt_length_of_mem mem

theorem places_number (mem : place ∈ b.forest.places) :
    b.forest.places[b.number place]? = some place := by
  rw [List.getElem?_eq_getElem (number_lt mem)]
  exact congrArg some (List.getElem_idxOf _)

theorem number_inj (mem : place ∈ b.forest.places) :
    b.number place = b.number other ↔ place = other := List.idxOf_inj mem

/-- Every state has a place. -/
theorem exists_number_eq (h : b.forest.Formed) {state : StateId}
    (inside : state < b.forest.places.length) :
    ∃ place ∈ b.forest.places, b.number place = state :=
  ⟨_, List.getElem_mem inside, h.places_nodup.idxOf_getElem state inside⟩

/-- The numbers of the steering places are reserved, so the control of a state follows its place. -/
theorem control_number (b : Blueprint) (place : Place) : Control.ofState (b.number place) =
    match place with
    | .finish => .finish
    | .startToken => .startToken
    | .endToken => .endToken
    | .flush => .flush
    | _ => .advance := by
  have far : place ∉ Place.reserved → 6 ≤ b.number place := by
    intro apart
    rw [number, RuleForest.places, List.append_assoc, List.idxOf_append_of_notMem apart]
    exact Nat.le_add_right _ _
  have beyond : ∀ n : Nat, 4 ≤ n → Control.ofState n = .advance := by
    intro n low
    match n with
    | n + 4 => rfl
  cases place with
  | finish | startToken | endToken | flush | word | separatorRun => rfl
  | opening | body | closing =>
      refine beyond _ (Nat.le_trans (by decide) (far ?_))
      simp [Place.reserved]

theorem control_number_of_consumes (stays : place.consumes = true) :
    Control.ofState (b.number place) = .advance := by
  rw [control_number]
  cases place <;> first | rfl | cases stays

theorem next_number (mem : place ∈ b.forest.places) (inside : s < b.alphabet.size) :
    (Tables.ofBlueprint b).next (b.number place) s = b.number ((b.row place).target s) := by
  simp only [Tables.next, Tables.ofBlueprint, automaton, List.getElem?_toArray, List.getElem?_map,
    places_number mem, Option.map_some, Option.bind_some, Row.numbered, List.getElem?_range inside,
    Option.getD_some]
  rfl

theorem kindOf_number (mem : place ∈ b.forest.places) :
    (Tables.ofBlueprint b).kindOf (b.number place) = b.forest.kindAt place := by
  simp only [Tables.kindOf, Tables.ofBlueprint, automaton, List.getElem?_toArray,
    List.getElem?_map, places_number mem, Option.map_some, Option.getD_some]

end Blueprint

end TableLexer
