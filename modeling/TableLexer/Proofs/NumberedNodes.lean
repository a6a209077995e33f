import Mathlib.Data.List.Induction
import TableLexer.Proofs.Paths

/-!
# Numbered nodes

The nodes of a trie are numbered in the order of their creation, and the root has the number zero.
Walking from the root along the characters of a text leads to the node that spells it, if there is
one, so that numbers and texts determine each other. What a node carries is decided by two of the
calls that made the trie: the first one that passed through the node and the last one that ended
there.
-/

namespace TableLexer

namespace RuleTrie

/-- The number of the node reached from a numbered node along the characters of a text. -/
def follow? (t : RuleTrie) (id : Nat) (text : List Char) : Option Nat := text.foldlM t.child? id

/-- The node with a number. The root is none. -/
def nodeAt? (t : RuleTrie) (id : Nat) : Option TrieNode := (t.path? id).bind t.node?

/-- The characters below a numbered node, each with the number of the node that it leads to. -/
def branches (t : RuleTrie) (id : Nat) : List (Char × Nat) :=
  (t.path? id).elim [] fun path => (t.children path).filterMap fun c => (t.child? id c).map (c, ·)

/-- With every text that is not empty, the trie has the text without its last character. -/
def PrefixClosed (t : RuleTrie) : Prop :=
  ∀ {path : List Char} {c : Char}, path ≠ [] → t.contains (path ++ [c]) = true →
    t.contains path = true

variable {t : RuleTrie} {path other : List Char} {id : Nat} {c : Char}

theorem PrefixClosed.ofCalls (calls : List TrieCall) : (ofCalls calls).PrefixClosed := by
  intro path c more held
  obtain ⟨-, call, mem, begins⟩ := (contains_ofCalls calls _).mp held
  exact (contains_ofCalls calls path).mpr
    ⟨more, call, mem, (List.prefix_append path [c]).trans begins⟩

/-! ## Numbers and texts -/

/-- A number other than the root's belongs to the node that spells the text. -/
theorem Formed.idOf?_eq_some_iff (h : t.Formed) :
    t.idOf? path = some id ↔ id ≠ 0 ∧ t.path? id = some path := by
  cases id with
  | zero => simp [idOf?]
  | succ i =>
      have found : t.nodes.findIdx? (·.path == path) = some i ↔
          (t.nodes[i]?).map TrieNode.path = some path := by
        rw [List.findIdx?_eq_some_iff_getElem, Option.map_eq_some_iff]
        constructor
        · rintro ⟨inside, same, -⟩
          exact ⟨_, List.getElem?_eq_getElem inside, by simpa using same⟩
        · rintro ⟨node, at_i, rfl⟩
          obtain ⟨inside, rfl⟩ := List.getElem?_eq_some_iff.mp at_i
          refine ⟨inside, by simp, fun j before same => ?_⟩
          have distinct := List.pairwise_map.mp h.nodup
          exact List.pairwise_iff_getElem.mp distinct j i _ inside before (by simpa using same)
      simp [idOf?, path?, found]

theorem Formed.path?_of_idOf? (h : t.Formed) (found : t.idOf? path = some id) :
    t.path? id = some path :=
  (h.idOf?_eq_some_iff.mp found).2

/-- Only the root spells the empty text. -/
theorem ne_zero_of_path? (spells : t.path? id = some path) (more : path ≠ []) : id ≠ 0 := by
  rintro rfl
  exact more (Option.some.inj spells).symm

theorem Formed.idOf?_of_path? (h : t.Formed) (spells : t.path? id = some path)
    (more : path ≠ []) : t.idOf? path = some id :=
  h.idOf?_eq_some_iff.mpr ⟨ne_zero_of_path? spells more, spells⟩

theorem isSome_idOf? (path : List Char) : (t.idOf? path).isSome = t.contains path := by
  simp [idOf?, contains, List.findIdx?_isSome]

theorem contains_of_idOf? (found : t.idOf? path = some id) : t.contains path = true :=
  (isSome_idOf? path).symm.trans (Option.isSome_of_eq_some found)

/-- What the trie has is spelled by a node. -/
theorem exists_idOf? (held : t.contains path = true) : ∃ id, t.idOf? path = some id :=
  Option.isSome_iff_exists.mp ((isSome_idOf? path).trans held)

theorem Formed.idOf?_nil (h : t.Formed) : t.idOf? [] = none := by
  refine Option.eq_none_iff_forall_ne_some.mpr fun id found => ?_
  obtain ⟨other, spells⟩ := h.idOf?_eq_some_iff.mp found
  cases id with
  | zero => exact other rfl
  | succ i =>
      obtain ⟨node, held, root⟩ := Option.map_eq_some_iff.mp spells
      exact h.path_ne_nil node (List.mem_of_getElem? held) root

/-- Two numbers never spell the same text. -/
theorem Formed.path?_inj (h : t.Formed) {id' : Nat} (one : t.path? id = some path)
    (two : t.path? id' = some path) : id = id' := by
  by_cases root : path = []
  · subst root
    have zero : ∀ {id : Nat}, t.path? id = some [] → id = 0 := by
      intro id spells
      by_contra other
      cases h.idOf?_nil.symm.trans (h.idOf?_eq_some_iff.mpr ⟨other, spells⟩)
    exact (zero one).trans (zero two).symm
  · exact Option.some.inj ((h.idOf?_of_path? one root).symm.trans (h.idOf?_of_path? two root))

/-- A step from a node goes to the node that spells one character more. -/
theorem Formed.child?_eq_some_iff (h : t.Formed) {parent : Nat} :
    t.child? parent c = some id ↔
      ∃ path, t.path? parent = some path ∧ t.path? id = some (path ++ [c]) := by
  constructor
  · intro step
    obtain ⟨path, spells, found⟩ := Option.bind_eq_some_iff.mp step
    exact ⟨path, spells, h.path?_of_idOf? found⟩
  · rintro ⟨path, spells, longer⟩
    simpa [child?, spells] using h.idOf?_of_path? longer (by simp)

theorem follow?_concat (t : RuleTrie) (id : Nat) (path : List Char) (c : Char) :
    t.follow? id (path ++ [c]) = (t.follow? id path).bind (t.child? · c) := by
  simp [follow?, List.foldlM_append]

/-- Following a text leads to the node that spells it. -/
theorem Formed.follow?_eq_some_iff (h : t.Formed) (closed : t.PrefixClosed) :
    t.follow? 0 path = some id ↔ t.path? id = some path := by
  induction path using List.reverseRecOn generalizing id with
  | nil =>
      constructor
      · intro here
        cases here
        rfl
      · intro spells
        have root : t.path? 0 = some [] := rfl
        exact congrArg some (h.path?_inj root spells)
  | append_singleton path c ih =>
      rw [follow?_concat, Option.bind_eq_some_iff]
      constructor
      · rintro ⟨parent, reached, step⟩
        obtain ⟨path', spells, longer⟩ := h.child?_eq_some_iff.mp step
        obtain rfl : path = path' := Option.some.inj ((ih.mp reached).symm.trans spells)
        exact longer
      · intro longer
        have parent : ∃ parent, t.path? parent = some path := by
          by_cases root : path = []
          · exact ⟨0, congrArg some root.symm⟩
          · have held : t.contains (path ++ [c]) = true :=
              contains_of_idOf? (h.idOf?_of_path? longer (by simp))
            obtain ⟨parent, found⟩ := exists_idOf? (closed root held)
            exact ⟨parent, h.path?_of_idOf? found⟩
        obtain ⟨parent, spells⟩ := parent
        exact ⟨parent, ih.mpr spells, h.child?_eq_some_iff.mpr ⟨path, spells, longer⟩⟩

/-- A text can be followed to its end if the trie has it. -/
theorem Formed.isSome_follow? (h : t.Formed) (closed : t.PrefixClosed) (more : path ≠ []) :
    (t.follow? 0 path).isSome = t.contains path := by
  have same : t.follow? 0 path = t.idOf? path := Option.ext fun id =>
    ⟨fun reached => h.idOf?_of_path? ((h.follow?_eq_some_iff closed).mp reached) more,
      fun found => (h.follow?_eq_some_iff closed).mpr (h.path?_of_idOf? found)⟩
  rw [same, isSome_idOf?]

theorem nodeAt?_eq (spells : t.path? id = some path) : t.nodeAt? id = t.node? path := by
  rw [nodeAt?, spells, Option.bind_some]

/-! ## Branches -/

/-- The branches of a node are the steps that can be made from it. -/
theorem Formed.mem_branches_iff (h : t.Formed) {parent : Nat} :
    (c, id) ∈ t.branches parent ↔ t.child? parent c = some id := by
  constructor
  · intro mem
    cases spells : t.path? parent with
    | none => simp [branches, spells] at mem
    | some path =>
        simp only [branches, spells, Option.elim_some, List.mem_filterMap] at mem
        obtain ⟨d, -, step⟩ := mem
        obtain ⟨id', step, same⟩ := Option.map_eq_some_iff.mp step
        cases same
        exact step
  · intro step
    obtain ⟨path, spells, longer⟩ := h.child?_eq_some_iff.mp step
    have found := (Option.bind_eq_some_iff.mp step)
    obtain ⟨path', spells', found⟩ := found
    obtain rfl : path = path' := Option.some.inj (spells.symm.trans spells')
    have held : c ∈ t.children path := mem_children_iff.mpr (contains_of_idOf? found)
    simp only [branches, spells, Option.elim_some, List.mem_filterMap]
    exact ⟨c, held, by rw [step, Option.map_some]⟩

theorem children_eq_filterMap (t : RuleTrie) (path : List Char) :
    t.children path = (t.nodes.map TrieNode.path).filterMap (nextAfter? path) := by
  rw [children, List.filterMap_map]
  rfl

/-- No character leads to two nodes. -/
theorem Formed.children_nodup (h : t.Formed) (path : List Char) : (t.children path).Nodup := by
  rw [children_eq_filterMap]
  refine h.nodup.filterMap fun one two c first second => ?_
  have longer := nextAfter?_eq_some.mp first
  exact longer.trans (nextAfter?_eq_some.mp second).symm

theorem Formed.map_fst_branches_nodup (h : t.Formed) (id : Nat) :
    ((t.branches id).map Prod.fst).Nodup := by
  cases spells : t.path? id with
  | none => simp [branches, spells]
  | some path =>
      simp only [branches, spells, Option.elim_some, List.map_filterMap, Option.map_map,
        Function.comp_def]
      refine (h.children_nodup path).filterMap fun one two c first second => ?_
      obtain ⟨-, -, rfl⟩ := Option.map_eq_some_iff.mp first
      obtain ⟨-, -, rfl⟩ := Option.map_eq_some_iff.mp second
      rfl

/-! ## What a node carries -/

section Calls

variable {calls : List TrieCall}

/-- The last call that registered a text. -/
def lastFor? (calls : List TrieCall) (text : List Char) : Option TrieCall :=
  (calls.filter (·.text = text)).getLast?

/-- The first call that passed through the node of a text. -/
def creatorOf? (calls : List TrieCall) (text : List Char) : Option TrieCall :=
  calls.find? (text.isPrefixOf ·.text)

/-- Whether an escaping call registered a text. -/
def escapes (calls : List TrieCall) (text : List Char) : Bool :=
  calls.any fun call => call.escaped && call.text = text

theorem ofCalls_concat (calls : List TrieCall) (call : TrieCall) :
    ofCalls (calls ++ [call]) = (ofCalls calls).enter call := by
  simp [ofCalls]

theorem lastFor?_concat (calls : List TrieCall) (call : TrieCall) (text : List Char) :
    lastFor? (calls ++ [call]) text =
      if call.text = text then some call else lastFor? calls text := by
  by_cases same : call.text = text <;> simp [lastFor?, List.filter_append, same]

theorem creatorOf?_concat (calls : List TrieCall) (call : TrieCall) (text : List Char) :
    creatorOf? (calls ++ [call]) text =
      (creatorOf? calls text).or (if text <+: call.text then some call else none) := by
  simp [creatorOf?, List.find?_append, List.find?_singleton]

theorem escapes_concat (calls : List TrieCall) (call : TrieCall) (text : List Char) :
    escapes (calls ++ [call]) text = (escapes calls text || call.escaped && call.text = text) := by
  simp [escapes]

/-- Without a creator, no call registered the text. -/
theorem text_ne_of_creatorOf?_eq_none (none : creatorOf? calls path = none) :
    ∀ call ∈ calls, call.text ≠ path := by
  rintro call mem rfl
  simpa using List.find?_eq_none.mp none call mem

theorem lastFor?_eq_none (other : ∀ call ∈ calls, call.text ≠ path) :
    lastFor? calls path = none := by
  simpa [lastFor?] using other

theorem escapes_eq_false (other : ∀ call ∈ calls, call.text ≠ path) :
    escapes calls path = false := by
  simpa [escapes] using fun call mem _ => other call mem

/-- A node does what the last call for its text says. It has the escape mark if the call that
created it was an escaping one, or if an escaping call ended there. -/
theorem node?_ofCalls (calls : List TrieCall) (more : path ≠ []) :
    (ofCalls calls).node? path = (creatorOf? calls path).map fun creator =>
      ⟨path, (lastFor? calls path).map TrieCall.accept,
        creator.escaped || escapes calls path⟩ := by
  induction calls using List.reverseRecOn with
  | nil => rfl
  | append_singleton calls call ih =>
      rw [ofCalls_concat, node?_enter, ih, creatorOf?_concat, lastFor?_concat, escapes_concat]
      by_cases passes : path <+: call.text
      · cases created : creatorOf? calls path with
        | some creator =>
            by_cases ends : call.text = path
            · simp [more, ends, Bool.or_assoc]
            · simp [more, passes, ends, Ne.symm ends]
        | none =>
            have other := text_ne_of_creatorOf?_eq_none created
            by_cases ends : call.text = path
            · simp [more, ends, escapes_eq_false other]
            · simp [more, passes, ends, Ne.symm ends, escapes_eq_false other,
                lastFor?_eq_none other]
      · have ends : call.text ≠ path := fun same => passes (same ▸ List.prefix_refl _)
        simp [passes, ends, Ne.symm ends]

theorem text_of_lastFor? {text : List Char} {call : TrieCall}
    (last : lastFor? calls text = some call) : call.text = text := by
  simpa using (List.mem_filter.mp (List.mem_of_getLast? last)).2

theorem escapes_eq_true_iff {text : List Char} :
    escapes calls text = true ↔ ∃ call ∈ calls, call.escaped = true ∧ call.text = text := by
  simp [escapes]

/-- The node that spells a text was created by a call, and carries what the calls left there. -/
theorem exists_nodeAt? (more : path ≠ []) (spells : (ofCalls calls).path? id = some path) :
    ∃ creator, creatorOf? calls path = some creator ∧
      (ofCalls calls).nodeAt? id = some ⟨path, (lastFor? calls path).map TrieCall.accept,
        creator.escaped || escapes calls path⟩ := by
  have found := (Formed.ofCalls calls).idOf?_of_path? spells more
  have held : ((ofCalls calls).node? path).isSome :=
    (contains_eq_isSome path).symm.trans (contains_of_idOf? found)
  rw [node?_ofCalls calls more, Option.isSome_map, Option.isSome_iff_exists] at held
  obtain ⟨creator, created⟩ := held
  refine ⟨creator, created, ?_⟩
  rw [nodeAt?_eq spells, node?_ofCalls calls more, created, Option.map_some]

end Calls

end RuleTrie

end TableLexer
