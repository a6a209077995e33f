import Mathlib.Data.List.Infix
import Mathlib.Data.List.Nodup
import TableLexer.RuleTrie

/-!
# Paths of a rule trie

A trie grows by calls that each register a text. One equation says what a call does: it completes
the node of its text, creates the nodes of the other prefixes where there were none, and touches
nothing else. So the paths of a trie are the prefixes of its texts, and the last call for a text
decides what the text does.
-/

namespace TableLexer

/-- One call that registers a text in a trie. -/
structure TrieCall where
  text : List Char
  accept : Accept
  escaped : Bool

namespace RuleTrie

/-- A trie after one more call. -/
def enter (t : RuleTrie) (call : TrieCall) : RuleTrie :=
  if call.escaped then t.insertEscaped call.text call.accept else t.insert call.text call.accept

/-- The trie that a sequence of calls makes. -/
def ofCalls (calls : List TrieCall) : RuleTrie := calls.foldl enter empty

/-- What a path does as a complete text, if it is one. -/
def accept? (t : RuleTrie) (path : List Char) : Option Accept := (t.node? path).bind TrieNode.accept

/-- A path through every character of which the trie was walked, and that is longer than `done`. -/
def Passes (done text path : List Char) : Prop := done <+: path ∧ path ≠ done ∧ path <+: text

instance (done text path : List Char) : Decidable (Passes done text path) :=
  inferInstanceAs (Decidable (_ ∧ _ ∧ _))

variable {t : RuleTrie}

theorem enter_eq (call : TrieCall) :
    t.enter call =
      (t.grow call.escaped [] call.text).complete call.text call.accept call.escaped := by
  rw [enter]
  split
  · next escaped => rw [escaped]; rfl
  · next plain => rw [Bool.eq_false_iff.mpr plain]; rfl

theorem node?_eq_some {path : List Char} {node : TrieNode} (h : t.node? path = some node) :
    node ∈ t.nodes ∧ node.path = path := by
  refine ⟨List.mem_of_find?_eq_some h, ?_⟩
  simpa using List.find?_some h

theorem contains_iff {path : List Char} :
    t.contains path = true ↔ ∃ node ∈ t.nodes, node.path = path := by
  simp [contains]

theorem contains_eq_isSome (path : List Char) : t.contains path = (t.node? path).isSome := by
  rw [Bool.eq_iff_iff, contains_iff, node?, List.find?_isSome]
  simp

/-- The nodes below a path are reached by its children. -/
theorem mem_children_iff {path : List Char} {c : Char} :
    c ∈ t.children path ↔ t.contains (path ++ [c]) = true := by
  simp [children, nextAfter?_eq_some, contains_iff]

@[simp] theorem node?_empty (path : List Char) : empty.node? path = none := rfl

theorem node?_append_nodes (path : List Char) (node : TrieNode) :
    (RuleTrie.mk (t.nodes ++ [node])).node? path =
      (t.node? path).or (if node.path = path then some node else none) := by
  simp only [node?, List.find?_append, List.find?_singleton, beq_iff_eq]

/-- One step of growing: the node of a path is there afterwards, old or new. -/
theorem node?_grow_step (escape : Bool) (path p : List Char) :
    (if t.contains path then t else ⟨t.nodes ++ [⟨path, none, escape⟩]⟩ : RuleTrie).node? p =
      if p = path then some ((t.node? path).getD ⟨path, none, escape⟩) else t.node? p := by
  by_cases same : p = path
  · subst same
    cases held : t.node? p with
    | some node => simp [contains_eq_isSome, held]
    | none => simp [contains_eq_isSome, held, node?_append_nodes]
  · rw [if_neg same]
    split
    · rfl
    · rw [node?_append_nodes, if_neg (Ne.symm same), Option.or_none]

theorem passes_cons {done rest path : List Char} {c : Char} (apart : path ≠ done ++ [c]) :
    Passes done (done ++ c :: rest) path ↔ Passes (done ++ [c]) (done ++ c :: rest) path := by
  constructor
  · rintro ⟨⟨more, rfl⟩, strict, inText⟩
    rw [List.prefix_append_right_inj] at inText
    cases more with
    | nil => simp at strict
    | cons d more =>
        obtain ⟨rfl, -⟩ := List.cons_prefix_cons.mp inText
        refine ⟨⟨more, by simp⟩, apart, ?_⟩
        exact (List.prefix_append_right_inj done).mpr inText
  · rintro ⟨⟨more, rfl⟩, strict, inText⟩
    exact ⟨⟨c :: more, by simp⟩, by simp, inText⟩

theorem not_passes_self {done path : List Char} : ¬ Passes done done path := by
  rintro ⟨low, strict, high⟩
  have short := high.length_le
  have long := low.length_le
  exact strict (high.eq_of_length (by omega))

/-- Growing keeps every node and adds those missing on the way. -/
theorem node?_grow (escape : Bool) (done text p : List Char) :
    (t.grow escape done text).node? p =
      if Passes done (done ++ text) p then some ((t.node? p).getD ⟨p, none, escape⟩)
      else t.node? p := by
  induction text generalizing t done with
  | nil => rw [grow, List.append_nil, if_neg not_passes_self]
  | cons c rest ih =>
      simp only [grow]
      rw [ih, List.append_assoc, List.singleton_append, node?_grow_step]
      by_cases here : p = done ++ [c]
      · subst here
        have passed : Passes done (done ++ c :: rest) (done ++ [c]) :=
          ⟨⟨[c], rfl⟩, by simp, ⟨rest, by simp⟩⟩
        have stays : ¬ Passes (done ++ [c]) (done ++ c :: rest) (done ++ [c]) := fun h => h.2.1 rfl
        rw [if_neg stays, if_pos rfl, if_pos passed]
      · simp only [passes_cons here, here, if_false]

theorem node?_complete (text : List Char) (accept : Accept) (escape : Bool) (p : List Char) :
    (t.complete text accept escape).node? p =
      if p = text then
        (t.node? p).map fun node => ⟨p, some accept, node.escape || escape⟩
      else t.node? p := by
  have paths : ∀ node : TrieNode, (if node.path = text then
      { node with accept := some accept, escape := node.escape || escape } else node).path =
        node.path := by
    intro node
    split <;> rfl
  simp only [complete, node?, List.find?_map, Function.comp_def, paths]
  cases found : t.nodes.find? (·.path == p) with
  | none => simp
  | some node =>
      have same : node.path = p := by simpa using List.find?_some found
      subst same
      by_cases here : node.path = text <;> simp [here]

/-- What one call does to the node of a path. -/
theorem node?_enter (call : TrieCall) (p : List Char) :
    (t.enter call).node? p =
      if p ≠ [] ∧ p <+: call.text then
        let node := (t.node? p).getD ⟨p, none, call.escaped⟩
        if p = call.text then some ⟨p, some call.accept, node.escape || call.escaped⟩
        else some node
      else if p = call.text then
        (t.node? p).map fun node => ⟨p, some call.accept, node.escape || call.escaped⟩
      else t.node? p := by
  have passes : Passes [] call.text p ↔ p ≠ [] ∧ p <+: call.text := by
    simp [Passes]
  rw [enter_eq, node?_complete, node?_grow, List.nil_append]
  simp only [passes]
  split <;> split <;> simp

theorem contains_enter (call : TrieCall) (p : List Char) :
    (t.enter call).contains p = true ↔ t.contains p = true ∨ p ≠ [] ∧ p <+: call.text := by
  rw [contains_eq_isSome, contains_eq_isSome, node?_enter]
  by_cases passed : p ≠ [] ∧ p <+: call.text
  · rw [if_pos passed]
    split <;> simp [passed]
  · rw [if_neg passed]
    split <;> simp [passed]

/-- The paths of a trie are the prefixes of its texts, the empty one apart. -/
theorem contains_ofCalls (calls : List TrieCall) (p : List Char) :
    (ofCalls calls).contains p = true ↔ p ≠ [] ∧ ∃ call ∈ calls, p <+: call.text := by
  suffices ∀ t : RuleTrie, (calls.foldl enter t).contains p = true ↔
      t.contains p = true ∨ p ≠ [] ∧ ∃ call ∈ calls, p <+: call.text by
    simpa [ofCalls, contains_eq_isSome] using this empty
  induction calls with
  | nil => simp
  | cons call calls ih =>
      intro t
      rw [List.foldl_cons, ih, contains_enter, List.exists_mem_cons_iff, and_or_left, or_assoc]

/-- The character that leads to a node is among the characters of the trie. -/
theorem mem_chars_of_contains {path : List Char} {c : Char} (h : t.contains (path ++ [c]) = true) :
    c ∈ t.chars := by
  obtain ⟨node, mem, same⟩ := contains_iff.mp h
  exact List.mem_map.mpr ⟨node, mem, by simp [TrieNode.char, same]⟩

/-- Every node spells a text, and no two nodes spell the same one. -/
structure Formed (t : RuleTrie) : Prop where
  path_ne_nil : ∀ node ∈ t.nodes, node.path ≠ []
  nodup : (t.nodes.map TrieNode.path).Nodup

namespace Formed

theorem empty : RuleTrie.empty.Formed := ⟨by simp [RuleTrie.empty], by simp [RuleTrie.empty]⟩

theorem grow (h : t.Formed) (escape : Bool) (done text : List Char) :
    (t.grow escape done text).Formed := by
  induction text generalizing t done with
  | nil => exact h
  | cons c rest ih =>
      apply ih
      split
      · exact h
      · next missing =>
          constructor
          · intro node mem
            obtain old | new := List.mem_append.mp mem
            · exact h.path_ne_nil node old
            · rw [List.mem_singleton.mp new]
              simp
          · rw [List.map_append, List.nodup_append]
            refine ⟨h.nodup, by simp, ?_⟩
            intro p held q new same
            obtain ⟨node, mem, rfl⟩ := List.mem_map.mp held
            simp only [List.map_cons, List.map_nil, List.mem_singleton] at new
            exact missing (contains_iff.mpr ⟨node, mem, same.trans new⟩)

theorem complete (h : t.Formed) (text : List Char) (accept : Accept) (escape : Bool) :
    (t.complete text accept escape).Formed := by
  have paths : ((t.complete text accept escape).nodes.map TrieNode.path) =
      t.nodes.map TrieNode.path := by
    simp only [RuleTrie.complete, List.map_map]
    apply List.map_congr_left
    intro node _
    simp only [Function.comp_apply]
    split <;> rfl
  refine ⟨fun node mem => ?_, paths ▸ h.nodup⟩
  have held : node.path ∈ t.nodes.map TrieNode.path := paths ▸ List.mem_map_of_mem mem
  obtain ⟨other, old, same⟩ := List.mem_map.mp held
  exact same ▸ h.path_ne_nil other old

theorem enter (h : t.Formed) (call : TrieCall) : (t.enter call).Formed := by
  rw [enter_eq]
  exact (h.grow call.escaped [] call.text).complete call.text call.accept call.escaped

/-- Calls keep a trie well formed. -/
theorem foldl_enter (h : t.Formed) (calls : List TrieCall) :
    (calls.foldl RuleTrie.enter t).Formed := by
  induction calls generalizing t with
  | nil => exact h
  | cons call calls ih => exact ih (h.enter call)

theorem ofCalls (calls : List TrieCall) : (RuleTrie.ofCalls calls).Formed := empty.foldl_enter calls

theorem node?_of_mem (h : t.Formed) {node : TrieNode} (mem : node ∈ t.nodes) :
    t.node? node.path = some node := by
  cases found : t.node? node.path with
  | none =>
      rw [node?, List.find?_eq_none] at found
      exact absurd (beq_self_eq_true _) (found node mem)
  | some other =>
      obtain ⟨held, same⟩ := node?_eq_some found
      rw [List.inj_on_of_nodup_map h.nodup held mem same]

end Formed

theorem accept?_eq_none {path : List Char} (h : t.contains path = false) :
    t.accept? path = none := by
  rw [contains_eq_isSome, Option.isSome_eq_false_iff, Option.isNone_iff_eq_none] at h
  rw [accept?, h, Option.bind_none]

theorem contains_of_accept? {path : List Char} {accept : Accept}
    (found : t.accept? path = some accept) : t.contains path = true :=
  Bool.of_not_eq_false fun missing => nomatch (accept?_eq_none missing).symm.trans found

/-- The root is no node. -/
theorem Formed.node?_nil (h : t.Formed) : t.node? [] = none := by
  cases found : t.node? [] with
  | none => rfl
  | some node =>
      obtain ⟨mem, same⟩ := node?_eq_some found
      exact absurd same (h.path_ne_nil node mem)

theorem Formed.accept?_nil (h : t.Formed) : t.accept? [] = none := by
  rw [accept?, h.node?_nil, Option.bind_none]

/-- The last call for a text decides what the text does. -/
theorem Formed.accept?_enter (h : t.Formed) (call : TrieCall) (p : List Char) :
    (t.enter call).accept? p =
      if p ≠ [] ∧ p = call.text then some call.accept else t.accept? p := by
  rw [accept?, accept?, node?_enter]
  by_cases root : p = []
  · subst root
    simp [h.node?_nil]
  · by_cases here : p = call.text
    · simp [here, here ▸ root]
    · by_cases passed : p <+: call.text
      · cases t.node? p <;> simp [root, here, passed]
      · simp [here, passed]

theorem placeBelowParent_perm (order : List TrieNode) (node : TrieNode) :
    (placeBelowParent order node).Perm (node :: order) := by
  rw [placeBelowParent]
  set apart := fun other : TrieNode => !node.path.dropLast.isPrefixOf other.path
  have whole : (order.reverse.dropWhile apart).reverse ++ (order.reverse.takeWhile apart).reverse =
      order := by
    rw [← List.reverse_append, List.takeWhile_append_dropWhile, List.reverse_reverse]
  calc (order.reverse.dropWhile apart).reverse ++ node :: (order.reverse.takeWhile apart).reverse
      |>.Perm (node :: ((order.reverse.dropWhile apart).reverse ++
        (order.reverse.takeWhile apart).reverse)) := List.perm_middle
    _ = node :: order := by rw [whole]

/-- The preorder lists the same nodes in another order. -/
theorem preorder_perm (t : RuleTrie) : t.preorder.Perm t.nodes := by
  suffices ∀ order : List TrieNode,
      (t.nodes.foldl placeBelowParent order).Perm (t.nodes ++ order) by
    simpa [preorder] using this []
  induction t.nodes with
  | nil => exact fun _ => .refl _
  | cons node rest ih =>
      intro order
      calc rest.foldl placeBelowParent (placeBelowParent order node)
          |>.Perm (rest ++ placeBelowParent order node) := ih _
        _ |>.Perm (rest ++ node :: order) := (placeBelowParent_perm order node).append_left rest
        _ |>.Perm (node :: rest ++ order) := List.perm_middle

theorem length_preorder (t : RuleTrie) : t.preorder.length = t.size := t.preorder_perm.length_eq

end RuleTrie

end TableLexer
