import Mathlib.Data.List.Dedup
import Mathlib.Data.List.Infix
import Mathlib.Logic.Function.Iterate
import TableLexer.Proofs.NumberedNodes
import TableLexer.Proofs.Walks

/-!
# The traversal of a trie

The preorder of a trie is the order of a walk that keeps the numbers of the nodes to come on a
stack. The walk ends after as many rounds as there are nodes, and it comes to every node once, after
its parent.

Together with what the numbered nodes carry, this says what a trie is after any sequence of calls.
-/

namespace TableLexer

namespace RuleTrie

variable {t : RuleTrie} {path : List Char}

/-- The texts that the nodes spell, in the order of their creation. -/
def paths (t : RuleTrie) : List (List Char) := t.nodes.map TrieNode.path

theorem mem_paths_iff : path ∈ t.paths ↔ t.contains path = true := by
  simp [paths, contains_iff]

theorem exists_idOf?_of_mem (mem : path ∈ t.paths) : ∃ id, t.idOf? path = some id :=
  exists_idOf? (mem_paths_iff.mp mem)

theorem paths_complete (text : List Char) (accept : Accept) (escape : Bool) :
    (t.complete text accept escape).paths = t.paths := by
  simp only [paths, complete, List.map_map]
  apply List.map_congr_left
  intro node _
  simp only [Function.comp_apply]
  split <;> rfl

theorem grown_grow (h : Grown t.paths) (escape : Bool) (done text : List Char)
    (reached : done = [] ∨ done ∈ t.paths) : Grown (t.grow escape done text).paths := by
  induction text generalizing t done with
  | nil => exact h
  | cons c rest ih =>
      simp only [grow]
      split
      · next held => exact ih h _ (.inr (mem_paths_iff.mpr held))
      · next missing =>
          have longer : Grown (RuleTrie.mk (t.nodes ++ [⟨done ++ [c], none, escape⟩])).paths := by
            simp only [paths, List.map_append, List.map_cons, List.map_nil]
            refine h.concat (by simp) (fun held => missing (mem_paths_iff.mp held)) ?_
            simpa using reached
          exact ih longer _ (.inr (by simp [paths]))

theorem grown_ofCalls (calls : List TrieCall) : Grown (ofCalls calls).paths := by
  induction calls using List.reverseRecOn with
  | nil => exact .nil
  | append_singleton calls call ih =>
      rw [ofCalls_concat, enter_eq, paths_complete]
      exact grown_grow ih _ _ _ (.inl rfl)

theorem map_path_placeBelowParent (order : List TrieNode) (node : TrieNode) :
    (placeBelowParent order node).map TrieNode.path =
      placePath (order.map TrieNode.path) node.path := by
  simp [placeBelowParent, placePath, List.rdropWhile, List.rtakeWhile, ← List.map_reverse,
    List.dropWhile_map, List.takeWhile_map, Function.comp_def]

theorem map_path_preorder (t : RuleTrie) :
    t.preorder.map TrieNode.path = t.paths.foldl placePath [] := by
  rw [preorder, paths, List.foldl_map]
  exact (List.foldl_hom (List.map TrieNode.path) fun order node =>
    (map_path_placeBelowParent order node).symm).symm

/-! ## The walk over numbers -/

/-- The numbers of the nodes in preorder. -/
def preorderIds (t : RuleTrie) : List Nat := t.preorder.filterMap fun node => t.idOf? node.path

/-- One round of a walk over the nodes done and the stack of those to come: the node on top is done,
and the nodes below it take its place. -/
def visit (t : RuleTrie) : List Nat × List Nat → List Nat × List Nat
  | (done, []) => (done, [])
  | (done, id :: rest) => (done ++ [id], (t.branches id).map Prod.snd ++ rest)

theorem preorderIds_eq (t : RuleTrie) :
    t.preorderIds = (t.paths.foldl placePath []).filterMap t.idOf? := by
  rw [← map_path_preorder, List.filterMap_map]
  rfl

/-- The branches of a node lead to the paths below its own. -/
theorem Formed.map_snd_branches (h : t.Formed) {id : Nat} (spells : t.path? id = some path) :
    (t.branches id).map Prod.snd = (pathsBelow t.paths path).filterMap t.idOf? := by
  have step : ∀ c, t.child? id c = t.idOf? (path ++ [c]) := fun c => by simp [child?, spells]
  have cell : ∀ other ∈ t.paths,
      ((nextAfter? path other).bind fun c => t.idOf? (path ++ [c])) =
        if other.dropLast = path then t.idOf? other else none := by
    intro other mem
    cases next : nextAfter? path other with
    | some c => simp [nextAfter?_eq_some.mp next]
    | none =>
        have nonempty : other ≠ [] := by
          obtain ⟨node, held, rfl⟩ := List.mem_map.mp mem
          exact h.path_ne_nil node held
        have elsewhere : other.dropLast ≠ path := by
          rintro rfl
          have whole := nextAfter?_eq_some.mpr (List.dropLast_append_getLast nonempty).symm
          cases next.symm.trans whole
        simp [elsewhere]
  simp only [branches, spells, Option.elim_some, List.map_filterMap, step,
    children_eq_filterMap, List.filterMap_filterMap, pathsBelow, List.filterMap_filter]
  refine List.filterMap_congr fun other mem => ?_
  simpa [Function.comp_def] using cell other mem

/-- The walk over numbers goes the way of the walk over paths. -/
theorem Formed.iterate_visit (h : t.Formed) {stack order : List (List Char)}
    (walk : Visits t.paths stack order) (inside : ∀ path ∈ stack, path ∈ t.paths)
    (done : List Nat) :
    t.visit^[order.length] (done, stack.filterMap t.idOf?) =
      (done ++ order.filterMap t.idOf?, []) := by
  induction walk generalizing done with
  | nil => simp
  | @visit path rest order onward ih =>
      obtain ⟨id, found⟩ := exists_idOf?_of_mem (inside path List.mem_cons_self)
      have spells := h.path?_of_idOf? found
      have inside' : ∀ other ∈ pathsBelow t.paths path ++ rest, other ∈ t.paths := by
        intro other mem
        obtain below | deeper := List.mem_append.mp mem
        · exact (mem_pathsBelow.mp below).1
        · exact inside other (List.mem_cons_of_mem _ deeper)
      have later := ih inside' (done ++ [id])
      rw [List.filterMap_append, ← h.map_snd_branches spells] at later
      rw [List.length_cons, Function.iterate_succ_apply, List.filterMap_cons_some found,
        List.filterMap_cons_some found]
      simpa [visit] using later

/-- As many rounds as there are nodes find all of them in preorder. -/
theorem Formed.iterate_visit_root (h : t.Formed) (grown : Grown t.paths) :
    t.visit^[t.size] ([], (t.branches 0).map Prod.snd) = (t.preorderIds, []) := by
  obtain ⟨walk, -⟩ := grown.visits
  cases walk with
  | visit onward =>
      rw [List.append_nil] at onward
      have inside : ∀ path ∈ pathsBelow t.paths [], path ∈ t.paths := fun path mem =>
        (mem_pathsBelow.mp mem).1
      have length : (t.paths.foldl placePath []).length = t.size := by
        rw [← map_path_preorder, List.length_map, length_preorder]
      rw [h.map_snd_branches rfl, preorderIds_eq, ← length]
      exact h.iterate_visit onward inside []

/-- The preorder lists every number of a node once. -/
theorem Formed.preorderIds_perm (h : t.Formed) :
    t.preorderIds.Perm (List.range' 1 t.size) := by
  have paths : (t.preorder.map TrieNode.path).Nodup :=
    (t.preorder_perm.map _).nodup_iff.mpr h.nodup
  have distinct : t.preorderIds.Nodup := by
    rw [preorderIds_eq, ← map_path_preorder]
    refine paths.filterMap fun one two id first second => ?_
    exact Option.some.inj ((h.path?_of_idOf? first).symm.trans (h.path?_of_idOf? second))
  refine (List.perm_ext_iff_of_nodup distinct List.nodup_range').mpr fun id => ?_
  rw [List.mem_range'_1, preorderIds, List.mem_filterMap]
  constructor
  · rintro ⟨node, -, found⟩
    obtain ⟨other, spells⟩ := h.idOf?_eq_some_iff.mp found
    cases id with
    | zero => exact absurd rfl other
    | succ i =>
        obtain ⟨node, at_i, -⟩ := Option.map_eq_some_iff.mp spells
        have := (List.getElem?_eq_some_iff.mp at_i).1
        rw [size]
        omega
  · rintro ⟨low, high⟩
    obtain ⟨i, rfl⟩ : ∃ i, id = i + 1 := ⟨id - 1, by omega⟩
    have inside : i < t.nodes.length := by
      rw [size] at high
      omega
    refine ⟨t.nodes[i], t.preorder_perm.mem_iff.mpr (List.getElem_mem inside), ?_⟩
    exact h.idOf?_eq_some_iff.mpr ⟨Nat.succ_ne_zero i, by simp [path?, inside]⟩

/-- There is one step to a node other than the root. -/
theorem Formed.step_unique (h : t.Formed) {parent parent' id : Nat} {c c' : Char}
    (step : t.child? parent c = some id) (step' : t.child? parent' c' = some id) :
    parent' = parent ∧ c' = c := by
  obtain ⟨path, above, spells⟩ := h.child?_eq_some_iff.mp step
  obtain ⟨path', above', spells'⟩ := h.child?_eq_some_iff.mp step'
  have same : path'.concat c' = path.concat c := by
    simpa using Option.some.inj (spells'.symm.trans spells)
  obtain ⟨rfl, rfl⟩ := List.concat_inj.mp same
  exact ⟨h.path?_inj above' above, rfl⟩

/-- What stands before a node in the preorder holds the parent of the node, if this is not the
root. -/
theorem Formed.exists_parent (h : t.Formed) (grown : Grown t.paths) {front behind : List Nat}
    {id : Nat} (split : t.preorderIds = front ++ id :: behind) :
    ∃ parent c, t.child? parent c = some id ∧ (parent = 0 ∨ parent ∈ front) := by
  obtain ⟨walk, members⟩ := grown.visits
  rw [preorderIds_eq, List.filterMap_eq_append_iff] at split
  obtain ⟨before, after, whole, rfl, split⟩ := split
  obtain ⟨passed, path, later, rfl, missing, found, -⟩ := List.filterMap_eq_cons_iff.mp split
  have nonempty : path ≠ [] := by
    rintro rfl
    cases h.idOf?_nil.symm.trans found
  have spells : t.path? id = some (path.dropLast ++ [path.getLast nonempty]) :=
    (h.path?_of_idOf? found).trans (congrArg some (List.dropLast_append_getLast nonempty).symm)
  have split' : [] :: t.paths.foldl placePath [] = ([] :: before ++ passed) ++ path :: later := by
    rw [whole]
    simp
  have parent : path.dropLast = [] ∨ path.dropLast ∈ before ++ passed := by
    obtain root | earlier := walk.mem_or_dropLast_mem split'
    · exact absurd (List.mem_singleton.mp root) nonempty
    · exact List.mem_cons.mp earlier
  obtain root | listed := parent
  · exact ⟨0, _, h.child?_eq_some_iff.mpr ⟨_, congrArg some root.symm, spells⟩, .inl rfl⟩
  · have held : path.dropLast ∈ t.paths := by
      refine (members _).mp ?_
      rw [whole, ← List.append_assoc]
      exact List.mem_append_left _ listed
    obtain ⟨parent, numbered⟩ := exists_idOf?_of_mem held
    have step := h.child?_eq_some_iff.mpr ⟨_, h.path?_of_idOf? numbered, spells⟩
    obtain first | second := List.mem_append.mp listed
    · exact ⟨parent, _, step, .inr (List.mem_filterMap.mpr ⟨_, first, numbered⟩)⟩
    · cases (missing _ second).symm.trans numbered

/-! ## All calls together -/

/-- The prefixes of the texts of calls, the empty one apart, each once. -/
def prefixes (calls : List TrieCall) : List (List Char) :=
  ((calls.flatMap fun call => call.text.inits).filter (· ≠ [])).dedup

theorem mem_prefixes {calls : List TrieCall} :
    path ∈ prefixes calls ↔ path ≠ [] ∧ ∃ call ∈ calls, path <+: call.text := by
  simp [prefixes, and_comm]

/-- A trie has one node for each prefix of its texts. -/
theorem size_ofCalls (calls : List TrieCall) :
    (ofCalls calls).size = (prefixes calls).length := by
  have perm : (ofCalls calls).paths.Perm (prefixes calls) := by
    refine (List.perm_ext_iff_of_nodup (Formed.ofCalls calls).nodup (List.nodup_dedup _)).mpr ?_
    exact fun path => mem_paths_iff.trans ((contains_ofCalls calls path).trans mem_prefixes.symm)
  simpa [size, paths] using perm.length_eq

/-- No call for the empty text changes anything. -/
theorem Formed.enter_nil (h : t.Formed) {call : TrieCall} (empty : call.text = []) :
    t.enter call = t := by
  have same : t.nodes.map (fun node => if node.path = [] then
      { node with accept := some call.accept, escape := node.escape || call.escaped }
      else node) = t.nodes := by
    refine (List.map_congr_left fun node mem => ?_).trans (List.map_id _)
    exact if_neg (h.path_ne_nil node mem)
  rw [enter_eq, empty, RuleTrie.grow, RuleTrie.complete, same]

end RuleTrie

/-- After any calls on the empty trie, a text can be followed from the root if a registered text
begins with it, and then to a node of its own. The node does what the last call for the text says,
and it has the escape mark if an escaping call ended there or created it. No character leads from a
node to two others. A walk with a stack ends after as many rounds as there are nodes, having listed
each of them once and behind its parent. There are as many nodes as prefixes of registered texts,
and the empty text is never registered. -/
theorem trie_represents_calls (calls : List TrieCall) :
    let t := RuleTrie.ofCalls calls
    (∀ text, text ≠ [] →
      ((t.follow? 0 text).isSome = true ↔ ∃ call ∈ calls, text <+: call.text)) ∧
    (∀ text other id, t.follow? 0 text = some id → t.follow? 0 other = some id → text = other) ∧
    (∀ text id, text ≠ [] → t.follow? 0 text = some id →
      let last := RuleTrie.lastFor? calls text
      ∃ node, t.nodeAt? id = some node ∧ text.getLast? = some node.char ∧
        node.accept = last.map TrieCall.accept ∧
        node.lexeme? = last.map (fun call => String.ofList call.text) ∧
        (node.escape = true ↔ (∃ call ∈ calls, call.escaped = true ∧ call.text = text) ∨
          ∃ call, RuleTrie.creatorOf? calls text = some call ∧ call.escaped = true)) ∧
    (∀ id, ((t.branches id).map Prod.fst).Nodup ∧
      ∀ c next, (c, next) ∈ t.branches id ↔ t.child? id c = some next) ∧
    (t.visit^[t.size] ([], (t.branches 0).map Prod.snd) = (t.preorderIds, []) ∧
      t.preorderIds.Perm (List.range' 1 t.size) ∧
      ∀ front id behind, t.preorderIds = front ++ id :: behind →
        ∃ parent c, t.child? parent c = some id ∧ (parent = 0 ∨ parent ∈ front) ∧
          ∀ parent' c', t.child? parent' c' = some id → parent' = parent ∧ c' = c) ∧
    t.size = (RuleTrie.prefixes calls).length ∧
    ∀ accept, t.insert [] accept = t ∧ t.insertEscaped [] accept = t ∧ t.idOf? [] = none := by
  intro t
  have formed : t.Formed := .ofCalls calls
  have closed : t.PrefixClosed := RuleTrie.PrefixClosed.ofCalls calls
  have grown : Grown t.paths := RuleTrie.grown_ofCalls calls
  refine ⟨fun text more => ?_, fun text other id one two => ?_, fun text id more reached => ?_,
    fun id => ⟨formed.map_fst_branches_nodup id, fun c next => formed.mem_branches_iff⟩,
    ⟨formed.iterate_visit_root grown, formed.preorderIds_perm, fun front id behind split => ?_⟩,
    RuleTrie.size_ofCalls calls, fun accept => ⟨?_, ?_, formed.idOf?_nil⟩⟩
  · rw [formed.isSome_follow? closed more, RuleTrie.contains_ofCalls]
    exact and_iff_right more
  · have spells := (formed.follow?_eq_some_iff closed).mp one
    exact Option.some.inj (spells.symm.trans ((formed.follow?_eq_some_iff closed).mp two))
  · have spells := (formed.follow?_eq_some_iff closed).mp reached
    obtain ⟨creator, created, held⟩ := RuleTrie.exists_nodeAt? more spells
    refine ⟨_, held, ?_, rfl, ?_, ?_⟩
    · rw [TrieNode.char, List.getLast?_eq_some_getLast more, List.getLastD_eq_getLast?,
        List.getLast?_eq_some_getLast more, Option.getD_some]
    · cases last : RuleTrie.lastFor? calls text with
      | none => rfl
      | some call => simp [TrieNode.lexeme?, RuleTrie.text_of_lastFor? last]
    · rw [Bool.or_eq_true, RuleTrie.escapes_eq_true_iff, or_comm]
      simp [created]
  · obtain ⟨parent, c, step, placed⟩ := formed.exists_parent grown split
    exact ⟨parent, c, step, placed, fun parent' c' => formed.step_unique step⟩
  · show t.enter ⟨[], accept, false⟩ = t
    exact formed.enter_nil rfl
  · show t.enter ⟨[], accept, true⟩ = t
    exact formed.enter_nil rfl

/-- A border that ends a body at first, then the border after an escaping one, then the border once
more: the first node was created by a plain call and does what the last call for it says. -/
theorem doubled_border_trie :
    let calls : List TrieCall := [⟨['|'], .close .literal, false⟩,
      ⟨['|', '|'], .close .literal, true⟩, ⟨['|'], .exact .operator, false⟩]
    let t := RuleTrie.ofCalls calls
    t.follow? 0 ['|', '|'] = some 2 ∧ t.size = 2 ∧ t.preorderIds = [1, 2] ∧
      (∃ node, t.nodeAt? 1 = some node ∧ node.accept = some (.exact .operator) ∧
        ¬ node.escape = true) ∧
      ∃ node, t.nodeAt? 2 = some node ∧ node.lexeme? = some "||" ∧ node.escape = true := by
  intro calls t
  obtain ⟨-, -, carries, -, -, -, -⟩ := trie_represents_calls calls
  obtain ⟨first, held, -, accept, -, escape⟩ := carries ['|'] 1 (by decide) (by decide)
  obtain ⟨second, held', -, -, lexeme, escape'⟩ := carries ['|', '|'] 2 (by decide) (by decide)
  refine ⟨by decide, by decide, by decide, ⟨first, held, accept, ?_⟩, second, held', lexeme, ?_⟩
  · rw [escape]
    decide
  · exact escape'.mpr (.inl ⟨_, List.mem_cons_of_mem _ List.mem_cons_self, rfl, rfl⟩)

end TableLexer
