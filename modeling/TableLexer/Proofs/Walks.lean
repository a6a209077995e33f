import Mathlib.Data.List.DropRight
import Mathlib.Data.List.Infix
import Mathlib.Data.List.Nodup

/-!
# Walks over a tree of paths

The nodes of a tree are known by their paths, each longer than its parent's by one character. A walk
takes the path on top of a stack and puts the paths below it in its place. It finds the paths in the
order that comes about when each new leaf is placed behind all that goes on from its parent.

A stack of which no path goes on from another one divides the walk into one part for each of its
paths. A new leaf changes only the part of its parent, at the end.
-/

namespace TableLexer

/-! ## Walks -/

/-- The paths that are longer than a path by one character, in their order. -/
def pathsBelow (paths : List (List Char)) (path : List Char) : List (List Char) :=
  paths.filter (·.dropLast = path)

/-- A walk with the given stack finds the paths in this order: it takes the path on top, and those
below it take its place. -/
inductive Visits (paths : List (List Char)) : List (List Char) → List (List Char) → Prop where
  | nil : Visits paths [] []
  | visit {path : List Char} {rest order : List (List Char)}
      (onward : Visits paths (pathsBelow paths path ++ rest) order) :
      Visits paths (path :: rest) (path :: order)

/-- Paths in an order in which each new one goes on from the root or from an earlier one. -/
inductive Grown : List (List Char) → Prop where
  | nil : Grown []
  | concat {paths : List (List Char)} {path : List Char} (earlier : Grown paths) (more : path ≠ [])
      (new : path ∉ paths) (parent : path.dropLast = [] ∨ path.dropLast ∈ paths) :
      Grown (paths ++ [path])

/-- No path of the stack goes on from another one. -/
def Apart (stack : List (List Char)) : Prop :=
  stack.Pairwise fun one other => ¬ one <+: other ∧ ¬ other <+: one

/-- Puts a path behind all paths that go on from its parent. -/
def placePath (order : List (List Char)) (path : List Char) : List (List Char) :=
  let apart := fun other : List Char => !path.dropLast.isPrefixOf other
  order.rdropWhile apart ++ path :: order.rtakeWhile apart

variable {paths stack stack' order order' rest : List (List Char)} {path leaf : List Char}

theorem mem_pathsBelow {other : List Char} :
    other ∈ pathsBelow paths path ↔ other ∈ paths ∧ other.dropLast = path := by
  simp [pathsBelow]

namespace Visits

theorem append (first : Visits paths stack order) (second : Visits paths stack' order') :
    Visits paths (stack ++ stack') (order ++ order') := by
  induction first with
  | nil => exact second
  | visit _ ih => exact .visit (by simpa using ih)

/-- What is deeper in the stack is found later. -/
theorem exists_append (h : Visits paths (stack ++ stack') order) :
    ∃ first second, order = first ++ second ∧ Visits paths stack first ∧
      Visits paths stack' second := by
  generalize whole : stack ++ stack' = all at h
  induction h generalizing stack with
  | nil =>
      obtain ⟨rfl, rfl⟩ := List.append_eq_nil_iff.mp whole
      exact ⟨[], [], rfl, .nil, .nil⟩
  | @visit path rest order onward ih =>
      cases stack with
      | nil => exact ⟨[], path :: order, rfl, .nil, (show stack' = _ from whole) ▸ .visit onward⟩
      | cons top stack =>
          obtain ⟨rfl, rfl⟩ := List.cons.inj whole
          obtain ⟨first, second, rfl, one, two⟩ := ih (List.append_assoc _ _ _)
          exact ⟨_, second, rfl, .visit one, two⟩

/-- The walk finds only what goes on from the paths of its stack. -/
theorem exists_start (h : Visits paths stack order) :
    ∀ found ∈ order, ∃ start ∈ stack, start <+: found := by
  induction h with
  | nil => simp
  | @visit path rest order onward ih =>
      intro found mem
      obtain rfl | later := List.mem_cons.mp mem
      · exact ⟨found, List.mem_cons_self, List.prefix_refl _⟩
      · obtain ⟨start, held, begins⟩ := ih found later
        obtain below | deeper := List.mem_append.mp held
        · obtain ⟨-, rfl⟩ := mem_pathsBelow.mp below
          exact ⟨_, List.mem_cons_self, (List.dropLast_prefix start).trans begins⟩
        · exact ⟨start, List.mem_cons_of_mem _ deeper, begins⟩

/-- A path is on the stack from the start, or it is found after the path that it goes on from. -/
theorem mem_or_dropLast_mem {front behind : List (List Char)} (h : Visits paths stack order)
    (split : order = front ++ path :: behind) : path ∈ stack ∨ path.dropLast ∈ front := by
  induction h generalizing front with
  | nil => simp at split
  | @visit top rest order onward ih =>
      cases front with
      | nil => exact .inl ((List.cons.inj split).1 ▸ List.mem_cons_self)
      | cons first front =>
          obtain ⟨rfl, later⟩ := List.cons.inj split
          obtain held | earlier := ih later
          · obtain below | deeper := List.mem_append.mp held
            · exact .inr ((mem_pathsBelow.mp below).2 ▸ List.mem_cons_self)
            · exact .inl (List.mem_cons_of_mem _ deeper)
          · exact .inr (List.mem_cons_of_mem _ earlier)

end Visits

/-! ## A new leaf -/

theorem pathsBelow_concat_of_ne (apart : leaf.dropLast ≠ path) :
    pathsBelow (paths ++ [leaf]) path = pathsBelow paths path := by
  simp [pathsBelow, List.filter_append, apart]

theorem pathsBelow_concat_dropLast (paths : List (List Char)) (leaf : List Char) :
    pathsBelow (paths ++ [leaf]) leaf.dropLast = pathsBelow paths leaf.dropLast ++ [leaf] := by
  simp [pathsBelow, List.filter_append]

/-- Nothing goes on from a path that was not there before. -/
theorem Grown.pathsBelow_eq_nil (h : Grown paths) (more : leaf ≠ []) (new : leaf ∉ paths) :
    pathsBelow paths leaf = [] := by
  suffices ∀ path ∈ paths, path.dropLast ≠ leaf by simpa [pathsBelow] using this
  induction h with
  | nil => simp
  | @concat paths path earlier _ _ parent ih =>
      intro other mem
      have old : leaf ∉ paths := fun held => new (List.mem_append_left _ held)
      obtain held | here := List.mem_append.mp mem
      · exact ih old other held
      · cases List.mem_singleton.mp here
        rintro rfl
        exact parent.elim more old

theorem Grown.ne_nil (h : Grown paths) : ∀ path ∈ paths, path ≠ [] := by
  induction h with
  | nil => simp
  | concat _ more _ _ ih =>
      intro path mem
      obtain held | here := List.mem_append.mp mem
      · exact ih path held
      · exact List.mem_singleton.mp here ▸ more

theorem Grown.nodup (h : Grown paths) : paths.Nodup := by
  induction h with
  | nil => exact List.nodup_nil
  | concat _ _ new _ ih =>
      refine List.nodup_append.mpr ⟨ih, List.nodup_singleton _, ?_⟩
      rintro path held _ here rfl
      exact new (List.mem_singleton.mp here ▸ held)

/-- A walk that does not come to the parent of a leaf is not changed by it. -/
theorem Visits.concat_of_not_mem (h : Visits paths stack order) (missed : leaf.dropLast ∉ order) :
    Visits (paths ++ [leaf]) stack order := by
  induction h with
  | nil => exact .nil
  | @visit path rest order _ ih =>
      have apart : leaf.dropLast ≠ path := fun same => missed (same ▸ List.mem_cons_self)
      refine .visit ?_
      rw [pathsBelow_concat_of_ne apart]
      exact ih fun mem => missed (List.mem_cons_of_mem _ mem)

/-! ## The place of a leaf -/

section Place

variable {last : List Char}

theorem placePath_concat_of_inside (inside : leaf.dropLast <+: last) :
    placePath (order ++ [last]) leaf = order ++ [last] ++ [leaf] := by
  have stops : leaf.dropLast.isPrefixOf last = true := List.isPrefixOf_iff_prefix.mpr inside
  simp [placePath, stops]

theorem placePath_concat_of_apart (outside : ¬ leaf.dropLast <+: last) :
    placePath (order ++ [last]) leaf = placePath order leaf ++ [last] := by
  have passes : leaf.dropLast.isPrefixOf last = false :=
    Bool.eq_false_iff.mpr (mt List.isPrefixOf_iff_prefix.mp outside)
  simp [placePath, passes]

/-- The leaf comes behind the paths that go on from its parent. -/
theorem placePath_append {top : List Char} {front behind : List (List Char)}
    (inside : ∀ path ∈ top :: front, leaf.dropLast <+: path)
    (outside : ∀ path ∈ behind, ¬ leaf.dropLast <+: path) :
    placePath (top :: front ++ behind) leaf = top :: front ++ leaf :: behind := by
  induction behind using List.reverseRecOn with
  | nil =>
      obtain none | ⟨earlier, last, split⟩ := List.eq_nil_or_concat (top :: front)
      · cases none
      · rw [split, List.concat_eq_append, List.append_nil]
        exact placePath_concat_of_inside (inside last (by simp [split]))
  | append_singleton behind path ih =>
      have earlier := ih fun other mem => outside other (List.mem_append_left _ mem)
      rw [← List.append_assoc, placePath_concat_of_apart (outside path (by simp)), earlier]
      simp

/-- What comes before a path that goes on from the parent stays where it is. -/
theorem placePath_cons (held : ∃ path ∈ order, leaf.dropLast <+: path) (top : List Char) :
    placePath (top :: order) leaf = top :: placePath order leaf := by
  induction order using List.reverseRecOn with
  | nil => simp at held
  | append_singleton order last ih =>
      rw [← List.cons_append]
      by_cases inside : leaf.dropLast <+: last
      · rw [placePath_concat_of_inside inside, placePath_concat_of_inside inside]
        rfl
      · have earlier : ∃ path ∈ order, leaf.dropLast <+: path := by
          obtain ⟨path, mem, begins⟩ := held
          obtain before | here := List.mem_append.mp mem
          · exact ⟨path, before, begins⟩
          · exact absurd (List.mem_singleton.mp here ▸ begins) inside
        rw [placePath_concat_of_apart inside, placePath_concat_of_apart inside,
          ih earlier]
        rfl

theorem mem_placePath {other : List Char} :
    other ∈ placePath order leaf ↔ other = leaf ∨ other ∈ order := by
  have whole := List.rdropWhile_append_rtakeWhile
    (p := fun other : List Char => !leaf.dropLast.isPrefixOf other) (l := order)
  have split : other ∈ order ↔
      other ∈ order.rdropWhile (fun other => !leaf.dropLast.isPrefixOf other) ∨
        other ∈ order.rtakeWhile (fun other => !leaf.dropLast.isPrefixOf other) := by
    rw [← List.mem_append, whole]
  rw [placePath, List.mem_append, List.mem_cons, split, or_left_comm]

end Place

/-! ## The walk after a new leaf -/

theorem Grown.exists_of_mem_pathsBelow (h : Grown paths) {other : List Char}
    (mem : other ∈ pathsBelow paths path) : ∃ c, other = path ++ [c] := by
  obtain ⟨held, rfl⟩ := mem_pathsBelow.mp mem
  exact ⟨_, (List.dropLast_append_getLast (h.ne_nil other held)).symm⟩

/-- The walk goes on with a stack of paths apart. -/
theorem Apart.onward (h : Apart (path :: rest)) (grown : Grown paths) :
    Apart (pathsBelow paths path ++ rest) := by
  obtain ⟨top, others⟩ := List.pairwise_cons.mp h
  refine List.pairwise_append.mpr ⟨?_, others, ?_⟩
  · -- Different paths of one length do not go on from each other.
    refine (grown.nodup.filter _).imp_of_mem fun {one two} first second different => ?_
    obtain ⟨c, rfl⟩ := grown.exists_of_mem_pathsBelow first
    obtain ⟨d, rfl⟩ := grown.exists_of_mem_pathsBelow second
    exact ⟨fun begins => different (begins.eq_of_length (by simp)),
      fun begins => different (begins.eq_of_length (by simp)).symm⟩
  · intro one first other mem
    obtain ⟨c, rfl⟩ := grown.exists_of_mem_pathsBelow first
    obtain ⟨notBehind, notBefore⟩ := top other mem
    have shorter := List.prefix_append path [c]
    refine ⟨fun begins => notBehind (shorter.trans begins), fun begins => ?_⟩
    obtain rfl | before := List.prefix_concat_iff.mp begins
    · exact notBehind shorter
    · exact notBefore before

/-- Everything found below a path goes on from it. -/
theorem Visits.strictly_below (h : Visits paths (pathsBelow paths path) order)
    (grown : Grown paths) : ∀ found ∈ order, path <+: found ∧ found ≠ path := by
  intro found mem
  obtain ⟨start, below, begins⟩ := h.exists_start found mem
  obtain ⟨c, rfl⟩ := grown.exists_of_mem_pathsBelow below
  refine ⟨(List.prefix_append path [c]).trans begins, ?_⟩
  rintro rfl
  have shorter := begins.length_le
  rw [List.length_append, List.length_singleton] at shorter
  exact absurd shorter (Nat.not_succ_le_self _)

/-- Nothing found from the rest of the stack goes on from the path on top. -/
theorem Visits.not_below_top (h : Visits paths rest order) (apart : Apart (path :: rest)) :
    ∀ found ∈ order, ¬ path <+: found := by
  intro found mem begins
  obtain ⟨start, deeper, begins'⟩ := h.exists_start found mem
  obtain ⟨notBehind, notBefore⟩ := (List.pairwise_cons.mp apart).1 start deeper
  exact (List.prefix_or_prefix_of_prefix begins begins').elim notBehind notBefore

/-- A walk from a new leaf finds nothing else. -/
theorem Grown.visits_leaf (h : Grown paths) (more : leaf ≠ []) (new : leaf ∉ paths) :
    Visits (paths ++ [leaf]) [leaf] [leaf] := by
  have shorter : leaf.dropLast ≠ leaf := by
    intro same
    have positive := List.length_pos_iff.mpr more
    have lengths := congrArg List.length same
    rw [List.length_dropLast] at lengths
    omega
  have nothing : pathsBelow (paths ++ [leaf]) leaf = [] :=
    (pathsBelow_concat_of_ne shorter).trans (h.pathsBelow_eq_nil more new)
  refine .visit ?_
  rw [nothing]
  exact .nil

/-- A walk with the parent of a leaf on top finds the leaf after what is below the parent, and
before the rest. -/
theorem Visits.concat_of_top (h : Visits paths (pathsBelow paths leaf.dropLast ++ rest) order)
    (grown : Grown paths) (more : leaf ≠ []) (new : leaf ∉ paths)
    (apart : Apart (leaf.dropLast :: rest)) :
    Visits (paths ++ [leaf]) (leaf.dropLast :: rest) (placePath (leaf.dropLast :: order) leaf) := by
  obtain ⟨inner, outer, rfl, first, second⟩ := h.exists_append
  have inside := first.strictly_below grown
  have outside := second.not_below_top apart
  have missed : leaf.dropLast ∉ inner := fun held => (inside _ held).2 rfl
  have missed' : leaf.dropLast ∉ outer := fun held => outside _ held (List.prefix_refl _)
  have placed : placePath (leaf.dropLast :: inner ++ outer) leaf =
      leaf.dropLast :: inner ++ leaf :: outer := by
    refine placePath_append (fun path mem => ?_) outside
    obtain rfl | held := List.mem_cons.mp mem
    · exact List.prefix_refl _
    · exact (inside path held).1
  rw [← List.cons_append, placed]
  refine .visit ?_
  rw [pathsBelow_concat_dropLast, List.append_assoc]
  exact (first.concat_of_not_mem missed).append
    ((grown.visits_leaf more new).append (second.concat_of_not_mem missed'))

/-- A walk that comes to the parent of a leaf finds the leaf right after all that goes on from the
parent. -/
theorem Visits.concat_of_mem (h : Visits paths stack order) (grown : Grown paths)
    (more : leaf ≠ []) (new : leaf ∉ paths) (apart : Apart stack) (mem : leaf.dropLast ∈ order) :
    Visits (paths ++ [leaf]) stack (placePath order leaf) := by
  induction h with
  | nil => cases mem
  | @visit path rest order onward ih =>
      by_cases here : leaf.dropLast = path
      · subst here
        exact onward.concat_of_top grown more new apart
      · have later : leaf.dropLast ∈ order := (List.mem_cons.mp mem).resolve_left here
        rw [placePath_cons ⟨_, later, List.prefix_refl _⟩]
        refine .visit ?_
        rw [pathsBelow_concat_of_ne here]
        exact ih (apart.onward grown) later

/-- The root stays at the front. -/
theorem placePath_root (listed : leaf.dropLast ∈ [] :: order) :
    placePath ([] :: order) leaf = [] :: placePath order leaf := by
  by_cases held : ∃ path ∈ order, leaf.dropLast <+: path
  · exact placePath_cons held []
  · have root : leaf.dropLast = [] := (List.mem_cons.mp listed).resolve_right
      fun mem => held ⟨_, mem, List.prefix_refl _⟩
    obtain rfl : order = [] := List.eq_nil_iff_forall_not_mem.mpr
      fun path mem => held ⟨path, mem, root ▸ List.nil_prefix⟩
    have inside : leaf.dropLast <+: [] := root ▸ List.nil_prefix
    show placePath ([] ++ [[]]) leaf = [] ++ [[]] ++ [leaf]
    exact placePath_concat_of_inside inside

/-- Placing each new path behind its parent's makes the order of the walk from the root. -/
theorem Grown.visits (h : Grown paths) :
    Visits paths [[]] ([] :: paths.foldl placePath []) ∧
      ∀ path, path ∈ paths.foldl placePath [] ↔ path ∈ paths := by
  induction h with
  | nil => exact ⟨.visit .nil, by simp⟩
  | @concat paths leaf earlier more new parent ih =>
      obtain ⟨walk, members⟩ := ih
      rw [List.foldl_append, List.foldl_cons, List.foldl_nil]
      have listed : leaf.dropLast ∈ [] :: paths.foldl placePath [] :=
        parent.elim (fun root => root ▸ List.mem_cons_self)
          fun held => List.mem_cons_of_mem _ ((members _).mpr held)
      have walk' := walk.concat_of_mem earlier more new (List.pairwise_singleton _ _) listed
      constructor
      · rwa [placePath_root listed] at walk'
      · intro path
        rw [mem_placePath, members, List.mem_append, List.mem_singleton, or_comm]

end TableLexer
