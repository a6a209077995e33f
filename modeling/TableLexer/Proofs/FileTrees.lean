import TableLexer.Files.Disk

/-!
# File trees that are written to

A path is followed through folders only. Making folders and writing a file take no folder away, so
whatever a path led to before, it still leads there, the written file apart; and a file that was
written is read back as it was written.
-/

namespace TableLexer.FileTree

variable {t u : FileTree} {l here : Location} {path : String}

/-- At the root there is a folder, whatever is put there. -/
theorem entry?_of_root (root : l.names = []) : t.entry? l = some .folder := if_pos root

theorem entry?_of_not_root (below : l.names ≠ []) : t.entry? l = t.entries.lookup l := if_neg below

/-- A tree in which something was put differs at that place only. -/
theorem entry?_put (t : FileTree) (l here : Location) (entry : Entry) :
    entry? (t.put l entry) here =
      if here.names ≠ [] ∧ here = l then some entry else t.entry? here := by
  have others : ∀ entries : List (Location × Entry), here ≠ l →
      (entries.filter (·.1 != l)).lookup here = entries.lookup here := by
    intro entries apart
    induction entries with
    | nil => rfl
    | cons held entries ih =>
        obtain ⟨place, old⟩ := held
        by_cases dropped : place = l
        · subst dropped
          simpa [List.lookup_cons, beq_false_of_ne apart] using ih
        · simp [List.lookup_cons, dropped, ih]
  by_cases root : here.names = []
  · rw [entry?_of_root root, entry?_of_root root, if_neg fun both => both.1 root]
  · rw [entry?_of_not_root root, entry?_of_not_root root]
    by_cases same : here = l
    · simp [put, same, same ▸ root]
    · simp [put, same, List.lookup_cons, beq_false_of_ne same, others _ same]

/-- A path leads to an entry if it leads to the place of that entry. -/
theorem find_eq_ok {entry : Entry} :
    t.find path = .ok entry ↔ ∃ l, t.locate path = .ok l ∧ t.entry? l = some entry := by
  unfold find
  cases t.locate path with
  | error e => simp [bind, Except.bind]
  | ok l => cases held : t.entry? l <;> simp [bind, Except.bind, held]

/-- Every folder of the one tree is a folder of the other. -/
def FoldersIn (t u : FileTree) : Prop :=
  ∀ l, t.entry? l = some .folder → u.entry? l = some .folder

/-- Whatever is at a place of the one tree is there in the other. -/
def Within (t u : FileTree) : Prop := ∀ l entry, t.entry? l = some entry → u.entry? l = some entry

theorem Within.refl (t : FileTree) : t.Within t := fun _ _ found => found

theorem Within.trans {v : FileTree} (first : t.Within u) (second : u.Within v) : t.Within v :=
  fun l entry found => second l entry (first l entry found)

theorem Within.foldersIn (h : t.Within u) : t.FoldersIn u := fun l => h l .folder

theorem Within.put (vacant : t.entry? l = none) (entry : Entry) : t.Within (t.put l entry) := by
  intro here held found
  rw [entry?_put, if_neg, found]
  rintro ⟨-, rfl⟩
  rw [vacant] at found
  cases found

/-- A file may take the place of nothing or of another file. -/
theorem FoldersIn.put {entry : Entry} (replaceable : t.entry? l ≠ some .folder) :
    t.FoldersIn (t.put l entry) := by
  intro here found
  rw [entry?_put, if_neg, found]
  rintro ⟨-, rfl⟩
  exact replaceable found

/-- A piece of a path leads on from a folder, and where it leads is decided by the piece. -/
theorem FoldersIn.step (h : t.FoldersIn u) {piece : String} (led : t.step here piece = .ok l) :
    u.step here piece = .ok l := by
  cases found : t.entry? here with
  | none => simp [FileTree.step, found] at led
  | some entry =>
      cases entry with
      | folder => simpa only [FileTree.step, found, h here found] using led
      | file bytes | sink => simp [FileTree.step, found] at led

/-- A path that leads somewhere leads there as long as no folder is taken away. -/
theorem FoldersIn.locate (h : t.FoldersIn u) (led : t.locate path = .ok l) :
    u.locate path = .ok l := by
  have along : ∀ (pieces : List String) (here : Location),
      pieces.foldlM t.step here = .ok l → pieces.foldlM u.step here = .ok l := by
    intro pieces
    induction pieces with
    | nil => exact fun here led => led
    | cons piece pieces ih =>
        intro here led
        rw [List.foldlM_cons] at led ⊢
        cases first : t.step here piece with
        | error e =>
            rw [first] at led
            cases led
        | ok next =>
            rw [first] at led
            rw [h.step first]
            exact ih next led
  unfold FileTree.locate at led ⊢
  cases checked : checkPath path with
  | error e =>
      rw [checked] at led
      cases led
  | ok _ =>
      rw [checked] at led
      by_cases empty : path = ""
      · simp [empty, bind, Except.bind] at led
      · simp only [bind, Except.bind, if_neg empty] at led ⊢
        exact along _ _ led

/-- What was found at the end of a path is found there still. -/
theorem Within.find {entry : Entry} (h : t.Within u) (found : t.find path = .ok entry) :
    u.find path = .ok entry := by
  obtain ⟨l, led, held⟩ := find_eq_ok.mp found
  exact find_eq_ok.mpr ⟨l, h.foldersIn.locate led, h l entry held⟩

theorem Within.read {bytes : List UInt8} (h : t.Within u) (held : t.read path = .ok bytes) :
    u.read path = .ok bytes := by
  cases found : t.find path with
  | error e => simp [FileTree.read, found, bind, Except.bind] at held
  | ok entry => simpa only [FileTree.read, found, h.find found] using held

/-- Folders are only made where nothing is. -/
theorem within_makeAlong (t : FileTree) (here : Location) (pieces : List String) :
    t.Within (t.makeAlong here pieces).2 := by
  fun_induction makeAlong t here pieces with
  | case1 | case2 | case5 | case6 => exact .refl _
  | case3 t here piece rest l led vacant ih => exact (Within.put vacant .folder).trans ih
  | case4 t here piece rest l led folder ih => exact ih

theorem within_makeFolders (t : FileTree) (path : String) : t.Within (t.makeFolders path).2 := by
  unfold makeFolders
  cases checkPath path with
  | error e => exact .refl t
  | ok _ => exact t.within_makeAlong _ _

/-- The tree with the folder in which a path names an entry. -/
def prepare (t : FileTree) (path : String) : Except FileError Unit × FileTree :=
  match Path.folder? path with
  | none => (.ok (), t)
  | some folder => t.makeFolders folder

theorem within_of_prepare {result : Except FileError Unit} (made : t.prepare path = (result, u)) :
    t.Within u := by
  unfold prepare at made
  cases above : Path.folder? path with
  | none =>
      rw [above] at made
      cases made
      exact .refl t
  | some folder =>
      have within := t.within_makeFolders folder
      rw [above] at made
      rwa [show t.makeFolders folder = _ from made] at within

/-- A file is written where its path leads, which must not be to a folder. Nothing is kept of what
is written to a sink. -/
theorem write_eq_ok {bytes : List UInt8} (written : t.write path bytes = .ok u) :
    ∃ l, t.locate path = .ok l ∧ t.entry? l ≠ some .folder ∧
      u = if t.entry? l = some .sink then t else t.put l (.file bytes) := by
  unfold write at written
  cases checked : checkPath path with
  | error e => simp [checked, bind, Except.bind] at written
  | ok _ =>
      cases slash : path.endsWith "/" with
      | true =>
          simp only [checked, slash, bind, Except.bind, if_true] at written
          split at written <;> cases written
      | false =>
          cases led : t.locate path with
          | error e => simp [checked, slash, led, bind, Except.bind] at written
          | ok l =>
              simp only [checked, slash, led, bind, Except.bind, Bool.false_eq_true, if_false]
                at written
              refine ⟨l, rfl, ?_⟩
              cases held : t.entry? l with
              | none =>
                  rw [held] at written
                  cases written
                  simp
              | some entry =>
                  rw [held] at written
                  cases entry <;> cases written <;> simp

/-- Writing a file takes no folder away. -/
theorem foldersIn_write {bytes : List UInt8} (written : t.write path bytes = .ok u) :
    t.FoldersIn u := by
  obtain ⟨l, -, replaceable, rfl⟩ := write_eq_ok written
  split
  · exact fun _ found => found
  · exact .put replaceable

/-- A file that was written is found as it was written. -/
theorem find_write {bytes : List UInt8} (written : t.write path bytes = .ok u)
    (kept : t.find path ≠ .ok .sink) : u.find path = .ok (.file bytes) := by
  have folders := foldersIn_write written
  obtain ⟨l, led, replaceable, rfl⟩ := write_eq_ok written
  have solid : t.entry? l ≠ some .sink := fun held => kept (find_eq_ok.mpr ⟨l, led, held⟩)
  have below : l.names ≠ [] := by
    intro root
    exact replaceable (entry?_of_root root)
  rw [if_neg solid] at folders ⊢
  exact find_eq_ok.mpr ⟨l, folders.locate led, by rw [entry?_put, if_pos ⟨below, rfl⟩]⟩

theorem read_write {bytes : List UInt8} (written : t.write path bytes = .ok u)
    (kept : t.find path ≠ .ok .sink) : u.read path = .ok bytes := by
  rw [FileTree.read, find_write written kept]
  rfl

/-- Writing a file changes nothing at other places. -/
theorem find_write_of_ne {bytes : List UInt8} {other : String} {entry : Entry}
    (written : t.write path bytes = .ok u) (found : t.find other = .ok entry)
    (apart : t.locate other ≠ t.locate path) : u.find other = .ok entry := by
  have folders := foldersIn_write written
  obtain ⟨l, led, -, rfl⟩ := write_eq_ok written
  obtain ⟨here, reached, held⟩ := find_eq_ok.mp found
  refine find_eq_ok.mpr ⟨here, folders.locate reached, ?_⟩
  split
  · exact held
  · rw [entry?_put, if_neg, held]
    rintro ⟨-, rfl⟩
    exact apart (reached.trans led.symm)

end TableLexer.FileTree
