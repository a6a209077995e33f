import TableLexer.Program.Compile
import TableLexer.Program.Scan
import TableLexer.Proofs.BinaryForm
import TableLexer.Proofs.FileTrees
import TableLexer.Proofs.JsonForm

/-!
# Compiled rule files

Tables that were compiled from a rule file are stored in one of two forms. Neither is a rule file:
the binary form begins as no JSON value does, and the record of tables has fields that a rule file
does not have. So the scanning program takes both for what they are, and scans with a compiled file
just as with the rules it was compiled from. Only whether separators are listed is not stored.
-/

namespace TableLexer

/-! ## The stored forms -/

namespace Tables

variable {t : Tables}

/-- The record of tables is what their JSON form spells. -/
theorem read?_compactJson (t : Tables) :
    Json.read? (Text.Utf8.ofString t.toCompactJson) = some t.parts.toJson := by
  rw [toCompactJson, Json.compact, Text.Utf8.ofString, String.toList_ofList]
  exact t.parts.usable_toJson.read?_write none

/-- No JSON value begins with the letter that the binary form begins with. -/
theorem read?_toBinary (t : Tables) : Json.read? t.toBinary = none := by
  obtain ⟨rest, begun⟩ : ∃ rest, t.toBinary = 0x52 :: rest := ⟨_, rfl⟩
  have noNumber : Json.readNumber (0x52 :: rest) = none := by
    simp [Json.readNumber, Json.readWhole, Json.readDigits, List.span_eq_takeWhile_dropWhile,
      Json.isDigit]
  have solid : Json.isSpace 0x52 = false := rfl
  have noValue : ∀ fuel, Json.readValue fuel (0x52 :: rest) = none := by
    intro fuel
    cases fuel with
    | zero => rfl
    | succ fuel => simpa [Json.readValue, Json.skipSpace_cons solid] using noNumber
  rw [begun, Json.read?, noValue]

theorem magic_isPrefixOf_toBinary (t : Tables) : Binary.magic.isPrefixOf t.toBinary = true := by
  rw [List.isPrefixOf_iff_prefix]
  simp only [toBinary, Binary.encode, List.append_assoc]
  exact List.prefix_append _ _

theorem magic_isPrefixOf_compactJson (t : Tables) :
    Binary.magic.isPrefixOf (Text.Utf8.ofString t.toCompactJson) = false := by
  rw [toCompactJson, Json.compact, Text.Utf8.ofString, String.toList_ofList]
  rfl

/-- The form of tables is told by its first bytes, whatever the name of the output. -/
theorem magic_isPrefixOf_formFor (t : Tables) (output : String) :
    Binary.magic.isPrefixOf (Program.formFor output t) = true ↔
      Path.extension? output = some "bin" := by
  unfold Program.formFor
  split
  · next binary => exact iff_of_true t.magic_isPrefixOf_toBinary binary
  · next other => exact iff_of_false (by simp [t.magic_isPrefixOf_compactJson]) other

/-- Tables are loaded from the form in which they are written to an output. -/
theorem Admitted.load_formFor (h : t.Admitted) (fit : t.CountsFit) (output : String) :
    load (Program.formFor output t) = .ok t := by
  unfold Program.formFor
  split
  · rw [load, if_pos t.magic_isPrefixOf_toBinary]
    exact h.ofBinary_toBinary fit
  · rw [load, if_neg (by simp [t.magic_isPrefixOf_compactJson]), toCompactJson, Json.compact,
      Text.Utf8.ofString, String.toList_ofList]
    exact h.ofJson_write (h.encodable fit).toWordSized none

end Tables

namespace RuleFile

/-- A rule file has no field under the name where tables keep their characters. -/
theorem ofJson?_toJson_parts (p : TableParts) : ofJson? p.toJson = none := rfl

/-- Stored tables are no rule file. -/
theorem read?_formFor (t : Tables) (output : String) :
    read? (Program.formFor output t) = none := by
  unfold Program.formFor
  split
  · rw [read?, t.read?_toBinary]
    rfl
  · rw [read?, t.read?_compactJson]
    exact ofJson?_toJson_parts t.parts

/-- Comments and literals leave the setting as it was declared. -/
theorem skipSeparators_toRuleSet (f : RuleFile) :
    f.toRuleSet.skipSeparators = f.skipSeparators := by
  have kept : ∀ (ds : List Declaration) (r : RuleSet),
      (∀ d ∈ ds, ∀ r : RuleSet, (r.declare d).skipSeparators = r.skipSeparators) →
        (ds.foldl RuleSet.declare r).skipSeparators = r.skipSeparators := by
    intro ds
    induction ds with
    | nil => exact fun r _ => rfl
    | cons d ds ih =>
        intro r each
        rw [List.foldl_cons, ih _ fun d mem => each d (List.mem_cons_of_mem _ mem)]
        exact each d List.mem_cons_self r
  rw [toRuleSet, RuleSet.ofDeclarations, declarations, List.append_assoc, List.foldl_append, kept]
  · rfl
  · intro d mem r
    obtain mem | mem := List.mem_append.mp mem
    · obtain ⟨c, -, rfl⟩ := List.mem_map.mp mem
      rfl
    · obtain ⟨l, -, rfl⟩ := List.mem_map.mp mem
      rfl

theorem admitted_compile (f : RuleFile) : f.toRuleSet.compile.Admitted := .inl ⟨f.declarations, rfl⟩

end RuleFile

/-! ## The programs on a file tree -/

namespace FileTree

variable {t u ready : FileTree} {path output : String} {bytes : List UInt8}

/-- A program goes on with the result and the tree of its first action. -/
theorem run_bind {α β : Type} {action : StateM FileTree α} {result : α}
    (first : action t = (result, u)) (next : α → StateM FileTree β) :
    (action >>= next) t = next result u := by
  show StateT.bind action next t = _
  simp only [StateT.bind, first]
  rfl

theorem disk_read (held : t.read path = .ok bytes) : disk.read path t = (.ok bytes, t) :=
  congrArg (·, t) held

theorem disk_write (put : t.write path bytes = .ok u) : disk.write path bytes t = (.ok (), u) := by
  show store (fun tree => tree.write path bytes) t = _
  simp only [store, put]

theorem loadRules_of_read (held : t.read path = .ok bytes) :
    disk.loadRules path t = ((RuleFile.read? bytes).elim (.error (.badRules path)) .ok, t) := by
  rw [Disk.loadRules, run_bind (disk_read held)]
  dsimp only
  cases RuleFile.read? bytes with
  | none => rfl
  | some file => rfl

theorem loadTables_of_read (held : t.read path = .ok bytes) :
    disk.loadTables path t = ((Tables.load bytes).mapError (.badTables path), t) := by
  rw [Disk.loadTables, run_bind (disk_read held)]
  rfl

/-- What could be opened before a file was written can be opened after it, unless it is that
file. -/
theorem openSource_write_of_ne {source : ByteSource} (opened : t.openSource path = .ok source)
    (intact : t.Within ready) (put : ready.write output bytes = .ok u)
    (apart : ready.locate path ≠ ready.locate output) : u.openSource path = .ok source := by
  cases found : t.find path with
  | error e => simp [openSource, found, bind, Except.bind] at opened
  | ok entry =>
      have still := find_write_of_ne put (intact.find found) apart
      rwa [openSource, still, ← found]

end FileTree

namespace Program

open FileTree (disk)

variable {t u : FileTree} {path : String} {bytes : List UInt8} {f : RuleFile} {tables : Tables}
  {skip : Bool}

theorem loadLexer_of_rules (held : t.read path = .ok bytes)
    (spelt : RuleFile.read? bytes = some f) :
    loadLexer disk path t = (.ok (f.toRuleSet.compile, f.skipSeparators), t) := by
  have rules := FileTree.loadRules_of_read held
  rw [spelt] at rules
  rw [loadLexer, FileTree.run_bind rules, ← f.skipSeparators_toRuleSet]
  rfl

/-- Anything that is no rule file is loaded as tables, with separators left out. -/
theorem loadLexer_of_tables (held : t.read path = .ok bytes) (other : RuleFile.read? bytes = none)
    (loaded : Tables.load bytes = .ok tables) :
    loadLexer disk path t = (.ok (tables, true), t) := by
  have rules := FileTree.loadRules_of_read held
  have stored := FileTree.loadTables_of_read held
  rw [other] at rules
  rw [loaded] at stored
  rw [loadLexer, FileTree.run_bind rules]
  exact (FileTree.run_bind stored _).trans rfl

/-- Two trees that open the inputs alike are scanned alike. -/
theorem scanInputs_congr {inputs : List String}
    (same : ∀ input ∈ inputs, t.openSource input = u.openSource input) (count total : Nat)
    (out : String) :
    (scanInputs disk tables skip count out total inputs t).1 =
      (scanInputs disk tables skip count out total inputs u).1 := by
  induction inputs generalizing out total with
  | nil => rfl
  | cons input inputs ih =>
      have opened : ∀ v : FileTree, disk.openSource input v = (v.openSource input, v) :=
        fun _ => rfl
      have later := fun total out => ih (fun input mem => same input (List.mem_cons_of_mem _ mem))
        total out
      rw [scanInputs, FileTree.run_bind (opened t), FileTree.run_bind (opened u),
        same input List.mem_cons_self]
      cases u.openSource input with
      | error e => rfl
      | ok source =>
          cases scanned : scanInput tables skip input source with
          | mk lines result =>
              cases result with
              | error reason =>
                  simp only [scanned]
                  rfl
              | ok n => simpa only [scanned] using later (total + n) (out ++ lines)

/-- A run of the scanning program is decided by the tables, the setting and the inputs. -/
theorem scan_congr {file : String} {skip skip' : Bool} {inputs : List String}
    (loaded : loadLexer disk file t = (.ok (tables, skip), t))
    (loaded' : loadLexer disk path u = (.ok (tables, skip'), u))
    (same : ∀ input ∈ inputs, t.openSource input = u.openSource input) (stdin : ByteSource)
    {setting : Option String} (agree : setting.elim skip isOn = setting.elim skip' isOn) :
    (scan disk (file :: inputs) (pure stdin) setting t).1 =
      (scan disk (path :: inputs) (pure stdin) setting u).1 := by
  rw [scan, scan, FileTree.run_bind loaded, FileTree.run_bind loaded']
  simp only [agree]
  cases inputs with
  | nil => rfl
  | cons input inputs => exact scanInputs_congr same _ 0 ""

/-- The compiling program writes the tables of a rule file next to what was there. -/
theorem compile_eq {files ready after : FileTree} {rules output : String} {outputs : List String}
    (named : outputs.headD defaultOutput = output)
    (prepared : files.prepare output = (.ok (), ready))
    (held : files.read rules = .ok bytes) (spelt : RuleFile.read? bytes = some f)
    (put : ready.write output (formFor output f.toRuleSet.compile) = .ok after) :
    compile disk (rules :: outputs) files =
      (⟨0, summary f.toRuleSet.compile ++
        written output (formFor output f.toRuleSet.compile).length, ""⟩, after) := by
  have loaded := FileTree.loadRules_of_read ((FileTree.within_of_prepare prepared).read held)
  rw [spelt] at loaded
  have stored := FileTree.disk_write put
  have compiled : compileTo disk rules output ready =
      (⟨0, summary f.toRuleSet.compile ++
        written output (formFor output f.toRuleSet.compile).length, ""⟩, after) := by
    rw [compileTo, FileTree.run_bind loaded]
    exact (FileTree.run_bind stored _).trans rfl
  simp only [compile, named]
  cases above : Path.folder? output with
  | none =>
      simp only [FileTree.prepare, above, Prod.mk.injEq, true_and] at prepared
      subst prepared
      exact compiled
  | some folder =>
      simp only [FileTree.prepare, above] at prepared
      have made : disk.makeFolders folder files = (.ok (), ready) := prepared
      exact (FileTree.run_bind made _).trans compiled

end Program

open FileTree (disk)

/-- A compiled rule file takes the place of the rules. The file that the compiling program writes is
no rule file, whatever its name is; its first bytes tell its form, and in that form it holds the
tables of the rules. All other files are as they were. So with inputs that open alike, the scanning
program reports the same for the compiled file as for the rules, provided that separators are set to
be listed or not from outside, or left out by the rules. -/
theorem compiled_rules_scan_alike {files ready after : FileTree} {rules output : String}
    {outputs : List String} {bytes : List UInt8} {f : RuleFile}
    (named : outputs.headD Program.defaultOutput = output) (held : files.read rules = .ok bytes)
    (spelt : RuleFile.read? bytes = some f) (fit : f.toRuleSet.compile.CountsFit)
    (prepared : files.prepare output = (.ok (), ready))
    (put : ready.write output (Program.formFor output f.toRuleSet.compile) = .ok after)
    (kept : ready.find output ≠ .ok .sink) :
    let t := f.toRuleSet.compile
    let form := Program.formFor output t
    Program.compile disk (rules :: outputs) files =
        (⟨0, Program.summary t ++ Program.written output form.length, ""⟩, after) ∧
      after.read output = .ok form ∧
      (∀ (input : String) (source : ByteSource), files.openSource input = .ok source →
        ready.locate input ≠ ready.locate output → after.openSource input = .ok source) ∧
      RuleFile.read? form = none ∧
      (Binary.magic.isPrefixOf form = true ↔ Path.extension? output = some "bin") ∧
      Tables.load form = .ok t ∧
      ∀ (home : FileTree) (path : String) (inputs : List String) (stdin : ByteSource)
        (setting : Option String), home.read path = .ok bytes →
        (∀ input ∈ inputs, after.openSource input = home.openSource input) →
        setting.isSome ∨ f.skipSeparators = true →
        (Program.scan disk (output :: inputs) (pure stdin) setting after).1 =
          (Program.scan disk (path :: inputs) (pure stdin) setting home).1 := by
  intro t form
  have stored : after.read output = .ok form := FileTree.read_write put kept
  have foreign : RuleFile.read? form = none := RuleFile.read?_formFor t output
  have loaded : Tables.load form = .ok t := f.admitted_compile.load_formFor fit output
  refine ⟨Program.compile_eq named prepared held spelt put, stored, ?_, foreign,
    t.magic_isPrefixOf_formFor output, loaded, ?_⟩
  · intro input source opened apart
    exact FileTree.openSource_write_of_ne opened (FileTree.within_of_prepare prepared) put apart
  · intro home path inputs stdin setting read same settled
    apply Program.scan_congr (Program.loadLexer_of_tables stored foreign loaded)
      (Program.loadLexer_of_rules read spelt) same stdin
    cases setting with
    | some value => rfl
    | none =>
        obtain absurd | skipped := settled
        · cases absurd
        · exact skipped.symm

/-- A rule file of one operator, compiled in binary form into a folder that is not there yet. -/
theorem compiled_operator_scans_alike :
    let f : RuleFile := ⟨[], ["+"], [], [], "", false, true⟩
    let bytes := Text.Utf8.ofString f.write
    let files := FileTree.ofFiles [("rules.json", bytes), ("sum", Text.Utf8.ofString "a + b")]
    let ready := (files.prepare "out/t.bin").2
    let form := Program.formFor "out/t.bin" f.toRuleSet.compile
    let after := ready.put ⟨some 0, ["out", "t.bin"]⟩ (.file form)
    (files.read "rules.json" = .ok bytes ∧ RuleFile.read? bytes = some f ∧
      f.toRuleSet.compile.CountsFit ∧ files.prepare "out/t.bin" = (.ok (), ready) ∧
      ready.write "out/t.bin" form = .ok after ∧ ready.find "out/t.bin" ≠ .ok .sink) ∧
    Tables.load form = .ok f.toRuleSet.compile ∧
    (Program.scan disk ["out/t.bin", "sum"] (pure (.ofBytes [])) none after).1 =
      (Program.scan disk ["rules.json", "sum"] (pure (.ofBytes [])) none files).1 := by
  intro f bytes files ready form after
  have held : files.read "rules.json" = .ok bytes := by decide +kernel
  have spelt : RuleFile.read? bytes = some f := by decide +kernel
  have index : f.toRuleSet.compile.lexemes.toList = [("+", 6)] := by decide +kernel
  have fit : f.toRuleSet.compile.CountsFit := by
    refine ⟨by decide +kernel, by decide +kernel, by decide +kernel, by decide +kernel, ?_⟩
    intro text state found
    have mem := Std.ExtTreeMap.mem_toList_iff_getElem?_eq_some.mpr found
    rw [index, List.mem_singleton] at mem
    cases mem
    decide +kernel
  have prepared : files.prepare "out/t.bin" = (.ok (), ready) := by decide +kernel
  have put : ready.write "out/t.bin" form = .ok after := by decide +kernel
  have kept : ready.find "out/t.bin" ≠ .ok .sink := by decide +kernel
  have opened : files.openSource "sum" = .ok (.ofBytes (Text.Utf8.ofString "a + b")) := by
    decide +kernel
  have apart : ready.locate "sum" ≠ ready.locate "out/t.bin" := by decide +kernel
  obtain ⟨-, -, others, -, -, loaded, alike⟩ := compiled_rules_scan_alike
    (show ["out/t.bin"].headD Program.defaultOutput = "out/t.bin" from rfl) held spelt fit prepared
    put kept
  refine ⟨⟨held, spelt, fit, prepared, put, kept⟩, loaded, ?_⟩
  apply alike files "rules.json" ["sum"] (.ofBytes []) none held _ (.inr rfl)
  intro input mem
  cases List.mem_singleton.mp mem
  exact (others "sum" _ opened apart).trans opened.symm

end TableLexer
