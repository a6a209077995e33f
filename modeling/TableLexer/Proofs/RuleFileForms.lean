import Mathlib.Data.List.Forall2
import TableLexer.Proofs.JsonForm
import TableLexer.Proofs.Ownership
import TableLexer.RuleFile

/-!
# The forms of a rule file

A rule file may be given by any object that has its fields in some order and leaves out fields that
hold their default. Since no name is repeated, a field is found wherever it stands, and one that is
not found had its default. So every form of a rule file is read as this rule file. The default of a
comment's closing text is a line feed and not the empty text, so leaving the closing text out is not
the same as giving an empty one.
-/

namespace TableLexer

namespace Json

/-- The members of a record in any order, without some of those that may be left out. -/
def Abridges (full optional members : List (String × Json)) : Prop :=
  ∃ omitted : List (String × Json), (members ++ omitted).Perm full ∧ ∀ m ∈ omitted, m ∈ optional

/-- A field is found with its value, or it may be left out and is missing. -/
def FoundAs (optional : List (String × Json)) (m : String × Json) (found : Option Json) : Prop :=
  found = some m.2 ∨ found = none ∧ m ∈ optional

variable {full optional members : List (String × Json)} {name : String} {v : Json}

theorem Abridges.refl (full optional : List (String × Json)) : Abridges full optional full :=
  ⟨[], by simp, by simp⟩

theorem Abridges.subset (h : Abridges full optional members) : ∀ m ∈ members, m ∈ full := by
  obtain ⟨omitted, perm, -⟩ := h
  exact fun m mem => perm.mem_iff.mp (List.mem_append_left omitted mem)

/-- Of members with different names each is found by its name. -/
theorem member?_of_mem (distinct : (members.map Prod.fst).Nodup) (mem : (name, v) ∈ members) :
    member? members name = some (some v) := by
  have only : members.filter (·.1 == name) = [(name, v)] := by
    induction members with
    | nil => cases mem
    | cons m rest ih =>
        obtain ⟨fresh, distinct'⟩ := List.nodup_cons.mp distinct
        obtain rfl | later := List.mem_cons.mp mem
        · have none : rest.filter (·.1 == name) = [] := by
            refine List.filter_eq_nil_iff.mpr fun other held same => fresh ?_
            exact List.mem_map.mpr ⟨other, held, by simpa using same⟩
          rw [List.filter_cons_of_pos (by simp), none]
        · have other : m.1 ≠ name := by
            rintro rfl
            exact fresh (List.mem_map.mpr ⟨_, later, rfl⟩)
          rw [List.filter_cons_of_neg (by simpa using other), ih distinct' later]
  rw [member?, only]

theorem member?_of_not_mem (missing : name ∉ members.map Prod.fst) :
    member? members name = some none := by
  have none : members.filter (·.1 == name) = [] := by
    refine List.filter_eq_nil_iff.mpr fun m held same => missing ?_
    exact List.mem_map.mpr ⟨m, held, by simpa using same⟩
  rw [member?, none]

/-- A field of the record is found, or it is left out. -/
theorem Abridges.exists_member? (h : Abridges full optional members)
    (distinct : (full.map Prod.fst).Nodup) {m : String × Json} (mem : m ∈ full) :
    ∃ found, member? members m.1 = some found ∧ FoundAs optional m found := by
  obtain ⟨omitted, perm, allowed⟩ := h
  have names : (members.map Prod.fst ++ omitted.map Prod.fst).Nodup := by
    rw [← List.map_append]
    exact (perm.map Prod.fst).nodup_iff.mpr distinct
  obtain ⟨kept, -, apart⟩ := List.nodup_append.mp names
  obtain here | left := List.mem_append.mp (perm.mem_iff.mpr mem)
  · exact ⟨some m.2, member?_of_mem kept here, .inl rfl⟩
  · refine ⟨none, member?_of_not_mem fun held => ?_, .inr ⟨rfl, allowed m left⟩⟩
    exact apart _ held _ (List.mem_map.mpr ⟨m, left, rfl⟩) rfl

/-- All fields of the record are found or left out. -/
theorem Abridges.exists_fields? (h : Abridges full optional members)
    (distinct : (full.map Prod.fst).Nodup) (isOpen : Bool) :
    ∃ found, (object members).fields? (full.map Prod.fst) isOpen = some found ∧
      List.Forall₂ (FoundAs optional) full found := by
  have known : members.all (fun m => (full.map Prod.fst).contains m.1) = true := by
    simp only [List.all_eq_true, List.contains_iff_mem]
    exact fun m mem => List.mem_map.mpr ⟨m, h.subset m mem, rfl⟩
  have each : ∀ part : List (String × Json), (∀ m ∈ part, m ∈ full) →
      ∃ found, (part.map Prod.fst).mapM (member? members) = some found ∧
        List.Forall₂ (FoundAs optional) part found := by
    intro part
    induction part with
    | nil => exact fun _ => ⟨[], rfl, .nil⟩
    | cons m part ih =>
        intro inside
        obtain ⟨first, one, as⟩ := h.exists_member? distinct (inside m List.mem_cons_self)
        obtain ⟨others, more, as'⟩ := ih fun m mem => inside m (List.mem_cons_of_mem _ mem)
        refine ⟨first :: others, ?_, .cons as as'⟩
        rw [List.map_cons, List.mapM_cons, one, more]
        rfl
  obtain ⟨found, read, as⟩ := each full fun _ mem => mem
  exact ⟨found, by rw [fields?, known, Bool.or_true, if_pos rfl, read], as⟩

/-- A field that is read with a default gives the value of the record, whether it is left out or
not. -/
theorem FoundAs.elim_eq {α : Type} {found : Option Json} {x : α}
    (as : FoundAs optional (name, v) found) (read : Json → Option α) (default : α)
    (reads : read v = some x) (same : (name, v) ∈ optional → x = default) :
    found.elim (some default) read = some x := by
  obtain rfl | ⟨rfl, left⟩ := as
  · exact reads
  · exact congrArg some (same left).symm

/-- A list is read from values that are read as its items. -/
theorem list?_of_forall₂ {α : Type} {item? : Json → Option α} {xs : List α} {vs : List Json}
    (each : List.Forall₂ (fun x v => item? v = some x) xs vs) :
    list? item? (array vs) = some xs := by
  show vs.mapM item? = some xs
  induction each with
  | nil => rfl
  | cons first _ ih =>
      rw [List.mapM_cons, first, ih]
      rfl

theorem usable_of_subset {members : List (String × Json)} (each : ∀ m ∈ full, Usable m.2)
    (inside : ∀ m ∈ members, m ∈ full) : Usable (object members) :=
  .object fun m mem => each m (inside m mem)

/-- An array can be written if its items are forms that can be. -/
theorem usable_array_of_forall₂ {α : Type} {form : α → Json → Prop} {xs : List α} {vs : List Json}
    (usable : ∀ {x : α} {v : Json}, form x v → Usable v) (each : List.Forall₂ form xs vs) :
    Usable (array vs) := by
  apply Usable.array
  induction each with
  | nil => simp
  | cons first _ ih =>
      intro v mem
      obtain rfl | later := List.mem_cons.mp mem
      · exact usable first
      · exact ih v later

/-- A record of two texts in any order. The second one may be left out where it is the default. -/
def TwoTexts (name name' default a b : String) (v : Json) : Prop :=
  ∃ members, v = object members ∧
    Abridges [(name, string a), (name', string b)] [(name', string default)] members

namespace TwoTexts

variable {name' default a b : String}

theorem both : TwoTexts name name' default a b (object [(name, string a), (name', string b)]) :=
  ⟨_, rfl, .refl _ _⟩

theorem without_second : TwoTexts name name' default a default (object [(name, string a)]) :=
  ⟨_, rfl, [(name', string default)], .refl _, fun _ mem => mem⟩

/-- The second text is read with its default. -/
theorem exists_fields? (h : TwoTexts name name' default a b v) (apart : name ≠ name') :
    ∃ found, v.fields? [name, name'] true = some [some (string a), found] ∧
      found.elim (some default) text? = some b := by
  obtain ⟨members, rfl, abridges⟩ := h
  obtain ⟨found, read, as⟩ := abridges.exists_fields? (by simpa using apart) true
  match found, as with
  | [one, two], .cons first (.cons second .nil) =>
      have there : one = some (string a) := by
        obtain there | ⟨-, left⟩ := first
        · exact there
        · simp [apart] at left
      refine ⟨two, there ▸ read, second.elim_eq text? default rfl fun left => ?_⟩
      simpa using left

theorem usable (h : TwoTexts name name' default a b v) : Usable v := by
  obtain ⟨members, rfl, abridges⟩ := h
  refine usable_of_subset ?_ abridges.subset
  simp [Usable.string]

end TwoTexts

end Json

open Json (Abridges Usable)

namespace CommentEntry

variable {c : CommentEntry} {v : Json}

/-- A value is a record of a comment if it has its fields. The closing text may be left out if it is
a line feed. -/
def Form (c : CommentEntry) (v : Json) : Prop :=
  Json.TwoTexts "open" "close" "\n" c.opening c.closing v

theorem forall₂_form_toJson (cs : List CommentEntry) : List.Forall₂ Form cs (cs.map toJson) :=
  List.forall₂_map_right_iff.mpr (List.forall₂_same.mpr fun _ _ => .both)

theorem Form.ofJson? (h : c.Form v) : ofJson? v = some c := by
  obtain ⟨found, fields, closing⟩ := h.exists_fields? (by decide)
  rw [CommentEntry.ofJson?, fields]
  show (found.elim (some "\n") Json.text?).bind _ = _
  rw [closing]
  rfl

end CommentEntry

namespace LiteralEntry

variable {l : LiteralEntry} {v : Json}

/-- A value is a record of a literal if it has its fields. The escape text may be left out if it is
empty. -/
def Form (l : LiteralEntry) (v : Json) : Prop :=
  Json.TwoTexts "border" "escape" "" l.border l.escape v

theorem forall₂_form_toJson (ls : List LiteralEntry) : List.Forall₂ Form ls (ls.map toJson) :=
  List.forall₂_map_right_iff.mpr (List.forall₂_same.mpr fun _ _ => .both)

theorem Form.ofJson? (h : l.Form v) : ofJson? v = some l := by
  obtain ⟨found, fields, escape⟩ := h.exists_fields? (by decide)
  rw [LiteralEntry.ofJson?, fields]
  show (found.elim (some "") Json.text?).bind _ = _
  rw [escape]
  rfl

end LiteralEntry

namespace RuleFile

variable {f : RuleFile} {v : Json}

/-- The fields of a rule file, with values for its comments and its literals. -/
def fields (f : RuleFile) (comments literals : List Json) : List (String × Json) :=
  [("keywords", .array (f.keywords.map .string)),
   ("operators", .array (f.operators.map .string)),
   ("comments", .array comments),
   ("literals", .array literals),
   ("separators", .string f.separators),
   ("ignore_case", .bool f.ignoreCase),
   ("skip_separators", .bool f.skipSeparators)]

/-- The fields of a rule file that declares nothing. -/
def defaults : List (String × Json) := fields ⟨[], [], [], [], "", false, true⟩ [] []

/-- A value is a form of a rule file if it has its fields in any order, with forms of its comments
and literals, and leaves out none but fields that hold their default. -/
def Form (f : RuleFile) (v : Json) : Prop :=
  ∃ comments literals members, List.Forall₂ CommentEntry.Form f.comments comments ∧
    List.Forall₂ LiteralEntry.Form f.literals literals ∧ v = .object members ∧
    Abridges (f.fields comments literals) defaults members

theorem form_toJson (f : RuleFile) : f.Form f.toJson :=
  ⟨_, _, _, CommentEntry.forall₂_form_toJson _, LiteralEntry.forall₂_form_toJson _, rfl, .refl _ _⟩

/-- Every form of a rule file is read as this rule file. -/
theorem Form.ofJson? (h : f.Form v) : ofJson? v = some f := by
  obtain ⟨comments, literals, members, ofComments, ofLiterals, rfl, abridges⟩ := h
  have texts : ∀ texts : List String,
      Json.list? Json.text? (.array (texts.map .string)) = some texts := fun texts =>
    Json.list?_array_map fun _ _ => rfl
  have readComments : Json.list? CommentEntry.ofJson? (.array comments) = some f.comments :=
    Json.list?_of_forall₂ (ofComments.imp fun _ _ form => form.ofJson?)
  have readLiterals : Json.list? LiteralEntry.ofJson? (.array literals) = some f.literals :=
    Json.list?_of_forall₂ (ofLiterals.imp fun _ _ form => form.ofJson?)
  obtain ⟨found, read, as⟩ := abridges.exists_fields? (by simp [fields]) false
  match found, as with
  | [_, _, _, _, _, _, _], .cons keywords (.cons operators (.cons comments' (.cons literals'
      (.cons separators (.cons ignoreCase (.cons skipSeparators .nil)))))) =>
      have keywords := keywords.elim_eq _ [] (texts f.keywords)
        fun left => by simpa [defaults, fields] using left
      have operators := operators.elim_eq _ [] (texts f.operators)
        fun left => by simpa [defaults, fields] using left
      have comments' := comments'.elim_eq _ [] readComments fun left => by
        have none : comments = [] := by simpa [defaults, fields] using left
        subst none
        exact List.forall₂_nil_right_iff.mp ofComments
      have literals' := literals'.elim_eq _ [] readLiterals fun left => by
        have none : literals = [] := by simpa [defaults, fields] using left
        subst none
        exact List.forall₂_nil_right_iff.mp ofLiterals
      have separators : _ = some f.separators := separators.elim_eq Json.text? "" rfl
        fun left => by simpa [defaults, fields] using left
      have ignoreCase : _ = some f.ignoreCase := ignoreCase.elim_eq Json.bool? false rfl
        fun left => by simpa [defaults, fields] using left
      have skipSeparators : _ = some f.skipSeparators :=
        skipSeparators.elim_eq Json.bool? true rfl
          fun left => by simpa [defaults, fields] using left
      rw [RuleFile.ofJson?, show fieldNames = (f.fields comments literals).map Prod.fst from rfl,
        read]
      simp only [Option.bind_eq_bind, Option.bind_some, keywords, operators, comments', literals',
        separators, ignoreCase, skipSeparators]
      rfl

theorem Form.usable (h : f.Form v) : Usable v := by
  obtain ⟨comments, literals, members, ofComments, ofLiterals, rfl, abridges⟩ := h
  refine Json.usable_of_subset (fun m mem => ?_) abridges.subset
  simp only [fields, List.mem_cons, List.not_mem_nil, or_false] at mem
  obtain rfl | rfl | rfl | rfl | rfl | rfl | rfl := mem
  · exact Json.usable_array_map fun _ => .string _
  · exact Json.usable_array_map fun _ => .string _
  · exact Json.usable_array_of_forall₂ Json.TwoTexts.usable ofComments
  · exact Json.usable_array_of_forall₂ Json.TwoTexts.usable ofLiterals
  · exact .string _
  · exact .bool _
  · exact .bool _

/-- What is written for a form of a rule file is a text for this rule file. -/
theorem Form.read?_write (h : f.Form v) (layout : Option Nat) :
    read? (Text.Utf8.encode (v.write layout)) = some f := by
  rw [read?, h.usable.read?_write layout, Option.bind_some]
  exact h.ofJson?

/-- A comment that is not dropped makes different rules with different closing texts. -/
theorem toRuleSet_ne_of_closing {front back : List CommentEntry} {opening one other : String}
    (more : opening ≠ "") (apart : one ≠ other) :
    toRuleSet { f with comments := front ++ ⟨opening, one⟩ :: back } ≠
      toRuleSet { f with comments := front ++ ⟨opening, other⟩ :: back } := by
  intro same
  have rules := congrArg RuleSet.rules same
  simp only [toRuleSet, RuleSet.rules_ofDeclarations, declarations, List.map_append, List.map_cons,
    List.flatMap_append, List.flatMap_cons, List.append_assoc, List.append_cancel_left_eq,
    Declaration.rules, if_neg more, List.cons_append, List.nil_append, List.cons.injEq,
    Rule.comment.injEq] at rules
  exact apart rules.1.2

end RuleFile

/-- A rule file is read back from every text that is written for it, with its fields in any order
and without some of those that hold their default, and then it makes the same rules. A comment
without a closing text is read as one that ends with its line, and not as one whose closing text is
empty. -/
theorem rule_files_read_back (f : RuleFile) :
    RuleFile.read? (Text.Utf8.ofString f.write) = some f ∧
    (∀ v, f.Form v → ∀ layout,
      let read := RuleFile.read? (Text.Utf8.encode (v.write layout))
      read = some f ∧ read.map RuleFile.toRuleSet = some f.toRuleSet) ∧
    ∀ (front back : List CommentEntry) (opening : String),
      let explicit : RuleFile := { f with comments := front ++ ⟨opening, ""⟩ :: back }
      let implied : RuleFile := { f with comments := front ++ ⟨opening, "\n"⟩ :: back }
      let withComment := fun members : List (String × Json) => Json.object <| f.fields
        (front.map CommentEntry.toJson ++ .object members :: back.map CommentEntry.toJson)
        (f.literals.map LiteralEntry.toJson)
      (∀ layout,
        RuleFile.read? (Text.Utf8.encode ((withComment
          [("open", .string opening), ("close", .string "")]).write layout)) = some explicit ∧
        RuleFile.read? (Text.Utf8.encode ((withComment
          [("open", .string opening)]).write layout)) = some implied) ∧
      explicit ≠ implied ∧ (opening ≠ "" → explicit.toRuleSet ≠ implied.toRuleSet) := by
  refine ⟨?_, fun v form layout => ?_, fun front back opening => ?_⟩
  · rw [RuleFile.write, Json.compact, Text.Utf8.ofString, String.toList_ofList]
    exact f.form_toJson.read?_write none
  · intro read
    have back : read = some f := form.read?_write layout
    exact ⟨back, by rw [back, Option.map_some]⟩
  · intro explicit implied withComment
    have form : ∀ {c : CommentEntry} {members : List (String × Json)}, c.Form (.object members) →
        RuleFile.Form { f with comments := front ++ c :: back } (withComment members) := by
      intro c members entry
      refine ⟨_, _, _, ?_, LiteralEntry.forall₂_form_toJson _, rfl, .refl _ _⟩
      exact List.rel_append (CommentEntry.forall₂_form_toJson front)
        (.cons entry (CommentEntry.forall₂_form_toJson back))
    have left : (⟨opening, "\n"⟩ : CommentEntry).Form (.object [("open", .string opening)]) :=
      .without_second
    have given : (⟨opening, ""⟩ : CommentEntry).Form
        (.object [("open", .string opening), ("close", .string "")]) := .both
    refine ⟨fun layout => ⟨(form given).read?_write layout, (form left).read?_write layout⟩, ?_, ?_⟩
    · intro same
      simp [explicit, implied] at same
    · exact fun more => RuleFile.toRuleSet_ne_of_closing more (by decide)

/-- A file that begins with its last field, with a line comment and a literal without escapes, of
which the defaults are left out. -/
theorem abridged_rule_file_reads_back :
    let f : RuleFile := ⟨[], [], [⟨"//", "\n"⟩], [⟨"\"", ""⟩], " ", false, false⟩
    let v : Json := .object
      [("skip_separators", .bool false), ("ignore_case", .bool false), ("separators", .string " "),
       ("literals", .array [.object [("border", .string "\"")]]),
       ("comments", .array [.object [("open", .string "//")]])]
    f.Form v ∧ RuleFile.read? (Text.Utf8.encode (v.write none)) = some f ∧
      RuleFile.read? (Text.Utf8.encode (v.write (some 0))) = some f := by
  intro f v
  have form : f.Form v := by
    refine ⟨[.object [("open", .string "//")]], [.object [("border", .string "\"")]], _,
      .cons .without_second .nil, .cons .without_second .nil, rfl,
      [("operators", .array []), ("keywords", .array [])], (f.fields _ _).reverse_perm, ?_⟩
    simp [RuleFile.defaults, RuleFile.fields]
  obtain ⟨-, forms, -⟩ := rule_files_read_back f
  exact ⟨form, (forms v form none).1, (forms v form (some 0)).1⟩

end TableLexer
