/-!
# Character sources

A source hands out the characters of a stream in order and reports its end; it is never rewound.
Both reading and closing may fail, and a source that has failed can be used again. A source also
bounds the characters it can still hand out, so that a scan of it is known to end.
-/

namespace TableLexer

/-- Why a read or a close fails. -/
inductive ReadError where
  /-- No sequence of UTF-8 begins with this byte. -/
  | invalidLead
  /-- The bytes do not spell a character. -/
  | invalidSequence
  /-- The stream ends before the sequence does. -/
  | incompleteSequence
  /-- A directory has no bytes. -/
  | isDirectory
  /-- A failure of the device behind the source, with its own text. -/
  | device (text : String)
  deriving DecidableEq

/-- The wording of a failure. A directory is refused by the system, in its own words. -/
def ReadError.message? : ReadError → Option String
  | invalidLead => some "invalid UTF-8 lead byte"
  | invalidSequence => some "invalid UTF-8 sequence"
  | incompleteSequence => some "stream ends inside a UTF-8 sequence"
  | isDirectory => none
  | device text => some text

/-- A stream of characters. -/
class CharSource (σ : Type) where
  /-- The next character, or `none` at the end of the stream. -/
  read : σ → Except ReadError (Option Char) × σ
  /-- Releases what is behind the source. -/
  close : σ → Except ReadError Unit × σ
  /-- A bound on the number of characters to come. -/
  remaining : σ → Nat
  /-- Every character that is read lowers the bound. -/
  remaining_lt : ∀ {s s' : σ} {c : Char}, read s = (.ok (some c), s') → remaining s' < remaining s

/-- Text in memory. -/
structure TextSource where
  rest : List Char
  deriving DecidableEq

namespace TextSource

/-- A source that starts at the beginning of a text. -/
def ofString (text : String) : TextSource := ⟨text.toList⟩

instance : CharSource TextSource where
  read
    | ⟨[]⟩ => (.ok none, ⟨[]⟩)
    | ⟨c :: rest⟩ => (.ok (some c), ⟨rest⟩)
  close _ := (.ok (), ⟨[]⟩)
  remaining s := s.rest.length
  remaining_lt {s s' c} h := by
    obtain ⟨rest⟩ := s
    cases rest with
    | nil => simp at h
    | cons d rest =>
      simp only [Prod.mk.injEq] at h
      simp [← h.2]

end TextSource

/-- One answer of a scripted source. -/
inductive ScriptEvent where
  | char (c : Char)
  | failure (e : ReadError)
  deriving DecidableEq

/-- A source that answers its reads from a list and may refuse to be closed once. -/
structure ScriptSource where
  events : List ScriptEvent
  closeError : Option ReadError
  deriving DecidableEq

namespace ScriptSource

instance : CharSource ScriptSource where
  read
    | ⟨[], e⟩ => (.ok none, ⟨[], e⟩)
    | ⟨.char c :: rest, e⟩ => (.ok (some c), ⟨rest, e⟩)
    | ⟨.failure f :: rest, e⟩ => (.error f, ⟨rest, e⟩)
  close
    | ⟨_, none⟩ => (.ok (), ⟨[], none⟩)
    | ⟨_, some e⟩ => (.error e, ⟨[], none⟩)
  remaining s := s.events.length
  remaining_lt {s s' c} h := by
    obtain ⟨events, e⟩ := s
    match events with
    | [] => simp at h
    | .failure f :: rest => simp at h
    | .char d :: rest =>
      simp only [Prod.mk.injEq] at h
      simp [← h.2]

end ScriptSource

end TableLexer
