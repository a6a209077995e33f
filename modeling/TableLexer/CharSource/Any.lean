import TableLexer.CharSource.Bytes

/-!
# Sources of any form

One scanner may be bound to sources of different forms in turn.
-/

namespace TableLexer

/-- A source of one of the known forms. -/
inductive AnySource where
  | text (s : TextSource)
  | bytes (s : ByteSource)
  | script (s : ScriptSource)

namespace AnySource

instance : CharSource AnySource where
  read
    | text s => ((CharSource.read s).1, text (CharSource.read s).2)
    | bytes s => ((CharSource.read s).1, bytes (CharSource.read s).2)
    | script s => ((CharSource.read s).1, script (CharSource.read s).2)
  close
    | text s => ((CharSource.close s).1, text (CharSource.close s).2)
    | bytes s => ((CharSource.close s).1, bytes (CharSource.close s).2)
    | script s => ((CharSource.close s).1, script (CharSource.close s).2)
  remaining
    | text s => CharSource.remaining s
    | bytes s => CharSource.remaining s
    | script s => CharSource.remaining s
  remaining_lt {s s' c} h := by
    cases s <;>
    · simp only [Prod.mk.injEq] at h
      rw [← h.2]
      exact CharSource.remaining_lt (Prod.ext h.1 rfl)

end AnySource

end TableLexer
