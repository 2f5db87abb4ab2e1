import ScopeAnalysis.Text.Decoded

/-
  Sinks that take the output of an analysis.

  Key definitions include:
    * `SinkError`
    * `Sink`
    * `Sink.room`
    * `Sink.write`
    * `Sink.flush`
    * `Sink.text`
    * `Sink.decoded`

  Key theorems include:
    * `Sink.text_of_kept`
    * `Sink.decoded_of_kept`
    * `Sink.write_ok_iff`

  A sink may have a limit.  It then takes of every text what
  still fits, and a text that does not fit whole has failed
  to be written.  What a failed write brought stays.
-/

------------------------------------------------------------
-- Failures
------------------------------------------------------------

namespace ScopeAnalysis

/- Why a sink could not do what it was asked to. -/
inductive SinkError where
| full
| stalled
| flushRefused
deriving DecidableEq

namespace SinkError

/- What is said about a failure. -/
def message : SinkError → String
| .full => "sink full"
| .stalled => "failed to write whole buffer"
| .flushRefused => "flush refused"

end SinkError

end ScopeAnalysis

------------------------------------------------------------
-- Sinks
------------------------------------------------------------

namespace ScopeAnalysis

/-
  A sink with the bytes that it keeps.  A full sink either
  fails at once or stalls: it takes nothing and says nothing,
  so that the writer has to give up.
-/
structure Sink where
  limit : Option Nat
  stalls : Bool
  refusesFlush : Bool
  kept : ByteArray

namespace Sink

/- An empty sink without a limit. -/
def unlimited : Sink where
  limit := none
  stalls := false
  refusesFlush := false
  kept := .empty

/- The failure of a write that did not fit. -/
def fullError (s : Sink) : SinkError :=
  if s.stalls then .stalled else .full

/- How many of the next `n` bytes a sink takes. -/
def room
    (s : Sink)
    (n : Nat) : Nat :=
  match s.limit with
  | none => n
  | some limit => min n (limit - s.kept.size)

/-
  Write a text.  The sink takes as many of its bytes as it
  has room for, and the write succeeds when that is all of
  them.
-/
def write
    (s : Sink)
    (text : String) : Except SinkError Unit × Sink :=
  let bytes := text.toUTF8
  let taken := s.room bytes.size
  ( if taken = bytes.size then
      .ok ()
    else
      .error s.fullError,
    { s with kept := s.kept ++ bytes.extract 0 taken } )

/- Flush, which brings no bytes but can be refused. -/
def flush (s : Sink) : Except SinkError Unit :=
  if s.refusesFlush then
    .error .flushRefused
  else
    .ok ()

/-
  The text that a sink keeps, without a last character that
  the limit cut in two.  At most three bytes of a character
  can be left over.
-/
def text (s : Sink) : String :=
  ((List.range 4).findSome? fun cut =>
    String.fromUTF8?
      (s.kept.extract 0 (s.kept.size - cut))).getD ""

/-
  The text that all kept bytes show, with a mark for what is
  no character.
-/
def decoded (s : Sink) : String :=
  Text.ofBytes s.kept

/- What was kept whole is read back whole. -/
theorem text_of_kept
    {s : Sink}
    {t : String}
    (h : s.kept = t.toUTF8) :
    s.text = t := by
  have hRead : String.fromUTF8? s.kept = some t := by
    rw [h]
    exact dif_pos t.isValidUTF8
  simp [text, List.range, List.range.loop,
    ByteArray.extract_zero_size, hRead]

theorem decoded_of_kept
    {s : Sink}
    {t : String}
    (h : s.kept = t.toUTF8) :
    s.decoded = t := by
  rw [decoded, h, Text.ofBytes_toUTF8]

/- A write succeeds when there is room for all of it. -/
theorem write_ok_iff
    (s : Sink)
    (text : String) :
    (s.write text).1 = .ok () ↔
      s.room text.toUTF8.size = text.toUTF8.size := by
  unfold write
  simp only
  split <;> simp_all

end Sink

end ScopeAnalysis
