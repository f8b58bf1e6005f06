import Uncomment.Text.Utf8
import Uncomment.Text.Quoted
import Uncomment.Trace

/-! # The demo

A container holds one string that looks as if a comment stood in it. `Container.compute` writes the
container's status line and yields a sum; `demo` also writes the sum and flushes.

What they write to is an output that may refuse (`Sink`). A sink takes a limited number of bytes in
all; a write may be taken in part, and then fails. Once the sink is full it either refuses further
bytes or takes none of them, and the two are reported differently. Flushing works always or
never. -/

namespace Uncomment

/-! ### Sinks -/

/-- An output with the bytes it has taken. -/
structure Sink where
  /-- The number of bytes it takes in all, if that is limited. -/
  limit : Option Nat := none
  /-- A full sink takes nothing instead of refusing. -/
  takesNothing : Bool := false
  /-- Flushing fails. -/
  flushFails : Bool := false
  taken : Bytes := []
  flushes : Nat := 0
  deriving DecidableEq, Repr

namespace Sink

/-- The fault of a full sink. -/
def fullFault (s : Sink) : Fault := if s.takesNothing then .writeZero else .other "closed"

/-- The part of the bytes that the sink still takes. -/
def accepts (s : Sink) (data : Bytes) : Bytes :=
  match s.limit with
  | none => data
  | some limit => data.take (limit - s.taken.length)

/-- Writes bytes, as far as the sink takes them. -/
def write (s : Sink) (data : Bytes) : Sink × Except Fault Unit :=
  let part := s.accepts data
  ({ s with taken := s.taken ++ part },
    if part.length = data.length then .ok () else .error s.fullFault)

/-- Flushes the sink. -/
def flush (s : Sink) : Sink × Except Fault Unit :=
  ({ s with flushes := s.flushes + 1 },
    if s.flushFails then .error (.other "flush refused") else .ok ())

end Sink

/-! ### Containers -/

/-- Holds one string. -/
structure Container where
  value : String := "This is not a # comment"
  deriving DecidableEq, Repr

namespace Container

/-- What the container says about itself. -/
def statusLine (c : Container) : String := "Value is: " ++ c.value

/-- A line as bytes. -/
def line (s : String) : Bytes := Utf8.encode (s.toList ++ ['\n'])

/-- The sum that the container yields. -/
def sum : Nat := 5 + 10

/-- Writes the status line and yields the sum. -/
def compute (c : Container) (s : Sink) : Sink × Except Fault Nat :=
  match s.write (line c.statusLine) with
  | (s, .ok ()) => (s, .ok sum)
  | (s, .error e) => (s, .error e)

end Container

/-- Writes the status line and the sum of a fresh container, and flushes. -/
def demo (s : Sink) : Sink × Trace Nat :=
  let c : Container := {}
  let made : List Event := [.containerMade (String.ofList (Text.shown c.value.toList))]
  let failed (s : Sink) (e : Fault) : Sink × Trace Nat := (s, ⟨made, .error (.io e)⟩)
  match c.compute s with
  | (s, .error e) => failed s e
  | (s, .ok n) =>
    match s.write (Container.line ("Result: " ++ toString n)) with
    | (s, .error e) => failed s e
    | (s, .ok ()) =>
      match s.flush with
      | (s, .error e) => failed s e
      | (s, .ok ()) => (s, ⟨made, .ok n⟩)

end Uncomment
