import Mathlib.Data.List.Induction
import Uncomment.Demo

/-! # What reaches the sink

Calls of the demo are made one after the other on one sink. Whatever the sink refuses on the way,
and wherever in a line it does so, it holds the start of what the calls were to write
(`exists_after`).

* Data may be written in pieces: the pieces behind the first one that is not taken whole change
  nothing (`Sink.write_append`). So the two lines of the demo are one piece of data;
* a sink that holds the start of an output holds the start of the longer one behind a write, and the
  write succeeds exactly if all of it has room (`Sink.write_eq`). A failed write leaves the sink
  full, which is why the calls behind it may be counted as if nothing had happened. -/

namespace Uncomment

namespace Sink

/-- The start of an output for which a limit leaves room. -/
def within (limit : Option Nat) (out : Bytes) : Bytes :=
  match limit with
  | none => out
  | some n => out.take n

/-- The limit leaves room for the whole output. -/
def fits (limit : Option Nat) (out : Bytes) : Bool := limit.all (out.length ≤ ·)

variable {s : Sink} {out data : Bytes}

/-- Writing two pieces, the second only if the first is taken whole, is writing them together. -/
theorem write_append (s : Sink) (a b : Bytes) :
    s.write (a ++ b) =
      match s.write a with
      | (s', .ok ()) => s'.write b
      | (s', .error e) => (s', .error e) := by
  obtain ⟨limit, takesNothing, flushFails, taken, flushes⟩ := s
  cases limit with
  | none => simp [write, accepts]
  | some n =>
    rcases Nat.lt_or_ge (n - taken.length) a.length with ha | ha
    · -- the first piece fills the sink, and nothing is left for the second
      have hb : b.take (n - taken.length - a.length) = [] := by
        rw [Nat.sub_eq_zero_of_le (by omega), List.take_zero]
      have hpart : min (n - taken.length) a.length ≠ a.length := by omega
      have hall : min (n - taken.length) a.length ≠ a.length + b.length := by omega
      simp [write, accepts, List.take_append, hb, hpart, hall, fullFault]
    · have hroom : n - taken.length - a.length = n - (taken.length + a.length) := by omega
      simp [write, accepts, List.take_append, List.take_of_length_le ha, hroom, fullFault]

theorem taken_append_accepts (h : s.taken = within s.limit out) (data : Bytes) :
    s.taken ++ s.accepts data = within s.limit (out ++ data) := by
  cases hlimit : s.limit with
  | none => simp [h, hlimit, accepts, within]
  | some n =>
    have hroom : n - min n out.length = n - out.length := by omega
    simp [h, hlimit, accepts, within, List.take_append, hroom]

theorem length_accepts_eq_iff (h : s.taken = within s.limit out) (hdata : data ≠ []) :
    (s.accepts data).length = data.length ↔ fits s.limit (out ++ data) = true := by
  have hpos := List.length_pos_iff.2 hdata
  cases hlimit : s.limit with
  | none => simp [hlimit, accepts, fits]
  | some n =>
    simp only [h, hlimit, accepts, within, fits, List.length_take, List.length_append,
      Option.all_some, decide_eq_true_eq]
    omega

/-- A write to a sink that holds the start of `out`. -/
theorem write_eq (h : s.taken = within s.limit out) (hdata : data ≠ []) :
    s.write data =
      ({ s with taken := within s.limit (out ++ data) },
        if fits s.limit (out ++ data) then .ok () else .error s.fullFault) := by
  simp only [write, taken_append_accepts h, length_accepts_eq_iff h hdata]

end Sink

/-! ### One call -/

namespace Demo

open Sink

/-- A call of the demo, or of one of its parts. -/
inductive Call
  | value
  | statusLine
  | defaultEq
  | compute
  | demo
  deriving DecidableEq, Repr

/-- What a call answers. -/
inductive Answer
  | text (t : String)
  | truth (b : Bool)
  | sum (r : Except Error Nat)

/-- A call on a fresh container and the given sink. -/
def Call.apply (s : Sink) : Call → Sink × Answer
  | .value => (s, .text ({} : Container).value)
  | .statusLine => (s, .text ({} : Container).statusLine)
  | .defaultEq => (s, .truth (({} : Container) == {}))
  | .compute => ((({} : Container).compute s).1, .sum ((({} : Container).compute s).2.mapError .io))
  | .demo => ((Uncomment.demo s).1, .sum (Uncomment.demo s).2.result)

/-- What a call is to write. -/
def Call.output : Call → Bytes
  | .value | .statusLine | .defaultEq => []
  | .compute => Utf8.encode (({} : Container).statusLine.toList ++ ['\n'])
  | .demo =>
    Utf8.encode (({} : Container).statusLine.toList ++ ['\n']) ++ Utf8.encode "Result: 15\n".toList

variable {s : Sink} {out : Bytes}

theorem apply_compute (h : s.taken = within s.limit out) :
    Call.compute.apply s =
      ({ s with taken := within s.limit (out ++ Call.compute.output) },
        .sum (if fits s.limit (out ++ Call.compute.output) then .ok 15
          else .error (.io s.fullFault))) := by
  have hcompute : ({} : Container).compute s =
      match s.write Call.compute.output with
      | (s', .ok ()) => (s', .ok 15)
      | (s', .error e) => (s', .error e) := rfl
  rw [Call.apply, hcompute, write_eq h (by decide +kernel)]
  cases fits s.limit (out ++ Call.compute.output) <;> rfl

/-- The demo writes its two lines as one piece of data, and flushes if they are taken. -/
theorem apply_demo_eq (s : Sink) :
    Call.demo.apply s =
      match s.write Call.demo.output with
      | (s', .ok ()) =>
        (s'.flush.1, .sum (if s'.flushFails then .error (.io (.other "flush refused")) else .ok 15))
      | (s', .error e) => (s', .sum (.error (.io e))) := by
  have hstatus : Container.line ({} : Container).statusLine = Call.compute.output := rfl
  have hresult : Container.line ("Result: " ++ toString Container.sum) =
      Utf8.encode "Result: 15\n".toList := by decide +kernel
  have houtput : Call.demo.output = Call.compute.output ++ Utf8.encode "Result: 15\n".toList := rfl
  rw [houtput, write_append]
  simp only [Call.apply, Uncomment.demo, Container.compute, hstatus]
  rcases s.write Call.compute.output with ⟨s₁, e | u⟩
  · rfl
  · simp only [hresult]
    rcases s₁.write (Utf8.encode "Result: 15\n".toList) with ⟨s₂, e | u⟩
    · rfl
    · simp only [flush]
      cases s₂.flushFails <;> rfl

theorem apply_demo (h : s.taken = within s.limit out) :
    Call.demo.apply s =
      ({ s with
          taken := within s.limit (out ++ Call.demo.output)
          flushes := s.flushes + if fits s.limit (out ++ Call.demo.output) then 1 else 0 },
        .sum (if fits s.limit (out ++ Call.demo.output) then
            if s.flushFails then .error (.io (.other "flush refused")) else .ok 15
          else .error (.io s.fullFault))) := by
  rw [apply_demo_eq, write_eq h (by decide +kernel)]
  cases fits s.limit (out ++ Call.demo.output) <;> rfl

/-- A call adds its output to what the sink holds the start of. Only the demo flushes, and only if
everything up to the end of its own output has room. -/
theorem sink_apply (h : s.taken = within s.limit out) (c : Call) :
    (c.apply s).1 =
      { s with
          taken := within s.limit (out ++ c.output)
          flushes := s.flushes + if c = .demo ∧ fits s.limit (out ++ c.output) then 1 else 0 } := by
  cases c with
  | value | statusLine | defaultEq =>
    rw [Call.output, List.append_nil, ← h]
    rfl
  | compute => exact congrArg Prod.fst (apply_compute h)
  | demo =>
    rw [apply_demo h]
    simp only [true_and]

/-! ### Lists of calls -/

/-- The sink behind a list of calls. -/
def after (s : Sink) (calls : List Call) : Sink := calls.foldl (fun s c => (c.apply s).1) s

theorem after_concat (s : Sink) (calls : List Call) (c : Call) :
    after s (calls ++ [c]) = (c.apply (after s calls)).1 := by
  rw [after, List.foldl_append]
  rfl

theorem exists_after (hs : s.taken = []) (calls : List Call) :
    ∃ n, after s calls =
      { s with taken := within s.limit (calls.flatMap Call.output), flushes := n } := by
  induction calls using List.reverseRecOn with
  | nil =>
    refine ⟨s.flushes, ?_⟩
    have hnil : within s.limit [] = [] := by cases s.limit <;> simp [within]
    rw [List.flatMap_nil, hnil, ← hs]
    rfl
  | append_singleton calls c ih =>
    obtain ⟨n, hn⟩ := ih
    rw [after_concat, hn, List.flatMap_append, List.flatMap_singleton]
    exact ⟨_, sink_apply rfl c⟩

/-- **The demo writes a start of its output.** Take any call behind any calls on a fresh sink, and
let `out` be what all of these were to write. The sink holds the start of `out` up to its limit. The
call yields its sum if `out` has room, and the demo only if flushing works too; otherwise it fails
with the fault of the sink. The sink is flushed once by each demo whose output has room. -/
theorem demo_writes_start (limit : Option Nat) (takesNothing flushFails : Bool)
    (earlier : List Call) (c : Call) :
    let start : Sink := { limit, takesNothing, flushFails }
    let now := after start earlier
    let next := after start (earlier ++ [c])
    let out := (earlier ++ [c]).flatMap Call.output
    next.taken = within limit out ∧
      (c = .compute →
        (c.apply now).2 = .sum (if fits limit out then .ok 15 else .error (.io start.fullFault))) ∧
      (c = .demo →
        (c.apply now).2 = .sum (if fits limit out then
            if flushFails then .error (.io (.other "flush refused")) else .ok 15
          else .error (.io start.fullFault))) ∧
      next.flushes = now.flushes + if c = .demo ∧ fits limit out then 1 else 0 := by
  intro start now next out
  obtain ⟨n, hn⟩ : ∃ n, now =
      { start with taken := within limit (earlier.flatMap Call.output), flushes := n } :=
    exists_after rfl earlier
  have hlimit : now.limit = limit := by rw [hn]
  have hflush : now.flushFails = flushFails := by rw [hn]
  have hfull : now.fullFault = start.fullFault := by rw [hn, fullFault, fullFault]
  have hnow : now.taken = within now.limit (earlier.flatMap Call.output) := by rw [hlimit, hn]
  have hout : earlier.flatMap Call.output ++ c.output = out := by simp [out]
  have hnext : next = _ := (after_concat start earlier c).trans (sink_apply hnow c)
  rw [hout, hlimit] at hnext
  refine ⟨by rw [hnext], ?_, ?_, by rw [hnext]⟩
  · rintro rfl
    rw [apply_compute hnow, hout, hlimit, hfull]
  · rintro rfl
    rw [apply_demo hnow, hout, hlimit, hfull, hflush]

/-- A computation takes the first 34 bytes, and the first demo is cut within its second line. The
second demo finds the sink full, at the start of its first line. -/
theorem demo_writes_start_cut :
    let start : Sink := { limit := some 75, takesNothing := true }
    let earlier : List Call := [.value, .compute, .demo]
    let now := after start earlier
    let next := after start (earlier ++ [.demo])
    next.taken = Utf8.encode ("Value is: This is not a # comment\n".toList ++
        "Value is: This is not a # comment\nResult:".toList) ∧
      (Call.demo.apply now).2 = .sum (.error (.io .writeZero)) ∧ next.flushes = now.flushes := by
  intro start earlier now next
  obtain ⟨htaken, -, hanswer, hflushes⟩ := demo_writes_start (some 75) true false earlier .demo
  have hfits : fits (some 75) ((earlier ++ [Call.demo]).flatMap Call.output) = false := by
    decide +kernel
  rw [hfits] at hanswer hflushes
  rw [if_neg (fun h => Bool.false_ne_true h.2), Nat.add_zero] at hflushes
  exact ⟨htaken.trans (by decide +kernel), hanswer rfl, hflushes⟩

end Demo

end Uncomment
