import Uncomment.Language
import Uncomment.Error

/-! # Events and traces

What is worth telling about while the program works. An event is a cause with its particulars; its
severity (`Event.level`), its wording (`Event.message`) and the part of the program that reports it
(`Event.origin`) are functions of the cause. Reporting is pure: functions return their events.

A `Trace` is what a computation comes to, a value or a failure, with the events on the way there. It
is a monad: a failure ends the computation and keeps the events so far. A computation made of two
succeeds when its parts do, one after the other (`bind_eq_ok_iff`). For a `Trace` this is a matter
of its result alone (`Trace.result_bind`), and the events have no part in it. -/

namespace Uncomment

/-! ### Events -/

/-- How much an event matters. -/
inductive Level
  | error
  | warn
  | info
  | debug
  deriving DecidableEq, Repr

/-- The name of a level. -/
def Level.name : Level → String
  | .error => "ERROR"
  | .warn => "WARN"
  | .info => "INFO"
  | .debug => "DEBUG"

/-- The counters of one removal of comments. -/
structure Stats where
  /-- Lines of the source. -/
  linesIn : Nat
  /-- Lines of the result that are not blank. -/
  linesOut : Nat
  blockComments : Nat
  lineComments : Nat
  docstrings : Nat
  deriving DecidableEq, Repr

/-- Something that happened. -/
inductive Event
  /-- A literal was open at the end of the source. -/
  | openLiteral
  /-- A docstring was open at the end of the source. -/
  | openDocstring
  /-- Comments were removed from a source in the given language. -/
  | stripped (language : Language) (stats : Stats)
  /-- No language has the given id. -/
  | unknownId (id : String)
  /-- Work on the given input begins. -/
  | started (input : String)
  /-- The input was read. -/
  | loaded (bytes : Nat)
  /-- The comments of the input were removed. -/
  | removed (language : Language) (stats : Stats)
  /-- The result was written to the given path. -/
  | saved (path : String)
  /-- A settings file is about to be read. -/
  | loadingSettings (path : String)
  /-- The demo made its container. -/
  | containerMade (quoted : String)
  /-- The settings in force, as text. -/
  | settled (settings : String)
  /-- The run failed. -/
  | failed (message : String)
  /-- What to do about a failed run. -/
  | advice (suggestion : String)
  deriving DecidableEq, Repr

namespace Event

/-- How much an event matters. -/
def level : Event → Level
  | openLiteral | openDocstring | unknownId _ => .warn
  | started _ | removed .. | saved _ => .info
  | stripped .. | loaded _ | loadingSettings _ | containerMade _ | settled _ => .debug
  | failed _ | advice _ => .error

/-- The part of the program that reports an event. -/
def origin : Event → String
  | openLiteral | openDocstring | stripped .. => "decomment::core::stripper"
  | unknownId _ | started _ | loaded _ | removed .. | saved _ => "decomment::core::engine"
  | loadingSettings _ => "decomment::config::cli"
  | containerMade _ => "decomment::core::demo"
  | settled _ | failed _ | advice _ => "decomment"

/-- The wording of an event. -/
def message : Event → String
  | openLiteral => "Unterminated multi-line string at end of input"
  | openDocstring => "Unterminated docstring, dropped everything after it"
  | stripped l s =>
    s!"Stripped {l.name} source: {s.linesIn} -> {s.linesOut} lines ({s.blockComments} block, " ++
      s!"{s.lineComments} line, {s.docstrings} docstring)"
  | unknownId id => s!"Unknown language '{id}', using javascript rules"
  | started input => s!"Stripping comments from {input}"
  | loaded n => s!"Read {n} bytes"
  | removed l s =>
    s!"Removed {s.blockComments} block, {s.lineComments} line and {s.docstrings} docstring " ++
      s!"comments ({l.name} language)"
  | saved path => s!"Output saved to: {path}"
  | loadingSettings path => s!"Loading config file {path}"
  | containerMade quoted => s!"Container created with value {quoted}"
  | settled settings => s!"Strip config: {settings}"
  | failed m => s!"❌ Strip failed: {m}"
  | advice s => s!"💡 Suggestion: {s}"

end Event

/-! ### Traces -/

/-- A value or a failure, and the events on the way to it. -/
structure Trace (α : Type) where
  events : List Event
  result : Except Error α

namespace Trace

variable {α β : Type}

/-- Goes on with the value, if there is one. -/
def bind (t : Trace α) (f : α → Trace β) : Trace β :=
  match t.result with
  | .ok a => ⟨t.events ++ (f a).events, (f a).result⟩
  | .error e => ⟨t.events, .error e⟩

instance : Monad Trace where
  pure a := ⟨[], .ok a⟩
  bind := bind

/-- Reports events. -/
def log (events : List Event) : Trace Unit := ⟨events, .ok ()⟩

/-- A failure without events. -/
def fail (e : Error) : Trace α := ⟨[], .error e⟩

/-- A value or a failure, without events. -/
def lift (r : Except Error α) : Trace α := ⟨[], r⟩

/-- The outcome of a file operation. -/
def liftFault (r : Except Fault α) : Trace α := ⟨[], r.mapError .io⟩

/-- Goes on with an action, if there is a value. The events of the action come behind those so far,
and a failure ends the whole without it. -/
def bindIn {m : Type → Type} [Monad m] (t : Trace α) (f : α → m (Trace β)) : m (Trace β) :=
  match t.result with
  | .ok a => do
    let u ← f a
    return ⟨t.events ++ u.events, u.result⟩
  | .error e => return ⟨t.events, .error e⟩

theorem run_bindIn {σ : Type} (t : Trace α) (f : α → StateM σ (Trace β)) (s : σ) :
    (t.bindIn f).run s =
      match t.result with
      | .ok a =>
        (⟨t.events ++ ((f a).run s).1.events, ((f a).run s).1.result⟩, ((f a).run s).2)
      | .error e => (⟨t.events, .error e⟩, s) := by
  rw [bindIn]
  cases t.result <;> rfl

theorem bind_of_ok {t : Trace α} {f : α → Trace β} {a : α} (h : t.result = .ok a) :
    (t >>= f) = ⟨t.events ++ (f a).events, (f a).result⟩ := by
  change t.bind f = _
  simp only [bind, h]

theorem bind_of_error {t : Trace α} {f : α → Trace β} {e : Error} (h : t.result = .error e) :
    (t >>= f) = ⟨t.events, .error e⟩ := by
  change t.bind f = _
  simp only [bind, h]

end Trace

/-! ### Results of computations -/

variable {ε α β : Type}

@[simp] theorem ok_bind (a : α) (f : α → Except ε β) : (Except.ok a >>= f) = f a := rfl

theorem bind_eq_ok_iff {x : Except ε α} {f : α → Except ε β} {b : β} :
    (x >>= f) = .ok b ↔ ∃ a, x = .ok a ∧ f a = .ok b := by
  cases x with
  | error e => exact iff_of_false (nomatch ·) (fun ⟨_, h, _⟩ => nomatch h)
  | ok a =>
    refine ⟨fun h => ⟨a, rfl, h⟩, ?_⟩
    rintro ⟨a, ha, h⟩
    cases ha
    exact h

/-- The same for a first part that only passes or fails. -/
theorem unit_bind_eq_ok_iff {x : Except ε Unit} {f : Unit → Except ε β} {b : β} :
    (x >>= f) = .ok b ↔ x = .ok () ∧ f () = .ok b := by
  rw [bind_eq_ok_iff]
  constructor
  · rintro ⟨_, hx, h⟩
    exact ⟨hx, h⟩
  · rintro ⟨hx, h⟩
    exact ⟨(), hx, h⟩

namespace Trace

theorem result_bind (t : Trace α) (f : α → Trace β) :
    (t >>= f).result = t.result >>= fun a => (f a).result := by
  cases h : t.result with
  | ok a => rw [bind_of_ok h]; rfl
  | error e => rw [bind_of_error h]; rfl

@[simp] theorem result_pure (a : α) : (pure a : Trace α).result = .ok a := rfl

@[simp] theorem result_log (events : List Event) : (log events).result = .ok () := rfl

@[simp] theorem result_lift (r : Except Error α) : (lift r).result = r := rfl

@[simp] theorem result_liftFault_ok (a : α) : (liftFault (.ok a)).result = .ok a := rfl

theorem liftFault_eq_ok_iff {r : Except Fault α} {a : α} :
    (liftFault r).result = .ok a ↔ r = .ok a := by
  cases r with
  | error e => exact iff_of_false (nomatch ·) (nomatch ·)
  | ok b =>
    constructor <;> intro h <;> cases h <;> rfl

end Trace
end Uncomment
