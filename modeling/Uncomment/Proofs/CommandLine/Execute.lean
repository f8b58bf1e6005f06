import Uncomment.CommandLine.Program
import Uncomment.Proofs.Settings.Variables

/-! # What the program prints and leaves behind

Removing comments from the command line takes three stages: the arguments are resolved, the settings
checked, and the run made. Either all of them succeed (`Succeeds`) or one is the first to fail
(`FailsWith`). Nothing but the text of a successful run goes to the standard output stream, and the
exit status tells the first failure (`execute_strip`).

Events go to the standard error stream and nothing depends on them, so the flags and the variable
that choose among them have no other effect. The variable is read in one more place, though: a
settings file can ask for it, by its name or by a longer name that reaches into its value
(`not_forall_execute_eq`). -/

namespace Uncomment

open Utf8 (encode encode_injective)
open Placeholder (Mentions)

namespace StripArgs

/-- No placeholder of the settings file mentions the variable. -/
def Ignores (a : StripArgs) (x : String) (read : String → Except Fault Bytes) : Prop :=
  ∀ path t, a.config = some path → read path = .ok (encode t) →
    ∀ name ∈ Placeholder.names t, ¬ Mentions x name

theorem Ignores.resolve_eq {a : StripArgs} {x : String} {read : String → Except Fault Bytes}
    {env env' : Environment} (h : a.Ignores x read) (hx : '=' ∉ x.toList)
    (henv : env.EqBut x env') : a.resolve env read = a.resolve env' read := by
  rw [resolve, resolve]
  cases hconfig : a.config with
  | none => rfl
  | some path =>
    have hfile := SettingsFile.ofBytes_congr henv hx fun t => h path t hconfig
    simp only [hfile]

end StripArgs

namespace CommandLine

variable {a : StripArgs} {env env' : Environment} {store : Storage} {s : Settings} {r : Run}
  {e : Error} {l l' : CommandLine}

/-! ### The three stages -/

/-- Resolving, checking and running all succeed. -/
structure Succeeds (a : StripArgs) (env : Environment) (store : Storage) (s : Settings) (r : Run) :
    Prop where
  resolve : (a.resolve env store.readHere).result = .ok s
  check : s.check = .ok ()
  run : (run store s).2.result = .ok r

/-- The first of the three that does not succeed fails with the error `e`. -/
inductive FailsWith (a : StripArgs) (env : Environment) (store : Storage) (e : Error) : Prop
  | resolve : (a.resolve env store.readHere).result = .error e → FailsWith a env store e
  | check {s : Settings} : (a.resolve env store.readHere).result = .ok s → s.check = .error e →
    FailsWith a env store e
  | run {s : Settings} : (a.resolve env store.readHere).result = .ok s → s.check = .ok () →
    (run store s).2.result = .error e → FailsWith a env store e

theorem succeeds_or_failsWith (a : StripArgs) (env : Environment) (store : Storage) :
    (∃ s r, Succeeds a env store s r) ∨ ∃ e, FailsWith a env store e := by
  cases hs : (a.resolve env store.readHere).result with
  | error e => exact .inr ⟨e, .resolve hs⟩
  | ok s =>
    cases hcheck : s.check with
    | error e => exact .inr ⟨e, .check hs hcheck⟩
    | ok u =>
      cases hrun : (Uncomment.run store s).2.result with
      | error e => exact .inr ⟨e, .run hs hcheck hrun⟩
      | ok r => exact .inl ⟨s, r, hs, hcheck, hrun⟩

theorem result_prepare (a : StripArgs) (env : Environment) (read : String → Except Fault Bytes) :
    (prepare a env read).result =
      (a.resolve env read).result >>= fun s => s.check >>= fun _ => .ok s := by
  simp only [prepare, Trace.result_bind, Trace.result_log, Trace.result_lift, Trace.result_pure,
    ok_bind]

/-- What the removal of comments comes to, with the storage that it leaves. -/
abbrev stripOn (a : StripArgs) (env : Environment) (store : Storage) : Trace Success × Storage :=
  (stripIn Storage.access a env store.readHere).run store

theorem result_stripOn (a : StripArgs) (env : Environment) (store : Storage) :
    (stripOn a env store).1.result = (prepare a env store.readHere).result >>= fun s =>
      (Uncomment.run store s).2.result.map (⟨s, ·⟩) := by
  rw [stripOn, stripIn, Trace.run_bindIn]
  cases (prepare a env store.readHere).result <;> rfl

theorem Succeeds.result_stripOn (h : Succeeds a env store s r) :
    (stripOn a env store).1.result = .ok ⟨s, r⟩ := by
  rw [CommandLine.result_stripOn, result_prepare, h.resolve, ok_bind, h.check, ok_bind, ok_bind,
    h.run]
  rfl

theorem FailsWith.result_stripOn (h : FailsWith a env store e) :
    (stripOn a env store).1.result = .error e := by
  rw [CommandLine.result_stripOn, result_prepare]
  cases h with
  | resolve hs =>
    rw [hs]
    rfl
  | check hs hcheck =>
    rw [hs, ok_bind, hcheck]
    rfl
  | run hs hcheck hrun =>
    rw [hs, ok_bind, hcheck, ok_bind, ok_bind, hrun]
    rfl

/-! ### The streams and the status -/

theorem execute_eq (hl : l.command = some (.strip a)) (env : Environment) (store : Storage) :
    execute l env store =
      { stripEnding (stripOn a env store).1 with
        stderr := (stripEnding (stripOn a env store).1).stderr.filter
          (Printed.passes (l.filter env))
        storage := (stripOn a env store).2 } := by
  have hrun : l.toRun = .strip a := by
    rw [toRun, hl]
    rfl
  rw [execute, executeIn, hrun]
  rfl

theorem execute_of_succeeds (hl : l.command = some (.strip a)) (h : Succeeds a env store s r) :
    (execute l env store).stdout = (if r.report.output.isNone then encode r.text else []) ∧
      (execute l env store).exitCode = 0 := by
  rw [execute_eq hl, stripEnding, h.result_stripOn]
  exact ⟨rfl, rfl⟩

theorem execute_of_failsWith (hl : l.command = some (.strip a)) (h : FailsWith a env store e) :
    (execute l env store).stdout = [] ∧ (execute l env store).exitCode = e.exitCode := by
  rw [execute_eq hl, stripEnding, h.result_stripOn]
  exact ⟨rfl, rfl⟩

theorem exitCode_ne_zero (e : Error) : e.exitCode ≠ 0 := by
  cases e <;> exact nofun

theorem stripOn_eq_of_ignores {x : String} (hx : '=' ∉ x.toList) (henv : env.EqBut x env')
    (h : a.Ignores x store.readHere) : stripOn a env store = stripOn a env' store := by
  have hprepare : prepare a env store.readHere = prepare a env' store.readHere := by
    rw [prepare, prepare, h.resolve_eq hx henv]
  rw [stripOn, stripOn, stripIn, stripIn, hprepare]

/-- **What removing comments prints and leaves behind.** The standard output stream has the text of
a run that wrote no file, and else nothing; the status is 0 if all stages succeed, and else that of
the first failure. The choice of events has no effect on these nor on the files, if the settings
file does not ask for the variable that holds the choice. -/
theorem execute_strip (hl : l.command = some (.strip a)) (env : Environment) (store : Storage) :
    (∀ s r, Succeeds a env store s r → r.report.output = none →
      (execute l env store).stdout = encode r.text) ∧
    ((¬ ∃ s r, Succeeds a env store s r ∧ r.report.output = none) →
      (execute l env store).stdout = []) ∧
    ((execute l env store).exitCode = 0 ↔ ∃ s r, Succeeds a env store s r) ∧
    (∀ e, FailsWith a env store e → (execute l env store).exitCode = e.exitCode) ∧
    ∀ l' env', l'.command = some (.strip a) → env.EqBut filterVariable env' →
      a.Ignores filterVariable store.readHere →
      (execute l env store).stdout = (execute l' env' store).stdout ∧
        (execute l env store).exitCode = (execute l' env' store).exitCode ∧
        (execute l env store).storage = (execute l' env' store).storage := by
  refine ⟨?_, ?_, ⟨?_, ?_⟩, ?_, ?_⟩
  · intro s r h houtput
    rw [(execute_of_succeeds hl h).1, houtput]
    rfl
  · intro hnone
    rcases succeeds_or_failsWith a env store with ⟨s, r, h⟩ | ⟨e, h⟩
    · rw [(execute_of_succeeds hl h).1, if_neg]
      intro houtput
      exact hnone ⟨s, r, h, Option.isNone_iff_eq_none.1 houtput⟩
    · exact (execute_of_failsWith hl h).1
  · intro hzero
    rcases succeeds_or_failsWith a env store with h | ⟨e, h⟩
    · exact h
    · rw [(execute_of_failsWith hl h).2] at hzero
      exact absurd hzero (exitCode_ne_zero e)
  · rintro ⟨s, r, h⟩
    exact (execute_of_succeeds hl h).2
  · intro e h
    exact (execute_of_failsWith hl h).2
  · intro l' env' hl' henv hignores
    rw [execute_eq hl, execute_eq hl', stripOn_eq_of_ignores (by decide) henv hignores]
    exact ⟨rfl, rfl, rfl⟩

/-- A settings file with a placeholder, once with all events and once with none. -/
theorem execute_strip_quiet :
    let a : StripArgs := ⟨"a.js", none, none, false, some "c", none, false⟩
    let store : Storage := ⟨"", ⟨[(["a.js"], .file (encode "x--y".toList)),
      (["c"], .file (encode "[strip]\nlanguage = '$\x7bV\x7d'".toList))], []⟩⟩
    let quiet : Environment := [("RUST_LOG", encode "off".toList), ("V", encode "lua".toList)]
    a.Ignores filterVariable store.readHere ∧
      (execute ⟨true, false, some (.strip a)⟩ [("V", encode "lua".toList)] store).stdout =
        encode ['x', '\n'] ∧
      (execute ⟨false, true, some (.strip a)⟩ quiet store).stdout = encode ['x', '\n'] ∧
      (execute ⟨false, true, some (.strip a)⟩ quiet store).exitCode = 0 := by
  intro a store quiet
  have hread : store.readHere "c" = .ok (encode "[strip]\nlanguage = '$\x7bV\x7d'".toList) := rfl
  have hignores : a.Ignores filterVariable store.readHere := by
    intro path t hpath ht
    cases hpath
    cases encode_injective (Except.ok.inj (hread.symm.trans ht))
    decide +kernel
  have hsucceeds : Succeeds a [("V", encode "lua".toList)] store
      ⟨"a.js", none, some "lua", false, defaultMaxFileBytes, false⟩
      ⟨{ input := "a.js", output := none, language := .lua
         bytesBefore := 4, bytesAfter := 2, stats := ⟨1, 1, 0, 1, 0⟩ }, ['x', '\n']⟩ := by
    unfold a store
    exact ⟨by decide +kernel, rfl, rfl⟩
  obtain ⟨hstdout, -, hzero, -, hquiet⟩ :=
    execute_strip (l := ⟨true, false, some (.strip a)⟩) rfl [("V", encode "lua".toList)] store
  obtain ⟨hout, hexit, -⟩ := hquiet ⟨false, true, some (.strip a)⟩ quiet rfl rfl hignores
  have h := hstdout _ _ hsucceeds rfl
  exact ⟨hignores, h, hout ▸ h, hexit ▸ hzero.2 ⟨_, _, hsucceeds⟩⟩

/-- It is not enough that no placeholder has the name of the variable: with `decomment=off` for its
value it is read by the name `RUST_LOG=decomment` too, which with `off` has no value. -/
theorem not_forall_execute_eq :
    ¬ ∀ (a : StripArgs) (l l' : CommandLine) (env env' : Environment) (store : Storage),
      l.command = some (.strip a) → l'.command = some (.strip a) →
      env.EqBut filterVariable env' →
      (∀ path t, a.config = some path → store.readHere path = .ok (encode t) →
        filterVariable.toList ∉ Placeholder.names t) →
      (execute l env store).stdout = (execute l' env' store).stdout ∧
        (execute l env store).exitCode = (execute l' env' store).exitCode ∧
        (execute l env store).storage = (execute l' env' store).storage := by
  intro h
  have hnames : ∀ t, encode t =
      encode "[strip]\nlanguage = \"$\x7bRUST_LOG=decomment\x7d\"\n".toList →
      filterVariable.toList ∉ Placeholder.names t := by
    intro t ht
    cases encode_injective ht
    decide +kernel
  obtain ⟨-, hexit, -⟩ := h ⟨"a.js", none, none, false, some "c", none, false⟩
    ⟨false, false, some (.strip ⟨"a.js", none, none, false, some "c", none, false⟩)⟩
    ⟨false, false, some (.strip ⟨"a.js", none, none, false, some "c", none, false⟩)⟩
    [("RUST_LOG", encode "decomment=off".toList)] [("RUST_LOG", encode "off".toList)]
    ⟨"", ⟨[(["a.js"], .file (encode "x//\n".toList)), (["c"], .file
      (encode "[strip]\nlanguage = \"$\x7bRUST_LOG=decomment\x7d\"\n".toList))], []⟩⟩
    rfl rfl rfl (by
      intro path t hpath ht
      cases hpath
      exact hnames t (Except.ok.inj ht).symm)
  revert hexit
  decide +kernel

end CommandLine
end Uncomment
