import Uncomment.CommandLine.Program
import Uncomment.Proofs.Run

/-! # Layered settings

The settings of a run are those of its arguments with the section of a settings file beneath them
(`StripArgs.resolve_eq_ok_iff`). Three places have a say in which file the run overwrites: the
layering, the check that follows it, and the run itself. Together they amount to this: a path for
the output wins over whatever the file says, and without one the input is replaced if the arguments
or the file ask for that (`run_resolved`). -/

namespace Uncomment

open Utf8 (encode)

variable {a : StripArgs} {env : Environment} {read : String → Except Fault Bytes} {sec : Section}
  {s s' : Settings}

namespace Settings

theorem merge_eq_ok_iff {f : SettingsFile} {limit? : Option Nat} :
    s.merge f limit? = .ok s' ↔
      ∃ sec, f = { strip := some sec } ∧ s' = s.withSection sec limit? := by
  obtain ⟨_ | sec⟩ := f
  · exact iff_of_false (nomatch ·) fun ⟨_, h, _⟩ => nomatch h
  · constructor
    · intro h
      cases h
      exact ⟨sec, rfl, rfl⟩
    · rintro ⟨_, h, rfl⟩
      cases h
      rfl

/-- Settings that pass their check do not ask for two targets. -/
theorem target_of_check {o : String} (h : s.check = .ok ()) (ho : s.output = some o) :
    s.target = some o := by
  simp only [check, ho] at h
  simp only [unit_bind_eq_ok_iff] at h
  obtain ⟨-, -, hexclusive, -⟩ := h
  rw [Check.exclusive] at hexclusive
  split at hexclusive
  · cases hexclusive
  · next hboth =>
    have hinPlace : s.inPlace = false := by simpa using hboth
    rw [target, hinPlace]
    exact ho

end Settings

namespace StripArgs

/-- `sec` is the section of the settings file; without a file, one that says nothing. -/
def FileSays (a : StripArgs) (env : Environment) (read : String → Except Fault Bytes)
    (sec : Section) : Prop :=
  match a.config with
  | none => sec = {}
  | some path => SettingsFile.ofBytes env (read path) = .ok { strip := some sec }

theorem withSection_settings_empty (a : StripArgs) :
    a.settings.withSection {} a.maxFileBytes = a.settings := by
  simp [settings, Settings.withSection]

theorem resolve_eq_ok_iff :
    (a.resolve env read).result = .ok s ↔
      ∃ sec, a.FileSays env read sec ∧ s = a.settings.withSection sec a.maxFileBytes := by
  rw [resolve]
  cases hconfig : a.config with
  | none =>
    simp only [FileSays, hconfig, exists_eq_left, withSection_settings_empty, Trace.result_pure]
    exact ⟨fun h => (Except.ok.inj h).symm, fun h => congrArg _ h.symm⟩
  | some path =>
    simp only [FileSays, hconfig, Trace.result_bind, Trace.result_log, Trace.result_lift, ok_bind,
      bind_eq_ok_iff, Settings.merge_eq_ok_iff]
    constructor
    · rintro ⟨_, hfile, sec, rfl, hs⟩
      exact ⟨sec, hfile, hs⟩
    · rintro ⟨sec, hfile, hs⟩
      exact ⟨_, hfile, sec, rfl, hs⟩

theorem target_withSection (ho : a.output = none) :
    (a.settings.withSection sec a.maxFileBytes).target =
      if a.inPlace = true ∨ sec.inPlace = some true then some a.input else none := by
  have hflag : (a.inPlace || sec.inPlace.getD false) = true ↔
      a.inPlace = true ∨ sec.inPlace = some true := by
    obtain _ | _ | _ := sec.inPlace <;> simp
  simp only [Settings.target, Settings.withSection, settings, ho, Option.isNone_none, if_true,
    hflag]

end StripArgs

/-- **What is overwritten**, when resolving the arguments, checking the settings and running all
succeed. Whether the output and the input are one file is told in the tree after the run, since the
run may make directories through which the output leads back to the input. -/
theorem run_resolved {store : Storage} {r : Run} (hs : (a.resolve env read).result = .ok s)
    (hcheck : s.check = .ok ()) (hrun : (run store s).2.result = .ok r) :
    ∃ sec, a.FileSays env read sec ∧
      (∀ o, a.output = some o →
        (run store s).1.read o = .ok (encode r.text) ∧
        ((run store s).1.locate o ≠ (run store s).1.locate a.input →
          (run store s).1.read a.input = store.read a.input)) ∧
      (a.output = none →
        ((a.inPlace = true ∨ sec.inPlace = some true) →
          (run store s).1.read a.input = .ok (encode r.text)) ∧
        (¬ (a.inPlace = true ∨ sec.inPlace = some true) → (run store s).1 = store)) ∧
      ∃ source language, store.read a.input = .ok (encode source) ∧
        (resolveLanguage (a.language.or sec.language) a.input).result = .ok language ∧
        r.report.language = language ∧ r.text = (strip language source).text ∧
        r.report.stats = (strip language source).stats ∧
        Utf8.size source ≤ (a.maxFileBytes.or sec.maxFileBytes).getD 10485760 := by
  obtain ⟨sec, hsec, rfl⟩ := StripArgs.resolve_eq_ok_iff.1 hs
  obtain ⟨source, language, hread, hsize, hl, hr⟩ := exists_of_run_ok hrun
  refine ⟨sec, hsec, fun o ho => ?_, fun ho => ⟨fun hflag => ?_, fun hflag => ?_⟩,
    source, language, hread, hl, by rw [hr]; rfl, by rw [hr], by rw [hr]; rfl, hsize⟩
  · have ht := Settings.target_of_check hcheck ho
    refine ⟨read_target_of_run_ok hrun ht, fun hne => ?_⟩
    exact (read_of_run_ok hrun ht hread hne.symm).trans hread.symm
  · exact read_target_of_run_ok hrun (by rw [StripArgs.target_withSection ho, if_pos hflag])
  · exact run_eq_self_of_ok hrun (by rw [StripArgs.target_withSection ho, if_neg hflag])

/-- The settings file asks for the input to be replaced, and the arguments name an output. -/
theorem run_resolved_output :
    let a : StripArgs := ⟨"a.js", some "b.js", none, false, some "c", none, false⟩
    let read : String → Except Fault Bytes := fun _ =>
      .ok (encode "[strip]\nin_place = true".toList)
    let store : Storage := ⟨"", ⟨[(["a.js"], .file [0x78, 0x2F, 0x2F])], []⟩⟩
    let s : Settings := ⟨"a.js", some "b.js", none, false, defaultMaxFileBytes, false⟩
    a.FileSays [] read { inPlace := some true } ∧
      (run store s).1.read "b.js" = .ok (encode ['x', '\n']) ∧
      (run store s).1.read "a.js" = store.read "a.js" := by
  intro a read store s
  have h : a.FileSays [] read { inPlace := some true } ∧ (a.resolve [] read).result = .ok s ∧
      s.check = .ok () ∧
      (run store s).2.result = .ok ⟨{
        input := "a.js", output := some "b.js", language := .javascript
        bytesBefore := 3, bytesAfter := 2, stats := ⟨1, 1, 0, 1, 0⟩ }, ['x', '\n']⟩ ∧
      (run store s).1.locate "b.js" = .ok ["b.js"] ∧
      (run store s).1.locate "a.js" = .ok ["a.js"] := by
    unfold a read store s
    exact ⟨rfl, rfl, rfl, rfl, rfl, rfl⟩
  obtain ⟨hfile, hs, hcheck, hrun, hb, ha⟩ := h
  obtain ⟨_, -, houtput, -⟩ := run_resolved hs hcheck hrun
  obtain ⟨hread, hkept⟩ := houtput "b.js" rfl
  have hne : (run store s).1.locate "b.js" ≠ (run store s).1.locate "a.js" := by
    rw [hb, ha]
    decide
  exact ⟨hfile, hread, hkept hne⟩

end Uncomment
