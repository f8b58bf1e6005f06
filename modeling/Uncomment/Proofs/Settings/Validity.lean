import Uncomment.Proofs.Settings.Layering

/-! # Settings files and the check of a command line

A settings file that can be read does not change whether a command line is valid, nor what is wrong
with it (`check_resolve_of_config`). A file is checked for itself before it is used
(`SettingsFile.check_of_ofBytes`), so the limit that it adds is one that passes
(`SettingsFile.check_eq_ok_iff`); its wish to replace the input is followed only where no output is
named, and there nothing can be said against it. -/

namespace Uncomment

open Text
open Utf8 (encode)

theorem Check.atLeast_of_le {value least : Nat} (h : least ≤ value) (field : String) :
    Check.atLeast field value least = .ok () := if_neg (Nat.not_lt.2 h)

theorem Check.atLeast_eq_ok_iff {field : String} {value least : Nat} :
    Check.atLeast field value least = .ok () ↔ least ≤ value := by
  refine ⟨fun h => ?_, fun h => atLeast_of_le h field⟩
  rw [Check.atLeast] at h
  split at h
  · cases h
  · next hlt => exact Nat.not_lt.1 hlt

theorem Check.filled_eq_ok_iff {field value : String} :
    Check.filled field value = .ok () ↔ isBlankText value.toList = false := by
  rw [Check.filled]
  cases isBlankText value.toList with
  | true => exact iff_of_false (nomatch ·) (nomatch ·)
  | false => exact iff_of_true rfl rfl

/-! ### Files that can be read -/

namespace SettingsFile

variable {f : SettingsFile} {env : Environment}

theorem check_eq_ok_iff :
    f.check = .ok () ↔ ∃ sec, f = { strip := some sec } ∧
      (∀ language ∈ sec.language, isBlankText language.toList = false) ∧
      ∀ n ∈ sec.maxFileBytes, 1 ≤ n := by
  obtain ⟨_ | ⟨language, limit, inPlace⟩⟩ := f
  · exact iff_of_false (nomatch ·) fun ⟨_, h, _⟩ => nomatch h
  · have hsplit : check ⟨some ⟨language, limit, inPlace⟩⟩ = .ok () ↔
        (∀ id ∈ language, isBlankText id.toList = false) ∧ ∀ n ∈ limit, 1 ≤ n := by
      cases language <;> cases limit <;>
        simp [check, requireStrip, Check.present, unit_bind_eq_ok_iff, Check.filled_eq_ok_iff,
          Check.atLeast_eq_ok_iff, pure, Except.pure]
    rw [hsplit]
    constructor
    · intro h
      exact ⟨_, rfl, h⟩
    · rintro ⟨_, hsec, h⟩
      cases hsec
      exact h

theorem check_of_ofText {t : Text} (h : ofText env t = .ok f) : f.check = .ok () := by
  obtain ⟨filled, -, h⟩ := bind_eq_ok_iff.1 h
  split at h
  · cases h
  · obtain ⟨_, hcheck, h⟩ := bind_eq_ok_iff.1 h
    cases h
    exact hcheck

theorem check_of_ofBytes {data : Except Fault Bytes} (h : ofBytes env data = .ok f) :
    f.check = .ok () := by
  cases data with
  | error fault => cases h
  | ok bytes =>
    rw [ofBytes] at h
    split at h
    · cases h
    · exact check_of_ofText h

end SettingsFile

/-! ### Settings with a file beneath them -/

/-- A check looks at the flag for replacing the input only beside an output, and at the limit only
to compare it. -/
theorem Settings.check_congr {s s' : Settings} (hinput : s'.input = s.input)
    (houtput : s'.output = s.output) (hflag : s.output.isSome = true → s'.inPlace = s.inPlace)
    (hlimit : Check.atLeast "max_file_bytes" s'.maxFileBytes 1 =
      Check.atLeast "max_file_bytes" s.maxFileBytes 1) : s'.check = s.check := by
  have hexclusive : Check.exclusive "in_place" s'.inPlace "output" s.output.isSome =
      Check.exclusive "in_place" s.inPlace "output" s.output.isSome := by
    cases h : s.output.isSome with
    | true => rw [hflag h]
    | false => simp [Check.exclusive]
  simp only [check, hinput, houtput, hexclusive, hlimit]

theorem StripArgs.check_withSection {a : StripArgs} {sec : Section}
    (hsec : ∀ n ∈ sec.maxFileBytes, 1 ≤ n) :
    (a.settings.withSection sec a.maxFileBytes).check = a.settings.check := by
  refine Settings.check_congr rfl rfl (fun hsome => ?_) ?_
  · obtain ⟨o, ho⟩ := Option.isSome_iff_exists.1 hsome
    simp [Settings.withSection, ho]
  · cases hlimit : a.maxFileBytes with
    | some n => simp [Settings.withSection, settings, hlimit]
    | none =>
      -- both the file's limit and the one that is used without it are positive
      have hdefault : 1 ≤ defaultMaxFileBytes := by decide
      have hfile : 1 ≤ sec.maxFileBytes.getD defaultMaxFileBytes := by
        cases h : sec.maxFileBytes with
        | none => exact hdefault
        | some n => exact hsec n h
      simp only [Settings.withSection, settings, hlimit, Option.none_or, Option.getD_none,
        Check.atLeast_of_le hfile, Check.atLeast_of_le hdefault]

/-- **A settings file never changes the validity of a command line**: if the file can be read,
the settings with it and those without it have the same check. -/
theorem check_resolve_of_config {a : StripArgs} {env : Environment}
    {read : String → Except Fault Bytes} {path : String} {f : SettingsFile}
    (hconfig : a.config = some path) (hfile : SettingsFile.ofBytes env (read path) = .ok f) :
    ∃ s s₀, (a.resolve env read).result = .ok s ∧
      ({ a with config := none }.resolve env read).result = .ok s₀ ∧ s.check = s₀.check := by
  obtain ⟨sec, rfl, -, hlimit⟩ :=
    SettingsFile.check_eq_ok_iff.1 (SettingsFile.check_of_ofBytes hfile)
  have hsays : a.FileSays env read sec := by
    rw [StripArgs.FileSays, hconfig]
    exact hfile
  refine ⟨_, a.settings, StripArgs.resolve_eq_ok_iff.2 ⟨sec, hsays, rfl⟩, rfl, ?_⟩
  exact StripArgs.check_withSection hlimit

/-- The file asks for the input to be replaced, and has a limit that could stand in for the one that
the arguments give. -/
theorem check_resolve_of_config_zero :
    let a : StripArgs := ⟨"a.js", some "b.js", none, false, some "c", some 0, false⟩
    let read : String → Except Fault Bytes := fun _ =>
      .ok (encode "[strip]\nin_place = true\nmax_file_bytes = 5".toList)
    SettingsFile.ofBytes [] (read "c") =
        .ok { strip := some { inPlace := some true, maxFileBytes := some 5 } } ∧
      ∃ s, (a.resolve [] read).result = .ok s ∧
        s.check = .error (.invalid "max_file_bytes" "0" "Value must be at least 1") := by
  intro a read
  have hfile : SettingsFile.ofBytes [] (read "c") =
      .ok { strip := some { inPlace := some true, maxFileBytes := some 5 } } := by
    unfold read
    decide +kernel
  obtain ⟨s, s₀, hs, hs₀, hcheck⟩ := check_resolve_of_config (a := a) rfl hfile
  refine ⟨hfile, s, hs, ?_⟩
  rw [hcheck]
  cases hs₀
  unfold a
  rfl

end Uncomment
