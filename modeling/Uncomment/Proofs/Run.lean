import Uncomment.Run
import Uncomment.Proofs.Text.Utf8
import Uncomment.Proofs.File.Storage

/-! # Runs

What a run leaves behind, and what it reports. A run first reads (`Settings.load`) and then writes.

* A run that succeeds has written the stripped text to its target and nothing else
  (`run_result_ok`);
* a run that fails has destroyed nothing, and has changed nothing unless it was the write that
  failed (`run_result_error`). -/

namespace Uncomment

open Utf8 (encode decode)

theorem Storage.size_of_read {store : Storage} {p : String} {data : Bytes}
    (h : store.read p = .ok data) : store.size p = .ok data.length := Tree.size_of_read h

theorem eq_unknownLanguage_of_resolveLanguage {id? : Option String} {path : String} {e : Error}
    (h : (resolveLanguage id? path).result = .error e) : e = .unknownLanguage path := by
  unfold resolveLanguage at h
  split at h
  · split at h <;> cases h
  · split at h
    · cases h
    · cases h
      rfl

/-! ### Reading -/

namespace Settings

variable {s : Settings} {store : Storage} {source : Text}

/-- The part of a run that only reads. -/
def load (s : Settings) (store : Storage) : Trace Processed := do
  s.accept (store.size s.input)
  s.process (store.read s.input)

/-- What a run finds out about a source in the given language. -/
def Processed.of (source : Text) (language : Language) : Processed where
  source := source
  sourceSize := Utf8.size source
  language := language
  outcome := strip language source

theorem result_accept (s : Settings) (size : Except Fault Nat) :
    (s.accept size).result = (Trace.liftFault size).result >>= fun n =>
      if s.maxFileBytes < n then .error (.tooLarge s.input n s.maxFileBytes) else .ok () := by
  simp only [accept, Trace.result_bind, Trace.result_log, ok_bind]
  congr
  funext n
  split <;> rfl

theorem result_process (s : Settings) (data : Except Fault Bytes) :
    (s.process data).result = (Trace.liftFault data).result >>= fun bytes =>
      (Trace.liftFault (decode bytes)).result >>= fun source =>
        (resolveLanguage s.language s.input).result >>= fun language =>
          .ok ⟨source, bytes.length, language, strip language source⟩ := by
  simp only [process, Trace.result_bind, Trace.result_log, Trace.result_pure, ok_bind]

theorem result_load_of_read (h : store.read s.input = .ok (encode source)) :
    (s.load store).result =
      if s.maxFileBytes < Utf8.size source then
        .error (.tooLarge s.input (Utf8.size source) s.maxFileBytes)
      else (resolveLanguage s.language s.input).result.map (Processed.of source) := by
  simp only [load, Trace.result_bind, result_accept, result_process, Storage.size_of_read h, h,
    Trace.result_liftFault_ok, ok_bind, Utf8.decode_encode, Utf8.length_encode]
  split
  · rfl
  · cases (resolveLanguage s.language s.input).result <;> rfl

theorem exists_read_of_load {p : Processed} (h : (s.load store).result = .ok p) :
    ∃ source, store.read s.input = .ok (encode source) := by
  rw [load, Trace.result_bind, result_process] at h
  obtain ⟨-, -, h⟩ := bind_eq_ok_iff.1 h
  obtain ⟨bytes, hread, h⟩ := bind_eq_ok_iff.1 h
  obtain ⟨source, hdecode, -⟩ := bind_eq_ok_iff.1 h
  rw [Trace.liftFault_eq_ok_iff] at hread hdecode
  rw [Utf8.decode_eq_ok_iff] at hdecode
  exact ⟨source, hdecode ▸ hread⟩

/-- The reading succeeds exactly when the input is a UTF-8 text within the limit and its language is
known. -/
theorem result_load_eq_ok_iff {p : Processed} :
    (s.load store).result = .ok p ↔ ∃ source language, store.read s.input = .ok (encode source) ∧
      Utf8.size source ≤ s.maxFileBytes ∧
      (resolveLanguage s.language s.input).result = .ok language ∧
      p = Processed.of source language := by
  constructor
  · intro h
    obtain ⟨source, hread⟩ := exists_read_of_load h
    rw [result_load_of_read hread] at h
    split at h
    · cases h
    · next hsize =>
      cases hl : (resolveLanguage s.language s.input).result with
      | error e =>
        rw [hl] at h
        cases h
      | ok language =>
        rw [hl] at h
        cases h
        exact ⟨source, language, hread, Nat.le_of_not_lt hsize, rfl, rfl⟩
  · rintro ⟨source, language, hread, hsize, hl, rfl⟩
    rw [result_load_of_read hread, if_neg (Nat.not_lt.2 hsize), hl]
    rfl

end Settings

/-- The run failed because of its input: it is too large, or its language is unknown, or it is no
UTF-8 text that can be read. -/
def InputRefused (store : Storage) (s : Settings) (e : Error) : Prop :=
  (∃ path size limit, e = .tooLarge path size limit) ∨ (∃ path, e = .unknownLanguage path) ∨
    ¬ ∃ source, store.read s.input = .ok (encode source)

variable {store : Storage} {s : Settings}

theorem inputRefused_of_load {e : Error} (h : (s.load store).result = .error e) :
    InputRefused store s e := by
  by_cases hread : ∃ source, store.read s.input = .ok (encode source)
  · obtain ⟨source, hread⟩ := hread
    rw [Settings.result_load_of_read hread] at h
    split at h
    · cases h
      exact .inl ⟨_, _, _, rfl⟩
    · cases hl : (resolveLanguage s.language s.input).result with
      | error e' =>
        rw [hl] at h
        cases h
        exact .inr (.inl ⟨_, eq_unknownLanguage_of_resolveLanguage hl⟩)
      | ok language =>
        rw [hl] at h
        cases h
  · exact .inr (.inr hread)

/-! ### The whole run -/

theorem run_saveIn (store : Storage) (s : Settings) (p : Settings.Processed) :
    (s.saveIn Storage.access p).run store =
      match s.target with
      | none => (⟨[], .ok ⟨s.reportOn p, p.outcome.text⟩⟩, store)
      | some path =>
        match store.write path (encode p.outcome.text) with
        | (store', .ok ()) => (⟨[.saved path], .ok ⟨s.reportOn p, p.outcome.text⟩⟩, store')
        | (store', .error fault) => (⟨[], .error (.io fault)⟩, store') := by
  rw [Settings.saveIn]
  cases s.target with
  | none => rfl
  | some path =>
    simp only [Storage.run_write_bind]
    rcases store.write path (encode p.outcome.text) with ⟨store', fault | u⟩ <;> rfl

theorem run_eq (store : Storage) (s : Settings) :
    run store s =
      match (s.load store).result with
      | .error e => (store, ⟨(s.load store).events, .error e⟩)
      | .ok p =>
        match s.target with
        | none => (store, ⟨(s.load store).events, .ok ⟨s.reportOn p, p.outcome.text⟩⟩)
        | some path =>
          match store.write path (encode p.outcome.text) with
          | (store', .ok ()) => (store', ⟨(s.load store).events ++ [.saved path],
              .ok ⟨s.reportOn p, p.outcome.text⟩⟩)
          | (store', .error fault) => (store', ⟨(s.load store).events, .error (.io fault)⟩) := by
  simp only [run, runIn, Storage.run_size_bind, Trace.run_bindIn]
  cases haccept : (s.accept (store.size s.input)).result with
  | error e =>
    have hload : s.load store = _ := Trace.bind_of_error haccept
    rw [hload]
  | ok u =>
    have hload : s.load store = _ := Trace.bind_of_ok haccept
    simp only [hload, Storage.run_read_bind, Trace.run_bindIn]
    cases (s.process (store.read s.input)).result with
    | error e => rfl
    | ok p =>
      simp only [run_saveIn]
      cases s.target with
      | none => simp
      | some path =>
        rcases hwrite : store.write path (encode p.outcome.text) with ⟨store', fault | u⟩ <;>
          simp [hwrite]

theorem run_of_ok {r : Run} (h : (run store s).2.result = .ok r) :
    ∃ p, (s.load store).result = .ok p ∧ r = ⟨s.reportOn p, p.outcome.text⟩ ∧
      (s.target = none → (run store s).1 = store) ∧
      ∀ path, s.target = some path →
        store.write path (encode r.text) = ((run store s).1, .ok ()) := by
  rw [run_eq] at h ⊢
  cases hload : (s.load store).result with
  | error e =>
    rw [hload] at h
    cases h
  | ok p =>
    simp only [hload] at h
    refine ⟨p, rfl, ?_⟩
    cases htarget : s.target with
    | none =>
      simp only [htarget] at h
      cases h
      exact ⟨rfl, fun _ => rfl, nofun⟩
    | some path =>
      simp only [htarget] at h
      cases hwrite : store.write path (encode p.outcome.text) with
      | mk store' wrote =>
        simp only [hwrite] at h
        cases wrote with
        | error fault => cases h
        | ok u =>
          cases h
          refine ⟨rfl, nofun, fun path' hpath => ?_⟩
          cases hpath
          simp only [hwrite]

theorem run_of_error {e : Error} (h : (run store s).2.result = .error e) :
    ((s.load store).result = .error e ∧ (run store s).1 = store) ∨
      ∃ p path fault, (s.load store).result = .ok p ∧ s.target = some path ∧ e = .io fault ∧
        store.write path (encode p.outcome.text) = ((run store s).1, .error fault) := by
  rw [run_eq] at h ⊢
  cases hload : (s.load store).result with
  | error e' =>
    rw [hload] at h
    cases h
    exact .inl ⟨rfl, rfl⟩
  | ok p =>
    simp only [hload] at h
    cases htarget : s.target with
    | none =>
      simp only [htarget] at h
      cases h
    | some path =>
      simp only [htarget] at h
      cases hwrite : store.write path (encode p.outcome.text) with
      | mk store' wrote =>
        simp only [hwrite] at h
        cases wrote with
        | ok u => cases h
        | error fault =>
          cases h
          exact .inr ⟨p, path, fault, rfl, rfl, rfl, by simp only [hwrite]⟩

/-! ### Success -/

/-- A run that succeeds has read a text in a known language, and reports on that. -/
theorem exists_of_run_ok {r : Run} (h : (run store s).2.result = .ok r) :
    ∃ source language, store.read s.input = .ok (encode source) ∧
      Utf8.size source ≤ s.maxFileBytes ∧
      (resolveLanguage s.language s.input).result = .ok language ∧
      r = ⟨s.reportOn (.of source language), (strip language source).text⟩ := by
  obtain ⟨p, hp, rfl, -⟩ := run_of_ok h
  obtain ⟨source, language, hread, hsize, hl, rfl⟩ := Settings.result_load_eq_ok_iff.1 hp
  exact ⟨source, language, hread, hsize, hl, rfl⟩

theorem run_eq_self_of_ok {r : Run} (h : (run store s).2.result = .ok r) (ht : s.target = none) :
    (run store s).1 = store := by
  obtain ⟨p, -, -, hnone, -⟩ := run_of_ok h
  exact hnone ht

theorem written_of_run_ok {r : Run} (h : (run store s).2.result = .ok r) {path : String}
    (ht : s.target = some path) :
    (run store s).1.base = store.base ∧
      ∃ l, store.tree.Written (run store s).1.tree (store.path path) l (encode r.text) := by
  obtain ⟨p, -, -, -, hsome⟩ := run_of_ok h
  have hwrite := hsome path ht
  have hwritten := Storage.written_of_write (congrArg Prod.snd hwrite)
  simp only [hwrite] at hwritten
  exact hwritten

theorem read_target_of_run_ok {r : Run} (h : (run store s).2.result = .ok r) {path : String}
    (ht : s.target = some path) : (run store s).1.read path = .ok (encode r.text) := by
  obtain ⟨hbase, l, hwritten⟩ := written_of_run_ok h ht
  rw [Storage.read, Storage.path_eq hbase]
  exact hwritten.read

/-- What does not lead to the target reads as before the run. -/
theorem read_of_run_ok {r : Run} (h : (run store s).2.result = .ok r) {path q : String}
    (ht : s.target = some path) {data : Bytes} (hq : store.read q = .ok data)
    (hne : (run store s).1.locate q ≠ (run store s).1.locate path) :
    (run store s).1.read q = .ok data := by
  obtain ⟨hbase, l, hwritten⟩ := written_of_run_ok h ht
  rw [Storage.locate, Storage.locate, Storage.path_eq hbase, Storage.path_eq hbase,
    hwritten.locate] at hne
  rw [Storage.read, Storage.path_eq hbase]
  exact hwritten.read_of_ne hq hne

/-- **A run that succeeds** has stripped the text at its input, in the language that the settings
ask for, reports on that, and leaves the result at its target and nothing new anywhere else but
directories on the way there. -/
theorem run_result_ok {r : Run} (h : (run store s).2.result = .ok r) :
    ∃ source language, store.read s.input = .ok (encode source) ∧
      (resolveLanguage s.language s.input).result = .ok language ∧
      r.text = (strip language source).text ∧
      r.report = {
        input := s.input
        output := if s.inPlace then some s.input else s.output
        language := language
        bytesBefore := Utf8.size source
        bytesAfter := Utf8.size r.text
        stats := (strip language source).stats } ∧
      Utf8.size source ≤ s.maxFileBytes ∧
      (r.report.output = none → (run store s).1 = store) ∧
      ∀ path, r.report.output = some path →
        (run store s).1.read path = .ok (encode r.text) ∧
        (run store s).1.size path = .ok r.report.bytesAfter ∧
        (run store s).1.base = store.base ∧
        ∃ l, store.tree.Written (run store s).1.tree (store.path path) l (encode r.text) := by
  obtain ⟨source, language, hread, hsize, hl, hr⟩ := exists_of_run_ok h
  have houtput : r.report.output = s.target := by rw [hr]; rfl
  have hafter : r.report.bytesAfter = Utf8.size r.text := by
    simp only [hr, Settings.reportOn, Settings.Processed.of]
  refine ⟨source, language, hread, hl, by rw [hr], by rw [hr]; rfl, hsize, fun hnone => ?_,
    fun path hpath => ?_⟩
  · exact run_eq_self_of_ok h (houtput ▸ hnone)
  · obtain ⟨hbase, l, hwritten⟩ := written_of_run_ok h (houtput ▸ hpath)
    have hread' := read_target_of_run_ok h (houtput ▸ hpath)
    refine ⟨hread', ?_, hbase, l, hwritten⟩
    rw [hafter, ← Utf8.length_encode]
    exact Storage.size_of_read hread'

/-- The output is spelled with a repeated slash, and its directory does not exist before the run. -/
theorem run_result_ok_nested :
    let store : Storage := ⟨".", ⟨[(["a.js"], .file [0x78, 0x2F, 0x2F])], []⟩⟩
    let s : Settings := ⟨"./a.js", some "out//b.js", none, false, 3, false⟩
    (run store s).1.read "out//b.js" = .ok (encode ['x', '\n']) ∧
      (run store s).1.size "out//b.js" = .ok 2 := by
  intro store s
  have h : (run store s).2.result = .ok ⟨{
      input := "./a.js", output := some "out//b.js", language := .javascript
      bytesBefore := 3, bytesAfter := 2, stats := ⟨1, 1, 0, 1, 0⟩ }, ['x', '\n']⟩ := by
    unfold store s
    rfl
  obtain ⟨_, _, -, -, -, -, -, -, hwritten⟩ := run_result_ok h
  obtain ⟨hread, hsize, -⟩ := hwritten "out//b.js" rfl
  exact ⟨hread, hsize⟩

/-! ### Failure -/

/-- **A run that fails** leaves every file as it was and makes none. It changes nothing at all if it
fails because of its input; otherwise it is the write that fails, and at most directories on the way
to the target are new. -/
theorem run_result_error {e : Error} (h : (run store s).2.result = .error e) :
    (∀ l data, (run store s).1.tree.get? l = some (.file data) ↔
      store.tree.get? l = some (.file data)) ∧
    (InputRefused store s e → (run store s).1 = store) ∧
    (¬ InputRefused store s e → ∃ path data fault, s.target = some path ∧ e = .io fault ∧
      store.write path data = ((run store s).1, .error fault) ∧
      store.tree.Grown (run store s).1.tree (store.tree.origin (store.path path))
        (store.path path).names.dropLast) := by
  obtain ⟨hload, hstore⟩ | ⟨p, path, fault, hload, ht, rfl, hwrite⟩ := run_of_error h
  · refine ⟨fun l data => by rw [hstore], fun _ => hstore, fun hno => ?_⟩
    exact absurd (inputRefused_of_load hload) hno
  · have hgrown := Storage.grown_of_write (congrArg Prod.snd hwrite)
    simp only [hwrite] at hgrown
    refine ⟨fun l data => hgrown.get?_eq_file_iff, fun hrefused => ?_, fun _ => ?_⟩
    · obtain ⟨source, -, hread, -⟩ := Settings.result_load_eq_ok_iff.1 hload
      obtain ⟨_, _, _, he⟩ | ⟨_, he⟩ | hno := hrefused
      · cases he
      · cases he
      · exact absurd ⟨source, hread⟩ hno
    · exact ⟨path, _, fault, ht, rfl, hwrite, hgrown⟩

/-- The run makes the directory `new` and then finds a file in its way. -/
theorem run_result_error_partway :
    let store : Storage := ⟨"", ⟨[(["a.js"], .file [0x78, 0x2F, 0x2F])], []⟩⟩
    let s : Settings := ⟨"a.js", some "new/../a.js/b", none, false, 3, false⟩
    (run store s).1.tree.get? ["new"] = some .directory ∧
      (run store s).1.tree.get? ["a.js"] = some (.file [0x78, 0x2F, 0x2F]) ∧
      store.tree.Grown (run store s).1.tree [] [.down "new", .up, .down "a.js"] := by
  intro store s
  have h : (run store s).2.result = .error (.io .alreadyExists) ∧
      (run store s).1.tree.get? ["new"] = some .directory ∧
      store.read s.input = .ok (encode ['x', '/', '/']) ∧
      store.tree.origin (store.path "new/../a.js/b") = [] ∧
      (store.path "new/../a.js/b").names.dropLast = [.down "new", .up, .down "a.js"] := by
    unfold store s
    exact ⟨rfl, rfl, rfl, rfl, rfl⟩
  obtain ⟨herror, hnew, hread, horigin, hsteps⟩ := h
  obtain ⟨hfiles, -, hwrite⟩ := run_result_error herror
  have hok : ¬ InputRefused store s (.io .alreadyExists) := by
    rintro (⟨_, _, _, he⟩ | ⟨_, he⟩ | hno)
    · cases he
    · cases he
    · exact hno ⟨_, hread⟩
  obtain ⟨path, _, _, hpath, -, -, hgrown⟩ := hwrite hok
  cases hpath
  rw [horigin, hsteps] at hgrown
  exact ⟨hnew, (hfiles _ _).2 rfl, hgrown⟩

end Uncomment
