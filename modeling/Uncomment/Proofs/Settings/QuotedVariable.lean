import Mathlib.Data.List.Basic
import Uncomment.Proofs.Settings.Template
import Uncomment.Proofs.Toml.Document
import Uncomment.Proofs.Toml.Quote

/-! # A variable between quotes

A settings file may give its language by a placeholder between double quotes. Placeholders are
filled before the document is read, so the quotes then hold the value itself, and the document says
what that spells (`ofText_quoting`).

* Without a quote in it the value cannot leave its place: it sets the language and nothing else. If
  it has no backslash either, the language is the value.
* With a quote in it the value may close the string and go on with settings of its own
  (`not_forall_ofText_quoting`). With a quote or a backslash in it, it is never the language itself:
  the document gives the language another text, and no later line of it takes that back. -/

namespace Uncomment.SettingsFile

open Toml

/-- The settings file that gives a language, between quotes, and nothing else. -/
def quoting (t : Text) : Text :=
  "[strip]\n".toList ++ ("language = ".toList ++ '"' :: (t ++ ['"', '\n']))

example : quoting (Placeholder.spelled ['V']) =
    "[strip]\nlanguage = \"$\x7bV\x7d\"\n".toList := by decide

/-- The tables of a document that has opened its section and put entries into it. -/
def inStrip (entries : Table) : State :=
  ⟨[("strip".toList, .table .header entries)], ["strip".toList]⟩

/-- The entries of a section that gives a language and nothing else. -/
def languageEntry (w : Text) : Table := [("language".toList, .string w)]

/-- What a settings file that gives a language and nothing else says. -/
def ofLanguage (w : Text) : SettingsFile := { strip := some { language := some (String.ofList w) } }

variable {env : Environment} {name v w : Text} {file : SettingsFile}

/-! ### Filling -/

theorem fill_quoting (hname : Placeholder.IsName name) {value? : Text → Option Text}
    (hv : value? name = some v) :
    Placeholder.fill value? (quoting (Placeholder.spelled name)) = .ok (quoting v) := by
  let T : Placeholder.Template := .slot "[strip]\nlanguage = \"".toList name (.rest ['"', '\n'])
  have hT : T.Leftmost := ⟨Placeholder.free_of_notMem (by decide) _, hname,
    Placeholder.free_of_notMem (by decide) _⟩
  have hvalue : ∀ name' ∈ T.names, value? name' = some (Function.const Text v name') := by
    intro name' hmem
    rw [List.mem_singleton.1 hmem, hv]
    rfl
  exact hT.fill_eq_ok hvalue

theorem ofText_quoting_eq (hname : Placeholder.IsName name)
    (hv : env.value? (String.ofList name) = some v) :
    ofText env (quoting (Placeholder.spelled name)) =
      match (parse? (quoting v)).bind ofToml? with
      | none => .error (.config .malformed)
      | some file => do
        file.check
        return file := by
  have hfill : Placeholder.fill (fun name => env.value? (String.ofList name))
      (quoting (Placeholder.spelled name)) = .ok (quoting v) := fill_quoting hname hv
  rw [ofText, hfill]
  rfl

/-! ### Reading -/

theorem statement?_strip (u : Text) :
    statement? ⟨[], []⟩ ("[strip]\n".toList ++ u) = some (inStrip [], u) := rfl

theorem statement?_language (u : Text) :
    statement? (inStrip []) ("language = ".toList ++ '"' :: u) =
      (quoted? ('"' :: u)).bind fun (w, r) =>
        (lineEnd? r).bind fun rest => some (inStrip (languageEntry w), rest) := by
  have hstatement : statement? (inStrip []) ("language = ".toList ++ '"' :: u) =
      (value? maxDepth ('"' :: u)).bind fun p =>
        (lineEnd? p.2).bind fun rest => some (inStrip [("language".toList, p.1)], rest) := rfl
  have hvalue : value? maxDepth ('"' :: u) = flat? ('"' :: u) := rfl
  rw [hstatement, hvalue, flat?_quote, Option.bind_map]
  rfl

theorem statements?_of_gap? {n : Nat} {st : State} {t : Text} (h : gap? t = some t) (ht : t ≠ []) :
    statements? (n + 1) st t = (statement? st t).bind fun (st, rest) => statements? n st rest := by
  cases t with
  | nil => contradiction
  | cons c r => rw [statements?, h]

theorem length_quoting (v : Text) : ∃ n, (quoting v).length = n + 2 := by
  -- said of any two texts, since the lengths of the two that are meant do not matter
  have hlength : ∀ a b : Text, ∃ n, (a ++ (b ++ '"' :: (v ++ ['"', '\n']))).length = n + 2 := by
    intro a b
    refine ⟨a.length + b.length + v.length + 1, ?_⟩
    simp only [List.length_append, List.length_cons, List.length_nil]
    omega
  exact hlength _ _

/-- The first quote starts a string. What stands behind the string goes on from the table that has
it as the language. -/
theorem parse?_quoting (v : Text) :
    ∃ n, parse? (quoting v) = (quoted? ('"' :: (v ++ ['"', '\n']))).bind fun (w, r) =>
      (lineEnd? r).bind (statements? (n + 1) (inStrip (languageEntry w))) := by
  obtain ⟨n, hn⟩ := length_quoting v
  have hmark : (quoting v).head? ≠ some '\ufeff' := by
    have hhead : (quoting v).head? = some '[' := rfl
    rw [hhead]
    decide
  have hgap : gap? (quoting v) = some (quoting v) := rfl
  have hne : quoting v ≠ [] := List.cons_ne_nil _ _
  have hstrip : statement? ⟨[], []⟩ (quoting v) =
      some (inStrip [], "language = ".toList ++ '"' :: (v ++ ['"', '\n'])) := statement?_strip _
  have hline : ∀ u, gap? ("language = ".toList ++ u) = some ("language = ".toList ++ u) :=
    fun _ => rfl
  refine ⟨n, ?_⟩
  calc
    parse? (quoting v) = statements? ((quoting v).length + 1) ⟨[], []⟩ (quoting v) := by
      rw [parse?, if_neg hmark]
    _ = statements? (n + 2) (inStrip []) ("language = ".toList ++ '"' :: (v ++ ['"', '\n'])) := by
      rw [hn, statements?_of_gap? hgap hne, hstrip]
      rfl
    _ = _ := by
      rw [statements?_of_gap? (hline _) (List.cons_ne_nil _ _), statement?_language,
        Option.bind_assoc]
      refine congrArg _ (funext fun (w, r) => ?_)
      rw [Option.bind_assoc]
      rfl

/-! ### What the document says -/

theorem ofToml?_languageEntry (w : Text) :
    ofToml? (inStrip (languageEntry w)).root = some (ofLanguage w) := rfl

/-- A string that ends with its line is all that the document gives. -/
theorem ofToml?_parse?_of_newline (h : quoted? ('"' :: (v ++ ['"', '\n'])) = some (w, ['\n'])) :
    (parse? (quoting v)).bind ofToml? = some (ofLanguage w) := by
  obtain ⟨n, hparse⟩ := parse?_quoting v
  rw [hparse, h]
  exact ofToml?_languageEntry w

theorem check_ofLanguage (w : Text) :
    (ofLanguage w).check = Check.filled "strip.language" (String.ofList w) := by
  simp only [check, ofLanguage, requireStrip, Check.present, ok_bind]
  cases Check.filled "strip.language" (String.ofList w) <;> rfl

theorem language_of_ofToml? {o : Origin} {entries : Table} {sec : Section}
    (h : entries.lookup "language".toList = some (.string w))
    (hsec : Section.ofToml? (.table o entries) = some sec) :
    sec.language = some (String.ofList w) := by
  have hlanguage : Section.entry? Section.language? entries "language" =
      some (some (String.ofList w)) := by
    rw [Section.entry?, h]
    rfl
  rw [Section.ofToml?] at hsec
  split at hsec
  · cases hsec
  · simp only [hlanguage, Option.pure_def, Option.bind_eq_bind, Option.bind_some,
      Option.bind_eq_some_iff] at hsec
    obtain ⟨limit, -, flag, -, heq⟩ := hsec
    cases heq
    rfl

/-- A language that has been given once is the language. -/
theorem language_of_keeps {t : Table} (h : (inStrip (languageEntry w)).root.Keeps t)
    (hfile : ofToml? t = some file) :
    ∃ sec, file.strip = some sec ∧ sec.language = some (String.ofList w) := by
  obtain ⟨x, hx, hkeeps⟩ := h "strip".toList _ rfl
  have hat : x.at? ["language".toList] = some (.string w) := hkeeps _ _ rfl rfl
  cases x with
  | table o entries =>
    obtain ⟨y, hy, hstring⟩ := Option.bind_eq_some_iff.1 hat
    cases hstring
    simp only [ofToml?, hx] at hfile
    split at hfile
    · cases hfile
    · obtain ⟨sec, hsec, rfl⟩ := Option.map_eq_some_iff.1 hfile
      exact ⟨sec, rfl, language_of_ofToml? hy hsec⟩
  | _ => cases hat

/-! ### A settings file that is read -/

/-- What is read before the rest of the document is a string, and the file says what the whole
document does. -/
theorem exists_of_ofText_quoting (hname : Placeholder.IsName name)
    (hv : env.value? (String.ofList name) = some v)
    (h : ofText env (quoting (Placeholder.spelled name)) = .ok file) :
    ∃ w r rest n t, quoted? ('"' :: (v ++ ['"', '\n'])) = some (w, r) ∧ lineEnd? r = some rest ∧
      statements? (n + 1) (inStrip (languageEntry w)) rest = some t ∧ ofToml? t = some file := by
  obtain ⟨n, hparse⟩ := parse?_quoting v
  rw [ofText_quoting_eq hname hv] at h
  split at h
  · cases h
  · next file' hfile =>
    obtain ⟨-, heq⟩ := unit_bind_eq_ok_iff.1 h
    cases heq
    obtain ⟨t, ht, hfile⟩ := Option.bind_eq_some_iff.1 hfile
    rw [hparse] at ht
    obtain ⟨⟨w, r⟩, hw, ht⟩ := Option.bind_eq_some_iff.1 ht
    obtain ⟨rest, hrest, ht⟩ := Option.bind_eq_some_iff.1 ht
    exact ⟨w, r, rest, n, t, hw, hrest, ht, hfile⟩

theorem eq_ofLanguage_of_notMem (hname : Placeholder.IsName name)
    (hv : env.value? (String.ofList name) = some v) (hquote : '"' ∉ v)
    (h : ofText env (quoting (Placeholder.spelled name)) = .ok file) :
    ∃ w, file = ofLanguage w := by
  obtain ⟨w, r, rest, n, t, hw, hrest, ht, hfile⟩ := exists_of_ofText_quoting hname hv h
  obtain ⟨rfl, -⟩ := quoted?_of_notMem hquote hw
  cases hrest
  cases ht
  rw [ofToml?_languageEntry] at hfile
  cases hfile
  exact ⟨w, rfl⟩

theorem exists_language_ne (hname : Placeholder.IsName name)
    (hv : env.value? (String.ofList name) = some v) (hmem : '"' ∈ v ∨ '\\' ∈ v)
    (h : ofText env (quoting (Placeholder.spelled name)) = .ok file) :
    ∃ sec w, file.strip = some sec ∧ sec.language = some (String.ofList w) ∧ w ≠ v := by
  obtain ⟨w, r, rest, n, t, hw, -, ht, hfile⟩ := exists_of_ofText_quoting hname hv h
  -- whatever the value says behind its first quote, the string before it stays the language
  obtain ⟨sec, hsec, hlanguage⟩ := language_of_keeps (keeps_statements? ht) hfile
  refine ⟨sec, w, hsec, hlanguage, ?_⟩
  rintro rfl
  have hall := List.all_eq_true.1 (all_isVerbatim_of_quoted? hw)
  rcases hmem with hmem | hmem
  · exact (isVerbatim_iff.1 (hall _ hmem)).2.1 rfl
  · exact (isVerbatim_iff.1 (hall _ hmem)).2.2 rfl

/-- **A variable between quotes.** A value without a quote sets the language and nothing else. If it
has no backslash either, the language is the value, and the file is refused exactly if the value has
a control character that TOML does not take or is blank. A value with a quote or a backslash is
never the language. -/
theorem ofText_quoting (hname : Placeholder.IsName name)
    (hv : env.value? (String.ofList name) = some v) :
    ('"' ∉ v → ∀ file, ofText env (quoting (Placeholder.spelled name)) = .ok file →
        ∃ w, file = ofLanguage w) ∧
      ('"' ∉ v → '\\' ∉ v → ofText env (quoting (Placeholder.spelled name)) =
        if v.all isPlain = false then .error (.config .malformed)
        else if Text.isBlankText v = true then
          .error (.invalid "strip.language" (String.ofList v)
            "Value cannot be empty or whitespace-only")
        else .ok (ofLanguage v)) ∧
      ('"' ∈ v ∨ '\\' ∈ v → ∀ file, ofText env (quoting (Placeholder.spelled name)) = .ok file →
        ∃ sec w, file.strip = some sec ∧ sec.language = some (String.ofList w) ∧ w ≠ v) := by
  refine ⟨fun hquote file => eq_ofLanguage_of_notMem hname hv hquote, fun hquote hescape => ?_,
    fun hmem file => exists_language_ne hname hv hmem⟩
  have hquoted := quoted?_of_notMem_of_notMem hquote hescape
  rw [ofText_quoting_eq hname hv]
  cases hplain : v.all isPlain with
  | false =>
    obtain ⟨n, hparse⟩ := parse?_quoting v
    rw [hparse, hquoted, hplain]
    rfl
  | true =>
    rw [hplain, if_pos rfl] at hquoted
    rw [ofToml?_parse?_of_newline hquoted, if_neg (by simp)]
    simp only [check_ofLanguage, Check.filled, String.toList_ofList]
    split <;> rfl

/-- A language id is read as it is. An escape in its place is not. -/
theorem ofText_quoting_escape :
    let escape : Text := "\\u0063".toList
    let plain : Environment := [("V", Utf8.encode ['c'])]
    let escaped : Environment := [("V", Utf8.encode escape)]
    ofText plain (quoting (Placeholder.spelled ['V'])) = .ok (ofLanguage ['c']) ∧
      ∃ file, ofText escaped (quoting (Placeholder.spelled ['V'])) = .ok file ∧
        (∃ w, file = ofLanguage w) ∧
        ∃ sec w, file.strip = some sec ∧ sec.language = some (String.ofList w) ∧ w ≠ escape := by
  intro escape plain escaped
  have hname : Placeholder.IsName ['V'] := by decide
  have hplain : plain.value? (String.ofList ['V']) = some ['c'] := by decide +kernel
  have hescape : escaped.value? (String.ofList ['V']) = some escape := by decide +kernel
  have hfile : ofText escaped (quoting (Placeholder.spelled ['V'])) = .ok (ofLanguage ['c']) := by
    decide +kernel
  obtain ⟨hquote, -, hne⟩ := ofText_quoting hname hescape
  exact ⟨(ofText_quoting hname hplain).2.1 (by decide) (by decide), _, hfile,
    hquote (by decide) _ hfile, hne (.inr (by decide)) _ hfile⟩

/-- A value can go on behind its quote with a setting of its own. -/
theorem not_forall_ofText_quoting :
    ¬ ∀ (env : Environment) (v : Text), env.value? "V" = some v →
      (∃ e, ofText env (quoting (Placeholder.spelled ['V'])) = .error e) ∨
        ofText env (quoting (Placeholder.spelled ['V'])) = .ok (ofLanguage v) := by
  intro h
  let v : Text := "c\"\nin_place = true #".toList
  let env : Environment := [("V", Utf8.encode v)]
  have hv : env.value? "V" = some v := by decide +kernel
  have hfile : ofText env (quoting (Placeholder.spelled ['V'])) =
      .ok { strip := some { language := some "c", inPlace := some true } } := by decide +kernel
  rcases h env v hv with ⟨e, herror⟩ | hok
  · rw [hfile] at herror
    cases herror
  · rw [hfile] at hok
    revert hok
    decide +kernel

end Uncomment.SettingsFile
