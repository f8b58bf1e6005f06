import Uncomment.Proofs.Text.Lines
import Uncomment.Run

/-! # Which language a path or an id means

A path is judged by its last component alone (`Path.lastComponent`): what stands before it, and the
slashes and single dots behind it, have no part in the answer (`Language.ofPath?_eq`). Of that
component only what stands behind its last dot counts (`Path.nameExtension?_append`), in either
case of its letters (`Language.ofExtension?_of_recased`). An id is looked up in the table of ids,
and the table decides (`Language.ofId?_eq_some_iff`). -/

namespace Uncomment

open Text

/-! ### Letters in the other case -/

namespace Text

theorem toNat_toLower (c : Char) :
    c.toLower.toNat = if 65 ≤ c.toNat ∧ c.toNat ≤ 90 then c.toNat + 32 else c.toNat := by
  unfold Char.toLower
  split
  · next h =>
    have hcapital : 65 ≤ c.toNat ∧ c.toNat ≤ 90 := h
    have hsum : (c.val + ('a'.val - 'A'.val)).toNat = (c.toNat + 32) % 4294967296 :=
      UInt32.toNat_add ..
    rw [if_pos hcapital]
    exact hsum.trans (Nat.mod_eq_of_lt (by omega))
  · next h => exact (if_neg h).symm

theorem toNat_toUpper (c : Char) :
    c.toUpper.toNat = if 97 ≤ c.toNat ∧ c.toNat ≤ 122 then c.toNat - 32 else c.toNat := by
  unfold Char.toUpper
  split
  · next h =>
    have hsmall : 97 ≤ c.toNat ∧ c.toNat ≤ 122 := h
    -- the distance between the cases is added in 32 bits, where it wraps around
    have hsum : (c.val + ('A'.val - 'a'.val)).toNat = (c.toNat + 4294967264) % 4294967296 :=
      UInt32.toNat_add ..
    rw [if_pos hsmall]
    exact hsum.trans (by omega)
  · next h => exact (if_neg h).symm

theorem toLower_eq_of_recased {c d : Char} (h : d = c ∨ d = c.toLower ∨ d = c.toUpper) :
    d.toLower = c.toLower := by
  apply Char.toNat_inj.1
  rcases h with rfl | rfl | rfl
  · rfl
  · simp only [toNat_toLower]
    grind
  · simp only [toNat_toLower, toNat_toUpper]
    grind

/-- What is no letter has no other case. -/
theorem eq_of_recased {c d : Char} (h : d = c ∨ d = c.toLower ∨ d = c.toUpper)
    (hd : d.isAlpha = false) : d = c := by
  apply Char.toNat_inj.1
  have hletter : ¬ (65 ≤ d.toNat ∧ d.toNat ≤ 90) ∧ ¬ (97 ≤ d.toNat ∧ d.toNat ≤ 122) := by
    unfold Char.isAlpha Char.isUpper Char.isLower at hd
    simpa [UInt32.le_iff_toNat_le] using hd
  rcases h with rfl | rfl | rfl
  · rfl
  · rw [toNat_toLower] at hletter ⊢
    grind
  · rw [toNat_toUpper] at hletter ⊢
    grind

/-- The second text is the first with some of its ASCII letters made small or capital. -/
def Recased : Text → Text → Prop :=
  List.Forall₂ fun c d => d = c ∨ d = c.toLower ∨ d = c.toUpper

namespace Recased

variable {s t : Text}

theorem map_toLower (h : Recased s t) : t.map Char.toLower = s.map Char.toLower := by
  induction h with
  | nil => rfl
  | cons hcd _ ih => rw [List.map_cons, List.map_cons, ih, toLower_eq_of_recased hcd]

theorem notMem (h : Recased s t) {x : Char} (hx : x.isAlpha = false) (hs : x ∉ s) : x ∉ t := by
  induction h with
  | nil => exact hs
  | cons hcd _ ih =>
    rw [List.mem_cons, not_or] at hs ⊢
    refine ⟨?_, ih hs.2⟩
    rintro rfl
    exact hs.1 (eq_of_recased hcd hx)

end Recased

end Text

theorem Language.ofExtension?_of_recased {e e' : Text} (h : Recased e e') :
    ofExtension? (String.ofList e') = ofExtension? (String.ofList e) := by
  rw [ofExtension?, ofExtension?, lowered, lowered, String.toList_ofList, String.toList_ofList,
    h.map_toLower]

namespace Path

/-! ### The end of a path -/

/-- A text that leads nowhere behind a path: slashes, each with or without a dot behind it. -/
inductive Idle : Text → Prop
  | nil : Idle []
  | slash {z : Text} : Idle z → Idle ('/' :: z)
  | here {z : Text} : Idle z → Idle ('/' :: '.' :: z)

/-- A text read from its end, less the slashes and the single dots behind slashes there. -/
def dropIdle : Text → Text
  | '/' :: r => dropIdle r
  | '.' :: '/' :: r => dropIdle r
  | r => r

/-- What stands behind the last slash, when the slashes and single dots at the end are dropped. -/
def lastComponent (t : Text) : Text := ((dropIdle t.reverse).takeWhile (· ≠ '/')).reverse

theorem dropIdle_append {z : Text} (hz : Idle z) (r : Text) :
    dropIdle (z.reverse ++ r) = dropIdle r := by
  induction hz generalizing r with
  | nil => rfl
  | slash _ ih => simp [ih, dropIdle]
  | here _ ih => simp [ih, dropIdle]

/-- A name stops what is dropped, unless it is a single dot. -/
theorem dropIdle_append_of_notMem {u : Text} (hu : '/' ∉ u) (hne : u ≠ []) (hdot : u ≠ ['.'])
    (r : Text) : dropIdle (u ++ r) = u ++ r := by
  rcases u with _ | ⟨x, _ | ⟨y, u⟩⟩
  · contradiction
  · simp only [List.mem_singleton, ne_eq, List.cons.injEq, and_true] at hu hdot
    simp [dropIdle, Ne.symm hu, hdot]
  · simp only [List.mem_cons, not_or] at hu
    simp [dropIdle, Ne.symm hu.1, Ne.symm hu.2.1]

theorem lastComponent_append_idle {z : Text} (hz : Idle z) (t : Text) :
    lastComponent (t ++ z) = lastComponent t := by
  rw [lastComponent, lastComponent, List.reverse_append, dropIdle_append hz]

theorem lastComponent_append_slash {c : Text} (hc : '/' ∉ c) (hne : c ≠ []) (hdot : c ≠ ['.'])
    (d : Text) : lastComponent (d ++ '/' :: c) = c := by
  have hrev : (d ++ '/' :: c).reverse = c.reverse ++ '/' :: d.reverse := by simp
  have hslash : '/' ∉ c.reverse := by simpa using hc
  rw [lastComponent, hrev, dropIdle_append_of_notMem hslash (by simpa using hne)
    (by simpa using hdot), takeWhile_ne_append hslash, List.reverse_reverse]

/-! ### The steps that count -/

/-- The steps of a written path that lead somewhere. -/
def namesIn (t : Text) : List Step := ((piecesAt '/' t).filterMap step?).filter (· ≠ .here)

theorem names_ofString (s : String) : (ofString s).names = namesIn s.toList := rfl

@[simp] theorem namesIn_nil : namesIn [] = [] := rfl

@[simp] theorem namesIn_dot : namesIn ['.'] = [] := rfl

theorem namesIn_append (x y : Text) : namesIn (x ++ '/' :: y) = namesIn x ++ namesIn y := by
  rw [namesIn, piecesAt_append, List.filterMap_append, List.filter_append]
  rfl

theorem namesIn_of_notMem {c : Text} (hc : '/' ∉ c) :
    namesIn c = (step? c).toList.filter (· ≠ .here) := by
  rw [namesIn, piecesAt_of_notMem hc]
  cases h : step? c <;> simp [h]

theorem namesIn_ne_nil {c : Text} (hc : '/' ∉ c) (hne : c ≠ []) (hdot : c ≠ ['.']) :
    namesIn c ≠ [] := by
  rw [namesIn_of_notMem hc]
  fun_cases step? c with
  | case1 | case2 => contradiction
  | case3 | case4 => simp

theorem slash_notMem_lastComponent (t : Text) : '/' ∉ lastComponent t := by
  intro h
  simpa using List.mem_takeWhile_imp (List.mem_reverse.1 h)

/-- The last step that counts is that of the last component, if there is one. -/
theorem getLast?_namesIn (t : Text) :
    (namesIn t).getLast? = (namesIn (lastComponent t)).getLast? := by
  obtain ⟨r, rfl⟩ : ∃ r : Text, t = r.reverse := ⟨t.reverse, t.reverse_reverse.symm⟩
  have hno := slash_notMem_lastComponent r.reverse
  rw [lastComponent, List.reverse_reverse] at hno ⊢
  -- what is dropped has no step that counts; then the text ends with a step, if it has one
  fun_induction dropIdle r with
  | case1 r ih => rw [List.reverse_cons, namesIn_append, ← ih hno, namesIn_nil, List.append_nil]
  | case2 r ih =>
    have hrev : ('.' :: '/' :: r).reverse = r.reverse ++ '/' :: ['.'] := by simp
    rw [hrev, namesIn_append, ← ih hno, namesIn_dot, List.append_nil]
  | case3 r hslash hdot =>
    by_cases h : '/' ∈ r
    · obtain ⟨u, v, rfl, hu⟩ := List.eq_append_cons_of_mem h
      rw [takeWhile_ne_append hu] at hno ⊢
      have hne : u ≠ [] := fun h => hslash v (by rw [h]; rfl)
      have hdots : u ≠ ['.'] := fun h => hdot v (by rw [h]; rfl)
      have hlast : namesIn u.reverse ≠ [] :=
        namesIn_ne_nil hno (by simpa using hne) (by simpa using hdots)
      have hrev : (u ++ '/' :: v).reverse = v.reverse ++ '/' :: u.reverse := by simp
      rw [hrev, namesIn_append, List.getLast?_append_of_ne_nil _ hlast]
    · rw [takeWhile_ne_of_notMem h]

/-! ### The extension of a name -/

theorem nameExtension?_append {stem e : Text} (hstem : stem ≠ []) (he : '.' ∉ e) :
    nameExtension? (stem ++ '.' :: e) = some e := by
  have hrev : (stem ++ '.' :: e).reverse = e.reverse ++ '.' :: stem.reverse := by simp
  have hdot : '.' ∉ e.reverse := by simpa using he
  obtain ⟨x, r, hx⟩ := List.exists_cons_of_ne_nil (List.reverse_ne_nil_iff.2 hstem)
  rw [nameExtension?, hrev, takeWhile_ne_append hdot, List.drop_left, hx]
  simp

/-- A name without a dot, and one with a dot at its start only, has no extension. -/
theorem nameExtension?_eq_none {c : Text} (hc : '.' ∉ c ∨ ∃ r, c = '.' :: r ∧ '.' ∉ r) :
    nameExtension? c = none := by
  rcases hc with hc | ⟨r, rfl, hr⟩
  · have hdot : '.' ∉ c.reverse := by simpa using hc
    rw [nameExtension?, takeWhile_ne_of_notMem hdot, List.drop_length]
  · have hdot : '.' ∉ r.reverse := by simpa using hr
    rw [nameExtension?, List.reverse_cons, takeWhile_ne_append hdot, List.drop_left]

end Path

namespace Language

/-- Of a path only the last component matters. -/
theorem ofPath?_eq (path : String) :
    ofPath? path = (Path.nameExtension? (Path.lastComponent path.toList)).bind
      fun e => ofExtension? (String.ofList e) := by
  rw [ofPath?, Path.extension?, Path.names_ofString, Path.getLast?_namesIn,
    Path.namesIn_of_notMem (Path.slash_notMem_lastComponent path.toList)]
  fun_cases Path.step? (Path.lastComponent path.toList) with
  | case1 | case2 => rfl
  -- two dots go up; read as a name, they have the empty extension, which no language has
  | case3 => rfl
  | case4 =>
    change ((Path.nameExtension? (String.ofList _).toList).map String.ofList).bind ofExtension? = _
    rw [String.toList_ofList, Option.bind_map]
    rfl

/-- The extension decides, in either case of its letters. -/
theorem ofPath?_of_recased {path e : String} {stem e' z : Text} (d : Text) (hstem : stem ≠ [])
    (hslash : '/' ∉ stem) (hdot : '.' ∉ e.toList) (hslash' : '/' ∉ e.toList)
    (hcase : Recased e.toList e') (hz : Path.Idle z)
    (hpath : path.toList = d ++ '/' :: (stem ++ '.' :: e') ++ z) :
    ofPath? path = ofExtension? e := by
  have hlast : Path.lastComponent path.toList = stem ++ '.' :: e' := by
    rw [hpath, Path.lastComponent_append_idle hz]
    apply Path.lastComponent_append_slash
    · simp [hslash, hcase.notMem (by decide) hslash']
    · simp
    · obtain ⟨x, s, rfl⟩ := List.exists_cons_of_ne_nil hstem
      simp
  rw [ofPath?_eq, hlast, Path.nameExtension?_append hstem (hcase.notMem (by decide) hdot),
    Option.bind_some, ofExtension?_of_recased hcase, String.ofList_toList]

/-- No id stands twice in the table, so each entry is found. -/
theorem lookup_ids : ∀ p ∈ ids, ids.lookup p.1 = some p.2 := by decide

theorem ofId?_eq_some_iff {id : String} {l : Language} :
    ofId? id = some l ↔ (lowered (trim id.toList), l) ∈ ids := by
  constructor
  · intro h
    obtain ⟨before, behind, hids, -⟩ := List.lookup_eq_some_iff.1 h
    rw [hids]
    simp
  · intro h
    exact lookup_ids (lowered (trim id.toList), l) h

end Language

/-- Without an id the extension of the last component decides, in either case of its letters, and a
component without one means no language; with an id the id alone decides, and one that nobody knows
means `javascript`. -/
theorem resolveLanguage_lastExtension :
    (∀ d stem e e' z : String, stem ≠ "" → '/' ∉ stem.toList → '.' ∉ e.toList → '/' ∉ e.toList →
      Recased e.toList e'.toList → Path.Idle z.toList →
      let path := d ++ "/" ++ stem ++ "." ++ e' ++ z
      resolveLanguage none path =
        match Language.ofExtension? e with
        | some l => ⟨[], .ok l⟩
        | none => ⟨[], .error (.unknownLanguage path)⟩) ∧
    (∀ path : String,
      ('.' ∉ Path.lastComponent path.toList ∨
        ∃ r, Path.lastComponent path.toList = '.' :: r ∧ '.' ∉ r) →
      resolveLanguage none path = ⟨[], .error (.unknownLanguage path)⟩) ∧
    (∀ id path : String,
      (∀ l, (Language.lowered (trim id.toList), l) ∈ Language.ids →
        resolveLanguage (some id) path = ⟨[], .ok l⟩) ∧
      ((∀ l, (Language.lowered (trim id.toList), l) ∉ Language.ids) →
        resolveLanguage (some id) path = ⟨[.unknownId id], .ok .javascript⟩ ∧
          (Event.unknownId id).level = .warn)) := by
  refine ⟨?_, ?_, ?_⟩
  · intro d stem e e' z hstem hslash hdot hslash' hcase hz path
    rw [resolveLanguage, Language.ofPath?_of_recased d.toList (by simpa using hstem) hslash hdot
      hslash' hcase hz]
    · cases Language.ofExtension? e <;> rfl
    · simp [path]
  · intro path hc
    rw [resolveLanguage, Language.ofPath?_eq, Path.nameExtension?_eq_none hc]
    rfl
  · intro id path
    refine ⟨fun l hl => ?_, fun hno => ⟨?_, rfl⟩⟩
    · rw [resolveLanguage, Language.ofId?_eq_some_iff.2 hl]
      rfl
    · have hnone : Language.ofId? id = none := by
        apply Option.eq_none_iff_forall_ne_some.2
        intro l hl
        exact hno l (Language.ofId?_eq_some_iff.1 hl)
      rw [resolveLanguage, hnone]

/-- Dots in a directory, a file whose only dot is at its start, and the two kinds of ids. -/
theorem resolveLanguage_lastExtension_shapes :
    resolveLanguage none "src.d/./a.b.Py/./" = ⟨[], .ok .python⟩ ∧
      resolveLanguage none "a.py/.gitignore/." =
        ⟨[], .error (.unknownLanguage "a.py/.gitignore/.")⟩ ∧
      resolveLanguage (some " Lua\t") "a.py" = ⟨[], .ok .lua⟩ ∧
      resolveLanguage (some "cobol") "a.py" = ⟨[.unknownId "cobol"], .ok .javascript⟩ := by
  obtain ⟨hext, hnone, hid⟩ := resolveLanguage_lastExtension
  refine ⟨?_, ?_, ?_, ?_⟩
  · have hcase : Recased "py".toList "Py".toList := by simp [Recased]
    have hidle : Path.Idle "/./".toList := .here (.slash .nil)
    have hpath : "src.d/." ++ "/" ++ "a.b" ++ "." ++ "Py" ++ "/./" = "src.d/./a.b.Py/./" := by
      decide
    have hpy : Language.ofExtension? "py" = some .python := by decide
    have h := hext "src.d/." "a.b" "py" "Py" "/./" (by decide) (by decide) (by decide) (by decide)
      hcase hidle
    rwa [hpath, hpy] at h
  · exact hnone _ (.inr ⟨"gitignore".toList, by decide, by decide⟩)
  · exact (hid " Lua\t" _).1 .lua (by decide)
  · have hno : ∀ l, (Language.lowered (trim "cobol".toList), l) ∉ Language.ids := by
      intro l
      cases l <;> decide
    exact ((hid "cobol" _).2 hno).1

end Uncomment
