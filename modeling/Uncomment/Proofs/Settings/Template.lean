import Mathlib.Data.List.Basic
import Uncomment.Settings.File
import Uncomment.Proofs.Text.Cut
import Uncomment.Proofs.Text.Lines
import Uncomment.Trace

/-! # Templates

A `Template` is a text taken apart at its placeholders. It is `Leftmost` if each of its placeholders
is the first to start in the text that is left behind the one before, and none starts behind the
last. Which text has which template is said without the scanner.

Every text has exactly one leftmost template (`exists_leftmost`, `Leftmost.unique`), and the scanner
cuts the text into its pieces (`Leftmost.cut_text`). So filling a text puts one value in the place
of each placeholder and looks at no value again (`Leftmost.fill_eq_ok`), or else names the variables
that have none (`Leftmost.fill_eq_error`). -/

namespace Uncomment.Placeholder

open Text

/-- The placeholder with the given name. -/
def spelled (name : Text) : Text := '$' :: '\x7b' :: (name ++ ['\x7d'])

/-- At least one character, and no closing brace. -/
structure IsName (name : Text) : Prop where
  ne_nil : name ≠ []
  brace : '\x7d' ∉ name

instance (name : Text) : Decidable (IsName name) :=
  decidable_of_iff (name ≠ [] ∧ '\x7d' ∉ name) ⟨fun h => ⟨h.1, h.2⟩, fun h => ⟨h.1, h.2⟩⟩

/-- A placeholder starts the text. -/
def Starts (t : Text) : Prop := ∃ name, IsName name ∧ spelled name <+: t

/-- At no place of `x` a placeholder starts, if `z` stands behind `x`. -/
def Free : (x z : Text) → Prop
  | [], _ => True
  | c :: x, z => ¬ Starts (c :: (x ++ z)) ∧ Free x z

/-- A text taken apart at its placeholders. -/
inductive Template
  /-- No placeholder is left. -/
  | rest (text : Text)
  /-- Some text, a placeholder, and a template for what stands behind it. -/
  | slot (before name : Text) (behind : Template)
  deriving DecidableEq, Repr

namespace Template

/-- The text that was taken apart. -/
def text : Template → Text
  | rest t => t
  | slot x name T => x ++ (spelled name ++ T.text)

/-- The names of the placeholders, from left to right. -/
def names : Template → List Text
  | rest _ => []
  | slot _ name T => name :: T.names

/-- The text with values for the placeholders. -/
def filled (value : Text → Text) : Template → Text
  | rest t => t
  | slot x name T => x ++ (value name ++ T.filled value)

/-- Each placeholder is the first that starts in what is left. -/
def Leftmost : Template → Prop
  | rest t => Free t []
  | slot x name T => Free x (spelled name ++ T.text) ∧ IsName name ∧ T.Leftmost

end Template

/-! ### Placeholders at the start of a text -/

variable {name name' r t x y z : Text}

theorem takeWhile_name (h : IsName name) (r : Text) :
    (name ++ '\x7d' :: r).takeWhile (· ≠ '\x7d') = name := by
  exact takeWhile_ne_append h.brace r

@[simp] theorem nameIn_spelled (h : IsName name) : nameIn (spelled name) = name :=
  takeWhile_name h []

theorem length?_spelled (h : IsName name) (r : Text) :
    length? (spelled name ++ r) = some (spelled name).length := by
  have htake := takeWhile_name h r
  have hne := h.ne_nil
  have htext : spelled name ++ r = '$' :: '\x7b' :: (name ++ '\x7d' :: r) := by simp [spelled]
  rw [htext, length?]
  simp only [htake]
  simp [hne, spelled]

/-- What ends the name is a closing brace, unless the text ends first. -/
theorem exists_eq_takeWhile_brace (h : (r.takeWhile (· ≠ '\x7d')).length ≠ r.length) :
    ∃ s, r = r.takeWhile (· ≠ '\x7d') ++ '\x7d' :: s := by
  have hsplit := List.takeWhile_append_dropWhile (p := (· ≠ '\x7d')) (l := r)
  have hhead := List.head?_dropWhile_not (· ≠ '\x7d') r
  cases hdrop : r.dropWhile (· ≠ '\x7d') with
  | nil =>
    rw [hdrop, List.append_nil] at hsplit
    exact absurd (congrArg List.length hsplit) h
  | cons d s =>
    rw [hdrop] at hsplit hhead
    simp only [List.head?_cons, decide_eq_false_iff_not, not_not] at hhead
    rw [hhead] at hsplit
    exact ⟨s, hsplit.symm⟩

theorem exists_of_length?_eq_some {n : Nat} (h : length? t = some n) :
    ∃ name r, IsName name ∧ t = spelled name ++ r ∧ n = (spelled name).length := by
  unfold length? at h
  split at h
  · next r =>
    dsimp only at h
    split at h
    · cases h
    · next hname =>
      cases h
      simp only [Bool.or_eq_true, List.isEmpty_iff, decide_eq_true_eq, not_or] at hname
      obtain ⟨s, hs⟩ := exists_eq_takeWhile_brace hname.2
      refine ⟨r.takeWhile (· ≠ '\x7d'), s, ⟨hname.1, fun h => ?_⟩, ?_, by simp [spelled]⟩
      · simpa using List.all_eq_true.1 (List.all_takeWhile (p := (· ≠ '\x7d')) (l := r)) _ h
      · conv => lhs; rw [hs]
        simp [spelled]
  · cases h

theorem starts_iff : Starts t ↔ (length? t).isSome = true := by
  constructor
  · rintro ⟨name, h, r, rfl⟩
    rw [length?_spelled h]
    rfl
  · intro h
    obtain ⟨n, hn⟩ := Option.isSome_iff_exists.1 h
    obtain ⟨name, r, hname, rfl, -⟩ := exists_of_length?_eq_some hn
    exact ⟨name, hname, List.prefix_append ..⟩

theorem bounded_length? : Bounded length? := by
  intro s n h
  obtain ⟨name, r, -, rfl, rfl⟩ := exists_of_length?_eq_some h
  simp [spelled]

instance (t : Text) : Decidable (Starts t) := decidable_of_iff _ starts_iff.symm

instance decidableFree : (x z : Text) → Decidable (Free x z)
  | [], _ => inferInstanceAs (Decidable True)
  | _ :: x, z =>
    have := decidableFree x z
    inferInstanceAs (Decidable (_ ∧ _))

theorem starts_spelled (h : IsName name) (r : Text) : Starts (spelled name ++ r) :=
  ⟨name, h, List.prefix_append ..⟩

theorem Free.not_starts (h : Free (x ++ y) z) (hy : y ≠ []) : ¬ Starts (y ++ z) := by
  induction x with
  | nil =>
    cases y with
    | nil => contradiction
    | cons c y => exact h.1
  | cons c x ih => exact ih h.2

/-- Where no dollar sign stands, no placeholder starts. -/
theorem free_of_notMem (h : '$' ∉ x) (z : Text) : Free x z := by
  induction x with
  | nil => trivial
  | cons c x ih =>
    simp only [List.mem_cons, not_or] at h
    refine ⟨?_, ih h.2⟩
    rintro ⟨name, -, hpre⟩
    exact h.1 (List.cons_prefix_cons.1 hpre).1

theorem spelled_append_inj (h : IsName name) (h' : IsName name')
    (heq : spelled name ++ y = spelled name' ++ z) : name = name' ∧ y = z := by
  simp only [spelled, List.cons_append, List.append_assoc, List.nil_append, List.cons.injEq,
    true_and] at heq
  have hname := congrArg (List.takeWhile (· ≠ '\x7d')) heq
  rw [takeWhile_name h, takeWhile_name h'] at hname
  cases hname
  exact ⟨rfl, (List.cons.inj (List.append_cancel_left heq)).2⟩

namespace Template

instance decidableLeftmost : (T : Template) → Decidable T.Leftmost
  | rest t => inferInstanceAs (Decidable (Free t []))
  | slot _ _ T =>
    have := decidableLeftmost T
    inferInstanceAs (Decidable (_ ∧ _))

/-! ### Existence and uniqueness -/

theorem exists_leftmost (t : Text) : ∃ T : Template, T.Leftmost ∧ T.text = t := by
  induction t using bounded_length?.cut_induction with
  | nil => exact ⟨.rest [], trivial, rfl⟩
  | char c r h ih =>
    obtain ⟨T, hT, rfl⟩ := ih
    have hc : ¬ Starts (c :: T.text) := by
      rw [starts_iff, h]
      exact Bool.false_ne_true
    cases T with
    | rest t => exact ⟨.rest (c :: t), ⟨by simpa [text] using hc, hT⟩, rfl⟩
    | slot x name T => exact ⟨.slot (c :: x) name T, ⟨⟨hc, hT.1⟩, hT.2⟩, rfl⟩
  | stretch s n h ih =>
    obtain ⟨name, r, hname, rfl, rfl⟩ := exists_of_length?_eq_some h
    rw [List.drop_left] at ih
    obtain ⟨T, hT, rfl⟩ := ih
    exact ⟨.slot [] name T, ⟨trivial, hname, hT⟩, rfl⟩

/-- Of two first placeholders neither starts before the other. -/
theorem eq_of_free (hname : IsName name) (hname' : IsName name') {x' y' : Text}
    (hx : Free x (spelled name ++ y)) (hx' : Free x' (spelled name' ++ y'))
    (h : x ++ (spelled name ++ y) = x' ++ (spelled name' ++ y')) : x = x' := by
  rcases List.append_eq_append_iff.1 h with ⟨w, rfl, hw⟩ | ⟨w, rfl, hw⟩
  · by_cases hnil : w = []
    · rw [hnil, List.append_nil]
    · exact absurd (hw ▸ starts_spelled hname y) (hx'.not_starts hnil)
  · by_cases hnil : w = []
    · rw [hnil, List.append_nil]
    · exact absurd (hw ▸ starts_spelled hname' y') (hx.not_starts hnil)

/-- A text without placeholders is not one with a placeholder. -/
theorem ne_of_free (ht : Free t []) (hname : IsName name) : t ≠ x ++ (spelled name ++ y) := by
  rintro rfl
  have hne : spelled name ++ y ≠ [] := by simp [spelled]
  have hno := ht.not_starts hne
  rw [List.append_nil] at hno
  exact hno (starts_spelled hname y)

theorem Leftmost.unique {T T' : Template} (h : T.Leftmost) (h' : T'.Leftmost)
    (heq : T.text = T'.text) : T = T' := by
  induction T generalizing T' with
  | rest t =>
    cases T' with
    | rest t' => exact congrArg rest heq
    | slot x name T' => exact absurd heq (ne_of_free h h'.2.1)
  | slot x name T ih =>
    obtain ⟨hx, hname, hT⟩ := h
    cases T' with
    | rest t' => exact absurd heq.symm (ne_of_free h' hname)
    | slot x' name' T' =>
      obtain ⟨hx', hname', hT'⟩ := h'
      simp only [text] at heq
      cases eq_of_free hname hname' hx hx' heq
      obtain ⟨rfl, htext⟩ := spelled_append_inj hname hname' (List.append_cancel_left heq)
      rw [ih hT hT' htext]

theorem Leftmost.isName_of_mem {T : Template} (h : T.Leftmost) : ∀ name ∈ T.names, IsName name := by
  induction T with
  | rest t => exact nofun
  | slot x name T ih => exact List.forall_mem_cons.2 ⟨h.2.1, ih h.2.2⟩

/-! ### What the scanner finds -/

/-- The pieces into which a template divides its text. -/
def pieces : Template → List Piece
  | rest t => t.map .char
  | slot x name T => x.map .char ++ .stretch (spelled name) :: T.pieces

theorem cut_append_of_free (h : Free x z) :
    cut length? (x ++ z) = x.map .char ++ cut length? z := by
  induction x with
  | nil => rfl
  | cons c x ih =>
    have hnone : length? (c :: (x ++ z)) = none :=
      Option.not_isSome_iff_eq_none.1 fun hsome => h.1 (starts_iff.2 hsome)
    rw [List.cons_append, cut_cons_of_none hnone, ih h.2]
    rfl

theorem Leftmost.cut_text {T : Template} (h : T.Leftmost) : cut length? T.text = T.pieces := by
  induction T with
  | rest t => simpa [text, pieces] using cut_append_of_free h
  | slot x name T ih =>
    obtain ⟨hx, hname, hT⟩ := h
    rw [text, cut_append_of_free hx, bounded_length?.cut_of_some (length?_spelled hname T.text),
      List.take_left, List.drop_left, ih hT, pieces]

theorem Leftmost.names_text {T : Template} (h : T.Leftmost) :
    Placeholder.names T.text = T.names := by
  rw [Placeholder.names, h.cut_text]
  induction T with
  | rest t => simp [pieces, names]
  | slot x name T ih => simp [pieces, names, h.2.1, ih h.2.2]

theorem Leftmost.replace_text {T : Template} (h : T.Leftmost) {new value : Text → Text}
    (hnew : ∀ name ∈ T.names, new (spelled name) = value name) :
    T.text.replace length? new = T.filled value := by
  rw [replace, h.cut_text]
  induction T with
  | rest t => simp [pieces, filled, List.flatMap_map]
  | slot x name T ih =>
    rw [names, List.forall_mem_cons] at hnew
    simp [pieces, filled, List.flatMap_map, hnew.1, ih h.2.2 hnew.2]

/-! ### Filling -/

theorem Leftmost.fill_eq_ok {T : Template} (h : T.Leftmost) {value? : Text → Option Text}
    {value : Text → Text} (hvalue : ∀ name ∈ T.names, value? name = some (value name)) :
    fill value? T.text = .ok (T.filled value) := by
  have hdefined : (T.names.filter fun name => (value? name).isNone) = [] := by
    refine List.filter_eq_nil_iff.2 fun name hname => ?_
    rw [hvalue name hname]
    exact Bool.false_ne_true
  have hisName := h.isName_of_mem
  rw [fill, h.names_text, hdefined]
  refine congrArg Except.ok (h.replace_text fun name hname => ?_)
  rw [nameIn_spelled (hisName name hname), hvalue name hname]
  rfl

theorem Leftmost.fill_eq_error {T : Template} (h : T.Leftmost) {value? : Text → Option Text}
    (hundefined : ∃ name ∈ T.names, value? name = none) :
    fill value? T.text = .error (.config (.undefinedVariables
      ((T.names.filter fun name => (value? name).isNone).map String.ofList))) := by
  obtain ⟨name, hmem, hnone⟩ := hundefined
  rw [fill, h.names_text]
  split
  · next hnil =>
    have := List.filter_eq_nil_iff.1 hnil name hmem
    rw [hnone] at this
    exact absurd rfl this
  · rfl

end Template

/-- **Filling is a single exact pass.** Every text has exactly one leftmost template. If its
variables all have values, the text is filled with them, as they are; if one has none, the settings
file is refused for that, and the message names those that have none, in order and with
repetitions. -/
theorem existsUnique_template (t : Text) :
    (∃! T : Template, T.Leftmost ∧ T.text = t) ∧
      ∀ T : Template, T.Leftmost → T.text = t →
        (∀ (value? : Text → Option Text) (value : Text → Text),
          (∀ name ∈ T.names, value? name = some (value name)) →
            fill value? t = .ok (T.filled value)) ∧
        ∀ env : Environment, (∃ name ∈ T.names, env.value? (String.ofList name) = none) →
          ∃ flaw, SettingsFile.ofText env t = .error (.config flaw) ∧
            flaw.message = "Undefined environment variables: " ++ ", ".intercalate
              ((T.names.filter fun name => (env.value? (String.ofList name)).isNone).map
                String.ofList) := by
  constructor
  · obtain ⟨T, hT, htext⟩ := Template.exists_leftmost t
    refine ⟨T, ⟨hT, htext⟩, ?_⟩
    rintro T' ⟨hT', htext'⟩
    exact hT'.unique hT (htext'.trans htext.symm)
  · rintro T hT rfl
    refine ⟨fun value? value hvalue => hT.fill_eq_ok hvalue, fun env hundefined => ?_⟩
    refine ⟨.undefinedVariables _, ?_, rfl⟩
    rw [SettingsFile.ofText, hT.fill_eq_error hundefined]
    rfl

/-- Empty braces are text, a name may hold an opening mark, a value that looks like a placeholder is
left alone, and an opening mark that nothing closes is text. -/
theorem existsUnique_template_overlap :
    let t : Text := "a$\x7b\x7d$\x7bb$\x7bc\x7d $$\x7bd\x7d$\x7be".toList
    let T : Template := .slot "a$\x7b\x7d".toList "b$\x7bc".toList
      (.slot [' ', '$'] ['d'] (.rest ['$', '\x7b', 'e']))
    let value (name : Text) : Text := if name = ['d'] then ['v'] else "$\x7bd\x7d".toList
    T.Leftmost ∧ T.text = t ∧
      fill (fun name => some (value name)) t =
        .ok "a$\x7b\x7d$\x7bd\x7d $v$\x7be".toList ∧
      ∃ flaw, SettingsFile.ofText [] t = .error (.config flaw) ∧
        flaw.message = "Undefined environment variables: b$\x7bc, d" := by
  intro t T value
  have hT : T.Leftmost := by decide
  have ht : T.text = t := by decide
  obtain ⟨hok, herror⟩ := (existsUnique_template t).2 T hT ht
  refine ⟨hT, ht, hok _ value fun _ _ => rfl, ?_⟩
  exact herror [] ⟨['d'], by decide, rfl⟩

end Uncomment.Placeholder
