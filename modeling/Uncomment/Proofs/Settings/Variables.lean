import Mathlib.Data.List.Basic
import Uncomment.Settings.File
import Uncomment.Proofs.Text.Utf8

/-! # Variables that a settings file reads

A placeholder asks the environment for a name. The entry of a variable is its name, an equals sign
and its value, and it answers to every name behind which it has an equals sign: to the name of the
variable, and to that name with an equals sign and a first part of the value
(`mentions_of_entryValue?`). A variable that no placeholder of a settings file mentions in one of
these ways has no influence on the settings (`SettingsFile.ofBytes_congr`). -/

namespace Uncomment

/-- The name is that of the variable, or goes on behind it with an equals sign. -/
def Placeholder.Mentions (x : String) (name : Text) : Prop :=
  name = x.toList ∨ x.toList ++ ['='] <+: name

instance (x : String) (name : Text) : Decidable (Placeholder.Mentions x name) :=
  inferInstanceAs (Decidable (_ ∨ _))

open Placeholder (Mentions)

/-! ### The environment -/

namespace Environment

/-- The environments differ in the given variable at most. -/
def EqBut (x : String) (env env' : Environment) : Prop :=
  env.filter (·.1 ≠ x) = env'.filter (·.1 ≠ x)

variable {x : String} {env env' : Environment}

theorem mentions_of_entryValue? (hx : '=' ∉ x.toList) {name : String} {data value : Bytes}
    (h : entryValue? name (x, data) = some value) : Mentions x name.toList := by
  rw [entryValue?] at h
  split at h
  · next hname =>
    rw [List.isPrefixOf_iff_prefix] at hname
    rcases List.prefix_or_prefix_of_prefix hname (List.prefix_append (opening x) data) with h | h
    · -- the name with its equals sign lies within that of the variable, which has no other
      rcases List.prefix_concat_iff.1 (Utf8.isPrefix_of_encode h) with h | h
      · exact .inl (List.append_cancel_right h)
      · exact absurd (h.subset (by simp)) hx
    · rcases List.prefix_concat_iff.1 (Utf8.isPrefix_of_encode h) with h | h
      · exact .inl (List.append_cancel_right h).symm
      · exact .inr h
  · cases h

theorem findSome?_filter (hx : '=' ∉ x.toList) {name : String} (h : ¬ Mentions x name.toList)
    (env : Environment) :
    (env.filter (·.1 ≠ x)).findSome? (entryValue? name) = env.findSome? (entryValue? name) := by
  induction env with
  | nil => rfl
  | cons v env ih =>
    obtain ⟨y, data⟩ := v
    by_cases hy : y = x
    · subst hy
      have hnone : entryValue? name (y, data) = none := by
        refine Option.eq_none_iff_forall_not_mem.2 fun value hvalue => ?_
        exact h (mentions_of_entryValue? hx hvalue)
      rw [List.filter_cons_of_neg (by simp), ih, List.findSome?_cons, hnone]
    · rw [List.filter_cons_of_pos (by simpa using hy), List.findSome?_cons, List.findSome?_cons, ih]

theorem EqBut.value?_eq (henv : env.EqBut x env') (hx : '=' ∉ x.toList) {name : String}
    (h : ¬ Mentions x name.toList) : env.value? name = env'.value? name := by
  rw [value?, value?, ← findSome?_filter hx h env, ← findSome?_filter hx h env', henv]

end Environment

/-! ### The settings file -/

/-- Only the names of the placeholders are looked up. -/
theorem Placeholder.fill_congr {f g : Text → Option Text} {t : Text}
    (h : ∀ name ∈ names t, f name = g name) : fill f t = fill g t := by
  have hundefined : ((names t).filter fun name => (f name).isNone) =
      (names t).filter fun name => (g name).isNone :=
    List.filter_congr fun name hname => by rw [h name hname]
  have hreplace : (t.replace length? fun u => (f (nameIn u)).getD []) =
      t.replace length? fun u => (g (nameIn u)).getD [] := by
    refine List.flatMap_congr fun p hp => ?_
    cases p with
    | char c => rfl
    | stretch u =>
      have hu := h (nameIn u) (List.mem_filterMap.2 ⟨_, hp, rfl⟩)
      exact congrArg (·.getD []) hu
  rw [fill, fill, hundefined, hreplace]

theorem SettingsFile.ofBytes_congr {env env' : Environment} {x : String}
    (henv : env.EqBut x env') (hx : '=' ∉ x.toList) {data : Except Fault Bytes}
    (h : ∀ t, data = .ok (Utf8.encode t) → ∀ name ∈ Placeholder.names t, ¬ Mentions x name) :
    ofBytes env data = ofBytes env' data := by
  cases data with
  | error fault => rfl
  | ok bytes =>
    rw [ofBytes, ofBytes]
    cases hdecode : Utf8.decode bytes with
    | error fault => rfl
    | ok t =>
      have ht := h t (congrArg _ (Utf8.decode_eq_ok_iff.1 hdecode))
      have hfill : Placeholder.fill (fun name => env.value? (String.ofList name)) t =
          Placeholder.fill (fun name => env'.value? (String.ofList name)) t :=
        Placeholder.fill_congr fun name hname =>
          henv.value?_eq hx (by rw [String.toList_ofList]; exact ht name hname)
      simp only [ofText, hfill]

end Uncomment
