import Mathlib.Data.List.Basic
import Uncomment.Toml.Document

/-! # Values stay

No statement of a document changes a value that an earlier one has given. Tables and arrays may
grow, so this is said of the leaves (`Value.isLeaf`) that a path through tables leads to
(`Value.at?`): `Value.Keeps` and `Table.Keeps` say that every leaf of the one is a leaf of the
other, at the same path. Each way of building tables keeps the leaves, so a statement does
(`keeps_statement?`), and so do the statements of a document together (`keeps_statements?`). -/

namespace Uncomment.Toml

/-- Neither a table nor an array. -/
def Value.isLeaf : Value → Bool
  | .array .. | .table .. => false
  | _ => true

/-- The value at the end of a path through tables. -/
def Value.at? : List Text → Value → Option Value
  | [], v => some v
  | k :: ks, .table _ t => (t.lookup k).bind (Value.at? ks)
  | _ :: _, _ => none

/-- The leaves of a value are leaves of another. -/
def Value.Keeps (x x' : Value) : Prop :=
  ∀ path leaf, leaf.isLeaf = true → x.at? path = some leaf → x'.at? path = some leaf

/-- The leaves of a table are leaves of another. -/
def Table.Keeps (t t' : Table) : Prop :=
  ∀ k x, t.lookup k = some x → ∃ x', t'.lookup k = some x' ∧ x.Keeps x'

variable {k : Text} {t t' s : Table} {x x' : Value} {o o' : Origin}

/-! ### Values and tables -/

theorem Value.Keeps.refl (x : Value) : x.Keeps x := fun _ _ _ h => h

theorem Value.Keeps.trans {x'' : Value} (h : x.Keeps x') (h' : x'.Keeps x'') : x.Keeps x'' :=
  fun path leaf hleaf hx => h' path leaf hleaf (h path leaf hleaf hx)

theorem Table.Keeps.refl (t : Table) : t.Keeps t := fun _ x hx => ⟨x, hx, .refl x⟩

theorem Table.Keeps.trans {t'' : Table} (h : t.Keeps t') (h' : t'.Keeps t'') : t.Keeps t'' := by
  intro k x hx
  obtain ⟨x', hx', hkeeps⟩ := h k x hx
  obtain ⟨x'', hx'', hkeeps'⟩ := h' k x' hx'
  exact ⟨x'', hx'', hkeeps.trans hkeeps'⟩

/-- No path of keys leads into an array. -/
theorem Value.keeps_array {ofTables : Bool} {items : List Value} :
    (Value.array ofTables items).Keeps x := by
  intro path leaf hleaf h
  cases path with
  | nil =>
    cases h
    cases hleaf
  | cons k ks => cases h

theorem Value.keeps_table (h : t.Keeps t') : (Value.table o t).Keeps (.table o' t') := by
  intro path leaf hleaf hat
  cases path with
  | nil =>
    cases hat
    cases hleaf
  | cons k ks =>
    obtain ⟨x, hx, hat⟩ := Option.bind_eq_some_iff.1 hat
    obtain ⟨x', hx', hkeeps⟩ := h k x hx
    exact Option.bind_eq_some_iff.2 ⟨x', hx', hkeeps ks leaf hleaf hat⟩

theorem Table.keeps_append : t.Keeps (t ++ s) := by
  intro k x hx
  refine ⟨x, ?_, .refl x⟩
  rw [List.lookup_append, hx]
  rfl

theorem Table.lookup_set_self (h : t.lookup k = some x) (v : Value) :
    (t.set k v).lookup k = some v := by
  induction t with
  | nil => cases h
  | cons entry t ih =>
    obtain ⟨a, y⟩ := entry
    by_cases ha : k = a
    · simp [Table.set, ha]
    · have hbeq : (k == a) = false := beq_false_of_ne ha
      rw [List.lookup_cons, hbeq] at h
      rw [Table.set, List.map_cons, if_neg (Ne.symm ha), List.lookup_cons, hbeq]
      exact ih h

theorem Table.lookup_set_of_ne {k' : Text} (hk : k' ≠ k) (t : Table) (v : Value) :
    (t.set k v).lookup k' = t.lookup k' := by
  induction t with
  | nil => rfl
  | cons entry t ih =>
    obtain ⟨a, y⟩ := entry
    rw [Table.set] at ih ⊢
    by_cases ha : a = k
    · simp [ha, List.lookup_cons, beq_false_of_ne hk, ih]
    · simp [ha, List.lookup_cons, ih]

theorem Table.keeps_set (h : t.lookup k = some x) (hx : x.Keeps x') : t.Keeps (t.set k x') := by
  intro k' y hy
  by_cases hk : k' = k
  · subst hk
    rw [h] at hy
    cases hy
    exact ⟨x', Table.lookup_set_self h x', hx⟩
  · exact ⟨y, (Table.lookup_set_of_ne hk t x').trans hy, .refl y⟩

/-! ### Building tables -/

/-- Going down a path keeps the leaves if what is done at its end does. -/
theorem keeps_underHeader {f : Table → Option Table} (hf : ∀ t t', f t = some t' → t.Keeps t')
    {path : List Text} (h : underHeader f path t = some t') : t.Keeps t' := by
  induction path generalizing t t' with
  | nil => exact hf t t' h
  | cons k ks ih =>
    rw [underHeader] at h
    -- there is nothing at the key, a table, an array of tables, or a value that is complete
    split at h
    · obtain ⟨s, -, rfl⟩ := Option.map_eq_some_iff.1 h
      exact Table.keeps_append
    · next origin s hlookup =>
      split at h
      · cases h
      · obtain ⟨s', hs, rfl⟩ := Option.map_eq_some_iff.1 h
        exact Table.keeps_set hlookup (Value.keeps_table (ih hs))
    · next items hlookup =>
      split at h
      · obtain ⟨s', -, rfl⟩ := Option.map_eq_some_iff.1 h
        exact Table.keeps_set hlookup Value.keeps_array
      · cases h
    · cases h

theorem keeps_add? {v : Value} (h : add? k v t = some t') : t.Keeps t' := by
  rw [add?] at h
  split at h
  · cases h
  · cases h
    exact Table.keeps_append

theorem keeps_insertFrom? {v : Value} {first : Bool} {ks : List Text}
    (h : insertFrom? v first o k ks t = some t') : t.Keeps t' := by
  induction ks generalizing first o k t t' with
  | nil =>
    rw [insertFrom?] at h
    split at h
    · exact keeps_add? h
    · cases h
  | cons k' ks ih =>
    rw [insertFrom?] at h
    split at h
    · obtain ⟨s, -, rfl⟩ := Option.map_eq_some_iff.1 h
      exact Table.keeps_append
    · next origin s hlookup =>
      split at h
      · cases h
      · obtain ⟨s', hs, rfl⟩ := Option.map_eq_some_iff.1 h
        exact Table.keeps_set hlookup (Value.keeps_table (ih hs))
    · next items hlookup =>
      split at h
      · obtain ⟨s', -, rfl⟩ := Option.map_eq_some_iff.1 h
        exact Table.keeps_set hlookup Value.keeps_array
      · cases h
    · cases h

theorem keeps_insert? {keys : List Text} {v : Value} (h : insert? keys v t = some t') :
    t.Keeps t' := by
  cases keys with
  | nil => cases h
  | cons k ks => exact keeps_insertFrom? h

theorem keeps_openTable? (h : openTable? k t = some t') : t.Keeps t' := by
  rw [openTable?] at h
  split at h
  · cases h
    exact Table.keeps_append
  · next s hlookup =>
    cases h
    exact Table.keeps_set hlookup (Value.keeps_table (.refl s))
  · cases h

theorem keeps_openArray? (h : openArray? k t = some t') : t.Keeps t' := by
  rw [openArray?] at h
  split at h
  · cases h
    exact Table.keeps_append
  · next items hlookup =>
    cases h
    exact Table.keeps_set hlookup Value.keeps_array
  · cases h

/-! ### Statements -/

theorem keeps_header? {st st' : State} {opening : Text → Table → Option Table} {path : List Text}
    (hopening : ∀ k t t', opening k t = some t' → t.Keeps t')
    (h : header? st opening path = some st') : st.root.Keeps st'.root := by
  rw [header?] at h
  split at h
  · cases h
  · next k _ =>
    obtain ⟨root, hroot, rfl⟩ := Option.map_eq_some_iff.1 h
    exact keeps_underHeader (hopening k) hroot

/-- One statement changes no value that is there. -/
theorem keeps_statement? {st st' : State} {u r : Text} (h : statement? st u = some (st', r)) :
    st.root.Keeps st'.root := by
  unfold statement? at h
  split at h
  all_goals simp only [Option.bind_eq_bind, Option.bind_eq_some_iff, Option.pure_def] at h
  · obtain ⟨⟨path, _⟩, -, st₁, hst, _, -, _, -, _, -, heq⟩ := h
    cases heq
    exact keeps_header? (fun _ _ _ => keeps_openArray?) hst
  · obtain ⟨⟨path, _⟩, -, st₁, hst, _, -, _, -, heq⟩ := h
    cases heq
    exact keeps_header? (fun _ _ _ => keeps_openTable?) hst
  · obtain ⟨⟨keys, _⟩, -, _, -, ⟨v, _⟩, -, root, hroot, _, -, heq⟩ := h
    cases heq
    exact keeps_underHeader (fun _ _ => keeps_insert?) hroot

/-- A value that a statement has given is a value of the whole document. -/
theorem keeps_statements? {n : Nat} {st : State} {u : Text} (h : statements? n st u = some t) :
    st.root.Keeps t := by
  induction n generalizing st u with
  | zero => cases h
  | succ n ih =>
    rw [statements?] at h
    split at h
    · cases h
    · cases h
      exact .refl _
    · obtain ⟨⟨st', r⟩, hstatement, hrest⟩ := Option.bind_eq_some_iff.1 h
      exact (keeps_statement? hstatement).trans (ih hrest)

end Uncomment.Toml
