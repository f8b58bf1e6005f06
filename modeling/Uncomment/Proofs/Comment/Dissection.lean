import Uncomment.Proofs.Strip.Basic

/-! # Texts taken apart at their blocks

A `Dissection` cuts a text into blocks and what stands around them. It is `LeftmostShortest` if
every block starts with the first opening mark that is left, ends with the first closing mark behind
that, and no block is left behind the last one.

Which text has which dissection is said without the scanner. Every text has exactly one
(`exists_leftmostShortest`, `LeftmostShortest.unique`), because what is first in a text is first in
one place (`OnlyAtEnd.append_inj`). The scanner finds it: it removes the blocks of the dissection
and counts them (`LeftmostShortest.scan`), and so the bodies of blocks have no part in a result
(`existsUnique_dissection`). -/

namespace Uncomment

namespace Text

variable {m x : Text}

/-- In `x ++ m` the mark `m` stands at the very end and nowhere before. -/
def OnlyAtEnd (m x : Text) : Prop := ∀ u v, x ++ m = u ++ m ++ v → v = []

theorem onlyAtEnd_nil (m : Text) : OnlyAtEnd m [] := by
  intro u v h
  have hlen := congrArg List.length h
  simp only [List.nil_append, List.length_append] at hlen
  exact List.length_eq_zero_iff.1 (by omega)

theorem onlyAtEnd_cons_iff {d : Char} :
    OnlyAtEnd m (d :: x) ↔ ¬ m <+: d :: (x ++ m) ∧ OnlyAtEnd m x := by
  constructor
  · intro h
    refine ⟨?_, fun u v huv => h (d :: u) v (by simp [huv])⟩
    rintro ⟨v, hv⟩
    have hnil := h [] v hv.symm
    have hlen := congrArg List.length hv
    simp only [hnil, List.length_append, List.length_cons, List.length_nil] at hlen
    omega
  · rintro ⟨hpre, hx⟩ u v huv
    cases u with
    | nil => exact absurd ⟨v, huv.symm⟩ hpre
    | cons e u => exact hx u v (List.cons.inj huv).2

instance decidableOnlyAtEnd (m : Text) : (x : Text) → Decidable (OnlyAtEnd m x)
  | [] => isTrue (onlyAtEnd_nil m)
  | _ :: x =>
    have := decidableOnlyAtEnd m x
    decidable_of_iff _ onlyAtEnd_cons_iff.symm

/-- A mark that stands anywhere in a text stands first somewhere. -/
theorem exists_onlyAtEnd {t : Text} (h : m <:+: t) :
    ∃ x y, t = x ++ m ++ y ∧ OnlyAtEnd m x := by
  induction t with
  | nil =>
    refine ⟨[], [], ?_, onlyAtEnd_nil m⟩
    rw [List.infix_nil.1 h]
    rfl
  | cons d r ih =>
    by_cases hpre : m <+: d :: r
    · obtain ⟨y, hy⟩ := hpre
      exact ⟨[], y, hy.symm, onlyAtEnd_nil m⟩
    · obtain ⟨x, y, rfl, hx⟩ := ih ((List.infix_cons_iff.1 h).resolve_left hpre)
      refine ⟨d :: x, y, rfl, onlyAtEnd_cons_iff.2 ⟨fun hpre' => hpre ?_, hx⟩⟩
      exact hpre'.trans (List.prefix_append (d :: (x ++ m)) y)

/-- No copy of a mark stands before the first. -/
theorem OnlyAtEnd.length_le (hx : OnlyAtEnd m x) {x' y y' : Text}
    (h : x ++ m ++ y = x' ++ m ++ y') : x.length ≤ x'.length := by
  by_contra hlt
  have hle : (x' ++ m).length ≤ (x ++ m).length := by
    simp only [List.length_append]
    omega
  have hpre : x' ++ m <+: x ++ m ++ y := ⟨y', h.symm⟩
  obtain ⟨v, hv⟩ := List.prefix_of_prefix_length_le hpre (List.prefix_append ..) hle
  have hlen := congrArg List.length hv
  simp only [hx x' v hv.symm, List.length_append, List.length_nil] at hlen
  omega

theorem OnlyAtEnd.append_inj {x' y y' : Text} (hx : OnlyAtEnd m x) (hx' : OnlyAtEnd m x')
    (h : x ++ m ++ y = x' ++ m ++ y') : x = x' ∧ y = y' := by
  have hlen : x.length = x'.length := Nat.le_antisymm (hx.length_le h) (hx'.length_le h.symm)
  rw [List.append_assoc, List.append_assoc] at h
  obtain ⟨rfl, hy⟩ := List.append_inj h hlen
  exact ⟨rfl, List.append_cancel_left hy⟩

theorem OnlyAtEnd.not_isPrefix {d : Char} (h : OnlyAtEnd m (d :: x)) (y : Text) :
    ¬ m <+: d :: (x ++ m ++ y) := by
  intro hpre
  have hle : m.length ≤ (d :: (x ++ m)).length := by
    simp only [List.length_cons, List.length_append]
    omega
  have hpre' := List.prefix_of_prefix_length_le hpre (List.prefix_append (d :: (x ++ m)) y) hle
  exact (onlyAtEnd_cons_iff.1 h).1 hpre'

theorem OnlyAtEnd.endOf?_eq (hx : OnlyAtEnd m x) (y : Text) :
    endOf? m (x ++ m ++ y) = some (x.length + m.length) := by
  induction x with
  | nil =>
    rw [List.nil_append, List.length_nil, Nat.zero_add]
    cases h : m ++ y with
    | nil =>
      rw [(List.append_eq_nil_iff.1 h).1]
      rfl
    | cons d r => rw [endOf?, if_pos (List.isPrefixOf_iff_prefix.2 ⟨y, h⟩)]
  | cons d x ih =>
    have hpre : ¬ m.isPrefixOf (d :: (x ++ m ++ y)) = true := fun h =>
      hx.not_isPrefix y (List.isPrefixOf_iff_prefix.1 h)
    rw [List.cons_append, List.cons_append, endOf?, if_neg hpre, ih (onlyAtEnd_cons_iff.1 hx).2,
      Option.map_some, List.length_cons, Nat.add_right_comm]

end Text

namespace Comment

open Text

/-- A block, by its body, with what stands before it. -/
structure Block where
  before : Text
  body : Text
  deriving DecidableEq, Repr

/-- A text taken apart: its blocks, and what stands behind the last of them. -/
structure Dissection where
  blocks : List Block
  rest : Text
  deriving DecidableEq, Repr

namespace Dissection

/-- The text that was taken apart, if `o` and `c` are the marks of its blocks. -/
def text (o c : Text) (d : Dissection) : Text :=
  d.blocks.flatMap (fun b => b.before ++ o ++ b.body ++ c) ++ d.rest

/-- What stands around the blocks. -/
def gaps (d : Dissection) : Text := d.blocks.flatMap Block.before ++ d.rest

/-- Read from left to right, every block is the first that starts and ends as soon as it can, and
none is left behind the last. -/
structure LeftmostShortest (o c : Text) (d : Dissection) : Prop where
  before : ∀ b ∈ d.blocks, OnlyAtEnd o b.before
  body : ∀ b ∈ d.blocks, OnlyAtEnd c b.body
  rest : ¬ HasBlock o c d.rest

variable {o c r : Text} {b : Block} {bs : List Block}

@[simp] theorem text_nil : text o c ⟨[], r⟩ = r := rfl

@[simp] theorem text_cons :
    text o c ⟨b :: bs, r⟩ = b.before ++ o ++ (b.body ++ c ++ text o c ⟨bs, r⟩) := by
  simp [text]

@[simp] theorem gaps_cons : gaps ⟨b :: bs, r⟩ = b.before ++ gaps ⟨bs, r⟩ := by
  simp [gaps]

theorem leftmostShortest_cons_iff :
    LeftmostShortest o c ⟨b :: bs, r⟩ ↔
      OnlyAtEnd o b.before ∧ OnlyAtEnd c b.body ∧ LeftmostShortest o c ⟨bs, r⟩ := by
  constructor
  · intro h
    obtain ⟨hbefore, hbefore'⟩ := List.forall_mem_cons.1 h.before
    obtain ⟨hbody, hbody'⟩ := List.forall_mem_cons.1 h.body
    exact ⟨hbefore, hbody, hbefore', hbody', h.rest⟩
  · rintro ⟨hbefore, hbody, h⟩
    exact ⟨List.forall_mem_cons.2 ⟨hbefore, h.before⟩, List.forall_mem_cons.2 ⟨hbody, h.body⟩,
      h.rest⟩

theorem hasBlock_text_cons : HasBlock o c (text o c ⟨b :: bs, r⟩) :=
  ⟨b.before, b.body, text o c ⟨bs, r⟩, by simp⟩

/-! ### Existence and uniqueness -/

theorem LeftmostShortest.unique {d d' : Dissection} (h : d.LeftmostShortest o c)
    (h' : d'.LeftmostShortest o c) (heq : d.text o c = d'.text o c) : d = d' := by
  obtain ⟨bs, r⟩ := d
  obtain ⟨bs', r'⟩ := d'
  induction bs generalizing bs' with
  | nil =>
    cases bs' with
    | nil => rw [text_nil, text_nil] at heq; rw [heq]
    | cons b' bs' =>
      rw [text_nil] at heq
      exact absurd (heq ▸ hasBlock_text_cons) h.rest
  | cons b bs ih =>
    cases bs' with
    | nil =>
      rw [text_nil] at heq
      exact absurd (heq ▸ hasBlock_text_cons) h'.rest
    | cons b' bs' =>
      obtain ⟨hbefore, hbody, hbs⟩ := leftmostShortest_cons_iff.1 h
      obtain ⟨hbefore', hbody', hbs'⟩ := leftmostShortest_cons_iff.1 h'
      rw [text_cons, text_cons] at heq
      -- the first opening mark is the same, and then the first closing mark behind it
      obtain ⟨hb, heq⟩ := hbefore.append_inj hbefore' heq
      obtain ⟨hb', htail⟩ := hbody.append_inj hbody' heq
      have hhead : b = b' := by
        cases b
        cases b'
        cases hb
        cases hb'
        rfl
      cases ih hbs bs' hbs' htail
      rw [hhead]

/-- Behind the first opening mark there is a closing mark, if there is a block at all. -/
theorem isInfix_of_hasBlock {x y : Text} (hx : OnlyAtEnd o x) (h : HasBlock o c (x ++ o ++ y)) :
    c <:+: y := by
  obtain ⟨u, v, z, huvz⟩ := h
  have hle : x.length ≤ u.length :=
    hx.length_le (huvz.trans (by rw [List.append_assoc, List.append_assoc (u ++ o)]))
  have hxpre : x <+: x ++ o ++ y := ⟨o ++ y, by simp⟩
  have hupre : u <+: x ++ o ++ y := ⟨o ++ v ++ c ++ z, by simp [huvz]⟩
  obtain ⟨w, rfl⟩ := List.prefix_of_prefix_length_le hxpre hupre hle
  have hcancel : x ++ (o ++ y) = x ++ (w ++ o ++ v ++ c ++ z) := by simpa using huvz
  have hblock : HasBlock o c (o ++ y) := ⟨w, v, z, List.append_cancel_left hcancel⟩
  by_contra hc
  exact not_hasBlock_append hc hblock

theorem exists_leftmostShortest (ho : o ≠ []) (t : Text) :
    ∃ d : Dissection, d.LeftmostShortest o c ∧ d.text o c = t := by
  induction hn : t.length using Nat.strongRecOn generalizing t with
  | ind n ih =>
    by_cases h : HasBlock o c t
    · obtain ⟨x, y, rfl, hx⟩ := exists_onlyAtEnd h.isInfix
      obtain ⟨body, s, rfl, hbody⟩ := exists_onlyAtEnd (isInfix_of_hasBlock hx h)
      have hlt : s.length < n := by
        have := List.length_pos_iff.2 ho
        simp only [List.length_append] at hn
        omega
      obtain ⟨⟨bs, r⟩, hd, hs⟩ := ih s.length hlt s rfl
      refine ⟨⟨⟨x, body⟩ :: bs, r⟩, leftmostShortest_cons_iff.2 ⟨hx, hbody, hd⟩, ?_⟩
      rw [text_cons, hs]
    · exact ⟨⟨[], t⟩, ⟨nofun, nofun, h⟩, rfl⟩

/-! ### What the scanner finds -/

/-- Up to the first opening mark nothing is found, and there the block up to the first closing
mark. -/
theorem scan_block (ho : Solid o) {x body : Text} (hx : OnlyAtEnd o x) (hbody : OnlyAtEnd c body)
    (y : Text) :
    removeBlocks o c (x ++ o ++ (body ++ c ++ y)) = x ++ removeBlocks o c y ∧
      countBlocks o c (x ++ o ++ (body ++ c ++ y)) = countBlocks o c y + 1 := by
  induction x with
  | nil =>
    have hsome : blockLength? o c (o ++ (body ++ c ++ y)) =
        some (o.length + (body.length + c.length)) := by
      rw [blockLength?, if_pos (List.isPrefixOf_iff_prefix.2 (List.prefix_append ..)),
        List.drop_left, hbody.endOf?_eq]
      rfl
    have hdrop : (o ++ (body ++ c ++ y)).drop (o.length + (body.length + c.length)) = y := by
      rw [List.drop_append, ← List.length_append]
      simp
    rw [List.nil_append, removeBlocks_of_some ho hsome, countBlocks_of_some ho hsome, hdrop]
    exact ⟨rfl, rfl⟩
  | cons d x ih =>
    obtain ⟨hremove, hcount⟩ := ih (onlyAtEnd_cons_iff.1 hx).2
    have hnone : blockLength? o c (d :: (x ++ o ++ (body ++ c ++ y))) = none := by
      rw [blockLength?, if_neg]
      intro h
      exact hx.not_isPrefix _ (List.isPrefixOf_iff_prefix.1 h)
    rw [List.cons_append, List.cons_append, removeBlocks_cons hnone, countBlocks_cons hnone,
      hremove, hcount]
    exact ⟨rfl, rfl⟩

theorem LeftmostShortest.scan (ho : Solid o) {d : Dissection} (h : d.LeftmostShortest o c) :
    removeBlocks o c (d.text o c) = d.gaps ∧ countBlocks o c (d.text o c) = d.blocks.length := by
  obtain ⟨bs, r⟩ := d
  induction bs with
  | nil =>
    have hcount : countBlocks o c r = 0 := (countBlocks_eq_zero_iff ho).2 h.rest
    exact ⟨removeBlocks_eq_self ho hcount, hcount⟩
  | cons b bs ih =>
    obtain ⟨hbefore, hbody, hbs⟩ := leftmostShortest_cons_iff.1 h
    obtain ⟨hremove, hcount⟩ := scan_block ho hbefore hbody (text o c ⟨bs, r⟩)
    rw [text_cons, hremove, hcount, (ih hbs).1, (ih hbs).2, gaps_cons]
    exact ⟨rfl, rfl⟩

end Dissection

end Comment

open Text Comment

/-- **Block removal is leftmost and shortest.** Every text has exactly one dissection. What stands
around its blocks is what the line reader gets to see, the number of its blocks is the counter, and
another text with the same around its blocks comes out the same. -/
theorem existsUnique_dissection {l : Language} {o c : Text} (hl : l.rules.block? = some (o, c))
    (t : Text) :
    (∃! d : Dissection, d.LeftmostShortest o c ∧ d.text o c = t) ∧
      ∀ d : Dissection, d.LeftmostShortest o c → d.text o c = t →
        withoutBlocks l.rules t = d.gaps ∧
        (strip l t).stats.blockComments = d.blocks.length ∧
        ∀ d' : Dissection, d'.LeftmostShortest o c → d'.gaps = d.gaps →
          (strip l (d'.text o c)).text = (strip l t).text := by
  have ho : Solid o := (l.rules_wellSpelled.block? (o, c) hl).1
  constructor
  · obtain ⟨d, hd, hdt⟩ := Dissection.exists_leftmostShortest (c := c) ho.ne_nil t
    refine ⟨d, ⟨hd, hdt⟩, ?_⟩
    rintro d' ⟨hd', hdt'⟩
    exact hd'.unique hd (hdt'.trans hdt.symm)
  · rintro d hd rfl
    obtain ⟨hremove, hcount⟩ := hd.scan ho
    refine ⟨?_, ?_, fun d' hd' hgaps => ?_⟩
    · rw [withoutBlocks_of_block? hl, hremove]
    · change blockCount l.rules (d.text o c) = _
      rw [blockCount, hl, ← hcount]
    · have hsame : withoutBlocks l.rules (d'.text o c) = withoutBlocks l.rules (d.text o c) := by
        rw [withoutBlocks_of_block? hl, withoutBlocks_of_block? hl, (hd'.scan ho).1, hremove, hgaps]
      rw [text_strip, text_strip, readSource, readSource, hsame]

/-- In `/*/a*/b/*` the first opening mark does not close itself, and nothing closes the second. -/
theorem existsUnique_dissection_overlap :
    let d : Dissection := ⟨[⟨[], ['/', 'a']⟩], ['b', '/', '*']⟩
    let t : Text := "/*/a*/b/*".toList
    d.LeftmostShortest ['/', '*'] ['*', '/'] ∧ d.text ['/', '*'] ['*', '/'] = t ∧
      withoutBlocks .slashes t = ['b', '/', '*'] ∧ (strip .javascript t).stats.blockComments = 1 ∧
      (strip .javascript "/**/b/*".toList).text = (strip .javascript t).text := by
  intro d t
  have hrest : ¬ HasBlock ['/', '*'] ['*', '/'] ['b', '/', '*'] :=
    (countBlocks_eq_zero_iff (by decide)).1 (by decide)
  have hd : d.LeftmostShortest ['/', '*'] ['*', '/'] := ⟨by decide, by decide, hrest⟩
  have ht : d.text ['/', '*'] ['*', '/'] = t := by decide
  obtain ⟨hgaps, hcount, hsame⟩ := (existsUnique_dissection (l := .javascript) rfl t).2 d hd ht
  exact ⟨hd, ht, hgaps, hcount,
    hsame ⟨[⟨[], []⟩], ['b', '/', '*']⟩ ⟨by decide, by decide, hrest⟩ rfl⟩

end Uncomment
