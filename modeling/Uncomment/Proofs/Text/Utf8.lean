import Mathlib.Data.List.Flatten
import Mathlib.Data.List.Forall2
import Uncomment.Text.Utf8

/-! # Bytes and the text they stand for

The reader of UTF-8 accepts exactly the encoded texts (`decode_eq_ok_iff`). An encoded text starts
with another one only if the texts themselves do so (`isPrefix_of_encode`).

A first byte says what must follow (`lead?`): `Fits due ds` holds when the bytes `ds` lie in the
ranges that are due, and `valueOf v ds` is the value that they make of `v`. Bytes that fit behind a
first byte are the encoding of a character (`encodeChar_of_fits`), and every character is encoded
that way (`exists_fits`). What the reader has seen of a character is described by `Partial.Holds`,
which a further byte preserves (`Partial.Holds.push?`). -/

namespace Uncomment.Utf8

/-- The bytes lie in the ranges, one by one. -/
def Fits (due : List (UInt8 × UInt8)) (ds : Bytes) : Prop :=
  List.Forall₂ (fun range d => range.1 ≤ d ∧ d ≤ range.2) due ds

/-- The value of a character, from what its first bytes tell and the bytes behind them. -/
def valueOf (v : Nat) (ds : Bytes) : Nat := ds.foldl (fun v d => v * 64 + (d.toNat - 0x80)) v

theorem valueOf_nil (v : Nat) : valueOf v [] = v := rfl

theorem valueOf_cons (v : Nat) (d : UInt8) (ds : Bytes) :
    valueOf v (d :: ds) = valueOf (v * 64 + (d.toNat - 0x80)) ds := by
  rw [valueOf, List.foldl_cons, valueOf]

theorem fits_nil_iff {ds : Bytes} : Fits [] ds ↔ ds = [] := List.forall₂_nil_left_iff

theorem fits_cons_iff {low high : UInt8} {due : List (UInt8 × UInt8)} {ds : Bytes} :
    Fits ((low, high) :: due) ds ↔
      ∃ d r, (low.toNat ≤ d.toNat ∧ d.toNat ≤ high.toNat) ∧ Fits due r ∧ ds = d :: r := by
  simp only [Fits, List.forall₂_cons_left_iff, UInt8.le_iff_toNat_le]

/-! ### One character -/

/-- The cases of a first byte, told by its number. -/
theorem lead?_eq (b : UInt8) :
    lead? b =
      if b.toNat ≤ 0x7F then some (b.toNat, [])
      else if 0xC2 ≤ b.toNat ∧ b.toNat ≤ 0xDF then some (b.toNat - 0xC0, [(0x80, 0xBF)])
      else if b.toNat = 0xE0 then some (0, [(0xA0, 0xBF), (0x80, 0xBF)])
      else if b.toNat = 0xED then some (0xD, [(0x80, 0x9F), (0x80, 0xBF)])
      else if 0xE1 ≤ b.toNat ∧ b.toNat ≤ 0xEF then
        some (b.toNat - 0xE0, [(0x80, 0xBF), (0x80, 0xBF)])
      else if b.toNat = 0xF0 then some (0, [(0x90, 0xBF), (0x80, 0xBF), (0x80, 0xBF)])
      else if 0xF1 ≤ b.toNat ∧ b.toNat ≤ 0xF3 then
        some (b.toNat - 0xF0, [(0x80, 0xBF), (0x80, 0xBF), (0x80, 0xBF)])
      else if b.toNat = 0xF4 then some (4, [(0x80, 0x8F), (0x80, 0xBF), (0x80, 0xBF)])
      else none := by
  simp only [lead?, UInt8.le_iff_toNat_le, Bool.and_eq_true, decide_eq_true_eq, beq_iff_eq,
    ← UInt8.toNat_inj, UInt8.reduceToNat]

theorem toNat_ofNat {n : Nat} (h : n.isValidChar) : (Char.ofNat n).toNat = n := by
  rw [Char.ofNat, dif_pos h]
  rfl

theorem ofNat_eq {n : Nat} {b : UInt8} (h : n = b.toNat) : UInt8.ofNat n = b := by
  rw [h, UInt8.ofNat_toNat]

theorem encodeChar_one {n : Nat} {b : UInt8} (hn : n ≤ 0x7F) (hb : n = b.toNat) :
    String.utf8EncodeChar (Char.ofNat n) = [b] := by
  rw [String.utf8EncodeChar, Char.toNat_val, toNat_ofNat (.inl (by omega)), if_pos hn, ofNat_eq hb]

theorem encodeChar_two {n : Nat} {b d : UInt8} (hlow : 0x7F < n) (hn : n ≤ 0x7FF)
    (hb : n / 64 + 0xC0 = b.toNat) (hd : n % 64 + 0x80 = d.toNat) :
    String.utf8EncodeChar (Char.ofNat n) = [b, d] := by
  rw [String.utf8EncodeChar, Char.toNat_val, toNat_ofNat (.inl (by omega)), if_neg (by omega),
    if_pos hn, ofNat_eq (b := b) (by omega), ofNat_eq hd]

theorem encodeChar_three {n : Nat} {b d e : UInt8} (hlow : 0x7FF < n) (hn : n ≤ 0xFFFF)
    (hsurrogate : n < 0xD800 ∨ 0xDFFF < n) (hb : n / 4096 + 0xE0 = b.toNat)
    (hd : n / 64 % 64 + 0x80 = d.toNat) (he : n % 64 + 0x80 = e.toNat) :
    String.utf8EncodeChar (Char.ofNat n) = [b, d, e] := by
  rw [String.utf8EncodeChar, Char.toNat_val, toNat_ofNat (hsurrogate.imp id (⟨·, by omega⟩)),
    if_neg (by omega), if_neg (by omega), if_pos hn, ofNat_eq (b := b) (by omega), ofNat_eq hd,
    ofNat_eq he]

theorem encodeChar_four {n : Nat} {b d e f : UInt8} (hlow : 0xFFFF < n) (hn : n < 0x110000)
    (hb : n / 262144 + 0xF0 = b.toNat) (hd : n / 4096 % 64 + 0x80 = d.toNat)
    (he : n / 64 % 64 + 0x80 = e.toNat) (hf : n % 64 + 0x80 = f.toNat) :
    String.utf8EncodeChar (Char.ofNat n) = [b, d, e, f] := by
  rw [String.utf8EncodeChar, Char.toNat_val, toNat_ofNat (.inr ⟨by omega, hn⟩), if_neg (by omega),
    if_neg (by omega), if_neg (by omega), ofNat_eq (b := b) (by omega), ofNat_eq hd, ofNat_eq he,
    ofNat_eq hf]

/-- Bytes that fit behind a first byte are, with it, the encoding of a character. -/
theorem encodeChar_of_fits {b : UInt8} {ds : Bytes} {v : Nat} {due : List (UInt8 × UInt8)}
    (hlead : lead? b = some (v, due)) (hds : Fits due ds) :
    String.utf8EncodeChar (Char.ofNat (valueOf v ds)) = b :: ds := by
  rw [lead?_eq] at hlead
  repeat' split at hlead
  all_goals simp only [Option.some.injEq, Prod.mk.injEq, reduceCtorEq] at hlead
  all_goals obtain ⟨rfl, rfl⟩ := hlead
  all_goals simp only [fits_cons_iff, fits_nil_iff, UInt8.reduceToNat] at hds
  · subst hds
    exact encodeChar_one ‹_› rfl
  · obtain ⟨d, -, hd, rfl, rfl⟩ := hds
    simp only [valueOf_cons, valueOf_nil]
    apply encodeChar_two <;> omega
  -- three bytes: the first is `E0`, `ED` or another one
  iterate 3
    obtain ⟨d, -, hd, ⟨e, -, he, rfl, rfl⟩, rfl⟩ := hds
    simp only [valueOf_cons, valueOf_nil]
    apply encodeChar_three <;> omega
  -- four bytes: the first is `F0`, between the two, or `F4`
  iterate 3
    obtain ⟨d, -, hd, ⟨e, -, he, ⟨f, -, hf, rfl, rfl⟩, rfl⟩, rfl⟩ := hds
    simp only [valueOf_cons, valueOf_nil]
    apply encodeChar_four <;> omega

/-- A byte behind the first one of a character, with six bits of its value. -/
def tail (n : Nat) : UInt8 := UInt8.ofNat (n % 64 + 0x80)

theorem toNat_ofNat_of_lt {n : Nat} (h : n < 256) : (UInt8.ofNat n).toNat = n := by
  rw [UInt8.toNat_ofNat']
  omega

theorem toNat_tail (n : Nat) : (tail n).toNat = n % 64 + 0x80 := toNat_ofNat_of_lt (by omega)

theorem Fits.tail {low high : UInt8} {n : Nat} {due : List (UInt8 × UInt8)} {ds : Bytes}
    (hn : low.toNat ≤ n % 64 + 0x80 ∧ n % 64 + 0x80 ≤ high.toNat) (h : Fits due ds) :
    Fits ((low, high) :: due) (tail n :: ds) := by
  refine List.Forall₂.cons ?_ h
  rwa [UInt8.le_iff_toNat_le, UInt8.le_iff_toNat_le, toNat_tail]

/-- Every character has a first byte and bytes that fit behind it. -/
theorem exists_fits (c : Char) :
    ∃ b ds v due, lead? b = some (v, due) ∧ Fits due ds ∧ valueOf v ds = c.toNat := by
  have hvalid : c.toNat < 0xD800 ∨ 0xDFFF < c.toNat ∧ c.toNat < 0x110000 := c.valid
  generalize c.toNat = n at hvalid
  have htail (n : Nat) : Fits [(0x80, 0xBF)] [tail n] :=
    .tail (by simp only [UInt8.reduceToNat]; omega) .nil
  by_cases h1 : n ≤ 0x7F
  · have hb := toNat_ofNat_of_lt (n := n) (by omega)
    refine ⟨UInt8.ofNat n, [], n, [], ?_, .nil, rfl⟩
    rw [lead?_eq, hb, if_pos h1]
  by_cases h2 : n ≤ 0x7FF
  · have hb := toNat_ofNat_of_lt (n := n / 64 + 0xC0) (by omega)
    have hlead := lead?_eq (UInt8.ofNat (n / 64 + 0xC0))
    rw [hb, if_neg (by omega), if_pos (by omega)] at hlead
    refine ⟨_, [tail n], _, _, hlead, htail n, ?_⟩
    simp only [valueOf_cons, valueOf_nil, toNat_tail]
    omega
  by_cases h3 : n ≤ 0xFFFF
  · have hb := toNat_ofNat_of_lt (n := n / 4096 + 0xE0) (by omega)
    have hlead := lead?_eq (UInt8.ofNat (n / 4096 + 0xE0))
    rw [hb, if_neg (by omega), if_neg (by omega)] at hlead
    -- the first byte is `E0`, `ED` or another one
    split at hlead <;> [skip; split at hlead <;> [skip; rw [if_pos (by omega)] at hlead]]
    all_goals
      refine ⟨_, [tail (n / 64), tail n], _, _, hlead, .tail ?_ (htail n), ?_⟩
      · simp only [UInt8.reduceToNat]
        omega
      · simp only [valueOf_cons, valueOf_nil, toNat_tail]
        omega
  · have hb := toNat_ofNat_of_lt (n := n / 262144 + 0xF0) (by omega)
    have hlead := lead?_eq (UInt8.ofNat (n / 262144 + 0xF0))
    rw [hb, if_neg (by omega), if_neg (by omega), if_neg (by omega), if_neg (by omega),
      if_neg (by omega)] at hlead
    -- the first byte is `F0`, between the two, or `F4`
    split at hlead <;> [skip; split at hlead <;> [skip; rw [if_pos (by omega)] at hlead]]
    all_goals
      refine ⟨_, [tail (n / 4096), tail (n / 64), tail n], _, _, hlead,
        .tail ?_ (.tail ?_ (htail n)), ?_⟩
      · simp only [UInt8.reduceToNat]
        omega
      · simp only [UInt8.reduceToNat]
        omega
      · simp only [valueOf_cons, valueOf_nil, toNat_tail]
        omega

/-! ### The reader -/

@[simp] theorem encode_cons (c : Char) (t : Text) :
    encode (c :: t) = String.utf8EncodeChar c ++ encode t := List.flatMap_cons

theorem length_encode (t : Text) : (encode t).length = size t := rfl

theorem size_append (s t : Text) : size (s ++ t) = size s + size t := by
  rw [size, encode, List.flatMap_append, List.length_append]
  rfl

theorem size_le_of_sublist {s t : Text} (h : List.Sublist s t) : size s ≤ size t :=
  (h.flatMap String.utf8EncodeChar).length_le

/-- What the bytes `pre` tell about the character that the reader is in: nothing, between two
characters; else, that they are the start of every character whose further bytes fit. -/
inductive Partial.Holds : Partial → Bytes → Prop
  | fresh (start : Nat) : Holds (.fresh start) []
  | within {p : Partial} {pre : Bytes} (due : p.due ≠ []) (width : p.width ≠ 0)
    (encodeChar : ∀ ds, Fits p.due ds →
      String.utf8EncodeChar (Char.ofNat (valueOf p.value ds)) = pre ++ ds) : Holds p pre

/-- A further byte is one more byte of the same character. -/
theorem Partial.Holds.push? {p q : Partial} {pre : Bytes} {b : UInt8} (hp : p.Holds pre)
    (hq : p.push? b = some q) :
    q.width ≠ 0 ∧ ∀ ds, Fits q.due ds →
      String.utf8EncodeChar (Char.ofNat (valueOf q.value ds)) = (pre ++ [b]) ++ ds := by
  cases hp with
  | fresh start =>
    obtain ⟨⟨v, due⟩, hlead, rfl⟩ := Option.map_eq_some_iff.1 hq
    exact ⟨Nat.one_ne_zero, fun ds hds => encodeChar_of_fits hlead hds⟩
  | within hdue _ hencode =>
    obtain ⟨⟨low, high⟩, due, h⟩ := List.exists_cons_of_ne_nil hdue
    rw [Partial.push?, h] at hq
    dsimp only at hq
    split at hq
    · next hb =>
      cases hq
      refine ⟨Nat.succ_ne_zero _, fun ds hds => ?_⟩
      have hfits : Fits p.due (b :: ds) := by
        rw [h]
        exact .cons (by simpa using hb) hds
      rw [← valueOf_cons, hencode _ hfits]
      simp
    · cases hq

theorem eq_encode_of_decodeFrom {p : Partial} {pre bytes : Bytes} {t : Text} (hp : p.Holds pre)
    (h : decodeFrom p bytes = .ok t) : pre ++ bytes = encode t := by
  induction bytes generalizing p pre t with
  | nil =>
    cases hp with
    | fresh start =>
      cases h
      rfl
    | within _ hwidth _ =>
      rw [decodeFrom, if_neg hwidth] at h
      cases h
  | cons b r ih =>
    rw [decodeFrom] at h
    split at h
    · cases h
    · next q hq =>
      obtain ⟨hwidth, hencode⟩ := hp.push? hq
      split at h
      · next hdue =>
        -- the character is complete
        have hfits : Fits q.due [] := by
          rw [List.isEmpty_iff.1 hdue]
          exact .nil
        have hchar := hencode [] hfits
        rw [valueOf_nil, List.append_nil] at hchar
        cases hr : decodeFrom (.fresh (q.start + q.width)) r with
        | error e =>
          rw [hr] at h
          cases h
        | ok t' =>
          rw [hr] at h
          cases h
          rw [encode_cons, ← ih (.fresh _) hr, hchar]
          simp
      · next hdue =>
        have hwithin := Partial.Holds.within (mt List.isEmpty_iff.2 hdue) hwidth hencode
        rw [← ih hwithin h]
        simp

/-- Bytes that fit are read to the end of the character. -/
theorem decodeFrom_append {p : Partial} {ds : Bytes} (hdue : p.due ≠ []) (hds : Fits p.due ds)
    (r : Bytes) :
    decodeFrom p (ds ++ r) = (decodeFrom (.fresh (p.start + p.width + ds.length)) r).map
      (Char.ofNat (valueOf p.value ds) :: ·) := by
  induction ds generalizing p with
  | nil =>
    have := List.forall₂_nil_right_iff.1 hds
    contradiction
  | cons d ds ih =>
    obtain ⟨⟨low, high⟩, due, hd, hds', h⟩ := List.forall₂_cons_right_iff.1 hds
    have hq : p.push? d = some { p with
        width := p.width + 1, value := p.value * 64 + (d.toNat - 0x80), due } := by
      rw [Partial.push?, h]
      exact if_pos (by simpa using hd)
    rw [List.cons_append, decodeFrom, hq]
    dsimp only
    split
    · next hdue =>
      rw [List.isEmpty_iff.1 hdue] at hds'
      rw [fits_nil_iff.1 hds']
      rfl
    · next hdue =>
      rw [ih (p := { p with
        width := p.width + 1, value := p.value * 64 + (d.toNat - 0x80), due })
        (mt List.isEmpty_iff.2 hdue) hds']
      simp only [List.length_cons, valueOf_cons]
      congr 3
      omega

/-- Behind an encoded character the reader goes on with the rest. -/
theorem decodeFrom_encodeChar_append (start : Nat) (c : Char) (r : Bytes) :
    decodeFrom (.fresh start) (String.utf8EncodeChar c ++ r) =
      (decodeFrom (.fresh (start + (String.utf8EncodeChar c).length)) r).map (c :: ·) := by
  obtain ⟨b, ds, v, due, hlead, hds, hvalue⟩ := exists_fits c
  have hchar : Char.ofNat (valueOf v ds) = c := by rw [hvalue, Char.ofNat_toNat]
  rw [← hchar, encodeChar_of_fits hlead hds, List.cons_append, decodeFrom, Partial.push?]
  simp only [Partial.fresh, hlead, Option.map_some]
  split
  · next hdue =>
    rw [List.isEmpty_iff.1 hdue] at hds
    rw [fits_nil_iff.1 hds]
    rfl
  · next hdue =>
    rw [decodeFrom_append (mt List.isEmpty_iff.2 hdue) hds]
    simp only [Partial.fresh, List.length_cons]
    congr 3
    omega

theorem decodeFrom_encode (start : Nat) (t : Text) :
    decodeFrom (.fresh start) (encode t) = .ok t := by
  induction t generalizing start with
  | nil => rfl
  | cons c t ih =>
    rw [encode_cons, decodeFrom_encodeChar_append, ih]
    rfl

theorem decode_encode (t : Text) : decode (encode t) = .ok t := decodeFrom_encode 0 t

theorem encode_injective : Function.Injective encode := by
  intro s t h
  have hs := decode_encode s
  rw [h, decode_encode] at hs
  exact (Except.ok.inj hs).symm

/-- Bytes can be read exactly when they encode a text, and it is that text which is read. -/
theorem decode_eq_ok_iff {bytes : Bytes} {t : Text} : decode bytes = .ok t ↔ bytes = encode t := by
  constructor
  · intro h
    exact eq_encode_of_decodeFrom (.fresh 0) h
  · rintro rfl
    exact decode_encode t

theorem isPrefix_of_decodeFrom {start : Nat} {s t : Text} {r : Bytes}
    (h : decodeFrom (.fresh start) (encode s ++ r) = .ok t) : s <+: t := by
  induction s generalizing start t with
  | nil => exact List.nil_prefix
  | cons c s ih =>
    rw [encode_cons, List.append_assoc, decodeFrom_encodeChar_append] at h
    cases hr : decodeFrom (.fresh (start + (String.utf8EncodeChar c).length)) (encode s ++ r) with
    | error e =>
      rw [hr] at h
      cases h
    | ok t' =>
      rw [hr] at h
      cases h
      exact (List.prefix_cons_inj c).2 (ih hr)

/-- No encoded text ends within a character of another one that it starts. -/
theorem isPrefix_of_encode {s t : Text} (h : encode s <+: encode t) : s <+: t := by
  obtain ⟨r, hr⟩ := h
  exact isPrefix_of_decodeFrom (hr ▸ decode_encode t)

end Uncomment.Utf8
