import Switchboard.Wire.MsgPack.Printer
import Switchboard.Wire.MsgPack.Reader

/-!
# MsgPack Items

What is written of a tree is read as the same tree, whatever bytes follow it.

Three things can keep a tree from coming back. Some trees have no bytes of
their own: `crude` and `unusable` exist only to be refused, and a number that
is not negative is always written without a sign, so as a signed number it
would come back as another tree. `Regular` excludes these. A number without
sign may have more than 64 bits, which `Words` excludes, and a length more than
32, which `Fits` excludes. They are apart because the first is a matter of
which trees a program makes, the second of what it puts into them, and the
third of this encoding alone.

The bytes of an item do not say where they end except by their own headers, so
the law is about bytes with a rest behind them. Reading is also bounded by
levels, and `height_le_length_bytes` says that there are always enough: the
reader allows for as many levels as there are bytes, and every level of a tree
takes at least one.

## Main definitions

* `Node.Regular`: Trees that have bytes of their own.
* `Node.Words`: Trees whose numbers are not too large.
* `MsgPack.Fits`: Trees whose lengths are not too large.

## Theorems

* `decodeUtf8?_encodeUtf8`: Octets of a text spell it.
* `natOf_bigEndian`, `intOf_bigEndian`: Numbers of a fixed width.
* `header_eq`: The header of a length is one of four.
* `readNode?_bytes`: An item is read off the front of its bytes and others.
* `read?_bytes`: What is written is read.
-/

namespace Switchboard.Wire

theorem decodeUtf8?_encodeUtf8 (s : String) : decodeUtf8? (encodeUtf8 s) = some s := by
  have hbytes : (⟨(encodeUtf8 s).toArray⟩ : ByteArray) = s.toByteArray := by
    simp only [encodeUtf8, String.toUTF8, Array.toArray_toList]
  rw [decodeUtf8?, hbytes, String.fromUTF8?, dif_pos s.isValidUTF8]
  rfl

namespace Node

mutual

/-- Trees that are written as themselves: nothing in them is malformed or
    unusable, and signed numbers are negative and have at most 64 bits. -/
def Regular : Node → Prop
  | .integer n => -0x8000000000000000 ≤ n ∧ n < 0
  | .crude _ => False
  | .unusable => False
  | .array items => RegularItems items
  | .object entries => RegularEntries entries
  | _ => True

/-- Several regular trees. -/
def RegularItems : List Node → Prop
  | [] => True
  | n :: ns => Regular n ∧ RegularItems ns

/-- Entries whose keys and values are regular. -/
def RegularEntries : List (Node × Node) → Prop
  | [] => True
  | (key, n) :: rest => Regular key ∧ Regular n ∧ RegularEntries rest

end

mutual

/-- Trees whose numbers without sign have at most 64 bits. -/
def Words : Node → Prop
  | .natural n => n < 0x10000000000000000
  | .array items => WordsInItems items
  | .object entries => WordsInEntries entries
  | _ => True

/-- Several trees whose numbers have at most 64 bits. -/
def WordsInItems : List Node → Prop
  | [] => True
  | n :: ns => Words n ∧ WordsInItems ns

/-- Entries whose numbers have at most 64 bits. -/
def WordsInEntries : List (Node × Node) → Prop
  | [] => True
  | (key, n) :: rest => Words key ∧ Words n ∧ WordsInEntries rest

end

mutual

/-- A tree can be searched for a number that is too large. -/
def decideWords : (n : Node) → Decidable n.Words
  | .natural n => inferInstanceAs (Decidable (n < 0x10000000000000000))
  | .array items => decideWordsInItems items
  | .object entries => decideWordsInEntries entries
  | .null | .bool _ | .integer _ | .single _ | .double _ | .text _ | .octets _ | .crude _
  | .unusable => isTrue trivial

/-- So can several trees. -/
def decideWordsInItems : (ns : List Node) → Decidable (WordsInItems ns)
  | [] => isTrue trivial
  | n :: ns => @instDecidableAnd _ _ (decideWords n) (decideWordsInItems ns)

/-- So can entries. -/
def decideWordsInEntries : (entries : List (Node × Node)) → Decidable (WordsInEntries entries)
  | [] => isTrue trivial
  | (key, n) :: rest =>
    @instDecidableAnd _ _ (decideWords key)
      (@instDecidableAnd _ _ (decideWords n) (decideWordsInEntries rest))

end

instance (n : Node) : Decidable n.Words := decideWords n

end Node

namespace MsgPack

open Node

mutual

/-- Whether every length in a tree is below two to the thirty-second. -/
def Fits : Node → Prop
  | .text s => (encodeUtf8 s).length < 0x100000000
  | .octets bs => bs.length < 0x100000000
  | .array items => items.length < 0x100000000 ∧ ItemsFit items
  | .object entries => entries.length < 0x100000000 ∧ EntriesFit entries
  | _ => True

/-- Whether each of several trees fits. -/
def ItemsFit : List Node → Prop
  | [] => True
  | n :: ns => Fits n ∧ ItemsFit ns

/-- Whether the keys and the values of all entries fit. -/
def EntriesFit : List (Node × Node) → Prop
  | [] => True
  | (key, n) :: rest => Fits key ∧ Fits n ∧ EntriesFit rest

end

mutual

/-- A tree can be searched for a length that is too large. -/
def decideFits : (n : Node) → Decidable (Fits n)
  | .text s => inferInstanceAs (Decidable ((encodeUtf8 s).length < 0x100000000))
  | .octets bs => inferInstanceAs (Decidable (bs.length < 0x100000000))
  | .array items => @instDecidableAnd _ _ (inferInstance) (decideItemsFit items)
  | .object entries => @instDecidableAnd _ _ (inferInstance) (decideEntriesFit entries)
  | .null | .bool _ | .natural _ | .integer _ | .single _ | .double _ | .crude _ | .unusable =>
    isTrue trivial

/-- So can several trees. -/
def decideItemsFit : (ns : List Node) → Decidable (ItemsFit ns)
  | [] => isTrue trivial
  | n :: ns => @instDecidableAnd _ _ (decideFits n) (decideItemsFit ns)

/-- So can entries. -/
def decideEntriesFit : (entries : List (Node × Node)) → Decidable (EntriesFit entries)
  | [] => isTrue trivial
  | (key, n) :: rest =>
    @instDecidableAnd _ _ (decideFits key)
      (@instDecidableAnd _ _ (decideFits n) (decideEntriesFit rest))

end

instance (n : Node) : Decidable (Fits n) := decideFits n

/-! ## Numbers of a fixed width -/

theorem length_bigEndian (width n : Nat) : (bigEndian width n).length = width := by
  induction width generalizing n with
  | zero => rfl
  | succ width ih => rw [bigEndian, List.length_append, ih, List.length_singleton]

theorem natOf_bigEndian {width n : Nat} (h : n < Nat.pow 256 width) :
    natOf (bigEndian width n) = n := by
  induction width generalizing n with
  | zero =>
      have hzero : n = 0 := Nat.lt_one_iff.mp h
      rw [hzero]
      rfl
  | succ width ih =>
      have hdiv : n / 256 < Nat.pow 256 width :=
        Nat.div_lt_of_lt_mul (by rw [Nat.mul_comm]; exact h)
      -- The last byte is the remainder of what the others spell.
      have hlast : n.toUInt8.toNat = n % 256 := rfl
      rw [bigEndian, natOf, List.foldl_append, ← natOf, ih hdiv, List.foldl_cons, List.foldl_nil,
        hlast]
      exact Nat.div_add_mod' n 256

/-- A complement spells the negative number that it is the complement of. -/
theorem intOf_bigEndian {width n : Nat} (h : n < Nat.pow 256 width)
    (hnegative : Nat.pow 256 width ≤ 2 * n) :
    intOf (bigEndian width n) = (n : Int) - Nat.pow 256 width := by
  rw [intOf, natOf_bigEndian h, length_bigEndian]
  exact if_neg (Nat.not_lt_of_le hnegative)

theorem splitBytes?_append (front rest : List UInt8) :
    splitBytes? front.length (front ++ rest) = some (front, rest) := by
  rw [splitBytes?, List.take_left, List.drop_left]
  exact if_pos rfl

theorem splitBytes?_bigEndian (width n : Nat) (rest : List UInt8) :
    splitBytes? width (bigEndian width n ++ rest) = some (bigEndian width n, rest) := by
  have h := splitBytes?_append (bigEndian width n) rest
  rw [length_bigEndian] at h
  exact h

theorem readLength?_bigEndian {width n : Nat} (h : n < Nat.pow 256 width) (rest : List UInt8) :
    readLength? width (bigEndian width n ++ rest) = some (n, rest) := by
  rw [readLength?, splitBytes?_bigEndian]
  simp only [Option.bind_eq_bind, Option.bind_some, natOf_bigEndian h, Option.pure_def]

/-! ## Headers -/

/-- The header of a length is a marker that holds it, or a marker with the
    length in one, two or four bytes behind it. -/
theorem header_eq (form : HeaderForm) {length : Nat} (h : length < 0x100000000) :
    (length < form.fixed.2 ∧ header form length = [(form.fixed.1 + length).toUInt8]) ∨
    (∃ marker, form.byte = some marker ∧ length < Nat.pow 256 1 ∧
      header form length = marker.toUInt8 :: bigEndian 1 length) ∨
    (length < Nat.pow 256 2 ∧ header form length = form.short.toUInt8 :: bigEndian 2 length) ∨
    (length < Nat.pow 256 4 ∧ header form length = form.long.toUInt8 :: bigEndian 4 length) := by
  by_cases hfixed : length < form.fixed.2
  · exact Or.inl ⟨hfixed, if_pos hfixed⟩
  · by_cases hshort : length < 0x10000
    · cases hbyte : form.byte with
      | none =>
          refine Or.inr (Or.inr (Or.inl ⟨hshort, ?_⟩))
          simp only [header, if_neg hfixed, hbyte, if_pos hshort]
      | some marker =>
          by_cases hone : length < 0x100
          · refine Or.inr (Or.inl ⟨marker, rfl, hone, ?_⟩)
            simp only [header, if_neg hfixed, hbyte, if_pos hone]
          · refine Or.inr (Or.inr (Or.inl ⟨hshort, ?_⟩))
            simp only [header, if_neg hfixed, hbyte, if_neg hone, if_pos hshort]
    · refine Or.inr (Or.inr (Or.inr ⟨h, ?_⟩))
      cases hbyte : form.byte with
      | none => simp only [header, if_neg hfixed, hbyte, if_neg hshort]
      | some marker =>
          have hone : ¬length < 0x100 := fun hlt => hshort (Nat.lt_trans hlt (by decide))
          simp only [header, if_neg hfixed, hbyte, if_neg hone, if_neg hshort]

theorem length_header_pos (form : HeaderForm) {length : Nat} (h : length < 0x100000000) :
    1 ≤ (header form length).length := by
  rcases header_eq form h with ⟨_, heq⟩ | ⟨marker, _, _, heq⟩ | ⟨_, heq⟩ | ⟨_, heq⟩ <;>
    rw [heq] <;> exact Nat.succ_le_succ (Nat.zero_le _)

/-- A marker that holds a length or a small number stands for it. -/
theorem toNat_marker {n : Nat} (h : n < 256) : n.toUInt8.toNat = n := Nat.mod_eq_of_lt h

theorem head?_natural {n : Nat} (h : n < 0x80) : head? n = some (.whole (.natural n)) := by
  unfold head?
  rw [if_pos h]

theorem head?_object {n : Nat} (h : n < 16) : head? (0x80 + n) = some (.object n) := by
  unfold head?
  rw [if_neg (by omega), if_pos (by omega), Nat.add_sub_cancel_left]

theorem head?_array {n : Nat} (h : n < 16) : head? (0x90 + n) = some (.array n) := by
  unfold head?
  rw [if_neg (by omega), if_neg (by omega), if_pos (by omega), Nat.add_sub_cancel_left]

theorem head?_text {n : Nat} (h : n < 32) : head? (0xA0 + n) = some (.text n) := by
  unfold head?
  rw [if_neg (by omega), if_neg (by omega), if_neg (by omega), if_pos (by omega),
    Nat.add_sub_cancel_left]

theorem head?_negative {n : Nat} (h : n < 0x20) :
    head? (0xFF - n) = some (.whole (.integer (.negSucc n))) := by
  have hvalue : ((0xFF - n : Nat) : Int) - 0x100 = .negSucc n := by omega
  unfold head?
  rw [if_neg (by omega), if_neg (by omega), if_neg (by omega), if_neg (by omega),
    if_pos (by omega), hvalue]

/-! ## One item -/

section Item

variable (readNested? : List UInt8 → Option (Node × List UInt8)) {length : Nat}
  (rest : List UInt8)

/-- A header is read as the length it was written for, if each of its four
    shapes is. -/
theorem readItem?_header (form : HeaderForm)
    (body : Nat → List UInt8 → Option (Node × List UInt8))
    (hfixed : ∀ n bs, n < form.fixed.2 →
      readItem? readNested? ((form.fixed.1 + n).toUInt8 :: bs) = body n bs)
    (hbyte : ∀ marker bs, form.byte = some marker →
      readItem? readNested? (marker.toUInt8 :: bs) =
        (readLength? 1 bs).bind fun found => body found.1 found.2)
    (hshort : ∀ bs, readItem? readNested? (form.short.toUInt8 :: bs) =
      (readLength? 2 bs).bind fun found => body found.1 found.2)
    (hlong : ∀ bs, readItem? readNested? (form.long.toUInt8 :: bs) =
      (readLength? 4 bs).bind fun found => body found.1 found.2)
    (h : length < 0x100000000) :
    readItem? readNested? (header form length ++ rest) = body length rest := by
  rcases header_eq form h with ⟨hlt, heq⟩ | ⟨marker, hmarker, hlt, heq⟩ | ⟨hlt, heq⟩ | ⟨hlt, heq⟩
  · rw [heq, List.singleton_append]
    exact hfixed length rest hlt
  · rw [heq, List.cons_append, hbyte marker _ hmarker, readLength?_bigEndian hlt, Option.bind_some]
  · rw [heq, List.cons_append, hshort, readLength?_bigEndian hlt, Option.bind_some]
  · rw [heq, List.cons_append, hlong, readLength?_bigEndian hlt, Option.bind_some]

/-- An item whose marker is all of it. -/
theorem readItem?_whole {marker : UInt8} {node : Node}
    (h : head? marker.toNat = some (.whole node)) :
    readItem? readNested? (marker :: rest) = some (node, rest) := by
  unfold readItem?
  simp only [h, Option.bind_eq_bind, Option.bind_some, Option.pure_def]

theorem readItem?_text (h : length < 0x100000000) :
    readItem? readNested? (header textForm length ++ rest) = readText? length rest := by
  refine readItem?_header readNested? rest textForm readText? ?_ ?_ (fun _ => rfl) (fun _ => rfl) h
  · intro n bs hn
    have hhead : head? (textForm.fixed.1 + n).toUInt8.toNat = some (.text n) := by
      rw [toNat_marker (Nat.lt_trans (Nat.add_lt_add_left hn _) (by decide))]
      exact head?_text hn
    unfold readItem?
    simp only [hhead, Option.bind_eq_bind, Option.bind_some]
  · rintro marker bs hmarker
    cases hmarker
    rfl

theorem readItem?_octets (h : length < 0x100000000) :
    readItem? readNested? (header octetsForm length ++ rest) = (do
      let (front, rest) ← splitBytes? length rest
      return (.octets front, rest)) := by
  refine readItem?_header readNested? rest octetsForm
    (fun length bs => do
      let (front, rest) ← splitBytes? length bs
      return (.octets front, rest)) ?_ ?_ (fun _ => rfl) (fun _ => rfl) h
  -- No marker of octets holds the length itself.
  · exact fun n bs hn => absurd hn (Nat.not_lt_zero n)
  · rintro marker bs hmarker
    cases hmarker
    rfl

theorem readItem?_array (h : length < 0x100000000) :
    readItem? readNested? (header arrayForm length ++ rest) = (do
      let (items, rest) ← readItems? readNested? length rest
      return (.array items, rest)) := by
  refine readItem?_header readNested? rest arrayForm
    (fun length bs => do
      let (items, rest) ← readItems? readNested? length bs
      return (.array items, rest)) ?_ ?_ (fun _ => rfl) (fun _ => rfl) h
  · intro n bs hn
    have hhead : head? (arrayForm.fixed.1 + n).toUInt8.toNat = some (.array n) := by
      rw [toNat_marker (Nat.lt_trans (Nat.add_lt_add_left hn _) (by decide))]
      exact head?_array hn
    unfold readItem?
    simp only [hhead, Option.bind_eq_bind, Option.bind_some]
  · intro marker bs hmarker
    exact absurd hmarker (by simp only [arrayForm, reduceCtorEq, not_false_eq_true])

theorem readItem?_object (h : length < 0x100000000) :
    readItem? readNested? (header objectForm length ++ rest) = (do
      let (entries, rest) ← readItems? (readPair? readNested?) length rest
      return (.object entries, rest)) := by
  refine readItem?_header readNested? rest objectForm
    (fun length bs => do
      let (entries, rest) ← readItems? (readPair? readNested?) length bs
      return (.object entries, rest)) ?_ ?_ (fun _ => rfl) (fun _ => rfl) h
  · intro n bs hn
    have hhead : head? (objectForm.fixed.1 + n).toUInt8.toNat = some (.object n) := by
      rw [toNat_marker (Nat.lt_trans (Nat.add_lt_add_left hn _) (by decide))]
      exact head?_object hn
    unfold readItem?
    simp only [hhead, Option.bind_eq_bind, Option.bind_some]
  · intro marker bs hmarker
    exact absurd hmarker (by simp only [objectForm, reduceCtorEq, not_false_eq_true])

/-- A pattern is read back bit for bit, whatever number it is the pattern of. -/
theorem readItem?_single (x : Binary32) :
    readItem? readNested? (0xCA :: bigEndian 4 x.bits.toNat ++ rest) = some (.single x, rest) := by
  have hhead : head? (0xCA : UInt8).toNat = some .single := rfl
  have hbits : (natOf (bigEndian 4 x.bits.toNat)).toUInt32 = x.bits := by
    rw [natOf_bigEndian x.bits.toNat_lt]
    exact UInt32.ofNat_toNat
  rw [List.cons_append, readItem?]
  simp only [hhead, Option.bind_eq_bind, Option.bind_some, splitBytes?_bigEndian, hbits,
    Option.pure_def]

theorem readItem?_double (x : Binary64) :
    readItem? readNested? (0xCB :: bigEndian 8 x.bits.toNat ++ rest) = some (.double x, rest) := by
  have hhead : head? (0xCB : UInt8).toNat = some .double := rfl
  have hbits : (natOf (bigEndian 8 x.bits.toNat)).toUInt64 = x.bits := by
    rw [natOf_bigEndian x.bits.toNat_lt]
    exact UInt64.ofNat_toNat
  rw [List.cons_append, readItem?]
  simp only [hhead, Option.bind_eq_bind, Option.bind_some, splitBytes?_bigEndian, hbits,
    Option.pure_def]

/-- A number without sign in some bytes behind its marker. -/
theorem readItem?_unsigned {marker : UInt8} {width n : Nat}
    (hhead : head? marker.toNat = some (.unsigned width)) (h : n < Nat.pow 256 width) :
    readItem? readNested? (marker :: (bigEndian width n ++ rest)) = some (.natural n, rest) := by
  unfold readItem?
  simp only [hhead, Option.bind_eq_bind, Option.bind_some, splitBytes?_bigEndian,
    natOf_bigEndian h, Option.pure_def]

/-- A negative number as its complement in some bytes behind its marker. -/
theorem readItem?_signed {marker : UInt8} {width n : Nat}
    (hhead : head? marker.toNat = some (.signed width)) (h : 2 * (n + 1) ≤ Nat.pow 256 width) :
    readItem? readNested? (marker :: (bigEndian width (Nat.pow 256 width - 1 - n) ++ rest)) =
      some (.integer (.negSucc n), rest) := by
  -- The complement and its modulus differ by the number.
  have hvalue : ((Nat.pow 256 width - 1 - n : Nat) : Int) - Nat.pow 256 width = .negSucc n := by
    omega
  unfold readItem?
  simp only [hhead, Option.bind_eq_bind, Option.bind_some, splitBytes?_bigEndian,
    intOf_bigEndian (show Nat.pow 256 width - 1 - n < Nat.pow 256 width by omega) (by omega),
    hvalue, Option.pure_def]

theorem readItem?_natural {n : Nat} (h : n < 0x10000000000000000) :
    readItem? readNested? (naturalBytes n ++ rest) = some (.natural n, rest) := by
  unfold naturalBytes
  split
  next hlt =>
    refine readItem?_whole readNested? rest ?_
    rw [toNat_marker (by omega)]
    exact head?_natural hlt
  next =>
    split
    next hlt => exact readItem?_unsigned readNested? rest rfl hlt
    next =>
      split
      next hlt => exact readItem?_unsigned readNested? rest rfl hlt
      next =>
        split
        next hlt => exact readItem?_unsigned readNested? rest rfl hlt
        next => exact readItem?_unsigned readNested? rest rfl h

theorem readItem?_integer {n : Int} (hleast : -0x8000000000000000 ≤ n) (hnegative : n < 0) :
    readItem? readNested? (integerBytes n ++ rest) = some (.integer n, rest) := by
  cases n with
  | ofNat n => exact absurd hnegative (Int.not_lt.mpr (Int.natCast_nonneg n))
  | negSucc n =>
      unfold integerBytes
      simp only
      split
      next hlt =>
        refine readItem?_whole readNested? rest ?_
        rw [toNat_marker (by omega)]
        exact head?_negative hlt
      next =>
        -- The widths in turn; a number that is too large for all is out of range.
        split
        next hlt => exact readItem?_signed readNested? rest rfl (show 2 * (n + 1) ≤ 0x100 by omega)
        next =>
          split
          next hlt =>
              exact readItem?_signed readNested? rest rfl (show 2 * (n + 1) ≤ 0x10000 by omega)
          next =>
            split
            next hlt =>
              exact readItem?_signed readNested? rest rfl (show 2 * (n + 1) ≤ 0x100000000 by omega)
            next =>
              exact readItem?_signed readNested? rest rfl
                (show 2 * (n + 1) ≤ 0x10000000000000000 by omega)

end Item

/-! ## Whole trees -/

theorem readText?_encodeUtf8 (s : String) (rest : List UInt8) :
    readText? (encodeUtf8 s).length (encodeUtf8 s ++ rest) = some (.text s, rest) := by
  rw [readText?, splitBytes?_append]
  simp only [Option.bind_eq_bind, Option.bind_some, textNode, decodeUtf8?_encodeUtf8,
    Option.pure_def]

mutual

/-- An item is read off the front of its bytes and any others. -/
theorem readNode?_bytes : ∀ (node : Node) (levels : Nat) (rest : List UInt8), node.Regular →
    node.Words → Fits node → node.height < levels →
    readNode? levels (bytes node ++ rest) = some (node, rest)
  | _, 0, _, _, _, _, hlevels => absurd hlevels (Nat.not_lt_zero _)
  | .null, _ + 1, rest, _, _, _, _ | .bool false, _ + 1, rest, _, _, _, _
  | .bool true, _ + 1, rest, _, _, _, _ => readItem?_whole _ rest rfl
  | .natural _, _ + 1, rest, _, hwords, _, _ => readItem?_natural _ rest hwords
  | .integer _, _ + 1, rest, hregular, _, _, _ =>
      readItem?_integer _ rest hregular.1 hregular.2
  | .single x, _ + 1, rest, _, _, _, _ => readItem?_single _ rest x
  | .double x, _ + 1, rest, _, _, _, _ => readItem?_double _ rest x
  | .text s, _ + 1, rest, _, _, hfits, _ => by
      rw [bytes, List.append_assoc, readNode?, readItem?_text _ _ hfits]
      exact readText?_encodeUtf8 s rest
  | .octets bs, _ + 1, rest, _, _, hfits, _ => by
      rw [bytes, List.append_assoc, readNode?, readItem?_octets _ _ hfits, splitBytes?_append]
      rfl
  | .array items, levels + 1, rest, hregular, hwords, hfits, hlevels => by
      have hitems := readItems?_bytesOfItems items levels rest hregular hwords hfits.2
        (Nat.lt_of_succ_lt_succ hlevels)
      rw [bytes, List.append_assoc, readNode?, readItem?_array _ _ hfits.1, hitems]
      rfl
  | .object entries, levels + 1, rest, hregular, hwords, hfits, hlevels => by
      have hentries := readItems?_bytesOfEntries entries levels rest hregular hwords hfits.2
        (Nat.lt_of_succ_lt_succ hlevels)
      rw [bytes, List.append_assoc, readNode?, readItem?_object _ _ hfits.1, hentries]
      rfl

theorem readItems?_bytesOfItems : ∀ (items : List Node) (levels : Nat) (rest : List UInt8),
    RegularItems items → WordsInItems items → ItemsFit items → heightOfItems items < levels →
    readItems? (readNode? levels) items.length (bytesOfItems items ++ rest) = some (items, rest)
  | [], _, _, _, _, _, _ => rfl
  | n :: ns, levels, rest, hregular, hwords, hfits, hlevels => by
      rw [heightOfItems, Nat.max_lt] at hlevels
      have hn := readNode?_bytes n levels (bytesOfItems ns ++ rest) hregular.1 hwords.1 hfits.1
        hlevels.1
      have hns := readItems?_bytesOfItems ns levels rest hregular.2 hwords.2 hfits.2 hlevels.2
      rw [bytesOfItems, List.append_assoc, List.length_cons, readItems?, hn]
      simp only [Option.bind_eq_bind, Option.bind_some, hns, Option.pure_def]

theorem readItems?_bytesOfEntries : ∀ (entries : List (Node × Node)) (levels : Nat)
    (rest : List UInt8), RegularEntries entries → WordsInEntries entries → EntriesFit entries →
    heightOfEntries entries < levels →
    readItems? (readPair? (readNode? levels)) entries.length (bytesOfEntries entries ++ rest) =
      some (entries, rest)
  | [], _, _, _, _, _, _ => rfl
  | (key, n) :: entries, levels, rest, hregular, hwords, hfits, hlevels => by
      rw [heightOfEntries, Nat.max_lt, Nat.max_lt] at hlevels
      have hkey := readNode?_bytes key levels (bytes n ++ (bytesOfEntries entries ++ rest))
        hregular.1 hwords.1 hfits.1 hlevels.1.1
      have hn := readNode?_bytes n levels (bytesOfEntries entries ++ rest) hregular.2.1 hwords.2.1
        hfits.2.1 hlevels.1.2
      have hrest := readItems?_bytesOfEntries entries levels rest hregular.2.2 hwords.2.2 hfits.2.2
        hlevels.2
      rw [bytesOfEntries, List.append_assoc, List.append_assoc, List.length_cons, readItems?,
        readPair?, hkey]
      simp only [Option.bind_eq_bind, Option.bind_some, hn, hrest, Option.pure_def]

end

mutual

/-- Every level of a tree takes a byte. -/
theorem height_le_length_bytes : ∀ node : Node, Fits node → node.height ≤ (bytes node).length
  | .null, _ | .bool _, _ | .natural _, _ | .integer _, _ | .single _, _ | .double _, _
  | .text _, _ | .octets _, _ | .crude _, _ => Nat.zero_le _
  | .unusable, _ => Nat.le_refl 1
  | .array items, h => by
      have hitems := heightOfItems_le_length_bytes items h.2
      have hheader := length_header_pos arrayForm h.1
      rw [height, bytes, List.length_append]
      omega
  | .object entries, h => by
      have hentries := heightOfEntries_le_length_bytes entries h.2
      have hheader := length_header_pos objectForm h.1
      rw [height, bytes, List.length_append]
      omega

theorem heightOfItems_le_length_bytes : ∀ items : List Node, ItemsFit items →
    heightOfItems items ≤ (bytesOfItems items).length
  | [], _ => Nat.zero_le _
  | n :: ns, h => by
      have hn := height_le_length_bytes n h.1
      have hns := heightOfItems_le_length_bytes ns h.2
      rw [heightOfItems, bytesOfItems, List.length_append]
      omega

theorem heightOfEntries_le_length_bytes : ∀ entries : List (Node × Node), EntriesFit entries →
    heightOfEntries entries ≤ (bytesOfEntries entries).length
  | [], _ => Nat.zero_le _
  | (key, n) :: rest, h => by
      have hkey := height_le_length_bytes key h.1
      have hn := height_le_length_bytes n h.2.1
      have hrest := heightOfEntries_le_length_bytes rest h.2.2
      rw [heightOfEntries, bytesOfEntries, List.length_append, List.length_append]
      omega

end

/-- What is written of a tree is read as the tree. -/
theorem read?_bytes {node : Node} (hregular : node.Regular) (hwords : node.Words)
    (hfits : Fits node) :
    read? (bytes node) = some node := by
  have hlevels := Nat.lt_succ_of_le (height_le_length_bytes node hfits)
  have hread := readNode?_bytes node ((bytes node).length + 1) [] hregular hwords hfits
    hlevels
  rw [List.append_nil] at hread
  rw [read?, hread, Option.map_some]

end MsgPack

end Switchboard.Wire
