import Switchboard.Proofs.Wire.RoundTrip

/-!
# Where Messages End

The bytes of a message tell where it ends. Cut short anywhere, even before the first
byte, they are the bytes of no message. So the bytes of one message are never the
beginning of those of another, and different messages have different bytes.

The argument follows the reader and not the bytes. A reader that has come to the end of
an item has not looked at what is behind it, so it reads the same item when more bytes
stand there (`Continues`). If it read anything from bytes that were cut short, it would
read the same from all of them, with what had been cut off left over. But from all of
them it reads the message, and leaves nothing.

Readers are made of a few parts, and what follows a part is read by the next one. So the
property has to be shown for the parts only, and then for the levels of nesting. A reader
of more bytes allows for more levels, which is why two readers are compared.

## Main definitions

* `MsgPack.Continues`: A reader that another one agrees with when more bytes follow.

## Theorems

* `readNode?_continues`: An item is read whatever follows it.
* `read?_of_isPrefix`: What is cut short is not read.
* `truncated_never_read`: Messages tell where they end.
-/

namespace Switchboard.Wire.MsgPack

variable {α β : Type}

/-- What the first reader reads off the front of some bytes the second reads as well,
    whatever follows these bytes, and leaves what follows. -/
def Continues (read read' : List UInt8 → Option (α × List UInt8)) : Prop :=
  ∀ bs a rest, read bs = some (a, rest) → ∀ more, read' (bs ++ more) = some (a, rest ++ more)

namespace Continues

variable {read read' : List UInt8 → Option (α × List UInt8)}

theorem pure (a : α) : Continues (fun bs => some (a, bs)) fun bs => some (a, bs) := by
  rintro bs _ _ h more
  cases h
  rfl

theorem bind {next next' : α → List UInt8 → Option (β × List UInt8)} (h : Continues read read')
    (hnext : ∀ a, Continues (next a) (next' a)) :
    Continues (fun bs => (read bs).bind fun found => next found.1 found.2) fun bs =>
      (read' bs).bind fun found => next' found.1 found.2 := by
  intro bs b rest hread more
  rcases Option.bind_eq_some_iff.mp hread with ⟨⟨a, between⟩, hfirst, hsecond⟩
  exact Option.bind_eq_some_iff.mpr ⟨(a, between ++ more), h bs a between hfirst more,
    hnext a between b rest hsecond more⟩

theorem map (h : Continues read read') (f : α → β) :
    Continues (fun bs => (read bs).bind fun found => some (f found.1, found.2)) fun bs =>
      (read' bs).bind fun found => some (f found.1, found.2) :=
  h.bind fun a => pure (f a)

end Continues

/-! ## The parts of a reader -/

theorem splitBytes?_continues (count : Nat) :
    Continues (splitBytes? count) (splitBytes? count) := by
  intro bs front rest h more
  unfold splitBytes? at h ⊢
  simp only [Option.ite_none_right_eq_some, Option.some.injEq, Prod.mk.injEq] at h
  rcases h with ⟨hcount, rfl, rfl⟩
  -- There are enough bytes already, so none are taken of those that follow.
  have henough : count ≤ bs.length := by
    rw [List.length_take] at hcount
    omega
  rw [List.take_append_of_le_length henough, List.drop_append_of_le_length henough,
    if_pos hcount]

theorem readLength?_continues (width : Nat) :
    Continues (readLength? width) (readLength? width) :=
  (splitBytes?_continues width).map natOf

theorem readText?_continues (length : Nat) : Continues (readText? length) (readText? length) :=
  (splitBytes?_continues length).map textNode

theorem readExtension?_continues (length : Nat) :
    Continues (readExtension? length) (readExtension? length) :=
  (splitBytes?_continues (1 + length)).map fun _ => Node.unusable

section Nested

variable {readNested? readNested?' : List UInt8 → Option (α × List UInt8)}

theorem readItems?_continues (h : Continues readNested? readNested?') (length : Nat) :
    Continues (readItems? readNested? length) (readItems? readNested?' length) := by
  induction length with
  | zero => exact .pure []
  | succ length ih => exact h.bind fun item => ih.map fun items => item :: items

theorem readPair?_continues (h : Continues readNested? readNested?') :
    Continues (readPair? readNested?) (readPair? readNested?') :=
  h.bind fun key => h.map fun item => (key, item)

end Nested

/-- An item is read whatever follows it, if what is inside it is. -/
theorem readItem?_continues {readNested? readNested?' : List UInt8 → Option (Node × List UInt8)}
    (h : Continues readNested? readNested?') :
    Continues (readItem? readNested?) (readItem? readNested?') := by
  have hitems := readItems?_continues h
  have hentries := readItems?_continues (readPair?_continues h)
  intro bs node rest hread more
  cases bs with
  | nil => exact nomatch hread
  | cons marker bs =>
      rcases Option.bind_eq_some_iff.mp hread with ⟨head, hhead, hbody⟩
      rw [List.cons_append, readItem?, hhead, Option.bind_eq_bind, Option.bind_some]
      -- The marker decides how the rest of the item is read.
      cases head with
      | whole node => exact Continues.pure node bs _ rest hbody more
      | unsigned width =>
          exact (splitBytes?_continues width).map (fun front => Node.natural (natOf front)) bs _
            rest hbody more
      | signed width =>
          exact (splitBytes?_continues width).map (fun front => Node.integer (intOf front)) bs _
            rest hbody more
      | single =>
          exact (splitBytes?_continues 4).map (fun front => Node.single ⟨(natOf front).toUInt32⟩)
            bs _ rest hbody more
      | double =>
          exact (splitBytes?_continues 8).map (fun front => Node.double ⟨(natOf front).toUInt64⟩)
            bs _ rest hbody more
      | text length => exact readText?_continues length bs _ rest hbody more
      | textAfter width =>
          exact (readLength?_continues width).bind readText?_continues bs _ rest hbody more
      | octetsAfter width =>
          exact (readLength?_continues width).bind
            (fun length => (splitBytes?_continues length).map Node.octets) bs _ rest hbody more
      | array length => exact (hitems length).map Node.array bs _ rest hbody more
      | arrayAfter width =>
          exact (readLength?_continues width).bind
            (fun length => (hitems length).map Node.array) bs _ rest hbody more
      | object length => exact (hentries length).map Node.object bs _ rest hbody more
      | objectAfter width =>
          exact (readLength?_continues width).bind
            (fun length => (hentries length).map Node.object) bs _ rest hbody more
      | extension length => exact readExtension?_continues length bs _ rest hbody more
      | extensionAfter width =>
          exact (readLength?_continues width).bind readExtension?_continues bs _ rest hbody more

/-! ## Items -/

/-- An item is read whatever follows it, and where more levels are allowed for. -/
theorem readNode?_continues {levels levels' : Nat} (h : levels ≤ levels') :
    Continues (readNode? levels) (readNode? levels') := by
  induction levels generalizing levels' with
  | zero => exact fun _ _ _ hread => nomatch hread
  | succ levels ih =>
      cases levels' with
      | zero => exact absurd h (Nat.not_succ_le_zero levels)
      | succ levels' => exact readItem?_continues (ih (Nat.le_of_succ_le_succ h))

/-- The bytes of a tree cut short are the bytes of no tree. -/
theorem read?_of_isPrefix {node : Node} (hregular : node.Regular) (hwords : node.Words)
    (hfits : Fits node) {bs : List UInt8} (hstart : bs <+: bytes node) (hshort : bs ≠ bytes node) :
    read? bs = none := by
  rcases hstart with ⟨more, hmore⟩
  rw [read?, Option.map_eq_none_iff]
  cases hread : readNode? (bs.length + 1) bs with
  | none => rfl
  | some found =>
      -- What was read would be read of all the bytes too, and leave what was cut off.
      have hlevels : bs.length + 1 ≤ (bytes node).length + 1 := by
        rw [← hmore, List.length_append]
        omega
      have hlonger := readNode?_continues hlevels bs found.1 found.2 hread more
      have hwhole := readNode?_bytes node ((bytes node).length + 1) [] hregular hwords hfits
        (Nat.lt_succ_of_le (height_le_length_bytes node hfits))
      rw [List.append_nil] at hwhole
      rw [hmore, hwhole, Option.some.injEq, Prod.mk.injEq] at hlonger
      rw [(List.append_eq_nil_iff.mp hlonger.2.symm).2, List.append_nil] at hmore
      exact absurd hmore hshort

end Switchboard.Wire.MsgPack

namespace Switchboard

open Wire

/-! ## Messages -/

/-- Messages of a kind tell where they end. -/
structure SelfDelimiting (α : Type) [Serial α] [Layered α] : Prop where
  /-- What is left of a message that was cut short is read as no message of the kind. -/
  truncated : ∀ a : α, Sendable a → ∀ bs, bs <+: toMsgPack a → bs ≠ toMsgPack a →
    (ofMsgPack? bs : Option α) = none
  /-- The bytes of a message begin the bytes of no message but those of its own. -/
  apart : ∀ a b : α, Sendable a → Sendable b → toMsgPack a <+: toMsgPack b →
    toMsgPack a = toMsgPack b
  /-- Different messages have different bytes. -/
  injective : ∀ a b : α, Sendable a → Sendable b → toMsgPack a = toMsgPack b → a = b

theorem selfDelimiting (α : Type) [Serial α] [Layered α] [LawfulSerial α] :
    SelfDelimiting α := by
  have htruncated : ∀ a : α, Sendable a → ∀ bs, bs <+: toMsgPack a → bs ≠ toMsgPack a →
      (ofMsgPack? bs : Option α) = none := by
    intro a ha bs hstart hshort
    rw [ofMsgPack?, MsgPack.read?_of_isPrefix (regular_toNode a) ha.words ha.fits hstart hshort]
    rfl
  refine ⟨htruncated, fun a b ha hb hstart => ?_, fun a b ha hb hsame => ?_⟩
  · -- The one is read from its bytes, so these are not those of the other cut short.
    refine Decidable.byContradiction fun hshort => ?_
    have hnone := htruncated b hb (toMsgPack a) hstart hshort
    rw [ha.ofMsgPack?_toMsgPack] at hnone
    exact absurd hnone (by simp only [reduceCtorEq, not_false_eq_true])
  · have hread := ha.ofMsgPack?_toMsgPack
    rw [hsame, hb.ofMsgPack?_toMsgPack, Option.some.injEq] at hread
    exact hread.symm

/-- Messages of every kind tell where they end: cut short anywhere they are never read,
    and the bytes of one are never the beginning of those of another. -/
theorem truncated_never_read :
    SelfDelimiting Value ∧ SelfDelimiting Ty ∧ SelfDelimiting Argument ∧
      SelfDelimiting ProcedureCall ∧ SelfDelimiting Request ∧ SelfDelimiting ProcedureResult ∧
      SelfDelimiting Response ∧ SelfDelimiting Services :=
  ⟨selfDelimiting Value, selfDelimiting Ty, selfDelimiting Argument, selfDelimiting ProcedureCall,
    selfDelimiting Request, selfDelimiting ProcedureResult, selfDelimiting Response,
    selfDelimiting Services⟩

/-- However many of its bytes arrive, short of all, a response is not read. -/
theorem mixedResponse_never_read_short :
    Sendable mixedResponse ∧ ∀ count < (toMsgPack mixedResponse).length,
      (ofMsgPack? ((toMsgPack mixedResponse).take count) : Option Response) = none := by
  have hsendable : Sendable mixedResponse := by decide
  refine ⟨hsendable, fun count hcount => ?_⟩
  rcases truncated_never_read with ⟨-, -, -, -, -, -, hresponses, -⟩
  refine hresponses.truncated _ hsendable _ (List.take_prefix _ _) fun hsame => ?_
  have hlength := congrArg List.length hsame
  rw [List.length_take] at hlength
  omega

end Switchboard
