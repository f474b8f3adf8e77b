import Switchboard.Proofs.Objects.Consistency
import Switchboard.Proofs.Objects.Sharing

/-!
# What Entering Adds

Entering instances for a connection adds to the table of live objects and takes
nothing away, and what it adds is of two kinds: a new entry, under a number that was
not given out before, and the connection as another owner of an entry that was there.
`Grows` says so of two tables. The instances that may get new entries are a parameter,
so that whoever enters instances can say where they come from.

Growing is an order. In particular nothing that grows twice can come back to what it
was unless it stayed the same both times, and so a table is left as it is by several
instances exactly if it is left as it is by each of them (`Knows`).

## Main definitions

* `ObjectTable.Grows`: Instances were entered for a connection.
* `ObjectTable.Knows`: Entering an instance adds nothing.

## Theorems

* `Grows.register`: Entering one instance.
* `Grows.trans`, `Grows.antisymm`: Growing is an order.
* `register_eq_self_iff`: When entering an instance adds nothing.
-/

namespace Switchboard

namespace ObjectTable

/-- The second table comes from the first by entering instances for a connection, and
    whatever is new in it is among those given. -/
structure Grows (t : ObjectTable) (owner : ConnectionId) (among : Instance → Prop)
    (t' : ObjectTable) : Prop where
  /-- An entry keeps its number, its instance and its class, and gains no owner but
      the connection. -/
  kept : ∀ id entry, t.entries.get? id = some entry → ∃ entry',
    t'.entries.get? id = some entry' ∧ entry'.object = entry.object ∧
      entry'.className = entry.className ∧
      (entry'.owners = entry.owners ∨ entry'.owners = entry.owners.add owner)
  /-- A new entry has a new number, belongs to the connection alone, and is for one of
      the instances. -/
  entered : ∀ id entry, t'.entries.get? id = some entry → t.entries.get? id = none →
    t.nextId ≤ id ∧ entry.owners = .of owner ∧ among entry.object
  addresses : ∀ a id, t.addresses.get? a = some id → t'.addresses.get? a = some id
  rising : t.nextId ≤ t'.nextId
  closed : t'.closed = t.closed

/-- Entering the instance for the connection adds nothing: it is entered, and the
    connection owns it already or has disconnected. -/
def Knows (t : ObjectTable) (owner : ConnectionId) (object : Instance) : Prop :=
  ∃ id entry, t.entryOf? object = some (id, entry) ∧
    (t.closed.contains owner = true ∨ entry.owners.contains owner = true)

variable {t t' t'' : ObjectTable} {owner : ConnectionId} {among among' : Instance → Prop}

namespace Grows

theorem refl (t : ObjectTable) (owner : ConnectionId) (among : Instance → Prop) :
    t.Grows owner among t where
  kept _ entry h := ⟨entry, h, rfl, rfl, .inl rfl⟩
  entered _ _ h hnone := nomatch h.symm.trans hnone
  addresses _ _ h := h
  rising := Nat.le_refl _
  closed := rfl

theorem mono (h : t.Grows owner among t') (hsub : ∀ object, among object → among' object) :
    t.Grows owner among' t' where
  kept := h.kept
  entered id entry hentry hnone :=
    have hnew := h.entered id entry hentry hnone
    ⟨hnew.1, hnew.2.1, hsub _ hnew.2.2⟩
  addresses := h.addresses
  rising := h.rising
  closed := h.closed

theorem trans (h : t.Grows owner among t') (h' : t'.Grows owner among t'') :
    t.Grows owner among t'' where
  kept := by
    intro id entry hentry
    rcases h.kept id entry hentry with ⟨entry', hentry', hobject, hclass, howners⟩
    rcases h'.kept id entry' hentry' with ⟨entry'', hentry'', hobject', hclass', howners'⟩
    refine ⟨entry'', hentry'', hobject'.trans hobject, hclass'.trans hclass, ?_⟩
    -- The connection may come to own it either time, or both times.
    rcases howners' with hsame' | hadded' <;> rcases howners with hsame | hadded
    · exact .inl (hsame'.trans hsame)
    · exact .inr (hsame'.trans hadded)
    · exact .inr (hadded'.trans (congrArg (IdSet.add · owner) hsame))
    · rw [hadded', hadded, IdSet.add_add]
      exact .inr rfl
  entered := by
    intro id entry hentry hnone
    cases hmiddle : t'.entries.get? id with
    | none =>
        rcases h'.entered id entry hentry hmiddle with ⟨hid, howners, hamong⟩
        exact ⟨Nat.le_trans h.rising hid, howners, hamong⟩
    | some entry' =>
        -- It was entered by the first, and the second added its owner once more.
        rcases h.entered id entry' hmiddle hnone with ⟨hid, howners, hamong⟩
        rcases h'.kept id entry' hmiddle with ⟨entry'', hentry'', hobject, -, howners'⟩
        rw [hentry, Option.some.injEq] at hentry''
        rw [← hentry'', howners, IdSet.add_of, or_self] at howners'
        rw [← hentry''] at hobject
        exact ⟨hid, howners', hobject ▸ hamong⟩
  addresses a id ha := h'.addresses a id (h.addresses a id ha)
  rising := Nat.le_trans h.rising h'.rising
  closed := h'.closed.trans h.closed

/-- Whoever owns an entry is the connection, or owned it before. -/
theorem owned (h : t.Grows owner among t') {id : ObjectId} {entry : ObjectEntry}
    (hentry : t'.entries.get? id = some entry) {owner' : ConnectionId}
    (howner : entry.owners.contains owner' = true) :
    owner' = owner ∨ ∃ entry₀, t.entries.get? id = some entry₀ ∧
      entry₀.owners.contains owner' = true := by
  cases hbefore : t.entries.get? id with
  | none =>
      rw [(h.entered id entry hentry hbefore).2.1, IdSet.contains_of] at howner
      exact .inl howner
  | some entry₀ =>
      rcases h.kept id entry₀ hbefore with ⟨entry', hentry', -, -, howners⟩
      obtain rfl : entry = entry' := Option.some.inj (hentry.symm.trans hentry')
      rcases howners with hsame | hadded
      · exact .inr ⟨entry₀, rfl, hsame ▸ howner⟩
      · rw [hadded, IdSet.contains_add] at howner
        exact howner.imp_right fun hold => ⟨entry₀, rfl, hold⟩

/-- What grows out of a table that grew out of it is the same. -/
theorem antisymm (h : t.Grows owner among t') (h' : t'.Grows owner among' t) : t' = t := by
  refine ext_entries (fun id => ?_) (Table.ext_get? fun a => ?_)
    (Nat.le_antisymm h'.rising h.rising) h.closed
  · cases hbefore : t.entries.get? id with
    | none =>
        cases hafter : t'.entries.get? id with
        | none => rfl
        | some entry' =>
            rcases h'.kept id entry' hafter with ⟨entry, hentry, -⟩
            exact nomatch hbefore.symm.trans hentry
    | some entry =>
        rcases h.kept id entry hbefore with ⟨entry', hafter, hobject, hclass, howners⟩
        rcases h'.kept id entry' hafter with ⟨entry₀, hentry₀, -, -, howners'⟩
        rw [hbefore, Option.some.injEq] at hentry₀
        have hsame : entry'.owners = entry.owners := by
          rcases howners with hsame | hadded
          · exact hsame
          rcases howners' with hsame' | hadded'
          · rw [hentry₀, hsame']
          · rw [← hentry₀, hadded, IdSet.add_add] at hadded'
            exact hadded.trans hadded'.symm
        rw [hafter]
        cases entry'
        cases entry
        simp only at hobject hclass hsame
        rw [hobject, hclass, hsame]
  · cases hbefore : t.addresses.get? a with
    | some id => exact h.addresses a id hbefore
    | none =>
        cases hafter : t'.addresses.get? a with
        | none => rfl
        | some id => exact nomatch hbefore.symm.trans (h'.addresses a id hafter)

/-- Another owner for an entry that is there. -/
theorem addOwner {id : ObjectId} {entry : ObjectEntry} (hentry : t.entries.get? id = some entry)
    (owner : ConnectionId) (among : Instance → Prop) :
    t.Grows owner among { t with
      entries := t.entries.insert id { entry with owners := entry.owners.add owner } } where
  kept := by
    intro k e hk
    simp only [Table.get?_insert]
    by_cases hki : k = id
    · rw [hki, hentry, Option.some.injEq] at hk
      exact ⟨_, if_pos hki, by rw [← hk], by rw [← hk], .inr (by rw [← hk])⟩
    · exact ⟨e, by rw [if_neg hki, hk], rfl, rfl, .inl rfl⟩
  entered := by
    intro k e hk hnone
    rw [Table.get?_insert, if_neg] at hk
    · exact nomatch hk.symm.trans hnone
    · rintro rfl
      exact nomatch hentry.symm.trans hnone
  addresses _ _ h := h
  rising := Nat.le_refl _
  closed := rfl

/-- A new entry under the next number. -/
theorem enter (hconsistent : t.Consistent) {object : Instance} (className : String)
    (owner : ConnectionId) (hfree : t.addresses.get? object.address = none)
    (hamong : among object) :
    t.Grows owner among { t with
      entries := t.entries.insert t.nextId ⟨object, className, .of owner⟩
      addresses := t.addresses.insert object.address t.nextId
      nextId := t.nextId + 1 } where
  kept := by
    intro k e hk
    -- The next number has not been given out, so nothing is replaced.
    have hlt := (hconsistent.issued k e hk).2
    exact ⟨e, by rw [Table.get?_insert, if_neg (Nat.ne_of_lt hlt), hk], rfl, rfl, .inl rfl⟩
  entered := by
    intro k e hk hnone
    rw [Table.get?_insert] at hk
    split at hk
    next hkn =>
      rw [← Option.some.inj hk]
      exact ⟨Nat.le_of_eq hkn.symm, rfl, hamong⟩
    next => exact nomatch hk.symm.trans hnone
  addresses := by
    intro a id ha
    rw [Table.get?_insert, if_neg, ha]
    rintro rfl
    exact nomatch ha.symm.trans hfree
  rising := Nat.le_succ _
  closed := rfl

theorem register (hconsistent : t.Consistent) {object : Instance} (hamong : among object)
    (className : String) (owner : ConnectionId) :
    t.Grows owner among (t.register object className owner).2 := by
  cases hfound : t.entryOf? object with
  | some found =>
      rw [register_known hfound]
      cases t.closed.contains owner with
      | true => exact refl t owner among
      | false => exact addOwner (entryOf?_eq_some_iff.mp hfound).2 owner among
  | none =>
      rw [register_new hfound]
      cases t.closed.contains owner with
      | false =>
          exact enter hconsistent className owner
            (hconsistent.entryOf?_eq_none_iff.mp hfound) hamong
      | true =>
          have hgrows := refl t owner among
          exact ⟨hgrows.kept, hgrows.entered, hgrows.addresses, Nat.le_succ _, rfl⟩

end Grows

/-- Entering an instance adds nothing exactly if it is known. -/
theorem register_eq_self_iff {object : Instance} {className : String} :
    (t.register object className owner).2 = t ↔ t.Knows owner object := by
  unfold Knows
  cases hfound : t.entryOf? object with
  | none =>
      -- At the least a number is used up.
      refine iff_of_false (fun hsame => ?_) nofun
      have hnext := congrArg ObjectTable.nextId hsame
      rw [register_new hfound] at hnext
      split at hnext <;> exact absurd hnext (Nat.succ_ne_self _)
  | some found =>
      rcases found with ⟨id, entry⟩
      have hentry := (entryOf?_eq_some_iff.mp hfound).2
      rw [register_known hfound]
      cases hclosed : t.closed.contains owner with
      | true => exact iff_of_true rfl ⟨id, entry, rfl, .inl rfl⟩
      | false =>
          rw [if_neg Bool.false_ne_true]
          constructor
          · intro hsame
            have hadded := congrArg (fun t : ObjectTable => t.entries.get? id) hsame
            simp only [Table.get?_insert, if_true, hentry, Option.some.injEq] at hadded
            refine ⟨id, entry, rfl, .inr ?_⟩
            rw [← hadded]
            exact (IdSet.contains_add _ _ _).mpr (.inl rfl)
          · rintro ⟨id', entry', hsame, hopen | howns⟩
            · exact absurd hopen Bool.false_ne_true
            · rw [Option.some.injEq, Prod.mk.injEq] at hsame
              rcases hsame with ⟨rfl, rfl⟩
              refine ext_entries (fun k => ?_) rfl rfl rfl
              rw [IdSet.add_of_contains howns, Table.get?_insert]
              split
              next hk => rw [hk, hentry]
              next => rfl

end ObjectTable

end Switchboard
