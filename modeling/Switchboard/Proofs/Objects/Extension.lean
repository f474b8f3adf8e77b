import Switchboard.Proofs.Objects.Consistency

/-!
# Tables that Grow

While a value is written the table of live objects only grows. An entry stays under
its number, with its instance and its class, and all that becomes of it is that it
gains owners. So what a number led to when it was written it still leads to when the
value is finished.

Instances are entered by their addresses, and the number that an instance gets leads
back to it only if no other instance is entered at the same address. `Ready` collects
what has to hold of a table for that. It speaks of the instances that are still to
come, so it has to be kept while they are entered one by one, and for that they have
to differ in their addresses from each other as well.

## Main definitions

* `ObjectTable.Keeps`: What is live stays live.
* `ObjectTable.Holds`: An instance is entered under a class.
* `ObjectTable.Ready`: The instances of a value can be entered for an owner.

## Theorems

* `Ready.register`: What entering an instance does to a table that is ready for it.
-/

namespace Switchboard

namespace ObjectTable

/-- Whatever is live in the first table is live in the second, under the same number
    and the same class. -/
def Keeps (t t' : ObjectTable) : Prop :=
  ∀ id entry, t.entries.get? id = some entry → ∃ entry', t'.entries.get? id = some entry' ∧
    entry'.object = entry.object ∧ entry'.className = entry.className

theorem Keeps.refl (t : ObjectTable) : t.Keeps t := fun _ entry h => ⟨entry, h, rfl, rfl⟩

theorem Keeps.trans {t t' t'' : ObjectTable} (h : t.Keeps t') (h' : t'.Keeps t'') :
    t.Keeps t'' := by
  intro id entry hentry
  rcases h id entry hentry with ⟨entry', hentry', hobject, hclass⟩
  rcases h' id entry' hentry' with ⟨entry'', hentry'', hobject', hclass'⟩
  exact ⟨entry'', hentry'', hobject'.trans hobject, hclass'.trans hclass⟩

/-- The instance is entered, under the class. -/
def Holds (t : ObjectTable) (object : Instance) (className : String) : Prop :=
  ∃ id entry, t.entries.get? id = some entry ∧ entry.object = object ∧
    entry.className = className

/-- An instance is entered under the class of any entry that has it. -/
theorem holds_iff_of_entry {t : ObjectTable} (h : t.Consistent) {id : ObjectId}
    {entry : ObjectEntry} (hentry : t.entries.get? id = some entry) {className : String} :
    t.Holds entry.object className ↔ entry.className = className := by
  constructor
  · rintro ⟨id', entry', hentry', hobject, hclass⟩
    rw [h.id_unique hentry' hentry (congrArg Instance.address hobject), hentry,
      Option.some.injEq] at hentry'
    rw [hentry', hclass]
  · exact fun hclass => ⟨id, entry, hentry, rfl, hclass⟩

/-- A table in which some instances can be entered for an owner: it is consistent, the
    owner is connected, and none of the instances would be taken for another one that
    is live. -/
structure Ready (t : ObjectTable) (owner : ConnectionId) (known : Instance → Prop) : Prop where
  consistent : t.Consistent
  opened : t.closed.contains owner = false
  admits : ∀ object, known object → t.Admits object

/-- What entering an instance for a connected owner does. -/
structure Enters (t t' : ObjectTable) (object : Instance) (id : ObjectId) : Prop where
  entry : ∃ entry, t'.entries.get? id = some entry ∧ entry.object = object ∧
    ∀ entry₀, t.entries.get? id = some entry₀ →
      entry.object = entry₀.object ∧ entry.className = entry₀.className
  others : ∀ id', id' ≠ id → t'.entries.get? id' = t.entries.get? id'
  closed : t'.closed = t.closed

theorem Ready.enters {t : ObjectTable} {owner : ConnectionId} {known : Instance → Prop}
    (h : t.Ready owner known) {object : Instance} (hknown : known object) (className : String) :
    t.Enters (t.register object className owner).2 object
      (t.register object className owner).1.id := by
  cases hfound : t.entryOf? object with
  | some found =>
      rcases found with ⟨id, entry⟩
      rcases entryOf?_eq_some_iff.mp hfound with ⟨haddress, hentry⟩
      rcases h.consistent.entry_of_address _ _ haddress with ⟨entry', hentry', hsame⟩
      have hobject : entry.object = object := by
        rw [hentry, Option.some.injEq] at hentry'
        exact h.admits object hknown (id, entry) (Table.mem_rows_iff.mpr hentry)
          (hentry' ▸ hsame)
      rw [register_known hfound, h.opened, if_neg Bool.false_ne_true]
      refine ⟨⟨{ entry with owners := entry.owners.add owner }, ?_, hobject, ?_⟩, ?_, rfl⟩
      · rw [Table.get?_insert, if_pos rfl]
      · intro entry₀ hentry₀
        rw [hentry, Option.some.injEq] at hentry₀
        rw [← hentry₀]
        exact ⟨rfl, rfl⟩
      · intro id' hne
        rw [Table.get?_insert, if_neg hne]
  | none =>
      rw [register_new hfound, h.opened, if_neg Bool.false_ne_true]
      refine ⟨⟨⟨object, className, .of owner⟩, ?_, rfl, ?_⟩, ?_, rfl⟩
      · rw [Table.get?_insert, if_pos rfl]
      · -- The next number has not been handed out, so nothing is live under it.
        intro entry₀ hentry₀
        exact absurd (h.consistent.issued _ _ hentry₀).2 (Nat.lt_irrefl _)
      · intro id' hne
        rw [Table.get?_insert, if_neg hne]

theorem Enters.keeps {t t' : ObjectTable} {object : Instance} {id : ObjectId}
    (h : t.Enters t' object id) : t.Keeps t' := by
  intro id' entry₀ hentry₀
  by_cases hid : id' = id
  · rcases h.entry with ⟨entry, hentry, -, hsame⟩
    rw [hid] at hentry₀ ⊢
    exact ⟨entry, hentry, hsame entry₀ hentry₀⟩
  · exact ⟨entry₀, (h.others id' hid).trans hentry₀, rfl, rfl⟩

/-- A table stays ready for instances that differ in their addresses from the one that
    is entered. -/
theorem Ready.register {t : ObjectTable} {owner : ConnectionId} {known : Instance → Prop}
    (h : t.Ready owner known)
    (hapart : ∀ i j, known i → known j → i.address = j.address → i = j) {object : Instance}
    (hknown : known object) (className : String) :
    (t.register object className owner).2.Ready owner known := by
  have henters := h.enters hknown className
  refine ⟨h.consistent.register object className owner, ?_, ?_⟩
  · rw [henters.closed]
    exact h.opened
  · rintro other hother ⟨id, entry⟩ hrow haddress
    rw [Table.mem_rows_iff] at hrow
    by_cases hid : id = (t.register object className owner).1.id
    · rcases henters.entry with ⟨entry', hentry', hobject, -⟩
      rw [hid, hentry', Option.some.injEq] at hrow
      rw [← hrow, hobject] at haddress ⊢
      exact hapart object other hknown hother haddress
    · rw [henters.others id hid] at hrow
      exact h.admits other hother (id, entry) (Table.mem_rows_iff.mpr hrow) haddress

end ObjectTable

end Switchboard
