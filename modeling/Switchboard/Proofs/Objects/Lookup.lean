import Switchboard.Objects

/-!
# Lookups in the Table of Live Objects

What every operation on the table does to every lookup. The table has two
maps, entries by number and numbers by address, and an operation is described
by what it does to both; nothing later in the library opens an operation
again.

Entering an instance has two cases, and they are told apart by `entryOf?`
alone: an instance that is found keeps its number and its class, and one that
is not found uses up the next number whether or not it is retained.

A disconnect first takes the connection out of every entry and then removes
the entries that it alone owned. `vacate` and `dropAll` are the two passes,
and `get?_releaseOwner` puts them together.

## Main definitions

* `dropAll`: Removing several entries.
* `orphans`: The entries that a connection alone owns.
* `vacate`: Taking a connection out of every entry.

## Theorems

* `entryOf?_eq_some_iff`: An instance is found by its address.
* `resolve_eq_ok_iff`, `resolveAs_eq_ok_iff`: What a number leads to.
* `register_known`, `register_new`: Entering an instance, by whether it is
  found.
* `get?_drop`: Lookup by number after a removal.
* `release_eq`: Releasing removes the entry if there is one.
* `get?_releaseOwner`: Lookup by number after a disconnect.
* `addresses_releaseOwner`: Lookup by address after a disconnect.
-/

namespace Switchboard

namespace ObjectTable

theorem entryOf?_eq_some_iff {t : ObjectTable} {object : Instance} {id : ObjectId}
    {entry : ObjectEntry} :
    t.entryOf? object = some (id, entry) ↔
      t.addresses.get? object.address = some id ∧ t.entries.get? id = some entry := by
  unfold entryOf?
  cases ha : t.addresses.get? object.address with
  | none => simp
  | some number =>
      -- Both maps have to be asked, and the second may know nothing of the number.
      cases he : t.entries.get? number with
      | none =>
          simp only [Option.bind_eq_bind, Option.bind_some, he, Option.bind_none, reduceCtorEq,
            Option.some.injEq, false_iff, not_and]
          rintro rfl
          rw [he]
          simp only [reduceCtorEq, not_false_eq_true]
      | some found =>
          simp only [Option.bind_eq_bind, Option.bind_some, he, Option.pure_def,
            Option.some.injEq, Prod.mk.injEq]
          constructor
          · rintro ⟨rfl, rfl⟩
            exact ⟨rfl, he⟩
          · rintro ⟨rfl, h⟩
            rw [he, Option.some.injEq] at h
            exact ⟨rfl, h⟩

theorem entryOf?_eq_none_iff {t : ObjectTable} {object : Instance} :
    t.entryOf? object = none ↔
      ∀ id, t.addresses.get? object.address = some id → t.entries.get? id = none := by
  constructor
  · intro h id hid
    cases he : t.entries.get? id with
    | none => rfl
    | some entry =>
        rw [entryOf?_eq_some_iff.mpr ⟨hid, he⟩] at h
        exact absurd h (by simp only [reduceCtorEq, not_false_eq_true])
  · intro h
    -- Had it been found, it would be by the two lookups that fail.
    cases hf : t.entryOf? object with
    | none => rfl
    | some found =>
        rcases entryOf?_eq_some_iff.mp hf with ⟨ha, he⟩
        rw [h _ ha] at he
        exact absurd he (by simp only [reduceCtorEq, not_false_eq_true])

theorem resolve_eq_ok_iff {t : ObjectTable} {id : ObjectId} {object : Instance} :
    t.resolve id = .ok object ↔
      ∃ entry, t.entries.get? id = some entry ∧ entry.object = object := by
  unfold resolve
  cases t.entries.get? id with
  | none => simp
  | some entry => simp

theorem resolveAs_eq_ok_iff {t : ObjectTable} {id : ObjectId} {className context : String}
    {object : Instance} :
    t.resolveAs id className context = .ok object ↔
      ∃ entry, t.entries.get? id = some entry ∧ entry.className = className ∧
        entry.object = object := by
  unfold resolveAs
  cases t.entries.get? id with
  | none => simp
  | some entry =>
      by_cases h : entry.className = className
      · simp [h]
      · simp [h]

/-! ## Entering -/

theorem register_known {t : ObjectTable} {object : Instance} {id : ObjectId}
    {entry : ObjectEntry} (h : t.entryOf? object = some (id, entry)) (className : String)
    (owner : ConnectionId) :
    t.register object className owner =
      (⟨id, entry.className⟩,
        if t.closed.contains owner then t
        else { t with
          entries := t.entries.insert id { entry with owners := entry.owners.add owner } }) := by
  unfold register
  rw [h]

theorem register_new {t : ObjectTable} {object : Instance} (h : t.entryOf? object = none)
    (className : String) (owner : ConnectionId) :
    t.register object className owner =
      (⟨t.nextId, className⟩,
        if t.closed.contains owner then { t with nextId := t.nextId + 1 }
        else { t with
          entries := t.entries.insert t.nextId ⟨object, className, .of owner⟩
          addresses := t.addresses.insert object.address t.nextId
          nextId := t.nextId + 1 }) := by
  unfold register
  rw [h]

/-! ## Removal -/

theorem get?_drop (t : ObjectTable) (id k : ObjectId) (entry : ObjectEntry) :
    (t.drop id entry).entries.get? k = if k = id then none else t.entries.get? k := by
  unfold drop
  exact Table.get?_erase t.entries id k

theorem addresses_drop (t : ObjectTable) (id : ObjectId) (entry : ObjectEntry) (a : Nat) :
    (t.drop id entry).addresses.get? a =
      if a = entry.object.address then none else t.addresses.get? a := by
  unfold drop
  exact Table.get?_erase t.addresses entry.object.address a

theorem release_eq (t : ObjectTable) (id : ObjectId) :
    t.release id =
      match t.entries.get? id with
      | some entry => (true, t.drop id entry)
      | none => (false, t) := rfl

/-! ## Disconnecting -/

/-- Removing several entries one after the other. -/
def dropAll (t : ObjectTable) (rows : List (ObjectId × ObjectEntry)) : ObjectTable :=
  rows.foldl (fun table row => table.drop row.1 row.2) t

theorem get?_dropAll (t : ObjectTable) (rows : List (ObjectId × ObjectEntry)) (k : ObjectId) :
    (t.dropAll rows).entries.get? k =
      if k ∈ rows.map (·.1) then none else t.entries.get? k := by
  induction rows generalizing t with
  | nil => rfl
  | cons row rest ih =>
      rw [show t.dropAll (row :: rest) = (t.drop row.1 row.2).dropAll rest from rfl, ih, get?_drop,
        List.map_cons]
      -- What is dropped twice is dropped; the order is of no matter.
      by_cases hr : k ∈ rest.map (·.1)
      · rw [if_pos hr, if_pos (List.mem_cons_of_mem _ hr)]
      · rw [if_neg hr]
        by_cases hk : k = row.1
        · rw [if_pos hk, if_pos (hk ▸ List.mem_cons_self)]
        · rw [if_neg hk, if_neg (fun h => (List.mem_cons.mp h).elim hk hr)]

theorem addresses_dropAll (t : ObjectTable) (rows : List (ObjectId × ObjectEntry)) (a : Nat) :
    (t.dropAll rows).addresses.get? a =
      if a ∈ rows.map (·.2.object.address) then none else t.addresses.get? a := by
  induction rows generalizing t with
  | nil => rfl
  | cons row rest ih =>
      rw [show t.dropAll (row :: rest) = (t.drop row.1 row.2).dropAll rest from rfl, ih,
        addresses_drop, List.map_cons]
      by_cases hr : a ∈ rest.map (·.2.object.address)
      · rw [if_pos hr, if_pos (List.mem_cons_of_mem _ hr)]
      · rw [if_neg hr]
        by_cases ha : a = row.2.object.address
        · rw [if_pos ha, if_pos (ha ▸ List.mem_cons_self)]
        · rw [if_neg ha, if_neg (fun h => (List.mem_cons.mp h).elim ha hr)]

theorem dropAll_nextId (t : ObjectTable) (rows : List (ObjectId × ObjectEntry)) :
    (t.dropAll rows).nextId = t.nextId := by
  induction rows generalizing t with
  | nil => rfl
  | cons row rest ih => exact ih (t.drop row.1 row.2)

theorem dropAll_closed (t : ObjectTable) (rows : List (ObjectId × ObjectEntry)) :
    (t.dropAll rows).closed = t.closed := by
  induction rows generalizing t with
  | nil => rfl
  | cons row rest ih => exact ih (t.drop row.1 row.2)

/-- The entries that a connection alone owns. -/
def orphans (t : ObjectTable) (owner : ConnectionId) : Table ObjectEntry :=
  t.entries.filter fun _ entry => entry.ownedOnlyBy owner

/-- The table after a connection was taken out of every entry, before the
    entries that nobody owns any more are removed. -/
def vacate (t : ObjectTable) (owner : ConnectionId) : ObjectTable :=
  { t with
    entries := t.entries.mapRows fun _ entry => { entry with owners := entry.owners.erase owner }
    closed := t.closed.add owner }

theorem releaseOwner_eq (t : ObjectTable) (owner : ConnectionId) :
    t.releaseOwner owner =
      ((t.orphans owner).size, (t.vacate owner).dropAll (t.orphans owner).rows) := rfl

theorem get?_orphans (t : ObjectTable) (owner : ConnectionId) (id : ObjectId) :
    (t.orphans owner).get? id =
      (t.entries.get? id).filter fun entry => entry.ownedOnlyBy owner :=
  Table.get?_filter t.entries _ id

/-- An entry survives a disconnect unless the connection alone owned it, and
    loses the connection from its owners. -/
theorem get?_releaseOwner (t : ObjectTable) (owner : ConnectionId) (id : ObjectId) :
    (t.releaseOwner owner).2.entries.get? id =
      ((t.entries.get? id).filter fun entry => !entry.ownedOnlyBy owner).map
        fun entry => { entry with owners := entry.owners.erase owner } := by
  have horphan : id ∈ (t.orphans owner).rows.map (·.1) ↔
      ∃ entry, t.entries.get? id = some entry ∧ entry.ownedOnlyBy owner = true := by
    rw [← Table.keys, Table.mem_keys_iff]
    simp only [get?_orphans, Option.filter_eq_some_iff]
  -- The orphans are those of the table before the connection was taken out of
  -- it, so the test is on the old entry and the owners are those of the new one.
  rw [releaseOwner_eq, get?_dropAll]
  simp only [vacate, Table.get?_mapRows]
  cases he : t.entries.get? id with
  | none =>
      simp only [Option.map_none, Option.filter_none]
      exact ite_self none
  | some entry =>
      cases ho : entry.ownedOnlyBy owner with
      | false =>
          rw [if_neg (fun h => by
            rcases horphan.mp h with ⟨e, h1, h2⟩
            rw [he, Option.some.injEq] at h1
            rw [h1, h2] at ho
            exact absurd ho (by decide))]
          simp [Option.filter, ho]
      | true =>
          rw [if_pos (horphan.mpr ⟨entry, he, ho⟩)]
          simp [Option.filter, ho]

theorem releaseOwner_nextId (t : ObjectTable) (owner : ConnectionId) :
    (t.releaseOwner owner).2.nextId = t.nextId := by
  rw [releaseOwner_eq]
  exact dropAll_nextId _ _

theorem releaseOwner_closed (t : ObjectTable) (owner : ConnectionId) :
    (t.releaseOwner owner).2.closed = t.closed.add owner := by
  rw [releaseOwner_eq]
  exact dropAll_closed _ _

/-- An address is forgotten by a disconnect exactly if it is the address of an
    entry that the connection alone owned. -/
theorem addresses_releaseOwner (t : ObjectTable) (owner : ConnectionId) (a : Nat) (id : ObjectId) :
    (t.releaseOwner owner).2.addresses.get? a = some id ↔
      t.addresses.get? a = some id ∧
        ∀ k entry, t.entries.get? k = some entry → entry.ownedOnlyBy owner = true →
          entry.object.address ≠ a := by
  have horphan : a ∈ (t.orphans owner).rows.map (·.2.object.address) ↔
      ∃ k entry, (t.entries.get? k = some entry ∧ entry.ownedOnlyBy owner = true) ∧
        entry.object.address = a := by
    rw [List.mem_map]
    constructor
    · rintro ⟨row, hrow, ha⟩
      have hget := get?_orphans t owner row.1
      rw [Table.mem_rows_iff.mp hrow] at hget
      exact ⟨row.1, row.2, Option.filter_eq_some_iff.mp hget.symm, ha⟩
    · rintro ⟨k, entry, he, ha⟩
      refine ⟨(k, entry), Table.mem_rows_iff.mpr ?_, ha⟩
      rw [get?_orphans, Option.filter_eq_some_iff]
      exact he
  -- Taking the connection out of entries leaves the addresses alone.
  rw [releaseOwner_eq, addresses_dropAll]
  by_cases h : a ∈ (t.orphans owner).rows.map (·.2.object.address)
  · rw [if_pos h]
    rcases horphan.mp h with ⟨k, entry, ⟨he, ho⟩, ha⟩
    simp only [reduceCtorEq, false_iff, not_and]
    exact fun _ hall => hall k entry he ho ha
  · rw [if_neg h]
    constructor
    · exact fun hid => ⟨hid, fun k entry he ho ha => h (horphan.mpr ⟨k, entry, ⟨he, ho⟩, ha⟩)⟩
    · exact fun hid => hid.1

end ObjectTable

end Switchboard
