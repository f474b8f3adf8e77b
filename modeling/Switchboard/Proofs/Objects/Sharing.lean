import Switchboard.Proofs.Objects.Lookup

/-!
# Sharing Entries

A client that sends an object back is given its number once more. The instance is
entered already, so nothing is added to the table but an owner of its entry, and not
even that for a connection that has disconnected.

`share` is what several of these amount to. It does not depend on the order in which
entries are shared, nor on how often, and sharing twice is sharing all at once; so
what is written from left to right is a matter of concatenating lists.

## Main definitions

* `ObjectTable.share`: Another owner for the entries listed.

## Theorems

* `get?_share`: Lookup by number afterwards.
* `share_share`: Sharing twice.
* `register_shared`: Entering an instance that is entered already.
-/

namespace Switchboard

namespace ObjectTable

/-- The table with another owner for the entries listed, unless it has
    disconnected. -/
def share (t : ObjectTable) (owner : ConnectionId) (ids : List ObjectId) : ObjectTable :=
  if t.closed.contains owner then t
  else
    { t with
      entries := t.entries.mapRows fun id entry =>
        if id ∈ ids then { entry with owners := entry.owners.add owner } else entry }

variable {t : ObjectTable} {owner : ConnectionId}

theorem share_of_closed (h : t.closed.contains owner) (ids : List ObjectId) :
    t.share owner ids = t := if_pos h

theorem share_of_open (h : t.closed.contains owner = false) (ids : List ObjectId) :
    t.share owner ids =
      { t with
        entries := t.entries.mapRows fun id entry =>
          if id ∈ ids then { entry with owners := entry.owners.add owner } else entry } := by
  rw [share, h, if_neg Bool.false_ne_true]

theorem share_nextId (ids : List ObjectId) : (t.share owner ids).nextId = t.nextId := by
  rw [share]
  split <;> rfl

theorem share_addresses (ids : List ObjectId) : (t.share owner ids).addresses = t.addresses := by
  rw [share]
  split <;> rfl

theorem share_closed (ids : List ObjectId) : (t.share owner ids).closed = t.closed := by
  rw [share]
  split <;> rfl

theorem get?_share (t : ObjectTable) (owner : ConnectionId) (ids : List ObjectId)
    (id : ObjectId) :
    (t.share owner ids).entries.get? id = (t.entries.get? id).map fun entry =>
      if t.closed.contains owner = false ∧ id ∈ ids then
        { entry with owners := entry.owners.add owner }
      else entry := by
  cases hclosed : t.closed.contains owner with
  | true =>
      rw [share_of_closed hclosed]
      simp only [Bool.true_eq_false, false_and, if_false, Option.map_id']
  | false =>
      rw [share_of_open hclosed, Table.get?_mapRows]
      simp only [true_and]

/-- Tables that agree in every lookup by number and in everything else are equal. -/
theorem ext_entries {u : ObjectTable} (hentries : ∀ id, t.entries.get? id = u.entries.get? id)
    (haddresses : t.addresses = u.addresses) (hnext : t.nextId = u.nextId)
    (hclosed : t.closed = u.closed) : t = u := by
  have htable := Table.ext_get? hentries
  cases t
  cases u
  simp only at htable haddresses hnext hclosed
  rw [htable, haddresses, hnext, hclosed]

theorem share_nil (t : ObjectTable) (owner : ConnectionId) : t.share owner [] = t := by
  refine ext_entries (fun id => ?_) (share_addresses _) (share_nextId _) (share_closed _)
  rw [get?_share]
  simp only [List.not_mem_nil, and_false, if_false, Option.map_id']

theorem share_share (t : ObjectTable) (owner : ConnectionId) (ids ids' : List ObjectId) :
    (t.share owner ids).share owner ids' = t.share owner (ids ++ ids') := by
  cases hclosed : t.closed.contains owner with
  | true => rw [share_of_closed hclosed, share_of_closed hclosed, share_of_closed hclosed]
  | false =>
      refine ext_entries (fun id => ?_) ?_ ?_ ?_
      · simp only [get?_share, share_closed, hclosed, true_and, Option.map_map]
        congr 1
        funext entry
        -- By which of the two lists the entry is on.
        by_cases hmem : id ∈ ids <;> by_cases hmem' : id ∈ ids' <;>
          simp only [Function.comp_apply, hmem, hmem', List.mem_append, or_true, true_or, or_self,
            if_true, if_false, IdSet.add_add]
      · rw [share_addresses, share_addresses, share_addresses]
      · rw [share_nextId, share_nextId, share_nextId]
      · rw [share_closed, share_closed, share_closed]

/-- Entering an instance that is entered already, from a table some of whose entries
    are shared. -/
theorem register_shared {object : Instance} {id : ObjectId} {entry : ObjectEntry}
    (haddress : t.addresses.get? object.address = some id)
    (hentry : t.entries.get? id = some entry) (className : String) (owner : ConnectionId)
    (held : List ObjectId) :
    ((t.share owner held).register object className owner).1.id = id ∧
      ((t.share owner held).register object className owner).2 = t.share owner (held ++ [id]) := by
  rw [← share_share]
  have hfound : (t.share owner held).entryOf? object = some (id,
      if t.closed.contains owner = false ∧ id ∈ held then
        { entry with owners := entry.owners.add owner }
      else entry) := by
    rw [entryOf?_eq_some_iff, share_addresses, get?_share, hentry]
    exact ⟨haddress, rfl⟩
  rw [register_known hfound]
  refine ⟨rfl, ?_⟩
  generalize hu : t.share owner held = u at hfound
  cases hclosed : u.closed.contains owner with
  | true => exact (share_of_closed hclosed [id]).symm
  | false =>
      rw [share_of_open hclosed, if_neg Bool.false_ne_true]
      refine ext_entries (fun k => ?_) rfl rfl rfl
      simp only [Table.get?_insert, Table.get?_mapRows, List.mem_singleton]
      by_cases hk : k = id
      · rw [if_pos hk, hk, (entryOf?_eq_some_iff.mp hfound).2]
        simp only [if_true, Option.map_some]
      · simp only [if_neg hk, Option.map_id']

end ObjectTable

end Switchboard
