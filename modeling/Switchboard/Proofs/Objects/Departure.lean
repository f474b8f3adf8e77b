import Switchboard.Proofs.Objects.Numbers
import Switchboard.Proofs.Objects.Sharing

/-!
# The Departure of a Connection

A connection that disconnects leaves every entry. What becomes of an entry depends
on the entry alone: if nobody else owns it, it goes, and otherwise it has one owner
less (`ObjectEntry.leave?`). The whole table is thinned out by this function, and with
an entry goes its address, and nothing else changes but the list of those that are
closed.

Thinning a table twice is thinning it by one function after the other, and what is
left is determined by the function (`Thinned.unique`). So what is to be known about
several departures is known about one entry. An entry goes in the course of two
departures if it had owners and none of them is left at the end, whichever of the two
took the last one away. That is the same for either order, and it is why an object
that two connections share is released by whichever goes second.

The numbers that are given back need no argument of their own. What is counted is what
is missing afterwards, so the sum of two numbers follows from the state that both
orders lead to (`Departure.fst_add`). This is said for any state that connections
depart from, as they depart from the table of pending calls too.

## Main definitions

* `Departure`: A state that connections depart from.
* `ObjectEntry.leave?`: What becomes of an entry.
* `ObjectTable.Thinned`: A table some of whose entries changed or went.

## Theorems

* `Departure.fst_add`, `Departure.again`: The numbers of two departures.
* `ObjectEntry.ownedOnlyBy_iff`: The owner that is the only one.
* `ObjectEntry.leave?_bind_leave?`: An entry that two connections leave.
* `Thinned.trans`, `Thinned.unique`: One thinning after the other.
* `releaseOwner_thinned`: A disconnect thins the table.
* `releaseOwner_departure`: Disconnects are departures from the table.
-/

namespace Switchboard

/-- A state that connections depart from, each with a number. The number is what is
    missing afterwards, the order is of no matter, and departing once more changes
    nothing. -/
structure Departure {σ : Type} (size : σ → Nat) (depart : σ → ConnectionId → Nat × σ) : Prop where
  missing : ∀ s c, (depart s c).1 + size (depart s c).2 = size s
  comm : ∀ s a b, (depart (depart s a).2 b).2 = (depart (depart s b).2 a).2
  same : ∀ s c, (depart (depart s c).2 c).2 = (depart s c).2

namespace Departure

variable {σ : Type} {size : σ → Nat} {depart : σ → ConnectionId → Nat × σ}

/-- However two connections divide them up, the numbers are the same in sum. -/
theorem fst_add (h : Departure size depart) (s : σ) (a b : ConnectionId) :
    (depart s a).1 + (depart (depart s a).2 b).1 =
      (depart s b).1 + (depart (depart s b).2 a).1 := by
  have ha := h.missing s a
  have hab := h.missing (depart s a).2 b
  have hb := h.missing s b
  have hba := h.missing (depart s b).2 a
  rw [h.comm] at hab
  omega

/-- Nothing is missing the second time. -/
theorem again (h : Departure size depart) (s : σ) (c : ConnectionId) :
    depart (depart s c).2 c = (0, (depart s c).2) := by
  have hmissing := h.missing (depart s c).2 c
  rw [h.same] at hmissing
  have hzero : (depart (depart s c).2 c).1 = 0 := by omega
  exact Prod.ext hzero (h.same s c)

end Departure

namespace ObjectEntry

variable {entry : ObjectEntry} {owner : ConnectionId}

/-- A connection owns an entry alone if the list of the owners is the connection. -/
theorem ownedOnlyBy_iff : entry.ownedOnlyBy owner = true ↔ entry.owners.keys = [owner] := by
  constructor
  · intro h
    unfold ownedOnlyBy at h
    rw [Bool.and_eq_true] at h
    have hset : entry.owners = IdSet.of owner := by
      refine Table.ext_get? fun k => ?_
      rw [IdSet.of, Table.get?_single]
      by_cases hk : k = owner
      · rcases Table.contains_iff.mp h.1 with ⟨⟨⟩, hget⟩
        rw [if_pos hk, hk, hget]
      · rw [if_neg hk, ← Table.contains_eq_false_iff, ← Bool.not_eq_true]
        intro hother
        -- Another owner would still be there after this one has left.
        have hleft := Table.isEmpty_eq_false_iff.mpr
          ⟨k, (IdSet.contains_erase _ owner k).mpr ⟨hk, hother⟩⟩
        rw [h.2] at hleft
        exact absurd hleft (by decide)
    rw [hset]
    rfl
  · intro h
    refine ownedOnlyBy_of_iff fun c => ?_
    rw [Table.contains_iff, ← Table.mem_keys_iff, h, List.mem_singleton]

/-- A connection owns an entry alone if there are owners, and none without it. -/
theorem ownedOnlyBy_eq (entry : ObjectEntry) (owner : ConnectionId) :
    entry.ownedOnlyBy owner = (!entry.owners.isEmpty && (entry.owners.erase owner).isEmpty) := by
  unfold ownedOnlyBy
  cases hleft : (entry.owners.erase owner).isEmpty with
  | false => rw [Bool.and_false, Bool.and_false]
  | true =>
      rw [Bool.and_true, Bool.and_true]
      cases howned : entry.owners.contains owner with
      | true => rw [Table.isEmpty_eq_false_iff.mpr ⟨owner, howned⟩, Bool.not_false]
      | false =>
          rw [Table.erase_of_get?_eq_none (Table.contains_eq_false_iff.mp howned)] at hleft
          rw [hleft, Bool.not_true]

/-- What becomes of an entry that a connection leaves: nothing is left of it if nobody
    else owns it. -/
def leave? (entry : ObjectEntry) (owner : ConnectionId) : Option ObjectEntry :=
  if entry.ownedOnlyBy owner then none
  else some { entry with owners := entry.owners.erase owner }

theorem leave?_eq_none_iff : entry.leave? owner = none ↔ entry.ownedOnlyBy owner = true := by
  unfold leave?
  split
  next h => simp only [h]
  next h => simp only [h, reduceCtorEq]

theorem leave?_eq_some_iff {entry' : ObjectEntry} :
    entry.leave? owner = some entry' ↔
      entry.owners.keys ≠ [owner] ∧ entry' = { entry with owners := entry.owners.erase owner } := by
  rw [Ne, ← ownedOnlyBy_iff]
  unfold leave?
  split
  next h => simp only [h, not_true_eq_false, false_and, reduceCtorEq]
  next h =>
    simp only [h, Bool.false_eq_true, not_false_eq_true, true_and, Option.some.injEq, eq_comm]

/-- An entry that two connections leave. It goes if it had owners and both together
    have left none of them. -/
theorem leave?_bind_leave? (entry : ObjectEntry) (a b : ConnectionId) :
    ((entry.leave? a).bind fun left => left.leave? b) =
      if !entry.owners.isEmpty && ((entry.owners.erase a).erase b).isEmpty then none
      else some { entry with owners := (entry.owners.erase a).erase b } := by
  unfold leave?
  rw [ownedOnlyBy_eq]
  cases hbetween : (entry.owners.erase a).isEmpty with
  | false =>
      -- There were owners before if there were some between the two.
      have hbefore : entry.owners.isEmpty = false := by
        rcases Table.isEmpty_eq_false_iff.mp hbetween with ⟨k, hk⟩
        exact Table.isEmpty_eq_false_iff.mpr ⟨k, ((IdSet.contains_erase _ a k).mp hk).2⟩
      rw [Bool.and_false, if_neg Bool.false_ne_true, Option.bind_some, ownedOnlyBy_eq, hbetween,
        hbefore]
  | true =>
      -- The first took the last owner away, or there was none; the second changes nothing.
      rw [Table.erase_of_isEmpty hbetween b, hbetween]
      cases hbefore : entry.owners.isEmpty with
      | false => rfl
      | true =>
          rw [Table.erase_of_isEmpty hbefore a]
          simp only [Bool.not_true, Bool.false_and, Bool.false_eq_true, if_false, Option.bind_some,
            ownedOnlyBy_eq, hbefore, Table.erase_of_isEmpty hbefore]

theorem leave?_comm (entry : ObjectEntry) (a b : ConnectionId) :
    ((entry.leave? a).bind fun left => left.leave? b) =
      (entry.leave? b).bind fun left => left.leave? a := by
  rw [leave?_bind_leave?, leave?_bind_leave?, Table.erase_comm]

/-- An entry that the same connection leaves again. -/
theorem leave?_again (entry : ObjectEntry) (owner : ConnectionId) :
    ((entry.leave? owner).bind fun left => left.leave? owner) = entry.leave? owner := by
  rw [leave?_bind_leave?, Table.erase_erase, leave?, ownedOnlyBy_eq]

theorem leave?_object {left : ObjectEntry} (h : entry.leave? owner = some left) :
    left.object = entry.object := by
  rw [(leave?_eq_some_iff.mp h).2]

end ObjectEntry

namespace ObjectTable

variable {t u v : ObjectTable} {leave leave' : ObjectEntry → Option ObjectEntry}

/-- The second table is what a function leaves of the first. An entry that goes takes
    its address with it. -/
structure Thinned (t : ObjectTable) (leave : ObjectEntry → Option ObjectEntry)
    (t' : ObjectTable) : Prop where
  entries : ∀ id, t'.entries.get? id = (t.entries.get? id).bind leave
  addresses : ∀ a id, t'.addresses.get? a = some id ↔
    t.addresses.get? a = some id ∧
      ∀ k entry, t.entries.get? k = some entry → leave entry = none → entry.object.address ≠ a
  nextId : t'.nextId = t.nextId

/-- Thinning a table twice. The first function must leave the instances as they are,
    since it is by their addresses that the second makes entries go. -/
theorem Thinned.trans (h : t.Thinned leave u) (h' : u.Thinned leave' v)
    (hobject : ∀ entry left, leave entry = some left → left.object = entry.object) :
    t.Thinned (fun entry => (leave entry).bind leave') v where
  entries := by
    intro id
    rw [h'.entries, h.entries, Option.bind_assoc]
  addresses := by
    intro a id
    rw [h'.addresses, h.addresses, and_assoc]
    refine and_congr_right fun _ => ?_
    constructor
    · rintro ⟨hfirst, hsecond⟩ k entry hentry hgone
      -- By which of the two the entry goes.
      cases hleft : leave entry with
      | none => exact hfirst k entry hentry hleft
      | some left =>
          rw [hleft, Option.bind_some] at hgone
          rw [← hobject entry left hleft]
          refine hsecond k left ?_ hgone
          rw [h.entries, hentry, Option.bind_some, hleft]
    · intro hboth
      refine ⟨fun k entry hentry hgone => hboth k entry hentry (by rw [hgone, Option.bind_none]),
        fun k left hleft hgone => ?_⟩
      rw [h.entries, Option.bind_eq_some_iff] at hleft
      rcases hleft with ⟨entry, hentry, hleft⟩
      rw [hobject entry left hleft]
      exact hboth k entry hentry (by rw [hleft, Option.bind_some, hgone])
  nextId := h'.nextId.trans h.nextId

/-- What is left of a table is determined, but for the list of those that are closed. -/
theorem Thinned.unique (h : t.Thinned leave u) (h' : t.Thinned leave v)
    (hclosed : u.closed = v.closed) : u = v := by
  refine ext_entries (fun id => ?_) (Table.ext_get? fun a => Option.ext fun id => ?_)
    (h.nextId.trans h'.nextId.symm) hclosed
  · rw [h.entries, h'.entries]
  · rw [h.addresses, h'.addresses]

/-! ## Disconnecting -/

/-- A disconnect thins the table out. -/
theorem releaseOwner_thinned (t : ObjectTable) (owner : ConnectionId) :
    t.Thinned (fun entry => entry.leave? owner) (t.releaseOwner owner).2 where
  entries := by
    intro id
    rw [get?_releaseOwner]
    cases t.entries.get? id with
    | none => rfl
    | some entry =>
        rw [Option.bind_some, ObjectEntry.leave?, Option.filter_some]
        cases entry.ownedOnlyBy owner <;> rfl
  addresses := by
    intro a id
    simp only [ObjectEntry.leave?_eq_none_iff]
    exact addresses_releaseOwner t owner a id
  nextId := releaseOwner_nextId t owner

theorem releaseOwner_releaseOwner_thinned (t : ObjectTable) (a b : ConnectionId) :
    t.Thinned (fun entry => (entry.leave? a).bind fun left => left.leave? b)
      ((t.releaseOwner a).2.releaseOwner b).2 :=
  (releaseOwner_thinned t a).trans (releaseOwner_thinned _ b) fun _ _ => ObjectEntry.leave?_object

/-- What is released is what is missing afterwards. -/
theorem size_releaseOwner (t : ObjectTable) (owner : ConnectionId) :
    (t.releaseOwner owner).1 + (t.releaseOwner owner).2.size = t.size := by
  have hleft : (t.releaseOwner owner).2.entries =
      (t.entries.filter fun _ entry => !entry.ownedOnlyBy owner).mapRows
        fun _ entry => { entry with owners := entry.owners.erase owner } := by
    refine Table.ext_get? fun id => ?_
    rw [get?_releaseOwner, Table.get?_mapRows, Table.get?_filter]
  -- Whoever loses an owner is still there, so only the filter counts.
  rw [size, hleft, Table.size_mapRows, releaseOwner_eq]
  exact t.entries.size_filter_add_size_filter_not fun _ entry => entry.ownedOnlyBy owner

/-- Disconnects are departures from the table. -/
theorem releaseOwner_departure : Departure size releaseOwner where
  missing := size_releaseOwner
  comm := by
    intro t a b
    -- Both orders make the same of each entry, and that determines the table.
    have hswapped := releaseOwner_releaseOwner_thinned t b a
    simp only [ObjectEntry.leave?_comm _ b a] at hswapped
    refine (releaseOwner_releaseOwner_thinned t a b).unique hswapped ?_
    simp only [releaseOwner_closed, IdSet.add_comm]
  same := by
    intro t owner
    have hthinned := releaseOwner_releaseOwner_thinned t owner owner
    simp only [ObjectEntry.leave?_again] at hthinned
    refine hthinned.unique (releaseOwner_thinned t owner) ?_
    rw [releaseOwner_closed, releaseOwner_closed, IdSet.add_add]

/-- One object of the first connection and one that both own, which is released by
    whichever goes second. -/
example :
    let t := ({} : ObjectTable).replay
      [.register ⟨5, .label "a"⟩ "S.A" 1, .register ⟨6, .label "b"⟩ "S.A" 1,
        .register ⟨6, .label "b"⟩ "S.A" 2]
    ((t.releaseOwner 1).1, ((t.releaseOwner 1).2.releaseOwner 2).1) = (1, 1) ∧
      ((t.releaseOwner 2).1, ((t.releaseOwner 2).2.releaseOwner 1).1) = (0, 2) := by
  decide

/-- The number of entries that a disconnect releases. -/
theorem releaseOwner_fst (t : ObjectTable) (owner : ConnectionId) :
    (t.releaseOwner owner).1 =
      t.entries.values.countP fun entry => entry.owners.keys = [owner] := by
  rw [releaseOwner_eq, orphans, Table.size_filter_eq_countP]
  refine List.countP_congr fun entry _ => ?_
  rw [ObjectEntry.ownedOnlyBy_iff, decide_eq_true_eq]

end ObjectTable

end Switchboard
