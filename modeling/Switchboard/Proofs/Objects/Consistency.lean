import Switchboard.Proofs.Objects.Lookup

/-!
# Consistency of the Table of Live Objects

The two maps of the table say the same thing. An address leads to a number
exactly if that number's entry holds an instance at the address, so the maps
are inverse to each other and each instance is entered at most once.

`Consistent` collects this together with the two facts that keep it going: a
number that is live has been handed out, and an entry always has an owner who
is still connected. The second one is what makes disconnects complete. An
entry without owners would never be removed, and an entry that a closed
connection owned would not be removed again.

An instance is told from others by its address, and the address of an instance
that nobody holds any more may be given to another. `Admits` is what an
allocator guarantees at the moment an instance is entered: no live entry holds
a different instance at its address. It says nothing about entries that are
gone, so a released address may come back with another instance behind it.
The maps stay inverse without it; it is needed only to say that a number leads
back to the instance it was given for.

What a live number stands for never changes. `entry_of_perform` is that fact
for one operation: below the next number to hand out no entry appears, and no
entry changes its instance or its class.

## Main definitions

* `ObjectOperation`, `ObjectTable.replay`: Runs of operations.
* `ObjectTable.Consistent`: The invariant of the table.
* `ObjectTable.Genuine`: Runs in which addresses tell live instances apart.

## Theorems

* `Consistent.perform`, `Consistent.replay`: Operations keep the table
  consistent.
* `entry_of_perform`, `entry_of_replay`: What a number stands for is settled
  when it is handed out.
* `entry_of_register`: What the number that was just handed out stands for.
* `replay_represents`: The table represents the live instances.
-/

namespace Switchboard

/-- What can be done to the table of live objects. -/
inductive ObjectOperation where
  | register (object : Instance) (className : String) (owner : ConnectionId)
  | release (id : ObjectId)
  | releaseOwner (owner : ConnectionId)

/-- An entry that somebody besides a connection owns keeps an owner when the
    connection goes. -/
theorem ObjectEntry.owners_without {entry : ObjectEntry} {owner : ConnectionId}
    (howned : entry.owners.isEmpty = false) (hshared : entry.ownedOnlyBy owner = false) :
    Table.isEmpty (entry.owners.erase owner) = false := by
  unfold ownedOnlyBy at hshared
  cases hc : entry.owners.contains owner with
  -- Being one of its owners but not the only one, it leaves somebody behind.
  | true =>
      rw [hc, Bool.true_and] at hshared
      exact hshared
  | false =>
      rcases Table.isEmpty_eq_false_iff.mp howned with ⟨c, hcontains⟩
      refine Table.isEmpty_eq_false_iff.mpr ⟨c, (IdSet.contains_erase _ _ _).mpr ⟨?_, hcontains⟩⟩
      rintro rfl
      rw [hc] at hcontains
      exact absurd hcontains (by decide)

namespace ObjectTable

/-- The table after an operation. -/
def perform (t : ObjectTable) : ObjectOperation → ObjectTable
  | .register object className owner => (t.register object className owner).2
  | .release id => (t.release id).2
  | .releaseOwner owner => (t.releaseOwner owner).2

/-- The table after several operations. -/
def replay (t : ObjectTable) (ops : List ObjectOperation) : ObjectTable := ops.foldl perform t

/-- The two maps are inverse to each other, live numbers have been handed out,
    and every entry has owners, all of them connected. -/
structure Consistent (t : ObjectTable) : Prop where
  address_of_entry : ∀ id entry, t.entries.get? id = some entry →
    t.addresses.get? entry.object.address = some id
  entry_of_address : ∀ a id, t.addresses.get? a = some id →
    ∃ entry, t.entries.get? id = some entry ∧ entry.object.address = a
  next_pos : 1 ≤ t.nextId
  issued : ∀ id entry, t.entries.get? id = some entry → 1 ≤ id ∧ id < t.nextId
  owned : ∀ id entry, t.entries.get? id = some entry → entry.owners.isEmpty = false
  owners_open : ∀ id entry owner, t.entries.get? id = some entry →
    entry.owners.contains owner = true → t.closed.contains owner = false

/-- No live entry holds another instance at the address of this one. -/
def Admits (t : ObjectTable) (object : Instance) : Prop :=
  ∀ row ∈ t.entries.rows, row.2.object.address = object.address → row.2.object = object

/-- Every instance that a run enters is told by its address from the instances
    that are live at that moment. -/
def Genuine (t : ObjectTable) : List ObjectOperation → Prop
  | [] => True
  | .register object className owner :: ops =>
    t.Admits object ∧ (t.perform (.register object className owner)).Genuine ops
  | op :: ops => (t.perform op).Genuine ops

theorem Consistent.init : ({} : ObjectTable).Consistent where
  address_of_entry id entry h := by simp at h
  entry_of_address a id h := by simp at h
  next_pos := Nat.le_refl 1
  issued id entry h := by simp at h
  owned id entry h := by simp at h
  owners_open id entry owner h := by simp at h

namespace Consistent

variable {t : ObjectTable}

/-- In a consistent table an instance is found as soon as its address is. -/
theorem entryOf?_eq_none_iff (h : t.Consistent) {object : Instance} :
    t.entryOf? object = none ↔ t.addresses.get? object.address = none := by
  rw [ObjectTable.entryOf?_eq_none_iff]
  constructor
  · intro hnone
    cases ha : t.addresses.get? object.address with
    | none => rfl
    | some id =>
        rcases h.entry_of_address _ _ ha with ⟨entry, he, _⟩
        rw [hnone id ha] at he
        exact absurd he (by simp only [reduceCtorEq, not_false_eq_true])
  · intro ha id hid
    rw [ha] at hid
    exact absurd hid (by simp only [reduceCtorEq, not_false_eq_true])

theorem id_unique (h : t.Consistent) {id id' : ObjectId} {entry entry' : ObjectEntry}
    (he : t.entries.get? id = some entry) (he' : t.entries.get? id' = some entry')
    (ha : entry.object.address = entry'.object.address) : id = id' := by
  have h1 := h.address_of_entry id entry he
  have h2 := h.address_of_entry id' entry' he'
  rw [ha, h2, Option.some.injEq] at h1
  exact h1.symm

/-! ## Operations keep the table consistent -/

/-- Another connected owner for a live entry. -/
theorem addOwner (h : t.Consistent) {id : ObjectId} {entry : ObjectEntry}
    (he : t.entries.get? id = some entry) {owner : ConnectionId}
    (hopen : t.closed.contains owner = false) :
    { t with
      entries :=
        t.entries.insert id { entry with owners := entry.owners.add owner } }.Consistent := by
  -- Every entry is an old one, up to its owners.
  have hold : ∀ k e, (t.entries.insert id { entry with
      owners := entry.owners.add owner }).get? k = some e →
      ∃ e₀, t.entries.get? k = some e₀ ∧ e.object = e₀.object ∧
        (e.owners = e₀.owners ∨ e.owners = e₀.owners.add owner) := by
    intro k e hk
    rw [Table.get?_insert] at hk
    by_cases hki : k = id
    · rw [if_pos hki, Option.some.injEq] at hk
      exact ⟨entry, hki ▸ he, by rw [← hk], Or.inr (by rw [← hk])⟩
    · rw [if_neg hki] at hk
      exact ⟨e, hk, rfl, Or.inl rfl⟩
  refine ⟨?_, ?_, h.next_pos, ?_, ?_, ?_⟩
  · intro k e hk
    rcases hold k e hk with ⟨e₀, h₀, hobj, _⟩
    rw [hobj]
    exact h.address_of_entry k e₀ h₀
  · intro a k hk
    rcases h.entry_of_address a k hk with ⟨e, hek, ha⟩
    simp only [Table.get?_insert]
    -- Addresses do not change, and neither do the instances they lead to.
    by_cases hki : k = id
    · rw [hki, he, Option.some.injEq] at hek
      exact ⟨_, if_pos hki, by rw [← ha, ← hek]⟩
    · exact ⟨e, by rw [if_neg hki]; exact hek, ha⟩
  · intro k e hk
    rcases hold k e hk with ⟨e₀, h₀, _⟩
    exact h.issued k e₀ h₀
  · intro k e hk
    rcases hold k e hk with ⟨e₀, h₀, _, howners⟩
    rcases howners with howners | howners
    · rw [howners]
      exact h.owned k e₀ h₀
    · rw [howners, Table.isEmpty_eq_false_iff]
      exact ⟨owner, (IdSet.contains_add _ _ _).mpr (Or.inl rfl)⟩
  · intro k e c hk hcontains
    rcases hold k e hk with ⟨e₀, h₀, _, howners⟩
    rcases howners with howners | howners
    · exact h.owners_open k e₀ c h₀ (howners ▸ hcontains)
    · rw [howners, IdSet.contains_add] at hcontains
      rcases hcontains with rfl | hcontains
      · exact hopen
      · exact h.owners_open k e₀ c h₀ hcontains

/-- A new entry under the next number, for a connected owner, at an address
    that is not in use. -/
theorem enter (h : t.Consistent) {object : Instance} (className : String) {owner : ConnectionId}
    (hfree : t.addresses.get? object.address = none) (hopen : t.closed.contains owner = false) :
    { t with
      entries := t.entries.insert t.nextId ⟨object, className, .of owner⟩
      addresses := t.addresses.insert object.address t.nextId
      nextId := t.nextId + 1 }.Consistent := by
  have hnext := h.next_pos
  -- An entry is the new one or an old one, and the new number is in use by none.
  have hcases : ∀ k e, (t.entries.insert t.nextId ⟨object, className, .of owner⟩).get? k =
      some e → (k = t.nextId ∧ e = ⟨object, className, .of owner⟩) ∨
        t.entries.get? k = some e := by
    intro k e hk
    rw [Table.get?_insert] at hk
    by_cases hkn : k = t.nextId
    · rw [if_pos hkn, Option.some.injEq] at hk
      exact Or.inl ⟨hkn, hk.symm⟩
    · rw [if_neg hkn] at hk
      exact Or.inr hk
  refine ⟨?_, ?_, Nat.le_succ_of_le hnext, ?_, ?_, ?_⟩
  · intro k e hk
    simp only [Table.get?_insert]
    rcases hcases k e hk with ⟨rfl, rfl⟩ | hold
    · exact if_pos rfl
    · have ha := h.address_of_entry k e hold
      -- Its address is in use, and the new one is not.
      have hne : e.object.address ≠ object.address := by
        intro heq
        rw [heq, hfree] at ha
        exact absurd ha (by simp only [reduceCtorEq, not_false_eq_true])
      rw [if_neg hne]
      exact ha
  · intro a k hk
    simp only [Table.get?_insert] at hk ⊢
    by_cases ha : a = object.address
    · rw [if_pos ha, Option.some.injEq] at hk
      exact ⟨⟨object, className, .of owner⟩, if_pos hk.symm, ha.symm⟩
    · rw [if_neg ha] at hk
      rcases h.entry_of_address a k hk with ⟨e, he, hea⟩
      have hlt := (h.issued k e he).2
      exact ⟨e, by rw [if_neg (by omega)]; exact he, hea⟩
  · intro k e hk
    rcases hcases k e hk with ⟨rfl, rfl⟩ | hold
    · exact ⟨hnext, Nat.lt_succ_self _⟩
    · exact ⟨(h.issued k e hold).1, Nat.lt_succ_of_lt (h.issued k e hold).2⟩
  · intro k e hk
    rcases hcases k e hk with ⟨rfl, rfl⟩ | hold
    · rfl
    · exact h.owned k e hold
  · intro k e c hk hcontains
    rcases hcases k e hk with ⟨rfl, rfl⟩ | hold
    · rw [(IdSet.contains_of owner c).mp hcontains]
      exact hopen
    · exact h.owners_open k e c hold hcontains

theorem register (h : t.Consistent) (object : Instance) (className : String)
    (owner : ConnectionId) : (t.register object className owner).2.Consistent := by
  cases hf : t.entryOf? object with
  | some found =>
      rw [register_known hf]
      cases hc : t.closed.contains owner with
      | true => exact h
      | false => exact h.addOwner (entryOf?_eq_some_iff.mp hf).2 hc
  | none =>
      rw [register_new hf]
      cases hc : t.closed.contains owner with
      | true =>
          -- The number is used up although nothing is entered under it.
          exact ⟨h.address_of_entry, h.entry_of_address, Nat.le_succ_of_le h.next_pos,
            fun k e hk => ⟨(h.issued k e hk).1, Nat.lt_succ_of_lt (h.issued k e hk).2⟩,
            h.owned, h.owners_open⟩
      | false => exact h.enter className (h.entryOf?_eq_none_iff.mp hf) hc

theorem drop (h : t.Consistent) {id : ObjectId} {entry : ObjectEntry}
    (he : t.entries.get? id = some entry) : (t.drop id entry).Consistent := by
  have hold : ∀ k e, (t.drop id entry).entries.get? k = some e →
      k ≠ id ∧ t.entries.get? k = some e := by
    intro k e hk
    rw [get?_drop] at hk
    by_cases hki : k = id
    · rw [if_pos hki] at hk
      exact absurd hk (by simp only [reduceCtorEq, not_false_eq_true])
    · rw [if_neg hki] at hk
      exact ⟨hki, hk⟩
  refine ⟨?_, ?_, h.next_pos, fun k e hk => h.issued k e (hold k e hk).2,
    fun k e hk => h.owned k e (hold k e hk).2,
    fun k e c hk => h.owners_open k e c (hold k e hk).2⟩
  · intro k e hk
    rcases hold k e hk with ⟨hne, hk'⟩
    -- Another entry has another address, so it is not forgotten with this one.
    rw [addresses_drop, if_neg (fun ha => hne (h.id_unique hk' he ha))]
    exact h.address_of_entry k e hk'
  · intro a k hk
    rw [addresses_drop] at hk
    by_cases ha : a = entry.object.address
    · rw [if_pos ha] at hk
      exact absurd hk (by simp only [reduceCtorEq, not_false_eq_true])
    · rw [if_neg ha] at hk
      rcases h.entry_of_address a k hk with ⟨e, hek, hea⟩
      refine ⟨e, ?_, hea⟩
      rw [get?_drop, if_neg]
      · exact hek
      · rintro rfl
        rw [he, Option.some.injEq] at hek
        exact ha (hek ▸ hea.symm)

theorem release (h : t.Consistent) (id : ObjectId) : (t.release id).2.Consistent := by
  rw [release_eq]
  cases he : t.entries.get? id with
  | none => exact h
  | some entry => exact h.drop he

theorem releaseOwner (h : t.Consistent) (owner : ConnectionId) :
    (t.releaseOwner owner).2.Consistent := by
  -- What is left is an old entry that the connection did not own alone.
  have hold : ∀ k e, (t.releaseOwner owner).2.entries.get? k = some e →
      ∃ e₀, t.entries.get? k = some e₀ ∧ e₀.ownedOnlyBy owner = false ∧
        e = { e₀ with owners := e₀.owners.erase owner } := by
    intro k e hk
    rw [get?_releaseOwner, Option.map_eq_some_iff] at hk
    rcases hk with ⟨e₀, h₀, he⟩
    rw [Option.filter_eq_some_iff, Bool.not_eq_true'] at h₀
    exact ⟨e₀, h₀.1, h₀.2, he.symm⟩
  have hkept : ∀ k e₀, t.entries.get? k = some e₀ → e₀.ownedOnlyBy owner = false →
      (t.releaseOwner owner).2.entries.get? k =
        some { e₀ with owners := e₀.owners.erase owner } := by
    intro k e₀ h₀ hshared
    rw [get?_releaseOwner, h₀, Option.filter_some, hshared]
    rfl
  refine ⟨?_, ?_, ?_, ?_, ?_, ?_⟩
  · intro k e hk
    rcases hold k e hk with ⟨e₀, h₀, hshared, rfl⟩
    rw [addresses_releaseOwner]
    refine ⟨h.address_of_entry k e₀ h₀, fun k' e' he' halone ha => ?_⟩
    -- An entry that went and one that stayed cannot share an address.
    rw [h.id_unique he' h₀ ha, h₀, Option.some.injEq] at he'
    rw [← he', hshared] at halone
    exact absurd halone (by decide)
  · intro a k hk
    rcases (addresses_releaseOwner t owner a k).mp hk with ⟨hk', hall⟩
    rcases h.entry_of_address a k hk' with ⟨e₀, h₀, ha⟩
    have hshared : e₀.ownedOnlyBy owner = false :=
      Bool.eq_false_iff.mpr fun halone => hall k e₀ h₀ halone ha
    exact ⟨_, hkept k e₀ h₀ hshared, ha⟩
  · rw [releaseOwner_nextId]
    exact h.next_pos
  · intro k e hk
    rcases hold k e hk with ⟨e₀, h₀, _, _⟩
    rw [releaseOwner_nextId]
    exact h.issued k e₀ h₀
  · intro k e hk
    rcases hold k e hk with ⟨e₀, h₀, hshared, rfl⟩
    exact ObjectEntry.owners_without (h.owned k e₀ h₀) hshared
  · intro k e c hk hcontains
    rcases hold k e hk with ⟨e₀, h₀, _, rfl⟩
    rcases (IdSet.contains_erase _ _ _).mp hcontains with ⟨hne, hcontains₀⟩
    have hopen := h.owners_open k e₀ c h₀ hcontains₀
    -- The connection is closed now, and it was taken out of every entry.
    rw [releaseOwner_closed, Bool.eq_false_iff]
    intro hclosed
    rcases (IdSet.contains_add _ _ _).mp hclosed with heq | hclosed
    · exact hne heq
    · rw [hopen] at hclosed
      exact absurd hclosed (by decide)

theorem perform (h : t.Consistent) (op : ObjectOperation) : (t.perform op).Consistent := by
  cases op with
  | register object className owner => exact h.register object className owner
  | release id => exact h.release id
  | releaseOwner owner => exact h.releaseOwner owner

theorem replay (h : t.Consistent) (ops : List ObjectOperation) : (t.replay ops).Consistent := by
  induction ops generalizing t with
  | nil => exact h
  | cons op rest ih => exact ih (h.perform op)

end Consistent

/-! ## What a number stands for -/

theorem nextId_le_perform (t : ObjectTable) (op : ObjectOperation) :
    t.nextId ≤ (t.perform op).nextId := by
  cases op with
  | register object className owner =>
      simp only [perform]
      cases hf : t.entryOf? object with
      | some found =>
          rw [register_known hf]
          cases t.closed.contains owner <;> exact Nat.le_refl _
      | none =>
          rw [register_new hf]
          cases t.closed.contains owner <;> exact Nat.le_succ _
  | release id =>
      simp only [perform]
      rw [release_eq]
      cases t.entries.get? id <;> exact Nat.le_refl _
  | releaseOwner owner => exact Nat.le_of_eq (releaseOwner_nextId t owner).symm

/-- Below the next number to hand out no entry appears, and none changes its
    instance or its class. -/
theorem entry_of_perform {t : ObjectTable} {op : ObjectOperation} {id : ObjectId}
    {entry : ObjectEntry} (hid : id < t.nextId)
    (he : (t.perform op).entries.get? id = some entry) :
    ∃ entry₀, t.entries.get? id = some entry₀ ∧ entry.object = entry₀.object ∧
      entry.className = entry₀.className := by
  cases op with
  | register object className owner =>
      simp only [perform] at he
      cases hf : t.entryOf? object with
      | some found =>
          rcases found with ⟨k, e⟩
          rw [register_known hf] at he
          cases hc : t.closed.contains owner with
          | true =>
              rw [hc] at he
              exact ⟨entry, he, rfl, rfl⟩
          | false =>
              simp only [hc, Bool.false_eq_true, if_false, Table.get?_insert] at he
              by_cases hk : id = k
              · rw [if_pos hk, Option.some.injEq] at he
                exact ⟨e, hk ▸ (entryOf?_eq_some_iff.mp hf).2, by rw [← he], by rw [← he]⟩
              · rw [if_neg hk] at he
                exact ⟨entry, he, rfl, rfl⟩
      | none =>
          rw [register_new hf] at he
          cases hc : t.closed.contains owner with
          | true =>
              rw [hc] at he
              exact ⟨entry, he, rfl, rfl⟩
          | false =>
              simp only [hc, Bool.false_eq_true, if_false, Table.get?_insert] at he
              -- The new entry is at the next number, which is not below itself.
              rw [if_neg (Nat.ne_of_lt hid)] at he
              exact ⟨entry, he, rfl, rfl⟩
  | release k =>
      simp only [perform] at he
      rw [release_eq] at he
      cases hk : t.entries.get? k with
      | none =>
          rw [hk] at he
          exact ⟨entry, he, rfl, rfl⟩
      | some e =>
          simp only [hk, get?_drop] at he
          by_cases hik : id = k
          · rw [if_pos hik] at he
            exact absurd he (by simp only [reduceCtorEq, not_false_eq_true])
          · rw [if_neg hik] at he
            exact ⟨entry, he, rfl, rfl⟩
  | releaseOwner owner =>
      simp only [perform] at he
      rw [get?_releaseOwner, Option.map_eq_some_iff] at he
      rcases he with ⟨e, he, rfl⟩
      exact ⟨e, (Option.filter_eq_some_iff.mp he).1, rfl, rfl⟩

theorem entry_of_replay {t : ObjectTable} {ops : List ObjectOperation} {id : ObjectId}
    {entry : ObjectEntry} (hid : id < t.nextId)
    (he : (t.replay ops).entries.get? id = some entry) :
    ∃ entry₀, t.entries.get? id = some entry₀ ∧ entry.object = entry₀.object ∧
      entry.className = entry₀.className := by
  induction ops generalizing t with
  | nil => exact ⟨entry, he, rfl, rfl⟩
  | cons op rest ih =>
      rcases ih (Nat.lt_of_lt_of_le hid (nextId_le_perform t op)) he with ⟨e₁, h₁, hobj, hclass⟩
      rcases entry_of_perform hid h₁ with ⟨e₀, h₀, hobj₀, hclass₀⟩
      exact ⟨e₀, h₀, hobj.trans hobj₀, hclass.trans hclass₀⟩

/-- The number given for an instance has been handed out, and if it is live it
    stands for the instance and for the class that was given with it. -/
theorem entry_of_register {t : ObjectTable} (h : t.Consistent) {object : Instance}
    (hadmits : t.Admits object) (className : String) (owner : ConnectionId) :
    (t.register object className owner).1.id < (t.register object className owner).2.nextId ∧
      ∀ entry, (t.register object className owner).2.entries.get?
          (t.register object className owner).1.id = some entry →
        entry.object = object ∧
          entry.className = (t.register object className owner).1.className := by
  cases hf : t.entryOf? object with
  | some found =>
      rcases found with ⟨id, e⟩
      rcases entryOf?_eq_some_iff.mp hf with ⟨haddr, he⟩
      have hlt := (h.issued id e he).2
      rcases h.entry_of_address _ _ haddr with ⟨e', he', ha⟩
      -- An instance is found by its address; that it is the same one is what the
      -- allocator vouches for.
      have hobj : e.object = object := by
        rw [he, Option.some.injEq] at he'
        exact hadmits (id, e) (Table.mem_rows_iff.mpr he) (he' ▸ ha)
      rw [register_known hf]
      cases hc : t.closed.contains owner with
      | true =>
          refine ⟨hlt, fun entry hentry => ?_⟩
          simp only [if_true, he, Option.some.injEq] at hentry
          exact ⟨by rw [← hentry, hobj], by rw [← hentry]⟩
      | false =>
          refine ⟨hlt, fun entry hentry => ?_⟩
          simp only [Bool.false_eq_true, if_false, Table.get?_insert, if_true,
            Option.some.injEq] at hentry
          exact ⟨by rw [← hentry, hobj], by rw [← hentry]⟩
  | none =>
      rw [register_new hf]
      cases hc : t.closed.contains owner with
      | true =>
          refine ⟨Nat.lt_succ_self _, fun entry hentry => ?_⟩
          -- Nothing is live under the next number.
          have hlt := (h.issued _ _ hentry).2
          exact absurd hlt (Nat.lt_irrefl _)
      | false =>
          refine ⟨Nat.lt_succ_self _, fun entry hentry => ?_⟩
          simp only [Bool.false_eq_true, if_false, Table.get?_insert, if_true,
            Option.some.injEq] at hentry
          exact ⟨by rw [← hentry], by rw [← hentry]⟩

theorem replay_append (t : ObjectTable) (ops rest : List ObjectOperation) :
    t.replay (ops ++ rest) = (t.replay ops).replay rest :=
  List.foldl_append

theorem Genuine.admits {t : ObjectTable} {before after : List ObjectOperation}
    {object : Instance} {className : String} {owner : ConnectionId}
    (h : t.Genuine (before ++ .register object className owner :: after)) :
    (t.replay before).Admits object := by
  induction before generalizing t with
  | nil => exact h.1
  | cons op rest ih =>
      cases op with
      | register o c w => exact ih h.2
      | release id => exact ih h
      | releaseOwner w => exact ih h

/-- A table that only its own operations have made represents the live
    instances. It is consistent; no instance is live under two numbers; a
    number that is live leads to the instance it was given for, and to the
    class it was given with, which for a new number is the class asked for;
    and entering a live instance again gives the number and the class it has,
    whoever asks, and changes nothing but that a connected owner is added. -/
theorem replay_represents (ops : List ObjectOperation) :
    (({} : ObjectTable).replay ops).Consistent ∧
    (∀ id id' object object', (({} : ObjectTable).replay ops).resolve id = .ok object →
      (({} : ObjectTable).replay ops).resolve id' = .ok object' →
      object.address = object'.address → id = id') ∧
    (({} : ObjectTable).Genuine ops →
      ∀ before object className owner after,
        ops = before ++ .register object className owner :: after →
        ∀ given, given = ((({} : ObjectTable).replay before).register object className owner).1 →
          ((({} : ObjectTable).replay before).entryOf? object = none →
            given.className = className) ∧
          ((({} : ObjectTable).replay ops).contains given.id = true →
            (({} : ObjectTable).replay ops).resolve given.id = .ok object ∧
            ∀ context,
              (({} : ObjectTable).replay ops).resolveAs given.id given.className context =
                .ok object)) ∧
    (∀ id entry className owner, (({} : ObjectTable).replay ops).entries.get? id = some entry →
      (({} : ObjectTable).replay ops).register entry.object className owner =
        (⟨id, entry.className⟩,
          if (({} : ObjectTable).replay ops).closed.contains owner then
            ({} : ObjectTable).replay ops
          else { ({} : ObjectTable).replay ops with
            entries := (({} : ObjectTable).replay ops).entries.insert id
              { entry with owners := entry.owners.add owner } })) := by
  have hconsistent := Consistent.init.replay ops
  refine ⟨hconsistent, ?_, ?_, ?_⟩
  · intro id id' object object' hid hid' ha
    rcases resolve_eq_ok_iff.mp hid with ⟨entry, he, rfl⟩
    rcases resolve_eq_ok_iff.mp hid' with ⟨entry', he', rfl⟩
    exact hconsistent.id_unique he he' ha
  · rintro hgenuine before object className owner after rfl given rfl
    have hbefore := Consistent.init.replay before
    rcases entry_of_register hbefore hgenuine.admits className owner with ⟨hlt, hstands⟩
    refine ⟨fun hnew => by rw [register_new hnew], fun hlive => ?_⟩
    rcases Table.contains_iff.mp hlive with ⟨entry, he⟩
    -- What is live in the end was live right after it was entered.
    rw [replay_append] at he
    rcases entry_of_replay hlt he with ⟨entry₀, h₀, hobj, hclass⟩
    rcases hstands entry₀ h₀ with ⟨hobj₀, hclass₀⟩
    rw [replay_append]
    refine ⟨?_, fun context => ?_⟩
    · exact resolve_eq_ok_iff.mpr ⟨entry, he, hobj.trans hobj₀⟩
    · exact resolveAs_eq_ok_iff.mpr ⟨entry, he, hclass.trans hclass₀, hobj.trans hobj₀⟩
  · intro id entry className owner he
    exact register_known (entryOf?_eq_some_iff.mpr
      ⟨hconsistent.address_of_entry id entry he, he⟩) className owner

/-- An address that was released is given again, and leads to the instance
    that has it now. -/
theorem address_given_again :
    ({} : ObjectTable).Genuine
      [.register ⟨5, .label "a"⟩ "S.A" 1, .release 1, .register ⟨5, .label "b"⟩ "S.B" 2] ∧
    (({} : ObjectTable).replay
      [.register ⟨5, .label "a"⟩ "S.A" 1, .release 1,
        .register ⟨5, .label "b"⟩ "S.B" 2]).resolve 2 = .ok ⟨5, .label "b"⟩ := by
  have hgenuine : ({} : ObjectTable).Genuine
      [.register ⟨5, .label "a"⟩ "S.A" 1, .release 1, .register ⟨5, .label "b"⟩ "S.B" 2] := by
    -- When the address comes back, the entry that had it is gone.
    refine ⟨?_, ?_, trivial⟩ <;> unfold Admits <;> decide
  exact ⟨hgenuine,
    (((replay_represents _).2.2.1 hgenuine [.register ⟨5, .label "a"⟩ "S.A" 1, .release 1] _ _ _
      [] rfl _ rfl).2 (by decide)).1⟩

end ObjectTable

end Switchboard
