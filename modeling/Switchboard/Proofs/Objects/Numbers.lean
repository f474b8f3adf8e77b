import Switchboard.Proofs.Objects.Consistency

/-!
# Numbers Over Time

What becomes of the numbers of objects in the course of a run. They are handed
out in ascending order, and a number that has ended, in whichever way, leads
nowhere ever after.

A number ends in one of three ways. Its entry is released, or the last
connection that owns the entry disconnects, or the number never had an entry,
because the connection it was handed out to had disconnected already. The
third way is easily forgotten: a client may be told a number that was never
live. `Ends` lists the three, each with the instance that the number stood
for, and `Ends.ended` says what they have in common. After it no entry has the
number, no address leads to it, and the number is below the next one to hand
out.

These three facts are all that later operations have to keep. An entry below
the next number is never made anew (`entry_of_replay`), so the number stays
without entry; and an instance whose address led nowhere when the number ended
can only be found later under a number that was handed out since.

## Main definitions

* `newNumber?`, `newNumbers`: The numbers that operations hand out.
* `Ends`: The ways in which a number ends.

## Theorems

* `newNumbers_ascending`: Numbers are handed out in ascending order.
* `Ends.ended`: What holds once a number has ended.
* `get?_replay_eq_none`: A number without entry gets none later.
* `le_register_id`: An instance that is entered again gets a new number.
* `ended_numbers_lead_nowhere`: The numbers of a run.
-/

namespace Switchboard

theorem ObjectEntry.ownedOnlyBy_of_iff {entry : ObjectEntry} {owner : ConnectionId}
    (h : ∀ c, entry.owners.contains c = true ↔ c = owner) : entry.ownedOnlyBy owner = true := by
  unfold ownedOnlyBy
  rw [(h owner).mpr rfl, Bool.true_and, ← Bool.not_eq_false]
  intro hsome
  -- Whoever is left once the owner is taken out would be a second owner.
  rcases Table.isEmpty_eq_false_iff.mp hsome with ⟨c, hc⟩
  rcases (IdSet.contains_erase _ _ _).mp hc with ⟨hne, hcontains⟩
  exact hne ((h c).mp hcontains)

namespace ObjectTable

/-! ## Handing out -/

/-- The number that an operation hands out to an instance which is not
    entered. -/
def newNumber? (t : ObjectTable) : ObjectOperation → Option ObjectId
  | .register object className owner =>
    match t.entryOf? object with
    | some _ => none
    | none => some (t.register object className owner).1.id
  | _ => none

/-- The numbers that several operations hand out, one after the other. -/
def newNumbers (t : ObjectTable) : List ObjectOperation → List ObjectId
  | [] => []
  | op :: ops => (t.newNumber? op).toList ++ (t.perform op).newNumbers ops

theorem newNumber?_eq_some {t : ObjectTable} {op : ObjectOperation} {id : ObjectId}
    (h : t.newNumber? op = some id) : id = t.nextId ∧ (t.perform op).nextId = id + 1 := by
  cases op with
  | register object className owner =>
      cases hf : t.entryOf? object with
      | some found =>
          simp only [newNumber?, hf] at h
          exact absurd h (by simp only [reduceCtorEq, not_false_eq_true])
      | none =>
          simp only [newNumber?, hf, register_new hf, Option.some.injEq] at h
          refine ⟨h.symm, ?_⟩
          rw [← h, perform, register_new hf]
          -- The number is used up whether or not anything is entered under it.
          cases t.closed.contains owner <;> rfl
  | release id => exact absurd h (by simp only [newNumber?, reduceCtorEq, not_false_eq_true])
  | releaseOwner owner =>
      exact absurd h (by simp only [newNumber?, reduceCtorEq, not_false_eq_true])

theorem nextId_le_replay (t : ObjectTable) (ops : List ObjectOperation) :
    t.nextId ≤ (t.replay ops).nextId := by
  induction ops generalizing t with
  | nil => exact Nat.le_refl _
  | cons op rest ih => exact Nat.le_trans (nextId_le_perform t op) (ih (t.perform op))

/-- The numbers of a run lie between the next number before it and the next
    number after it. -/
theorem newNumbers_bounds {t : ObjectTable} {ops : List ObjectOperation} {id : ObjectId}
    (h : id ∈ t.newNumbers ops) : t.nextId ≤ id ∧ id < (t.replay ops).nextId := by
  induction ops generalizing t with
  | nil => exact absurd h List.not_mem_nil
  | cons op rest ih =>
      rcases List.mem_append.mp h with h | h
      · rcases newNumber?_eq_some (Option.mem_toList.mp h) with ⟨heq, hnext⟩
        refine ⟨Nat.le_of_eq heq.symm, Nat.lt_of_succ_le ?_⟩
        rw [Nat.succ_eq_add_one, ← hnext]
        exact nextId_le_replay (t.perform op) rest
      · have hstep := nextId_le_perform t op
        rcases ih h with ⟨hle, hlt⟩
        exact ⟨Nat.le_trans hstep hle, hlt⟩

/-- Numbers are handed out in ascending order. -/
theorem newNumbers_ascending (t : ObjectTable) (ops : List ObjectOperation) :
    (t.newNumbers ops).Pairwise (· < ·) := by
  induction ops generalizing t with
  | nil => exact List.Pairwise.nil
  | cons op rest ih =>
      rw [newNumbers, List.pairwise_append]
      refine ⟨?_, ih (t.perform op), ?_⟩
      · cases t.newNumber? op with
        | none => exact List.Pairwise.nil
        | some id => exact List.pairwise_singleton _ _
      · intro id hid k hk
        -- What is handed out later is not below the next number after this one.
        have hle := (newNumbers_bounds hk).1
        rw [(newNumber?_eq_some (Option.mem_toList.mp hid)).2] at hle
        exact Nat.lt_of_succ_le hle

/-! ## Ending -/

/-- The ways in which a number ends in an operation, with the instance that it
    stood for. -/
inductive Ends (t : ObjectTable) : ObjectOperation → ObjectId → Instance → Prop
  /-- Its entry is released. -/
  | released {id : ObjectId} {entry : ObjectEntry} :
    t.entries.get? id = some entry → Ends t (.release id) id entry.object
  /-- The only owner of its entry disconnects. -/
  | orphaned {id : ObjectId} {entry : ObjectEntry} {owner : ConnectionId} :
    t.entries.get? id = some entry → (∀ c, entry.owners.contains c = true ↔ c = owner) →
    Ends t (.releaseOwner owner) id entry.object
  /-- It is handed out to a connection that has disconnected. -/
  | unretained {object : Instance} {className : String} {owner : ConnectionId} :
    t.entryOf? object = none → t.closed.contains owner = true →
    Ends t (.register object className owner) (t.register object className owner).1.id object

/-- Once a number has ended it has no entry and its instance is not found, and
    it is not handed out again. -/
theorem Ends.ended {t : ObjectTable} {op : ObjectOperation} {id : ObjectId} {object : Instance}
    (h : t.Ends op id object) (hconsistent : t.Consistent) :
    (t.perform op).entries.get? id = none ∧
      (t.perform op).addresses.get? object.address = none ∧ id < (t.perform op).nextId := by
  cases h with
  | @released id entry he =>
      have hlt := (hconsistent.issued id entry he).2
      simp only [perform, release_eq, he]
      exact ⟨by rw [get?_drop, if_pos rfl], by rw [addresses_drop, if_pos rfl], hlt⟩
  | @orphaned id entry owner he howners =>
      have hlt := (hconsistent.issued id entry he).2
      have halone := ObjectEntry.ownedOnlyBy_of_iff howners
      simp only [perform]
      refine ⟨?_, ?_, by rw [releaseOwner_nextId]; exact hlt⟩
      · rw [get?_releaseOwner, he, Option.filter_some, halone]
        rfl
      · rw [Option.eq_none_iff_forall_ne_some]
        intro k hk
        -- The address of an entry that goes is forgotten with it.
        exact ((addresses_releaseOwner t owner _ k).mp hk).2 id entry he halone rfl
  | @unretained object className owner hf hclosed =>
      simp only [perform, register_new hf, hclosed, if_true]
      refine ⟨?_, hconsistent.entryOf?_eq_none_iff.mp hf, Nat.lt_succ_self _⟩
      rw [Option.eq_none_iff_forall_ne_some]
      intro entry he
      -- Nothing is live under the next number.
      exact absurd (hconsistent.issued _ _ he).2 (Nat.lt_irrefl _)

/-- A number that has been handed out and has no entry gets none later. -/
theorem get?_replay_eq_none {t : ObjectTable} {id : ObjectId} (hid : id < t.nextId)
    (h : t.entries.get? id = none) (ops : List ObjectOperation) :
    (t.replay ops).entries.get? id = none := by
  rw [Option.eq_none_iff_forall_ne_some]
  intro entry he
  rcases entry_of_replay hid he with ⟨entry₀, h₀, _⟩
  rw [h] at h₀
  exact absurd h₀ (by simp only [reduceCtorEq, not_false_eq_true])

theorem resolve_of_get?_eq_none {t : ObjectTable} {id : ObjectId} (h : t.entries.get? id = none) :
    t.resolve id = .error (.invalidReference id) ∧
      ∀ className context, t.resolveAs id className context = .error (.invalidReference id) := by
  unfold resolve resolveAs
  simp only [h, implies_true, and_self]

/-- An instance is given a number that has no entry only if it is the next
    one. -/
theorem register_id_ne {t : ObjectTable} {id : ObjectId} (hid : id < t.nextId)
    (h : t.entries.get? id = none) (object : Instance) (className : String)
    (owner : ConnectionId) : (t.register object className owner).1.id ≠ id := by
  cases hf : t.entryOf? object with
  | some found =>
      rw [register_known hf]
      rintro rfl
      rw [(entryOf?_eq_some_iff.mp hf).2] at h
      exact absurd h (by simp only [reduceCtorEq, not_false_eq_true])
  | none =>
      rw [register_new hf]
      exact Ne.symm (Nat.ne_of_lt hid)

/-- An instance that was not found at some time, and is entered later, gets a
    number that was not handed out at that time. -/
theorem le_register_id {t : ObjectTable} (h : t.Consistent) {object : Instance}
    (hfree : t.addresses.get? object.address = none) (ops : List ObjectOperation)
    (className : String) (owner : ConnectionId) :
    t.nextId ≤ ((t.replay ops).register object className owner).1.id := by
  cases hf : (t.replay ops).entryOf? object with
  | none =>
      rw [register_new hf]
      exact nextId_le_replay t ops
  | some found =>
      rcases found with ⟨k, entry⟩
      rw [register_known hf]
      refine Nat.le_of_not_lt fun hlt => ?_
      -- Otherwise its entry is an old one, at an address that led somewhere.
      rcases entryOf?_eq_some_iff.mp hf with ⟨haddr, he⟩
      rcases (h.replay ops).entry_of_address _ _ haddr with ⟨entry', he', ha⟩
      rcases entry_of_replay hlt he' with ⟨entry₀, h₀, hobj, _⟩
      have hold := h.address_of_entry k entry₀ h₀
      rw [← hobj, ha, hfree] at hold
      exact absurd hold (by simp only [reduceCtorEq, not_false_eq_true])

/-- The numbers of a run. They are handed out in ascending order. Once a number
    has ended it is an invalid reference in every later state, under whatever
    class it is asked for; no instance is given it again; and the instance that
    it stood for, when it is entered again, is given a number above all that
    had been handed out until then. -/
theorem ended_numbers_lead_nowhere (ops : List ObjectOperation) :
    (({} : ObjectTable).newNumbers ops).Pairwise (· < ·) ∧
    ∀ before op after id object, ops = before ++ op :: after →
      (({} : ObjectTable).replay before).Ends op id object →
      (({} : ObjectTable).replay ops).resolve id = .error (.invalidReference id) ∧
      (∀ className context, (({} : ObjectTable).replay ops).resolveAs id className context =
        .error (.invalidReference id)) ∧
      (∀ object' className owner,
        ((({} : ObjectTable).replay ops).register object' className owner).1.id ≠ id) ∧
      (∀ className owner, ∀ k ∈ ({} : ObjectTable).newNumbers (before ++ [op]),
        k < ((({} : ObjectTable).replay ops).register object className owner).1.id) := by
  refine ⟨newNumbers_ascending _ ops, ?_⟩
  rintro before op after id object rfl hends
  have hbefore := Consistent.init.replay before
  rcases hends.ended hbefore with ⟨hgone, hfree, hlt⟩
  -- The run goes on from the state right after the number ended.
  have hsplit : ({} : ObjectTable).replay (before ++ op :: after) =
      ((({} : ObjectTable).replay before).perform op).replay after :=
    replay_append _ before (op :: after)
  rw [hsplit]
  have hnone := get?_replay_eq_none hlt hgone after
  have hlt' := Nat.lt_of_lt_of_le hlt (nextId_le_replay _ after)
  rcases resolve_of_get?_eq_none hnone with ⟨hresolve, hresolveAs⟩
  refine ⟨hresolve, hresolveAs, register_id_ne hlt' hnone, ?_⟩
  intro className owner k hk
  have hknown := (newNumbers_bounds hk).2
  rw [replay_append] at hknown
  exact Nat.lt_of_lt_of_le hknown
    (le_register_id (hbefore.perform op) hfree after className owner)

/-- Two instances lose their numbers, one by release and one because the
    connection was gone; both are entered again under numbers above. -/
theorem numbers_after_ends :
    (({} : ObjectTable).replay
      [.register ⟨5, .label "a"⟩ "S.A" 1, .releaseOwner 2, .register ⟨6, .label "b"⟩ "S.A" 2,
        .release 1, .register ⟨5, .label "a"⟩ "S.A" 1]).resolve 1 =
      .error (.invalidReference 1) ∧
    2 < ((({} : ObjectTable).replay
      [.register ⟨5, .label "a"⟩ "S.A" 1, .releaseOwner 2, .register ⟨6, .label "b"⟩ "S.A" 2,
        .release 1, .register ⟨5, .label "a"⟩ "S.A" 1]).register
          ⟨6, .label "b"⟩ "S.A" 1).1.id := by
  have hrun := ended_numbers_lead_nowhere
    [.register ⟨5, .label "a"⟩ "S.A" 1, .releaseOwner 2, .register ⟨6, .label "b"⟩ "S.A" 2,
      .release 1, .register ⟨5, .label "a"⟩ "S.A" 1]
  have hreleased := hrun.2
    [.register ⟨5, .label "a"⟩ "S.A" 1, .releaseOwner 2, .register ⟨6, .label "b"⟩ "S.A" 2]
    (.release 1) [.register ⟨5, .label "a"⟩ "S.A" 1] 1 ⟨5, .label "a"⟩ rfl
    (@Ends.released _ 1 ⟨⟨5, .label "a"⟩, "S.A", .of 1⟩ rfl)
  have hunretained := hrun.2 [.register ⟨5, .label "a"⟩ "S.A" 1, .releaseOwner 2]
    (.register ⟨6, .label "b"⟩ "S.A" 2)
    [.release 1, .register ⟨5, .label "a"⟩ "S.A" 1] 2 ⟨6, .label "b"⟩ rfl (.unretained rfl rfl)
  exact ⟨hreleased.1, hunretained.2.2.2 "S.A" 1 2 (by decide)⟩

end ObjectTable

end Switchboard
