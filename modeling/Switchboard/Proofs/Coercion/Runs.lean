import Mathlib.Data.List.Forall2
import Switchboard.Coercion

/-!
# Runs of Reading and Writing

Reading may fail; writing may fail and hands a table on. Both go through a value
from left to right, and a traversal succeeds exactly if each of its steps does, with
a result for each item in the same order. For reading this is an equivalence, with
`List.Forall₂` between the items and the results.

Writing is taken apart one step at a time. What comes first is run on the table there
is, and if it gives something, what comes next is run on the table it leaves.

## Theorems

* `mapM_eq_ok_iff_forall₂`: A traversal and its results.
* `mapM_eq_error_iff`: The first step of a traversal that fails.
* `map_eq_ok_iff`, `map₂_eq_ok_iff`, `map_eq_error_iff`: What is made of results.
* `Writing.run_bind`: One step after another.
* `Writing.run_register`: Entering an instance.
* `encode_optional`: Writing at an optional type.
-/

namespace Switchboard

variable {ε α β : Type}

theorem mapM_eq_ok_iff_forall₂ {f : α → Except ε β} {items : List α} {results : List β} :
    items.mapM f = .ok results ↔
      List.Forall₂ (fun item result => f item = .ok result) items results := by
  induction items generalizing results with
  | nil =>
      rw [List.mapM_nil, List.forall₂_nil_left_iff]
      exact ⟨fun h => (Except.ok.inj h).symm, fun h => h ▸ rfl⟩
  | cons item rest ih =>
      rw [List.mapM_cons, List.forall₂_cons_left_iff]
      cases hitem : f item with
      | error e => exact iff_of_false (fun h => by cases h) fun ⟨_, _, h, _⟩ => by cases h
      | ok result =>
          cases hrest : rest.mapM f with
          | error e =>
              refine iff_of_false (fun h => by cases h) fun ⟨_, others, _, hothers, _⟩ => ?_
              rw [ih.mpr hothers] at hrest
              cases hrest
          | ok others =>
              constructor
              · exact fun h => ⟨result, others, rfl, ih.mp hrest, (Except.ok.inj h).symm⟩
              · rintro ⟨result', others', hresult, hothers, rfl⟩
                rw [ih.mpr hothers] at hrest
                rw [Except.ok.inj hresult, Except.ok.inj hrest]
                rfl

/-- What holds of the second of each pair holds of each of the second. -/
theorem forall_mem_right {α β : Type} {R : α → β → Prop} {P : β → Prop} {items : List α}
    {results : List β} (h : List.Forall₂ R items results)
    (hP : ∀ item result, R item result → P result) : ∀ result ∈ results, P result := by
  induction h with
  | nil => exact List.forall_mem_nil _
  | cons hfirst _ ih => exact List.forall_mem_cons.mpr ⟨hP _ _ hfirst, ih⟩

/-- Nothing is made of an error. -/
theorem map_eq_error_iff {x : Except ε α} {f : α → β} {e : ε} :
    (do return f (← x)) = Except.error e ↔ x = .error e := by
  cases x with
  | error e' =>
      exact ⟨fun h => congrArg _ (Except.error.inj h), fun h => congrArg _ (Except.error.inj h)⟩
  | ok a => exact iff_of_false (fun h => by cases h) fun h => by cases h

/-- A traversal fails if some step does and the ones before it do not, and it fails
    for the reason that this step does. -/
theorem mapM_eq_error_iff {f : α → Except ε β} {items : List α} {e : ε} :
    items.mapM f = .error e ↔ ∃ (position : Nat) (item : α), items[position]? = some item ∧
      f item = .error e ∧ ∀ before < position, ∀ earlier, items[before]? = some earlier →
        ∃ result, f earlier = .ok result := by
  induction items with
  | nil => exact iff_of_false (fun h => by cases h) fun ⟨_, _, h, _⟩ => nomatch h
  | cons head rest ih =>
      rw [List.mapM_cons]
      cases hhead : f head with
      | error e' =>
          constructor
          · intro h
            refine ⟨0, head, rfl, hhead.trans (congrArg _ (Except.error.inj h)), ?_⟩
            exact fun before hbefore => absurd hbefore (Nat.not_lt_zero _)
          · rintro ⟨position, item, hitem, herror, hearlier⟩
            cases position with
            | zero =>
                obtain rfl : head = item := Option.some.inj hitem
                exact congrArg _ (Except.error.inj (hhead.symm.trans herror))
            | succ position =>
                rcases hearlier 0 (Nat.succ_pos _) head rfl with ⟨_, hok⟩
                exact nomatch hhead.symm.trans hok
      | ok first =>
          -- The head is no reason to fail, so the reason is in the rest.
          have hrest : (do return first :: (← rest.mapM f)) = Except.error e ↔
              rest.mapM f = .error e := map_eq_error_iff
          refine Iff.trans hrest (ih.trans ?_)
          constructor
          · rintro ⟨position, item, hitem, herror, hearlier⟩
            refine ⟨position + 1, item, hitem, herror, fun before hbefore earlier h => ?_⟩
            cases before with
            | zero => exact ⟨first, Option.some.inj h ▸ hhead⟩
            | succ before => exact hearlier before (Nat.lt_of_succ_lt_succ hbefore) earlier h
          · rintro ⟨position, item, hitem, herror, hearlier⟩
            cases position with
            | zero =>
                obtain rfl : head = item := Option.some.inj hitem
                exact nomatch hhead.symm.trans herror
            | succ position =>
                exact ⟨position, item, hitem, herror, fun before hbefore =>
                  hearlier (before + 1) (Nat.succ_lt_succ hbefore)⟩

/-- What is made of a result. -/
theorem map_eq_ok_iff {x : Except ε α} {f : α → β} {b : β} :
    (do return f (← x)) = Except.ok b ↔ ∃ a, x = .ok a ∧ f a = b := by
  cases x with
  | error e => exact iff_of_false (fun h => by cases h) fun ⟨_, h, _⟩ => by cases h
  | ok a =>
      constructor
      · exact fun h => ⟨a, rfl, Except.ok.inj h⟩
      · rintro ⟨_, ha, rfl⟩
        rw [Except.ok.inj ha]
        rfl

/-- What is never made of a result. -/
theorem map_ne_ok {x : Except ε α} {f : α → β} {b : β} (h : ∀ a, f a ≠ b) :
    (do return f (← x)) ≠ Except.ok b := by
  rw [Ne, map_eq_ok_iff]
  exact fun ⟨a, _, hb⟩ => h a hb

/-- What is made of two results in a row. -/
theorem map₂_eq_ok_iff {γ : Type} {x : Except ε α} {y : Except ε β} {f : α → β → γ} {c : γ} :
    (do let a ← x; let b ← y; return f a b) = Except.ok c ↔
      ∃ a b, x = .ok a ∧ y = .ok b ∧ f a b = c := by
  cases x with
  | error e => exact iff_of_false (fun h => by cases h) fun ⟨_, _, h, _⟩ => by cases h
  | ok a =>
      refine (map_eq_ok_iff (f := f a)).trans ?_
      simp only [Except.ok.injEq, exists_and_left, exists_eq_left']

/-- Of two results in a row it is the first error that counts. -/
theorem map₂_eq_error {γ : Type} {x : Except ε α} {y : Except ε β} {f : α → β → γ} {e : ε}
    (h : (do let a ← x; let b ← y; return f a b) = Except.error e) :
    x = .error e ∨ y = .error e := by
  cases x with
  | error e' => exact .inl (congrArg _ (Except.error.inj h))
  | ok a => exact .inr (map_eq_error_iff.mp h)

namespace Writing

theorem run_bind (m : Writing α) (k : α → Writing β) (t : ObjectTable) :
    (m >>= k).run.run t =
      match m.run.run t with
      | (.ok a, t') => (k a).run.run t'
      | (.error e, t') => (.error e, t') := by
  simp only [ExceptT.run, StateT.run, Bind.bind, ExceptT.bind, ExceptT.mk, StateT.bind]
  rcases m t with ⟨result, t'⟩
  cases result <;> rfl

theorem run_bind_eq_ok {m : Writing α} {k : α → Writing β} {t t'' : ObjectTable} {b : β}
    (h : (m >>= k).run.run t = (.ok b, t'')) :
    ∃ a t', m.run.run t = (.ok a, t') ∧ (k a).run.run t' = (.ok b, t'') := by
  rw [run_bind] at h
  rcases hm : m.run.run t with ⟨result, t'⟩
  rw [hm] at h
  cases result with
  | error e => exact nomatch (Prod.mk.inj h).1
  | ok a => exact ⟨a, t', rfl, h⟩

theorem run_register (t : ObjectTable) (object : Instance) (className : String)
    (owner : ConnectionId) :
    (Writing.register object className owner).run.run t =
      (.ok (t.register object className owner).1.id, (t.register object className owner).2) := rfl

end Writing

theorem encode_optional {services : Services} {owner : ConnectionId} {context : String}
    {v : NativeValue} (h : v ≠ .null) (inner : Ty) :
    encode services owner context (.optional inner) v = encode services owner context inner v := by
  cases v with
  | null => exact absurd rfl h
  | _ => rfl

end Switchboard
