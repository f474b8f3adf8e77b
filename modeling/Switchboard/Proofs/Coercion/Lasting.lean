import Switchboard.Proofs.Coercion.Runs

/-!
# What Lasts

A part of a value is written while the rest of it is still to come, and what is said of
the part has to hold in the end. So it is said of the table that the part leaves and of
every table that may come later, and then writing the rest cannot change it.

Which tables writing may start from and which are later depends on what is said. It is
enough that later is an order, and a `Frame` is a choice of both. For every such choice
what lasts is carried through writing in the same way, from one step to the next and
through the items of a list.

## Main definitions

* `Frame`: The tables that writing starts from, and those that come later.
* `Frame.Lasts`: Writing after which something holds for good.

## Theorems

* `Frame.Lasts.bind`, `Frame.Lasts.mapM`: What lasts, step by step and item by item.
-/

namespace Switchboard

/-- The tables that writing starts from and leaves, the tables that come later, and
    those among them about which something is said. -/
structure Frame where
  good : ObjectTable → Prop
  sound : ObjectTable → Prop
  later : ObjectTable → ObjectTable → Prop
  refl : ∀ t, later t t
  trans : ∀ {t t' t''}, later t t' → later t' t'' → later t t''

namespace Frame

/-- Writing after which, if it succeeds, something holds of the result for good: for
    the table that it leaves and for every later one. -/
def Lasts (F : Frame) {α : Type} (m : Writing α) (Q : ObjectTable → α → Prop) : Prop :=
  ∀ t, F.good t → ∀ a t', m.run.run t = (.ok a, t') →
    F.good t' ∧ F.later t t' ∧ ∀ t'', F.later t' t'' → F.sound t'' → Q t'' a

namespace Lasts

variable {F : Frame} {α β : Type}

theorem pure {a : α} {Q : ObjectTable → α → Prop} (h : ∀ t, Q t a) :
    F.Lasts (Pure.pure a) Q := by
  intro t hgood b t' hrun
  cases hrun
  exact ⟨hgood, F.refl t, fun t'' _ _ => h t''⟩

theorem throw {e : CallError} {Q : ObjectTable → α → Prop} :
    F.Lasts (MonadExcept.throw e) Q :=
  fun _ _ _ _ hrun => nomatch hrun

theorem imp {m : Writing α} {P Q : ObjectTable → α → Prop} (hm : F.Lasts m P)
    (h : ∀ t a, P t a → Q t a) : F.Lasts m Q := by
  intro t hgood a t' hrun
  rcases hm t hgood a t' hrun with ⟨hgood', hlater, hP⟩
  exact ⟨hgood', hlater, fun t'' ht'' hsound => h t'' a (hP t'' ht'' hsound)⟩

theorem bind {m : Writing α} {k : α → Writing β} {P : ObjectTable → α → Prop}
    {Q : ObjectTable → β → Prop} (hm : F.Lasts m P)
    (hk : ∀ a, F.Lasts (k a) fun t b => P t a → Q t b) : F.Lasts (m >>= k) Q := by
  intro t hgood b t'' hrun
  rcases Writing.run_bind_eq_ok hrun with ⟨a, t', hfirst, hrest⟩
  rcases hm t hgood a t' hfirst with ⟨hgood', hlater, hP⟩
  rcases hk a t' hgood' b t'' hrest with ⟨hgood'', hlater', hQ⟩
  -- What the first step left behind lasts while the second is carried out.
  refine ⟨hgood'', F.trans hlater hlater', fun u hu hsound => ?_⟩
  exact hQ u hu hsound (hP u (F.trans hlater' hu) hsound)

theorem map {m : Writing α} {P : ObjectTable → α → Prop} {Q : ObjectTable → β → Prop} {f : α → β}
    (hm : F.Lasts m P) (h : ∀ t a, P t a → Q t (f a)) : F.Lasts (do return f (← m)) Q :=
  hm.bind fun a => .pure fun t => h t a

theorem mapM {f : α → Writing β} {P : α → ObjectTable → β → Prop} {items : List α}
    (h : ∀ item ∈ items, F.Lasts (f item) (P item)) :
    F.Lasts (items.mapM f) fun t results =>
      List.Forall₂ (fun item result => P item t result) items results := by
  induction items with
  | nil => exact .pure fun _ => .nil
  | cons item rest ih =>
      rw [List.forall_mem_cons] at h
      rw [List.mapM_cons]
      refine h.1.bind fun result => (ih h.2).map fun t others hothers hresult => ?_
      exact .cons hresult hothers

/-- An integer that is not refused is declared, and that is not a matter of tables. -/
theorem checkMember {services : Services} {context service name : String} {n : Int32} :
    F.Lasts (liftExcept (Switchboard.checkMember services context (.enumeration service name) n))
      fun _ _ => services.hasMember (.enumeration service name) n := by
  rw [Switchboard.checkMember]
  split
  · next hmember => exact .pure fun _ => hmember
  · exact .throw

end Lasts

end Frame

end Switchboard
