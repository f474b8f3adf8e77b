import Switchboard.Proofs.Coercion.Runs
import Switchboard.Proofs.Dispatcher.Turn
import Switchboard.Scan

/-!
# What Writing Comes Across

Which instances are entered when a value is written, and under which classes. Both
can be told from the value and the type alone: writing goes through the value from
left to right, and at each instance the type names the class that is asked for there.
`sightings` lists them.

Writing is made of few steps, and what is said about it and what it comes across is
mostly said by saying it of each of them and of one after another (`Composes`). So it
is with what is entered. What the table of live objects is like decides how far
writing gets with an instance, but not which one is next. A value that does not fit is
given up somewhere, and then the instances entered are the first few of those listed
(`Along`).

## Main definitions

* `Sighting`: An instance at a place where a class is asked for.
* `sightings`: Those that writing a value comes across.
* `Writing.Composes`: What carries over from the steps of writing to the whole.
* `ObjectTable.enterAll`: Entering one after the other.
* `Writing.Along`: Writing that enters what is listed, as far as it gets.

## Theorems

* `mem_named_of_mem_sightings`: The classes are those that the type names.
* `Writing.Composes.encode`: What carries over holds of values and their sightings.
* `writeReturn_along`: Results are written along their sightings.
-/

namespace Switchboard

/-- An instance, and the class that is asked for at the place where it stands. -/
structure Sighting where
  object : Instance
  service : String
  name : String

/-- What the instance is entered under if it is not entered yet. -/
def Sighting.key (seen : Sighting) : String := classKey seen.service seen.name

mutual

/-- The instances that writing a value against a type comes across, from left to
    right. -/
def sightings : Ty → NativeValue → List Sighting
  | .optional _, .null => []
  | .optional inner, v => sightings inner v
  | .list element, .list items => items.flatMap (sightings element)
  | .set element, .set items => items.flatMap (sightings element)
  | .map key value, .map entries => entries.flatMap fun (k, v) =>
    sightings key k ++ sightings value v
  | .tuple elements, .tuple items => sightingsPairwise elements items
  | .instanceOf service name, .object object => [⟨object, service, name⟩]
  | _, _ => []

/-- Those in the items of a tuple, each written against its own type. -/
def sightingsPairwise : List Ty → List NativeValue → List Sighting
  | t :: ts, v :: vs => sightings t v ++ sightingsPairwise ts vs
  | _, _ => []

end

/-! ## The classes that are asked for -/

mutual

theorem mem_named_of_mem_sightings {seen : Sighting} : ∀ (ty : Ty) {v : NativeValue},
    seen ∈ sightings ty v → Ty.instanceOf seen.service seen.name ∈ ty.named
  | .bool, v, h | .int32, v, h | .int64, v, h | .float32, v, h | .float64, v, h
  | .string, v, h | .bytes, v, h | .enumeration .., v, h => by
      cases v <;> exact absurd h List.not_mem_nil
  | .instanceOf service name, v, h => by
      cases v with
      | object object => exact List.mem_singleton.mp h ▸ List.mem_cons_self
      | _ => exact absurd h List.not_mem_nil
  | .optional inner, v, h => by
      cases v with
      | null => exact absurd h List.not_mem_nil
      | _ => exact mem_named_of_mem_sightings inner h
  | .list element, v, h => by
      cases v with
      | list items =>
          rcases List.mem_flatMap.mp h with ⟨item, _, hitem⟩
          exact mem_named_of_mem_sightings element hitem
      | _ => exact absurd h List.not_mem_nil
  | .set element, v, h => by
      cases v with
      | set items =>
          rcases List.mem_flatMap.mp h with ⟨item, _, hitem⟩
          exact mem_named_of_mem_sightings element hitem
      | _ => exact absurd h List.not_mem_nil
  | .map key value, v, h => by
      cases v with
      | map entries =>
          rcases List.mem_flatMap.mp h with ⟨entry, _, hentry⟩
          rw [Ty.named, List.mem_append]
          rcases List.mem_append.mp hentry with hkey | hvalue
          · exact Or.inl (mem_named_of_mem_sightings key hkey)
          · exact Or.inr (mem_named_of_mem_sightings value hvalue)
      | _ => exact absurd h List.not_mem_nil
  | .tuple elements, v, h => by
      cases v with
      | tuple items => exact mem_namedAll_of_mem_sightingsPairwise elements h
      | _ => exact absurd h List.not_mem_nil

theorem mem_namedAll_of_mem_sightingsPairwise {seen : Sighting} : ∀ (tys : List Ty)
    {vs : List NativeValue}, seen ∈ sightingsPairwise tys vs →
      Ty.instanceOf seen.service seen.name ∈ Ty.namedAll tys
  | [], vs, h => by cases vs <;> exact absurd h List.not_mem_nil
  | t :: ts, [], h => absurd h List.not_mem_nil
  | t :: ts, v :: vs, h => by
      rw [Ty.namedAll, List.mem_append]
      rcases List.mem_append.mp h with hfirst | hrest
      · exact Or.inl (mem_named_of_mem_sightings t hfirst)
      · exact Or.inr (mem_namedAll_of_mem_sightingsPairwise ts hrest)

end

/-! ## What writing is made of -/

/-- A relation between writing and what it comes across that holds of each step that
    writing is made of, and of one step after another. -/
structure Writing.Composes
    (R : ∀ {α : Type}, (ConnectionId → Writing α) → List Sighting → Prop) : Prop where
  pure : ∀ {α : Type} (a : α), R (fun _ => (Pure.pure a : Writing α)) []
  throw : ∀ {α : Type} (e : CallError) (seen : List Sighting),
    R (fun _ => (MonadExcept.throw e : Writing α)) seen
  register : ∀ (object : Instance) (service name : String),
    R (Writing.register object (classKey service name)) [⟨object, service, name⟩]
  bind : ∀ {α β : Type} {w : ConnectionId → Writing α} {k : ConnectionId → α → Writing β}
    {seen later : List Sighting}, R w seen → (∀ a, R (fun owner => k owner a) later) →
      R (fun owner => w owner >>= k owner) (seen ++ later)

namespace Writing.Composes

variable {R : ∀ {α : Type}, (ConnectionId → Writing α) → List Sighting → Prop}
  (h : Composes R) {α β : Type}

include h

theorem map {w : ConnectionId → Writing α} {seen : List Sighting} (hw : R w seen) (f : α → β) :
    R (fun owner => do return f (← w owner)) seen := by
  have hmap : R (fun owner => w owner >>= fun a => Pure.pure (f a)) (seen ++ []) :=
    h.bind hw fun a => h.pure _
  rwa [List.append_nil] at hmap

theorem mapM {f : ConnectionId → α → Writing β} {seen : α → List Sighting} (items : List α)
    (hf : ∀ item, R (fun owner => f owner item) (seen item)) :
    R (fun owner => items.mapM (f owner)) (items.flatMap seen) := by
  induction items with
  | nil => exact h.pure []
  | cons item rest ih =>
      simp only [List.mapM_cons, List.flatMap_cons]
      exact h.bind (hf item) fun first => h.map ih _

variable (services : Services) (context : String)

mutual

-- By the recursion of writing. What does not have the shape of its type is refused,
-- whatever would have come after it.
theorem encode : ∀ (ty : Ty) (v : NativeValue),
    R (fun owner => Switchboard.encode services owner context ty v) (sightings ty v)
  | .bool, v | .int32, v | .int64, v | .float32, v | .float64, v | .string, v | .bytes, v => by
      cases v <;> first | exact h.pure _ | exact h.throw _ _
  | .enumeration service name, v => by
      cases v with
      | enum n =>
          refine h.map ?_ _
          cases checkMember services context (.enumeration service name) n with
          | ok _ => exact h.pure _
          | error e => exact h.throw e _
      | _ => exact h.throw _ _
  | .instanceOf service name, v => by
      cases v with
      | null => exact h.pure _
      | object object => exact h.map (h.register object service name) _
      | _ => exact h.throw _ _
  | .optional inner, v => by
      cases v with
      | null => exact h.pure _
      | _ => exact encode inner _
  | .list element, v => by
      cases v with
      | list items => exact h.map (h.mapM items (encode element)) _
      | _ => exact h.throw _ _
  | .set element, v => by
      cases v with
      | set items => exact h.map (h.mapM items (encode element)) _
      | _ => exact h.throw _ _
  | .map key value, v => by
      cases v with
      | map entries =>
          refine h.map (h.mapM entries fun entry => ?_) _
          exact h.bind (encode key entry.1) fun _ => h.map (encode value entry.2) _
      | _ => exact h.throw _ _
  | .tuple elements, v => by
      cases v with
      | tuple items =>
          simp only [Switchboard.encode]
          by_cases hlength : items.length = elements.length
          · simp only [if_pos hlength]
            exact h.map (encodePairwise elements items) _
          · -- A tuple of another length is refused before anything in it is written.
            simp only [if_neg hlength]
            exact h.throw _ _
      | _ => exact h.throw _ _

theorem encodePairwise : ∀ (tys : List Ty) (vs : List NativeValue),
    R (fun owner => Switchboard.encodePairwise services owner context tys vs)
      (sightingsPairwise tys vs)
  | [], vs => by cases vs <;> exact h.pure _
  | _ :: _, [] => h.pure _
  | t :: ts, v :: vs => h.bind (encode t v) fun _ => h.map (encodePairwise ts vs) _

end

end Writing.Composes

/-! ## Writing along them -/

/-- Entering instances one after the other for a connection. -/
def ObjectTable.enterAll (t : ObjectTable) (owner : ConnectionId) (seen : List Sighting) :
    ObjectTable :=
  seen.foldl (fun t next => (t.register next.object next.key owner).2) t

theorem ObjectTable.enterAll_append (t : ObjectTable) (owner : ConnectionId)
    (seen later : List Sighting) :
    t.enterAll owner (seen ++ later) = (t.enterAll owner seen).enterAll owner later :=
  List.foldl_append

/-- Writing that enters what is listed and nothing else, in this order: all of it if it
    succeeds, and as much as it came to if it fails. -/
def Writing.Along {α : Type} (w : ConnectionId → Writing α) (seen : List Sighting) : Prop :=
  ∀ owner t, ∃ entered, entered <+: seen ∧
    ((w owner).run.run t).2 = t.enterAll owner entered ∧
    ∀ a, ((w owner).run.run t).1 = .ok a → entered = seen

theorem Writing.Along.bind {α β : Type} {w : ConnectionId → Writing α}
    {k : ConnectionId → α → Writing β} {seen later : List Sighting} (hw : Along w seen)
    (hk : ∀ a, Along (fun owner => k owner a) later) :
    Along (fun owner => w owner >>= k owner) (seen ++ later) := by
  intro owner t
  rcases hw owner t with ⟨entered, hstart, htable, hall⟩
  simp only [Writing.run_bind]
  rcases hrun : (w owner).run.run t with ⟨result, t'⟩
  rw [hrun] at htable hall
  cases result with
  | error e => exact ⟨entered, hstart.trans (List.prefix_append _ _), htable, nofun⟩
  | ok a =>
      -- All of the first list was entered, and the rest goes on from there.
      obtain rfl : entered = seen := hall a rfl
      obtain rfl : t' = t.enterAll owner entered := htable
      rcases hk a owner (t.enterAll owner entered) with ⟨entered', hstart', htable', hall'⟩
      refine ⟨entered ++ entered', List.prefix_append_right_inj entered |>.mpr hstart', ?_, ?_⟩
      · rw [ObjectTable.enterAll_append]
        exact htable'
      · exact fun b hb => congrArg (entered ++ ·) (hall' b hb)

theorem Writing.Along.composes : Writing.Composes Writing.Along where
  pure _ _ _ := ⟨[], List.prefix_rfl, rfl, fun _ _ => rfl⟩
  throw _ _ _ _ := ⟨[], List.nil_prefix, rfl, nofun⟩
  register _ _ _ _ _ := ⟨_, List.prefix_rfl, rfl, fun _ _ => rfl⟩
  bind := .bind

/-! ## Results -/

/-- The instances in what a procedure gives back. -/
def Procedure.sightings (procedure : Procedure) (value : Option NativeValue) : List Sighting :=
  match procedure.returnType with
  | none => []
  | some ty => Switchboard.sightings ty (value.getD .null)

/-- The class that is asked for is named in the signature. -/
theorem Procedure.mem_namedTypes_of_mem_sightings {procedure : Procedure}
    {value : Option NativeValue} {seen : Sighting} (h : seen ∈ procedure.sightings value) :
    Ty.instanceOf seen.service seen.name ∈ procedure.namedTypes := by
  unfold Procedure.sightings at h
  cases hty : procedure.returnType with
  | none =>
      rw [hty] at h
      exact absurd h List.not_mem_nil
  | some ty =>
      rw [hty] at h
      rw [Procedure.namedTypes, List.mem_append, List.mem_flatMap, List.mem_flatMap]
      exact Or.inr ⟨ty, hty ▸ List.mem_singleton_self ty, mem_named_of_mem_sightings ty h⟩

/-- Writing a result enters what it comes across, as far as it gets. -/
theorem writeReturn_along (services : Services) (p : Turn) (value : Option NativeValue)
    (t : ObjectTable) :
    ∃ entered, entered <+: p.descriptor.procedure.sightings value ∧
      ((Dispatcher.writeReturn services p value).run.run t).2 =
        t.enterAll p.ctx.connection entered := by
  -- The connection of the turn is one that the result could be written for.
  have hwriting : ∃ w, Writing.Along w (p.descriptor.procedure.sightings value) ∧
      w p.ctx.connection = Dispatcher.writeReturn services p value := by
    unfold Dispatcher.writeReturn Procedure.sightings
    cases p.descriptor.procedure.returnType with
    | none =>
        cases value with
        | none => exact ⟨_, Writing.Along.composes.pure none, rfl⟩
        | some v => exact ⟨_, Writing.Along.composes.throw _ [], rfl⟩
    | some ty =>
        exact ⟨_, Writing.Along.composes.map (Writing.Along.composes.encode services _ ty _) some,
          rfl⟩
  rcases hwriting with ⟨w, hw, hsame⟩
  rcases hw p.ctx.connection t with ⟨entered, hstart, htable, -⟩
  exact ⟨entered, hstart, hsame ▸ htable⟩

end Switchboard
