import Switchboard.Proofs.Coercion.Sightings
import Switchboard.Proofs.Datum.Parts
import Switchboard.Proofs.Dispatcher.Session
import Switchboard.Proofs.Objects.Growth
import Switchboard.Proofs.Scan.Acceptance

/-!
# What a Misfit Leaves Behind

A value that does not fit its type is given up where the misfit stands. What was
entered on the way there is not taken back: the instances to the left of the misfit
are entered, those to the right of it are not, and the client is told about none of
them. Which they are depends on the value, the type and the declared members of the
enumerations, and on nothing else, least of all on the table (`passage`).

So a failure leaves the table of live objects as it was only if there was nothing to
add, that is, if each of these instances was live before and the connection owned it or
had disconnected. Otherwise there are new entries, or new owners of entries that were
there, and all of it stems from the value.

## Main definitions

* `Passage`, `passage`: How far writing gets.
* `Writing.Follows`: Writing that enters what is listed and fails as foretold.

## Theorems

* `mem_references_of_mem_sightings`: What writing comes across is in the value.
* `enterAll_eq_self_iff`: When entering instances adds nothing.
* `encode_follows`: Writing goes as far as its passage.
* `writeReturn_grows`: A result that is written adds what is in it.
* `misfit_leaves`: What is left behind by a value that does not fit.
-/

namespace Switchboard

/-! ## What is entered is in the value -/

mutual

theorem mem_references_of_mem_sightings {seen : Sighting} : ∀ (ty : Ty) {v : NativeValue},
    seen ∈ sightings ty v → seen.object ∈ v.references
  | .bool, v, h | .int32, v, h | .int64, v, h | .float32, v, h | .float64, v, h
  | .string, v, h | .bytes, v, h | .enumeration .., v, h => by
      cases v <;> exact absurd h List.not_mem_nil
  | .instanceOf service name, v, h => by
      cases v with
      | object object => exact List.mem_singleton.mp h ▸ List.mem_cons_self
      | _ => exact absurd h List.not_mem_nil
  | .optional inner, v, h => by
      cases v with
      | null => exact absurd h List.not_mem_nil
      | _ => exact mem_references_of_mem_sightings inner h
  | .list element, v, h => by
      cases v with
      | list items =>
          rcases List.mem_flatMap.mp h with ⟨item, hmem, hitem⟩
          rw [Datum.references_list]
          exact List.mem_flatMap.mpr ⟨item, hmem, mem_references_of_mem_sightings element hitem⟩
      | _ => exact absurd h List.not_mem_nil
  | .set element, v, h => by
      cases v with
      | set items =>
          rcases List.mem_flatMap.mp h with ⟨item, hmem, hitem⟩
          rw [Datum.references_set]
          exact List.mem_flatMap.mpr ⟨item, hmem, mem_references_of_mem_sightings element hitem⟩
      | _ => exact absurd h List.not_mem_nil
  | .map key value, v, h => by
      cases v with
      | map entries =>
          rcases List.mem_flatMap.mp h with ⟨entry, hmem, hentry⟩
          rw [Datum.references_map]
          refine List.mem_flatMap.mpr ⟨entry, hmem, List.mem_append.mpr ?_⟩
          rcases List.mem_append.mp hentry with hkey | hvalue
          · exact .inl (mem_references_of_mem_sightings key hkey)
          · exact .inr (mem_references_of_mem_sightings value hvalue)
      | _ => exact absurd h List.not_mem_nil
  | .tuple elements, v, h => by
      cases v with
      | tuple items =>
          rw [Datum.references_tuple]
          exact mem_references_of_mem_sightingsPairwise elements h
      | _ => exact absurd h List.not_mem_nil

theorem mem_references_of_mem_sightingsPairwise {seen : Sighting} : ∀ (tys : List Ty)
    {vs : List NativeValue}, seen ∈ sightingsPairwise tys vs →
      seen.object ∈ vs.flatMap Datum.references
  | [], vs, h => by cases vs <;> exact absurd h List.not_mem_nil
  | t :: ts, [], h => absurd h List.not_mem_nil
  | t :: ts, v :: vs, h => by
      rw [List.flatMap_cons, List.mem_append]
      rcases List.mem_append.mp h with hfirst | hrest
      · exact .inl (mem_references_of_mem_sightings t hfirst)
      · exact .inr (mem_references_of_mem_sightingsPairwise ts hrest)

end

/-! ## Entering several instances -/

namespace ObjectTable

variable {t : ObjectTable} {owner : ConnectionId}

theorem Consistent.enterAll (h : t.Consistent) (owner : ConnectionId) (seen : List Sighting) :
    (t.enterAll owner seen).Consistent := by
  induction seen generalizing t with
  | nil => exact h
  | cons first rest ih => exact ih (h.register first.object first.key owner)

theorem Grows.enterAll (h : t.Consistent) {among : Instance → Prop} {seen : List Sighting}
    (hamong : ∀ next ∈ seen, among next.object) :
    t.Grows owner among (t.enterAll owner seen) := by
  induction seen generalizing t with
  | nil => exact .refl t owner among
  | cons first rest ih =>
      rw [List.forall_mem_cons] at hamong
      exact (Grows.register h hamong.1 first.key owner).trans
        (ih (h.register first.object first.key owner) hamong.2)

/-- Entering several instances adds nothing exactly if all of them are known. -/
theorem enterAll_eq_self_iff (h : t.Consistent) {seen : List Sighting} :
    t.enterAll owner seen = t ↔ ∀ next ∈ seen, t.Knows owner next.object := by
  induction seen with
  | nil => exact iff_of_true rfl fun _ hnext => absurd hnext List.not_mem_nil
  | cons first rest ih =>
      rw [List.forall_mem_cons, ← ih]
      have hstep : t.enterAll owner (first :: rest) =
          (t.register first.object first.key owner).2.enterAll owner rest := rfl
      rw [hstep]
      constructor
      · intro hsame
        -- What the others add does not take back what the first one adds.
        have hfirst : t.Grows owner (fun _ => True) (t.register first.object first.key owner).2 :=
          .register h trivial first.key owner
        have hrest : (t.register first.object first.key owner).2.Grows owner (fun _ => True)
            ((t.register first.object first.key owner).2.enterAll owner rest) :=
          .enterAll (h.register first.object first.key owner) fun _ _ => trivial
        rw [hsame] at hrest
        have hstays := hfirst.antisymm hrest
        rw [hstays] at hsame
        exact ⟨register_eq_self_iff.mp hstays, hsame⟩
      · rintro ⟨hknown, hsame⟩
        rw [register_eq_self_iff.mpr hknown, hsame]

end ObjectTable

/-! ## How far writing gets -/

/-- How far writing gets: the instances that it comes across until something does not
    fit, and whether everything fits. -/
structure Passage where
  seen : List Sighting
  fits : Bool

namespace Passage

/-- Something that fits and has no instance in it. -/
def clear : Passage := ⟨[], true⟩

/-- Something that does not fit. -/
def misfit : Passage := ⟨[], false⟩

/-- One passage and, if everything in it fits, the next. -/
def andThen (p q : Passage) : Passage :=
  if p.fits then ⟨p.seen ++ q.seen, q.fits⟩ else p

theorem andThen_clear (p : Passage) : p.andThen clear = p := by
  rcases p with ⟨seen, fits⟩
  cases fits with
  | true => exact congrArg (Passage.mk · true) (List.append_nil seen)
  | false => rfl

/-- Several passages from left to right. -/
def inTurn (ps : List Passage) : Passage := ps.foldr andThen clear

end Passage

mutual

/-- How far writing a value against a type gets. -/
def passage (services : Services) : Ty → NativeValue → Passage
  | .optional _, .null => .clear
  | .instanceOf .., .null => .clear
  | .optional inner, v => passage services inner v
  | .bool, .bool _ => .clear
  | .int32, .int32 _ => .clear
  | .int64, .int64 _ => .clear
  | .float32, .float32 _ => .clear
  | .float64, .float64 _ => .clear
  | .string, .string _ => .clear
  | .bytes, .bytes _ => .clear
  | .list element, .list items => .inTurn (items.map (passage services element))
  | .set element, .set items => .inTurn (items.map (passage services element))
  | .map key value, .map entries => .inTurn (entries.map fun (k, v) =>
    (passage services key k).andThen (passage services value v))
  | .tuple elements, .tuple items =>
    if items.length = elements.length then passagePairwise services elements items else .misfit
  | .enumeration service name, .enum n =>
    ⟨[], services.hasMember (.enumeration service name) n⟩
  | .instanceOf service name, .object object => ⟨[⟨object, service, name⟩], true⟩
  | _, _ => .misfit

/-- How far writing the items of a tuple gets. -/
def passagePairwise (services : Services) : List Ty → List NativeValue → Passage
  | t :: ts, v :: vs => (passage services t v).andThen (passagePairwise services ts vs)
  | _, _ => .clear

end

/-- Writing that enters the instances of a passage, whatever the table is, and succeeds
    exactly if everything in the passage fits. -/
def Writing.Follows {α : Type} (w : Writing α) (owner : ConnectionId) (p : Passage) : Prop :=
  ∀ t, (w.run.run t).2 = t.enterAll owner p.seen ∧
    (p.fits = true ↔ ∃ a, (w.run.run t).1 = .ok a)

namespace Writing.Follows

variable {α β : Type} {owner : ConnectionId} {w : Writing α} {p q : Passage}

theorem pure (a : α) : (Pure.pure a : Writing α).Follows owner .clear :=
  fun _ => ⟨rfl, iff_of_true rfl ⟨a, rfl⟩⟩

theorem throw (e : CallError) : (MonadExcept.throw e : Writing α).Follows owner .misfit :=
  fun _ => ⟨rfl, iff_of_false Bool.false_ne_true nofun⟩

theorem bind {k : α → Writing β} (hw : w.Follows owner p) (hk : ∀ a, (k a).Follows owner q) :
    (w >>= k).Follows owner (p.andThen q) := by
  intro t
  rcases hw t with ⟨htable, hfits⟩
  rw [run_bind]
  rcases hrun : w.run.run t with ⟨result, t'⟩
  rw [hrun] at htable hfits
  obtain rfl : t' = t.enterAll owner p.seen := htable
  cases result with
  | error e =>
      have hmisfit : p.fits = false := Bool.eq_false_iff.mpr fun h => nomatch hfits.mp h
      rw [Passage.andThen, hmisfit, if_neg Bool.false_ne_true]
      exact ⟨rfl, iff_of_false (hmisfit ▸ Bool.false_ne_true) nofun⟩
  | ok a =>
      -- The rest goes on from where the first has come to.
      rw [Passage.andThen, hfits.mpr ⟨a, rfl⟩, if_pos rfl, ObjectTable.enterAll_append]
      exact hk a _

theorem map (hw : w.Follows owner p) (f : α → β) :
    (do return f (← w) : Writing β).Follows owner p := by
  have hmap : (w >>= fun a => Pure.pure (f a)).Follows owner (p.andThen .clear) :=
    hw.bind fun a => .pure (f a)
  rwa [Passage.andThen_clear] at hmap

theorem mapM {f : α → Writing β} {g : α → Passage} (items : List α)
    (hf : ∀ item, (f item).Follows owner (g item)) :
    (items.mapM f).Follows owner (.inTurn (items.map g)) := by
  induction items with
  | nil => exact .pure []
  | cons item rest ih =>
      simp only [List.mapM_cons, List.map_cons]
      exact (hf item).bind fun first => ih.map _

end Writing.Follows

mutual

-- By the recursion of writing, arm by arm.
theorem encode_follows (services : Services) (owner : ConnectionId) (context : String) :
    ∀ (ty : Ty) (v : NativeValue),
      (encode services owner context ty v).Follows owner (passage services ty v)
  | .bool, v | .int32, v | .int64, v | .float32, v | .float64, v | .string, v | .bytes, v => by
      cases v <;> first | exact .pure _ | exact .throw _
  | .enumeration service name, v => by
      cases v with
      | enum n =>
          refine Writing.Follows.map (w := liftExcept _) ?_ _
          unfold checkMember
          cases hmember : services.hasMember (.enumeration service name) n with
          | true => exact fun _ => ⟨rfl, iff_of_true hmember ⟨(), rfl⟩⟩
          | false =>
              refine fun _ => ⟨rfl, iff_of_false ?_ nofun⟩
              rw [passage, hmember]
              exact Bool.false_ne_true
      | _ => exact .throw _
  | .instanceOf service name, v => by
      cases v with
      | null => exact .pure _
      | object object =>
          have hregister : (Writing.register object (classKey service name) owner).Follows owner
              ⟨[⟨object, service, name⟩], true⟩ := fun _ => ⟨rfl, iff_of_true rfl ⟨_, rfl⟩⟩
          exact hregister.map _
      | _ => exact .throw _
  | .optional inner, v => by
      cases v with
      | null => exact .pure _
      | _ => exact encode_follows services owner context inner _
  | .list element, v => by
      cases v with
      | list items =>
          exact (Writing.Follows.mapM items (encode_follows services owner context element)).map _
      | _ => exact .throw _
  | .set element, v => by
      cases v with
      | set items =>
          exact (Writing.Follows.mapM items (encode_follows services owner context element)).map _
      | _ => exact .throw _
  | .map key value, v => by
      cases v with
      | map entries =>
          refine (Writing.Follows.mapM entries fun entry => ?_).map _
          exact (encode_follows services owner context key entry.1).bind fun _ =>
            (encode_follows services owner context value entry.2).map _
      | _ => exact .throw _
  | .tuple elements, v => by
      cases v with
      | tuple items =>
          simp only [encode, passage]
          by_cases hlength : items.length = elements.length
          · simp only [if_pos hlength]
            exact (encodePairwise_follows services owner context elements items).map _
          · simp only [if_neg hlength]
            exact .throw _
      | _ => exact .throw _

theorem encodePairwise_follows (services : Services) (owner : ConnectionId) (context : String) :
    ∀ (tys : List Ty) (vs : List NativeValue),
      (encodePairwise services owner context tys vs).Follows owner
        (passagePairwise services tys vs)
  | [], vs => by cases vs <;> exact .pure _
  | _ :: _, [] => .pure _
  | t :: ts, v :: vs => (encode_follows services owner context t v).bind fun _ =>
      (encodePairwise_follows services owner context ts vs).map _

end

/-! ## What is left behind -/

/-- Writing a value adds what is in it and nothing else. -/
theorem encode_grows {t : ObjectTable} (h : t.Consistent) (services : Services)
    (owner : ConnectionId) (context : String) (ty : Ty) (v : NativeValue) :
    t.Grows owner (· ∈ v.references) ((encode services owner context ty v).run.run t).2 := by
  rcases Writing.Along.composes.encode services context ty v owner t with
    ⟨entered, hstart, htable, -⟩
  rw [htable]
  exact .enterAll h fun next hnext => mem_references_of_mem_sightings ty (hstart.subset hnext)

/-- Writing a result comes across nothing but what is in it. -/
theorem Procedure.mem_references_of_mem_sightings {procedure : Procedure}
    {value : Option NativeValue} {seen : Sighting} (h : seen ∈ procedure.sightings value) :
    seen.object ∈ (value.getD .null).references := by
  unfold Procedure.sightings at h
  cases hty : procedure.returnType with
  | none =>
      rw [hty] at h
      exact absurd h List.not_mem_nil
  | some ty =>
      rw [hty] at h
      exact Switchboard.mem_references_of_mem_sightings ty h

/-- So it adds what is in it. -/
theorem writeReturn_grows {t : ObjectTable} (h : t.Consistent) (services : Services) (p : Turn)
    (value : Option NativeValue) :
    t.Grows p.ctx.connection (· ∈ (value.getD .null).references)
      ((Dispatcher.writeReturn services p value).run.run t).2 := by
  rcases writeReturn_along services p value t with ⟨entered, hstart, htable⟩
  rw [htable]
  exact .enterAll h fun next hnext => Procedure.mem_references_of_mem_sightings (hstart.subset hnext)

/-- What a value that does not fit leaves behind, in every table that operations can
    lead to: the instances to the left of the misfit are entered and nothing is taken
    back. The table is as it was exactly if all of these were live already and the
    connection owned them or had disconnected, and otherwise whatever is new in it is
    from the value. -/
theorem misfit_leaves (services : Services) (operations : List ObjectOperation)
    (owner : ConnectionId) (context : String) (ty : Ty) (v : NativeValue) {e : CallError}
    {t' : ObjectTable}
    (hrun : (encode services owner context ty v).run.run (({} : ObjectTable).replay operations) =
      (.error e, t')) :
    (passage services ty v).fits = false ∧
    t' = (({} : ObjectTable).replay operations).enterAll owner (passage services ty v).seen ∧
    (t' = ({} : ObjectTable).replay operations ↔
      ∀ next ∈ (passage services ty v).seen,
        (({} : ObjectTable).replay operations).Knows owner next.object) ∧
    (({} : ObjectTable).replay operations).Grows owner (· ∈ v.references) t' := by
  have hconsistent := ObjectTable.Consistent.init.replay operations
  rcases encode_follows services owner context ty v (({} : ObjectTable).replay operations) with
    ⟨htable, hfits⟩
  have hgrows := encode_grows hconsistent services owner context ty v
  rw [hrun] at htable hfits hgrows
  obtain rfl : t' = _ := htable
  have hmisfit : (passage services ty v).fits = false :=
    Bool.eq_false_iff.mpr fun h => nomatch hfits.mp h
  exact ⟨hmisfit, rfl, ObjectTable.enterAll_eq_self_iff hconsistent, hgrows⟩

/-- A service with a procedure that gives back a list of objects with something else
    among them. -/
def counterfeit : List ServiceDecl :=
  [{ name := "Mint"
     classes := [{ name := "Coin" }]
     procedures :=
      [{ name := "Strike"
         returnType := some (.list (.instanceOf "Mint" "Coin"))
         handler := some do
          let coin ← Native.allocate (.label "penny")
          return .value (.list [.object coin, .int32 5]) }] }]

/-- The coin before the misfit has been entered for the client, who does not learn
    its number. -/
theorem counterfeit_leaves :
    ∃ catalog t', scan counterfeit = .ok catalog ∧
      (encode catalog.services 1 "Mint.Strike return value" (.list (.instanceOf "Mint" "Coin"))
        (.list [.object ⟨1, .label "penny"⟩, .int32 5])).run.run
          (({} : ObjectTable).replay []) =
        (.error (.typeMismatch "Mint.Strike return value" "Class(Mint.Coin)" "Int32"), t') ∧
      t' = (({} : ObjectTable).replay []).enterAll 1
        [⟨⟨1, .label "penny"⟩, "Mint", "Coin"⟩] ∧
      t' ≠ ({} : ObjectTable).replay [] := by
  have hrun : (encode (published counterfeit).services 1 "Mint.Strike return value"
      (.list (.instanceOf "Mint" "Coin"))
      (.list [.object ⟨1, .label "penny"⟩, .int32 5])).run.run (({} : ObjectTable).replay []) =
      (.error (.typeMismatch "Mint.Strike return value" "Class(Mint.Coin)" "Int32"),
        (({} : ObjectTable).replay []).enterAll 1 [⟨⟨1, .label "penny"⟩, "Mint", "Coin"⟩]) := rfl
  rcases misfit_leaves _ _ _ _ _ _ hrun with ⟨-, -, hunchanged, -⟩
  refine ⟨published counterfeit, _, rfl, hrun, rfl, fun hsame => ?_⟩
  -- Nothing is known to a table in which nothing is live.
  rcases hunchanged.mp hsame _ List.mem_cons_self with ⟨id, entry, hfound, -⟩
  exact nomatch hfound

/-- A call that fails although its connection owns an object after it that it did not
    own before. -/
theorem counterfeit_retained :
    ∃ catalog d', scan counterfeit = .ok catalog ∧
      ((Session.fresh catalog {} {}).replay [.issue 1]).dispatcher.dispatch
          ⟨⟨1, 1⟩, "Mint.Strike", []⟩ =
        (.failed (.typeMismatch "Mint.Strike return value" "Class(Mint.Coin)" "Int32"), d') ∧
      ((Session.fresh catalog {} {}).replay [.issue 1]).dispatcher.objects.entries.get? 1 = none ∧
      d'.objects.entries.get? 1 = some ⟨⟨1, .label "penny"⟩, "Mint.Coin", .of 1⟩ :=
  ⟨_, _, rfl, rfl, rfl, rfl⟩

end Switchboard
