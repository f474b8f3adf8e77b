import Mathlib.Data.List.Basic
import Switchboard.Proofs.Scan.CoreEntries

/-!
# What Declarations Offer

The procedures a declaration stands for, told without the scan. A service offers
its plain procedures, the getters and setters of its properties, and for each
class a constructor, methods, getters, setters and statics. Each of these ways to
offer a procedure is an alternative of `Offer`, and the table of derived names is
one equation for each alternative.

The scan derives the same procedures from nested lists and passes on a property
that has neither getter nor setter, so that it can be refused where it stands.
Where there is no such property, what is derived is what is offered. Where there
is one, it is among what is derived and nothing is accepted. Accepting is then a
statement about offers alone: their names differ and each has a handler.

## Main definitions

* `Offer`: The ways to offer a procedure.
* `Offer.name`, `Offer.parameters`, `Offer.returnType`: The table.
* `ServiceDecl.offers`: What a service offers, in catalog order.
* `ServiceDecl.Sound`: A service that can be accepted.
* `published`: The catalog of a list of declarations.

## Theorems

* `accept_eq_ok_iff`: When derived procedures are accepted.
* `ServiceDecl.derived_eq`: What is derived is what is offered.
* `ServiceDecl.accept_eq_ok_iff`: When a service is accepted.
-/

namespace Switchboard

/-! ## Offers -/

/-- A way in which a service offers a procedure. -/
inductive Offer where
  | procedure (p : ProcedureDecl)
  | getter (p : PropertyDecl)
  | setter (p : PropertyDecl)
  | constructor (c : ClassDecl) (p : ProcedureDecl)
  | method (c : ClassDecl) (p : ProcedureDecl)
  | classGetter (c : ClassDecl) (p : PropertyDecl)
  | classSetter (c : ClassDecl) (p : PropertyDecl)
  | static (c : ClassDecl) (p : ProcedureDecl)

namespace Offer

/-- The derived name. -/
def name : Offer → String
  | .procedure p => p.name
  | .getter p => "get_" ++ p.name
  | .setter p => "set_" ++ p.name
  | .constructor c _ => c.name ++ "_new"
  | .method c p => c.name ++ "_" ++ p.name
  | .classGetter c p => c.name ++ "_get_" ++ p.name
  | .classSetter c p => c.name ++ "_set_" ++ p.name
  | .static c p => c.name ++ "_static_" ++ p.name

/-- Members of different classes can come to the same name. -/
example : (method { name := "A_B" } { name := "C" }).name =
    (method { name := "A" } { name := "B_C" }).name := by decide

/-- The parameter for the object that a member of a class is called on. -/
def this (service : String) (c : ClassDecl) : Parameter :=
  ⟨"this", .instanceOf service c.name, none⟩

/-- The parameter for the value that a property is set to. -/
def value (p : PropertyDecl) : Parameter := ⟨"value", p.ty, none⟩

/-- The parameters, given the name of the service. -/
def parameters (service : String) : Offer → List Parameter
  | .procedure p | .constructor _ p | .static _ p => p.parameters
  | .getter _ => []
  | .setter p => [value p]
  | .method c p => this service c :: p.parameters
  | .classGetter c _ => [this service c]
  | .classSetter c p => [this service c, value p]

/-- The return type. A constructor returns its class, whatever it declares. -/
def returnType (service : String) : Offer → Option Ty
  | .procedure p | .method _ p | .static _ p => p.returnType
  | .getter p | .classGetter _ p => some p.ty
  | .setter _ | .classSetter _ _ => none
  | .constructor c _ => some (.instanceOf service c.name)

/-- What is written about the procedure. Accessors share what is written about
    their property. -/
def summary : Offer → Option String
  | .procedure p | .constructor _ p | .method _ p | .static _ p => p.summary
  | .getter p | .setter p | .classGetter _ p | .classSetter _ p => p.summary

/-- Whether the procedure may ask to be resumed later. Accessors may not. -/
def blocking : Offer → Bool
  | .procedure p | .constructor _ p | .method _ p | .static _ p => p.blocking
  | .getter _ | .setter _ | .classGetter _ _ | .classSetter _ _ => false

/-- The implementation, if one is declared. -/
def handler : Offer → Option Handler
  | .procedure p | .constructor _ p | .method _ p | .static _ p => p.handler
  | .getter p | .classGetter _ p => p.getter
  | .setter p | .classSetter _ p => p.setter

/-- The public description. -/
def published (service : String) (offer : Offer) : Procedure where
  name := offer.name
  parameters := offer.parameters service
  returnType := offer.returnType service
  documentation := documentation offer.summary
  blocking := offer.blocking

/-- The directory entry, if there is an implementation. -/
def descriptor? (service : String) (offer : Offer) : Option Descriptor :=
  offer.handler.map fun handler =>
    ⟨service ++ "." ++ offer.name, service, offer.published service, handler⟩

theorem descriptor?_eq {offer : Offer} {handler : Handler} (h : offer.handler = some handler)
    (service : String) : offer.descriptor? service =
      some ⟨service ++ "." ++ offer.name, service, offer.published service, handler⟩ := by
  rw [descriptor?, h, Option.map_some]

/-- What the scan derives for an offer. -/
def derived (service : String) (offer : Offer) : Derived :=
  .procedure (offer.published service) offer.handler

end Offer

/-- What a property offers: the getter if there is one, then the setter. -/
def PropertyDecl.offers (p : PropertyDecl) (getter setter : Offer) : List Offer :=
  (p.getter.toList.map fun _ => getter) ++ p.setter.toList.map fun _ => setter

/-- What a class offers. -/
def ClassDecl.offers (c : ClassDecl) : List Offer :=
  c.constructor.toList.map (.constructor c) ++ c.methods.map (.method c) ++
    c.properties.flatMap (fun p => p.offers (.classGetter c p) (.classSetter c p)) ++
    c.statics.map (.static c)

/-- What a service offers, in catalog order. -/
def ServiceDecl.offers (decl : ServiceDecl) : List Offer :=
  decl.procedures.map .procedure ++
    decl.properties.flatMap (fun p => p.offers (.getter p) (.setter p)) ++
    decl.classes.flatMap ClassDecl.offers

/-- The properties of a service and of its classes. -/
def ServiceDecl.allProperties (decl : ServiceDecl) : List PropertyDecl :=
  decl.properties ++ decl.classes.flatMap (·.properties)

/-- The directory entries of what a service offers. -/
def ServiceDecl.entries (decl : ServiceDecl) : List Descriptor :=
  decl.offers.filterMap (·.descriptor? decl.name)

/-- The public description of a service. -/
def ServiceDecl.published (decl : ServiceDecl) : Service where
  name := decl.name
  procedures := decl.offers.map (·.published decl.name)
  classes := decl.classes.map (·.info)
  enumerations := decl.enumerations.map (·.info)
  documentation := documentation decl.summary

/-- The catalog of a list of declarations. -/
def published (decls : List ServiceDecl) : Catalog where
  services := ⟨decls.map (·.published)⟩
  directory := ⟨decls.flatMap (·.entries)⟩

/-- What has to hold of a service by itself: names differ, every property can be
    read or written, and everything has an implementation. -/
structure ServiceDecl.Sound (decl : ServiceDecl) : Prop where
  classNames : (decl.classes.map (·.name)).Nodup
  enumerationNames : (decl.enumerations.map (·.name)).Nodup
  offerNames : (decl.offers.map (·.name)).Nodup
  accessible : ∀ p ∈ decl.allProperties, p.getter.isSome ∨ p.setter.isSome
  implemented : ∀ offer ∈ decl.offers, offer.handler.isSome

/-! ## Accepting derived procedures -/

theorem firstRepeated?_go_eq_none_iff {seen names : List String} :
    firstRepeated?.go seen names = none ↔ names.Nodup ∧ ∀ name ∈ names, name ∉ seen := by
  refine ⟨firstRepeated?_go_eq_none, fun h => ?_⟩
  induction names generalizing seen with
  | nil => rfl
  | cons name rest ih =>
      rw [List.nodup_cons, List.forall_mem_cons] at h
      rcases h with ⟨hnodup, hfresh⟩
      rw [firstRepeated?.go, if_neg hfresh.1]
      refine ih ⟨hnodup.2, fun other hmem hseen => ?_⟩
      rcases List.mem_cons.mp hseen with rfl | hseen
      · exact hnodup.1 hmem
      · exact hfresh.2 other hmem hseen

theorem firstRepeated?_eq_none_iff {names : List String} :
    firstRepeated? names = none ↔ names.Nodup := by
  rw [firstRepeated?, firstRepeated?_go_eq_none_iff]
  exact ⟨fun h => h.1, fun h => ⟨h, fun _ _ => List.not_mem_nil⟩⟩

/-- No bare property is accepted. -/
theorem bareProperty_not_mem {service : String} {seen : List String} {derived : List Derived}
    {entries : List Descriptor} (h : accept service seen derived = .ok entries)
    (getterName : String) : Derived.bareProperty getterName ∉ derived := by
  induction derived generalizing seen entries with
  | nil => exact List.not_mem_nil
  | cons first rest ih =>
      cases first with
      | bareProperty other => cases h
      | procedure procedure handler =>
          unfold accept at h
          split at h
          · cases h
          · cases handler with
            | none => cases h
            | some handler =>
                rcases eq_ok_of_bind h with ⟨accepted, hrest, -⟩
                rw [List.mem_cons]
                rintro (hfirst | hmem)
                · cases hfirst
                · exact ih hrest hmem

/-- The names that are seen after an offer are those seen before and its own. -/
theorem forall_not_mem_cons_iff {offers : List Offer} {name : String} {seen : List String} :
    (∀ offer ∈ offers, offer.name ∉ name :: seen) ↔
      name ∉ offers.map (·.name) ∧ ∀ offer ∈ offers, offer.name ∉ seen := by
  constructor
  · intro h
    refine ⟨fun hmem => ?_, fun offer hoffer hold => h offer hoffer (List.mem_cons_of_mem _ hold)⟩
    rcases List.mem_map.mp hmem with ⟨offer, hoffer, hname⟩
    exact h offer hoffer (hname ▸ List.mem_cons_self)
  · rintro ⟨hnew, hfresh⟩ offer hoffer hmem
    rcases List.mem_cons.mp hmem with hname | hmem
    · exact hnew (List.mem_map.mpr ⟨offer, hoffer, hname⟩)
    · exact hfresh offer hoffer hmem

/-- Offers are accepted if their names differ and each has an implementation,
    and the entries are theirs. -/
theorem accept_eq_ok_iff {service : String} {seen : List String} {offers : List Offer}
    {entries : List Descriptor} :
    accept service seen (offers.map (·.derived service)) = .ok entries ↔
      ((offers.map (·.name)).Nodup ∧ (∀ offer ∈ offers, offer.name ∉ seen) ∧
        ∀ offer ∈ offers, offer.handler.isSome) ∧
      entries = offers.filterMap (·.descriptor? service) := by
  induction offers generalizing seen entries with
  | nil =>
      rw [List.map_nil, accept, Except.ok.injEq]
      exact ⟨fun h => ⟨⟨List.nodup_nil, List.forall_mem_nil _, List.forall_mem_nil _⟩, h.symm⟩,
        fun h => h.2.symm⟩
  | cons offer rest ih =>
      rw [List.map_cons, List.map_cons, List.nodup_cons, List.forall_mem_cons,
        List.forall_mem_cons, Offer.derived]
      unfold accept
      by_cases hname : offer.name ∈ seen
      · rw [if_pos (show (offer.published service).name ∈ seen from hname)]
        exact iff_of_false (fun h => by cases h) fun h => h.1.2.1.1 hname
      · rw [if_neg (show (offer.published service).name ∉ seen from hname)]
        cases hhandler : offer.handler with
        | none => exact iff_of_false (fun h => by cases h) fun h => Bool.noConfusion h.1.2.2.1
        | some handler =>
            rw [List.filterMap_cons_some (Offer.descriptor?_eq hhandler service)]
            constructor
            · intro h
              rcases eq_ok_of_bind h with ⟨accepted, hrest, hentries⟩
              rcases ih.mp hrest with ⟨⟨hnodup, hfresh, himplemented⟩, rfl⟩
              rcases forall_not_mem_cons_iff.mp hfresh with ⟨hnew, hfresh⟩
              exact ⟨⟨⟨hnew, hnodup⟩, ⟨hname, hfresh⟩, rfl, himplemented⟩,
                (Except.ok.inj hentries).symm⟩
            · rintro ⟨⟨⟨hnew, hnodup⟩, ⟨-, hfresh⟩, -, himplemented⟩, rfl⟩
              have hlater : ∀ other ∈ rest, other.name ∉ (offer.published service).name :: seen :=
                forall_not_mem_cons_iff.mpr ⟨hnew, hfresh⟩
              rw [ih.mpr ⟨⟨hnodup, hlater, himplemented⟩, rfl⟩]
              rfl

/-! ## What is derived -/

/-- The accessors of a property that has one are derived as offered. -/
theorem PropertyDecl.derive_eq {p : PropertyDecl} (h : p.getter.isSome ∨ p.setter.isSome)
    {service start : String} {leading : List Parameter} {getter setter : Offer}
    (hgetter : ∀ get, p.getter = some get → getter.derived service = .procedure
      ⟨start ++ "get_" ++ p.name, leading, some p.ty, documentation p.summary, false⟩ (some get))
    (hsetter : ∀ set, p.setter = some set → setter.derived service = .procedure
      ⟨start ++ "set_" ++ p.name, leading ++ [Offer.value p], none, documentation p.summary, false⟩
      (some set)) :
    p.derive start leading = (p.offers getter setter).map (·.derived service) := by
  unfold derive offers
  cases hget : p.getter with
  | none =>
      cases hset : p.setter with
      | none => rw [hget, hset] at h; exact absurd h (by decide)
      | some set => exact congrArg (· :: []) (hsetter set hset).symm
  | some get =>
      cases hset : p.setter with
      | none => exact congrArg (· :: []) (hgetter get hget).symm
      | some set =>
          exact congrArg₂ (fun first second => [first, second]) (hgetter get hget).symm
            (hsetter set hset).symm

/-- A property without accessors is derived as such. -/
theorem PropertyDecl.bareProperty_mem {p : PropertyDecl}
    (h : ¬(p.getter.isSome ∨ p.setter.isSome)) (start : String) (leading : List Parameter) :
    Derived.bareProperty (start ++ "get_" ++ p.name) ∈ p.derive start leading := by
  rw [not_or, Option.not_isSome_iff_eq_none, Option.not_isSome_iff_eq_none] at h
  rw [derive, h.1, h.2]
  exact List.mem_cons_self

theorem ClassDecl.derive_eq {c : ClassDecl}
    (h : ∀ p ∈ c.properties, p.getter.isSome ∨ p.setter.isSome) (service : String) :
    c.derive service = c.offers.map (·.derived service) := by
  -- The scan takes the underscore for the end of the class's name, the table for
  -- the beginning of what follows.
  have hnew : c.name ++ "_" ++ "new" = c.name ++ "_new" := String.append_assoc ..
  have hget : c.name ++ "_" ++ "get_" = c.name ++ "_get_" := String.append_assoc ..
  have hset : c.name ++ "_" ++ "set_" = c.name ++ "_set_" := String.append_assoc ..
  have hstatic : c.name ++ "_" ++ "static_" = c.name ++ "_static_" := String.append_assoc ..
  have hproperties :
      c.properties.flatMap (fun p => p.derive (c.name ++ "_") [Offer.this service c]) =
        c.properties.flatMap fun p =>
          (p.offers (.classGetter c p) (.classSetter c p)).map (·.derived service) := by
    refine List.flatMap_congr fun p hp => PropertyDecl.derive_eq (h p hp) ?_ ?_
    · intro get hgetter
      rw [hget]
      exact congrArg (Derived.procedure _) hgetter
    · intro set hsetter
      rw [hset]
      exact congrArg (Derived.procedure _) hsetter
  simp only [derive, offers, hnew, hstatic, List.map_append, List.map_map, List.map_flatMap]
  exact congrArg (_ ++ _ ++ · ++ _) hproperties

/-- If each property has an accessor, what is derived is what is offered. -/
theorem ServiceDecl.derived_eq {decl : ServiceDecl}
    (h : ∀ p ∈ decl.allProperties, p.getter.isSome ∨ p.setter.isSome) :
    decl.derived = decl.offers.map (·.derived decl.name) := by
  rw [allProperties, List.forall_mem_append, List.forall_mem_flatMap] at h
  have hproperties : decl.properties.flatMap (fun p => p.derive "" []) =
      decl.properties.flatMap fun p =>
        (p.offers (.getter p) (.setter p)).map (·.derived decl.name) := by
    refine List.flatMap_congr fun p hp => PropertyDecl.derive_eq (h.1 p hp) ?_ ?_
    · intro get hgetter
      rw [String.empty_append]
      exact congrArg (Derived.procedure _) hgetter
    · intro set hsetter
      rw [String.empty_append]
      exact congrArg (Derived.procedure _) hsetter
  have hclasses : decl.classes.flatMap (fun c => c.derive decl.name) =
      decl.classes.flatMap fun c => c.offers.map (·.derived decl.name) :=
    List.flatMap_congr fun c hc => ClassDecl.derive_eq (h.2 c hc) decl.name
  simp only [derived, offers, List.map_append, List.map_map, List.map_flatMap, hproperties,
    hclasses]
  rfl

/-- A property without accessors, wherever it is declared, is among what is
    derived. -/
theorem ServiceDecl.bareProperty_mem {decl : ServiceDecl} {p : PropertyDecl}
    (hp : p ∈ decl.allProperties) (h : ¬(p.getter.isSome ∨ p.setter.isSome)) :
    ∃ getterName, Derived.bareProperty getterName ∈ decl.derived := by
  rcases List.mem_append.mp hp with hp | hp
  · refine ⟨"" ++ "get_" ++ p.name, ?_⟩
    rw [derived, List.mem_append, List.mem_append]
    exact .inl (.inr (List.mem_flatMap.mpr ⟨p, hp, p.bareProperty_mem h "" []⟩))
  · rcases List.mem_flatMap.mp hp with ⟨c, hc, hp⟩
    refine ⟨c.name ++ "_" ++ "get_" ++ p.name, ?_⟩
    rw [derived, List.mem_append]
    refine .inr (List.mem_flatMap.mpr ⟨c, hc, ?_⟩)
    rw [ClassDecl.derive, List.mem_append, List.mem_append]
    exact .inl (.inr (List.mem_flatMap.mpr ⟨p, hp, p.bareProperty_mem h _ _⟩))

/-- A service is accepted if it is sound, and its entries are those of what it
    offers. -/
theorem ServiceDecl.accept_eq_ok_iff {decl : ServiceDecl} {entries : List Descriptor} :
    decl.accept = .ok entries ↔ decl.Sound ∧ entries = decl.entries := by
  have hderived : Switchboard.accept decl.name [] decl.derived = .ok entries ↔
      ((decl.offers.map (·.name)).Nodup ∧
        (∀ p ∈ decl.allProperties, p.getter.isSome ∨ p.setter.isSome) ∧
        ∀ offer ∈ decl.offers, offer.handler.isSome) ∧ entries = decl.entries := by
    by_cases hbare : ∀ p ∈ decl.allProperties, p.getter.isSome ∨ p.setter.isSome
    · rw [derived_eq hbare, Switchboard.accept_eq_ok_iff]
      constructor
      · rintro ⟨⟨hnames, -, himplemented⟩, hentries⟩
        exact ⟨⟨hnames, hbare, himplemented⟩, hentries⟩
      · rintro ⟨⟨hnames, -, himplemented⟩, hentries⟩
        exact ⟨⟨hnames, fun _ _ => List.not_mem_nil, himplemented⟩, hentries⟩
    · -- Of a property without accessors there are no offers, so the names and
      -- handlers of offers say nothing about it.
      refine iff_of_false (fun haccept => hbare fun p hp => ?_) fun h => hbare h.1.2.1
      by_contra hnone
      rcases bareProperty_mem hp hnone with ⟨getterName, hmem⟩
      exact bareProperty_not_mem haccept getterName hmem
  rw [accept]
  cases hclasses : firstRepeated? (decl.classes.map (·.name)) with
  | some name =>
      refine iff_of_false (fun h => by cases h) fun h => ?_
      rw [firstRepeated?_eq_none_iff.mpr h.1.classNames] at hclasses
      cases hclasses
  | none =>
      cases henumerations : firstRepeated? (decl.enumerations.map (·.name)) with
      | some name =>
          refine iff_of_false (fun h => by cases h) fun h => ?_
          rw [firstRepeated?_eq_none_iff.mpr h.1.enumerationNames] at henumerations
          cases henumerations
      | none =>
          rw [firstRepeated?_eq_none_iff] at hclasses henumerations
          rw [hderived]
          constructor
          · rintro ⟨⟨hnames, haccessible, himplemented⟩, hentries⟩
            exact ⟨⟨hclasses, henumerations, hnames, haccessible, himplemented⟩, hentries⟩
          · rintro ⟨h, hentries⟩
            exact ⟨⟨h.offerNames, h.accessible, h.implemented⟩, hentries⟩

end Switchboard
