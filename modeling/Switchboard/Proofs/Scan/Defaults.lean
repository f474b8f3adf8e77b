import Switchboard.Proofs.Coercion.Binding
import Switchboard.Proofs.Scan.Acceptance

/-!
# Defaults in Calls

What becomes of a default that a scan has accepted when a call leaves its
parameter out. It is read then like a value that a client sends, at the type of
the parameter and against the objects that are alive. Its shape is not in
question any more. What may be is what it refers to: an object number in a
default is accepted for its shape, since there are no objects at the time of a
scan, and it leads somewhere in a call only if that object is alive then.

Integers of enumerations are the other kind of reference. The scan looks at the
one that a default for an enumeration, or for an optional one, is. That one need
not be looked at again.

So a call that leaves parameters out can be bound if their defaults refer to what
is there. Nothing else about them can make it fail, and a null default refers to
nothing and is taken whatever the type.

## Main definitions

* `Available`: Defaults that refer to what is there.
* `Supplies`: Arguments that are what a client has to send.

## Theorems

* `exists_decode_default_iff`: When an accepted default can be read.
* `defaults_never_fail`: A call that relies on such defaults can be bound.
-/

namespace Switchboard

open Datum

/-- A default that refers to what is there: the objects in it are alive and of the
    class of their place, and the integers of enumerations inside it are those of
    declared members. What a scan has looked at is left out. -/
structure Available (decls : List ServiceDecl) (objects : ObjectTable) (value : Value) (ty : Ty) :
    Prop where
  live : ∀ id service name, StandsAt (.object id) (.instanceOf service name) value ty →
    objects.Live id (classKey service name)
  declared : ∀ n service name, StandsAt (.enum n) (.enumeration service name) value ty →
    ty = .enumeration service name ∨ ty = .optional (.enumeration service name) ∨
      DeclaresMember decls service name n

/-- Arguments as a client has to send them: they can be placed, they can be read
    unless they are null, and there is one that is not null for each parameter
    without default. -/
structure Supplies (services : Services) (objects : ObjectTable) (procedure : String)
    (parameters : List Parameter) (arguments : List Argument) : Prop where
  places : Places parameters arguments
  readable : ∀ a ∈ arguments, a.value ≠ .null →
    ∀ parameter, parameters[a.position.toNat]? = some parameter →
      ∃ n, decode services objects (argumentContext procedure parameter) parameter.ty a.value =
        .ok n
  complete : ∀ position parameter, parameters[position]? = some parameter →
    parameter.defaultValue = none →
      ∃ a ∈ arguments, a.position.toNat = position ∧ a.value ≠ .null

variable {decls : List ServiceDecl} {objects : ObjectTable}

/-- An integer that stands at an enumeration which is the whole type is the whole
    value. -/
theorem eq_of_standsAt_enumeration {n : Int32} {service name : String} {value : Value} {ty : Ty}
    (h : StandsAt (.enum n) (.enumeration service name) value ty)
    (hty : ty = .enumeration service name ∨ ty = .optional (.enumeration service name)) :
    value = .enum n := by
  rcases hty with rfl | rfl
  · cases h with
    | whole => rfl
  · cases h with
    | optional _ h =>
        cases h with
        | whole => rfl

/-- Of a default that the scan admits it is known what is grounded in it. -/
theorem grounded_iff_available (h : Acceptable decls) {value : Value} {ty : Ty}
    (hadmits : Admits decls ty value) :
    Grounded (published decls).services objects value ty ↔ Available decls objects value ty := by
  have henumerations : ∀ decl ∈ decls, (decl.enumerations.map (·.name)).Nodup :=
    fun decl hdecl => (h.sound decl hdecl).enumerationNames
  constructor
  · intro hgrounded
    refine ⟨fun id service name hs => hgrounded _ _ hs, fun n service name hs => ?_⟩
    exact .inr (.inr ((hasMember_iff h.serviceNames henumerations).mp (hgrounded _ _ hs)))
  · intro havailable v t hs
    unfold Allowed
    split
    · next n service name =>
        rw [hasMember_iff h.serviceNames henumerations]
        -- The scan has looked at an integer that is the whole default.
        rcases or_assoc.mpr (havailable.declared n service name hs) with hty | hdeclared
        · rcases hadmits with rfl | ⟨-, hmember⟩
          · exact nomatch eq_of_standsAt_enumeration hs hty
          · exact hmember n service name (eq_of_standsAt_enumeration hs hty) hty
        · exact hdeclared
    · exact havailable.live _ _ _ hs
    · trivial

/-- A default that the scan admits can be read if it refers to what is there. -/
theorem exists_decode_default_iff (h : Acceptable decls) {value : Value} {ty : Ty}
    (hadmits : Admits decls ty value) (hnull : value ≠ .null) (context : String) :
    (∃ n, decode (published decls).services objects context ty value = .ok n) ↔
      Available decls objects value ty := by
  rw [exists_decode_iff, grounded_iff_available h hadmits]
  exact ⟨fun h => h.2, fun h => ⟨(hadmits.resolve_left hnull).1, h⟩⟩

/-- The parameters of a procedure in the directory are those of an offer. -/
theorem exists_offer {entry : Descriptor} (h : entry ∈ (published decls).directory.descriptors) :
    ∃ decl ∈ decls, ∃ offer ∈ decl.offers,
      entry.procedure.parameters = offer.parameters decl.name := by
  rcases List.mem_flatMap.mp h with ⟨decl, hdecl, hmem⟩
  rcases List.mem_filterMap.mp hmem with ⟨offer, hoffer, hentry⟩
  exact ⟨decl, hdecl, offer, hoffer, by rw [Offer.procedure_of_descriptor? hentry]; rfl⟩

/-- Something can be taken for a default that the scan admits if it refers to what
    is there. -/
theorem exists_takenFor (h : Acceptable decls) {value : Value} {ty : Ty}
    (hadmits : Admits decls ty value) (havailable : Available decls objects value ty)
    (context : String) : ∃ n, TakenFor (published decls).services objects context ty value n := by
  by_cases hnull : value = .null
  · exact ⟨.null, .inl ⟨hnull, rfl⟩⟩
  · rcases (exists_decode_default_iff h hadmits hnull context).mpr havailable with ⟨n, hn⟩
    exact ⟨n, .inr ⟨hnull, hn⟩⟩

/-- A parameter that is left out has a default, and something can be taken for it. -/
theorem exists_default (h : Acceptable decls) {entry : Descriptor}
    (hentry : entry ∈ (published decls).directory.descriptors) {procedure : String}
    {arguments : List Argument} (hsupplies : Supplies (published decls).services objects procedure
      entry.procedure.parameters arguments) {position : Nat} {parameter : Parameter}
    (hparameter : entry.procedure.parameters[position]? = some parameter)
    (homits : Omits arguments position parameter)
    (havailable : ∀ value, parameter.defaultValue = some value →
      Available decls objects value parameter.ty) (context : String) :
    ∃ value n, parameter.defaultValue = some value ∧
      TakenFor (published decls).services objects context parameter.ty value n := by
  rcases exists_offer hentry with ⟨decl, hdecl, offer, hoffer, hparameters⟩
  cases hdefault : parameter.defaultValue with
  | none =>
      rcases hsupplies.complete position parameter hparameter hdefault with
        ⟨a, ha, hposition, hnull⟩
      exact absurd (homits a ha hposition).1 hnull
  | some value =>
      have hmem : parameter ∈ offer.parameters decl.name :=
        hparameters ▸ List.mem_of_getElem? hparameter
      have hadmits := (h.fitting decl hdecl offer hoffer).defaults parameter hmem value hdefault
      rcases exists_takenFor h hadmits (havailable value hdefault) context with ⟨n, hn⟩
      exact ⟨value, n, rfl, hn⟩

/-- A call that supplies what it has to can be bound, if the defaults of what it
    leaves out refer to what is there. Each parameter that is left out is bound to
    what its default is read as, or to null. -/
theorem defaults_never_fail {decls : List ServiceDecl} {catalog : Catalog}
    (h : scan decls = .ok catalog) {entry : Descriptor}
    (hentry : entry ∈ catalog.directory.descriptors) (objects : ObjectTable)
    {arguments : List Argument}
    (hsupplies : Supplies catalog.services objects entry.qualifiedName entry.procedure.parameters
      arguments)
    (havailable : ∀ position parameter value,
      entry.procedure.parameters[position]? = some parameter →
        parameter.defaultValue = some value → Omits arguments position parameter →
          Available decls objects value parameter.ty) :
    ∃ bound, bindArguments catalog.services objects entry.qualifiedName
        entry.procedure.parameters arguments = .ok bound ∧
      bound.length = entry.procedure.parameters.length ∧
      ∀ position parameter, entry.procedure.parameters[position]? = some parameter →
        Omits arguments position parameter → ∃ value n, parameter.defaultValue = some value ∧
          bound[position]? = some n ∧ TakenFor catalog.services objects
            (argumentContext entry.qualifiedName parameter) parameter.ty value n := by
  rcases acceptable_of_scan h with ⟨hacceptable, rfl⟩
  have hdefault := fun {position : Nat} {parameter : Parameter} hparameter
      (homits : Omits arguments position parameter) =>
    exists_default hacceptable hentry hsupplies hparameter homits
      (fun value hvalue => havailable position parameter value hparameter hvalue homits)
      (argumentContext entry.qualifiedName parameter)
  have hbindable : ∀ position parameter, entry.procedure.parameters[position]? = some parameter →
      ∀ supplied, Supplied arguments position supplied →
        ∃ n, bindParameter (published decls).services objects entry.qualifiedName parameter
          supplied = .ok n := by
    intro position parameter hparameter supplied hsupplied
    refine exists_bindParameter (fun v hv hnull => ?_) fun homitted =>
      hdefault hparameter ((omits_iff hsupplied).mpr homitted)
    rcases (hsupplied v).mp hv with ⟨a, ha, rfl, rfl⟩
    exact hsupplies.readable a ha hnull parameter hparameter
  rcases exists_bindArguments hsupplies.places hbindable with ⟨bound, hbound, hlength, heach⟩
  refine ⟨bound, hbound, hlength, fun position parameter hparameter homits => ?_⟩
  rcases heach position parameter hparameter with ⟨supplied, n, hsupplied, hn, hparameterBound⟩
  rcases hdefault hparameter homits with ⟨value, -, hvalue, -⟩
  rw [bindParameter_omitted ((omits_iff hsupplied).mp homits), fallback_eq_ok_iff hvalue]
    at hparameterBound
  exact ⟨value, n, hvalue, hn, hparameterBound⟩

/-- A procedure with defaults that refer to an object and to members inside a list,
    one that the scan has looked at, and one that is null. -/
def defaultedService : ServiceDecl where
  name := "S"
  classes := [{ name := "C" }]
  enumerations := [{ name := "E", members := [⟨"one", 1, none⟩] }]
  procedures :=
    [{ name := "P"
       parameters :=
         [⟨"count", .int32, none⟩,
           ⟨"of", .instanceOf "S" "C", some (.object 1)⟩,
           ⟨"among", .list (.enumeration "S" "E"), some (.list [.enum 1, .enum 1])⟩,
           ⟨"first", .optional (.enumeration "S" "E"), some (.enum 1)⟩,
           ⟨"note", .string, some .null⟩]
       handler := some (return .done) }]

/-- An object of the class, entered for a connection. -/
def oneObject : ObjectTable := (ObjectTable.register {} default "S.C" 1).2

theorem defaultedService_binds :
    ∃ catalog, scan [defaultedService] = .ok catalog ∧
      ∃ entry ∈ catalog.directory.descriptors, entry.qualifiedName = "S.P" ∧
        ∃ bound, bindArguments catalog.services oneObject entry.qualifiedName
          entry.procedure.parameters [⟨0, .int32 7⟩] = .ok bound ∧ bound.length = 5 := by
  have hscan : scan [defaultedService] = .ok (published [defaultedService]) := rfl
  rcases acceptable_of_scan hscan with ⟨hacceptable, -⟩
  refine ⟨_, hscan, _, List.mem_cons_self, rfl, ?_⟩
  have hbinds := @defaults_never_fail _ _ hscan _ List.mem_cons_self oneObject [⟨0, .int32 7⟩]
  refine (hbinds ⟨⟨?_, ?_⟩, ?_, ?_⟩ ?_).imp fun bound h => ⟨h.1, h.2.1⟩
  · decide
  · decide
  · intro a ha _ parameter hparameter
    cases List.mem_singleton.mp ha
    cases hparameter
    exact ⟨_, rfl⟩
  · intro position parameter hparameter hnone
    rcases position with _ | _ | _ | _ | _ | position
    · exact ⟨_, List.mem_cons_self, rfl, fun h => nomatch h⟩
    all_goals cases hparameter
    all_goals exact nomatch hnone
  · intro position parameter value hparameter hdefault _
    have hadmits := (hacceptable.fitting _ List.mem_cons_self _ List.mem_cons_self).defaults
      parameter (List.mem_of_getElem? hparameter) value hdefault
    rw [← grounded_iff_available hacceptable hadmits]
    rcases position with _ | _ | _ | _ | _ | position
    all_goals cases hparameter
    all_goals cases hdefault
    · exact grounded_of_decode (show decode _ _ "" _ _ = .ok _ from rfl)
    · exact grounded_of_decode (show decode _ _ "" _ _ = .ok _ from rfl)
    · exact grounded_of_decode (show decode _ _ "" _ _ = .ok _ from rfl)
    · exact grounded_null

/-- A procedure with an object number for a default. -/
def objectDefaultService : ServiceDecl where
  name := "S"
  classes := [{ name := "C" }]
  procedures :=
    [{ name := "P"
       parameters := [⟨"of", .instanceOf "S" "C", some (.object 5)⟩]
       handler := some (return .done) }]

/-- The scan accepts the default, and a call that leaves the parameter out fails
    while there is no such object. So does one that supplies something else, which
    the default does not stand in for. -/
theorem objectDefaultService_fails :
    ∃ catalog, scan [objectDefaultService] = .ok catalog ∧
      ∃ entry ∈ catalog.directory.descriptors, entry.qualifiedName = "S.P" ∧
        bindArguments catalog.services {} entry.qualifiedName entry.procedure.parameters [] =
          .error (.invalidReference 5) ∧
        bindArguments catalog.services {} entry.qualifiedName entry.procedure.parameters
          [⟨0, .string "none"⟩] =
            .error (.typeMismatch "S.P argument 'of'" "Class(S.C)" "String") :=
  ⟨_, rfl, _, List.mem_cons_self, rfl, rfl, rfl⟩

end Switchboard
