import Switchboard.Proofs.Scan.Declared

/-!
# Which Declarations Are Accepted

A scan either refuses a list of declarations or publishes it whole, and this
says which. A list is acceptable if its services have different names and each
is sound by itself, if every class and enumeration that a signature mentions is
declared somewhere in the list, and if every default can stand for an argument.
Acceptable lists are published and no others are, so the order in which the scan
looks for problems decides what is reported and never whether there is a report.

The two halves of the condition need each other. What a signature mentions is
looked up in the catalog that is about to be published, and the lookup is as
good as the declarations only because names have been found to differ.

## Main definitions

* `Admits`: A default that can stand for an argument.
* `Acceptable`: Lists of declarations without a problem.

## Theorems

* `mapM_accept_eq_ok_iff`: When all services are accepted.
* `validate_eq_ok_iff`: When a signature is.
* `acceptable_of_scan`, `scan_of_acceptable`, `scan_eq_ok_iff`: What a scan
  accepts, and what it publishes.
-/

namespace Switchboard

/-! ## The conditions -/

/-- The types of a signature: those of the parameters and the return type. -/
def Offer.signature (service : String) (offer : Offer) : List Ty :=
  (offer.parameters service).map (·.ty) ++ (offer.returnType service).toList

/-- A default that can stand for an argument of a type. Null can, and so can what
    has the shape of the type. An integer for an enumeration, or for an optional
    one, has to be that of a declared member besides. -/
def Admits (decls : List ServiceDecl) (ty : Ty) (value : Value) : Prop :=
  value = .null ∨
    value.conforms ty ∧ ∀ n service name, value = .enum n →
      ty = .enumeration service name ∨ ty = .optional (.enumeration service name) →
        DeclaresMember decls service name n

/-- An offer of a service whose signature mentions only what is declared, and
    whose defaults can stand for arguments. -/
structure Offer.Fits (decls : List ServiceDecl) (service : String) (offer : Offer) : Prop where
  types : ∀ ty ∈ offer.signature service, ∀ part : Ty, part.PartOf ty → Declares decls part
  defaults : ∀ p ∈ offer.parameters service, ∀ value, p.defaultValue = some value →
    Admits decls p.ty value

/-- A list of declarations without a problem. -/
structure Acceptable (decls : List ServiceDecl) : Prop where
  serviceNames : (decls.map (·.name)).Nodup
  sound : ∀ decl ∈ decls, decl.Sound
  fitting : ∀ decl ∈ decls, ∀ offer ∈ decl.offers, offer.Fits decls decl.name

/-! ## Services -/

theorem Offer.procedure_of_descriptor? {service : String} {offer : Offer} {entry : Descriptor}
    (h : offer.descriptor? service = some entry) : entry.procedure = offer.published service := by
  rcases Option.map_eq_some_iff.mp h with ⟨handler, -, rfl⟩
  rfl

theorem Offer.exists_descriptor? (service : String) {offer : Offer} (h : offer.handler.isSome) :
    ∃ entry, offer.descriptor? service = some entry := by
  rcases Option.isSome_iff_exists.mp h with ⟨handler, hhandler⟩
  exact ⟨_, Offer.descriptor?_eq hhandler service⟩

/-- The entries of offers that are implemented are in their order, so what can be
    told of an entry from its offer can be told of all. -/
theorem map_entries {β : Type} {service : String} {offers : List Offer}
    (h : ∀ offer ∈ offers, offer.handler.isSome) (view : Descriptor → β) (own : Offer → β)
    (hview : ∀ offer entry, offer.descriptor? service = some entry → view entry = own offer) :
    (offers.filterMap (·.descriptor? service)).map view = offers.map own := by
  induction offers with
  | nil => rfl
  | cons offer rest ih =>
      rw [List.forall_mem_cons] at h
      rcases offer.exists_descriptor? service h.1 with ⟨entry, hentry⟩
      rw [List.filterMap_cons_some hentry, List.map_cons, List.map_cons, ih h.2,
        hview offer entry hentry]

theorem ServiceDecl.Sound.procedures_entries {decl : ServiceDecl} (h : decl.Sound) :
    decl.entries.map (·.procedure) = decl.offers.map (·.published decl.name) :=
  map_entries h.implemented _ _ fun _ _ => Offer.procedure_of_descriptor?

theorem ServiceDecl.Sound.info_entries {decl : ServiceDecl} (h : decl.Sound) :
    decl.info decl.entries = decl.published := by
  rw [info, ServiceDecl.published, h.procedures_entries]

/-- All services are accepted if each is sound. -/
theorem mapM_accept_eq_ok_iff {decls : List ServiceDecl} {accepted : List (List Descriptor)} :
    decls.mapM ServiceDecl.accept = .ok accepted ↔
      (∀ decl ∈ decls, decl.Sound) ∧ accepted = decls.map (·.entries) := by
  induction decls generalizing accepted with
  | nil =>
      rw [List.mapM_nil, List.map_nil]
      exact ⟨fun h => ⟨List.forall_mem_nil _, (Except.ok.inj h).symm⟩, fun h => by rw [h.2]; rfl⟩
  | cons decl rest ih =>
      rw [List.mapM_cons, List.forall_mem_cons, List.map_cons]
      constructor
      · intro h
        rcases eq_ok_of_bind h with ⟨entries, hentries, hothers⟩
        rcases eq_ok_of_bind hothers with ⟨others, hrest, haccepted⟩
        rcases decl.accept_eq_ok_iff.mp hentries with ⟨hsound, rfl⟩
        rcases ih.mp hrest with ⟨hsounds, rfl⟩
        exact ⟨⟨hsound, hsounds⟩, (Except.ok.inj haccepted).symm⟩
      · rintro ⟨⟨hsound, hsounds⟩, rfl⟩
        rw [decl.accept_eq_ok_iff.mpr ⟨hsound, rfl⟩, ih.mpr ⟨hsounds, rfl⟩]
        rfl

/-- The descriptions of sound services are those that are published. -/
theorem zipWith_info_entries {decls : List ServiceDecl} (h : ∀ decl ∈ decls, decl.Sound) :
    List.zipWith ServiceDecl.info decls (decls.map (·.entries)) = decls.map (·.published) := by
  induction decls with
  | nil => rfl
  | cons decl rest ih =>
      rw [List.forall_mem_cons] at h
      rw [List.map_cons, List.zipWith_cons_cons, List.map_cons, h.1.info_entries, ih h.2]

/-! ## Signatures -/

/-- A signature is accepted if what it mentions is known and its defaults can
    stand for arguments. -/
theorem validate_eq_ok_iff {services : Services} {entry : Descriptor} :
    services.validate entry = .ok () ↔
      (∀ ty ∈ entry.procedure.namedTypes, services.resolves ty) ∧
        ∀ p ∈ entry.procedure.parameters, ∀ value, p.defaultValue = some value →
          services.admitsDefault value p.ty := by
  rw [Services.validate]
  cases htypes : entry.procedure.namedTypes.find? fun ty => !services.resolves ty with
  | some ty =>
      refine iff_of_false (fun h => by cases h) fun h => ?_
      have hunknown := List.find?_some htypes
      rw [h.1 ty (List.mem_of_find?_eq_some htypes)] at hunknown
      cases hunknown
  | none =>
      have hknown : ∀ ty ∈ entry.procedure.namedTypes, services.resolves ty := by
        intro ty hty
        have hty' := List.find?_eq_none.mp htypes ty hty
        simpa only [Bool.not_eq_true', Bool.not_eq_false] using hty'
      simp only
      cases hdefaults : entry.procedure.parameters.find? fun p =>
          p.defaultValue.any fun value => !services.admitsDefault value p.ty with
      | some p =>
          refine iff_of_false (fun h => by cases h) fun h => ?_
          have hunfit := List.find?_some hdefaults
          have hfit := h.2 p (List.mem_of_find?_eq_some hdefaults)
          cases hvalue : p.defaultValue with
          | none => rw [hvalue] at hunfit; cases hunfit
          | some value =>
              rw [hvalue, Option.any_some, hfit value hvalue] at hunfit
              cases hunfit
      | none =>
          refine iff_of_true rfl ⟨hknown, fun p hp value hvalue => ?_⟩
          have hp' := List.find?_eq_none.mp hdefaults p hp
          rw [hvalue] at hp'
          simpa only [Option.any_some, Bool.not_eq_true', Bool.not_eq_false] using hp'

theorem forM_validate_eq_ok_iff {services : Services} {entries : List Descriptor} :
    entries.forM services.validate = .ok () ↔
      ∀ entry ∈ entries, services.validate entry = .ok () := by
  induction entries with
  | nil => exact iff_of_true rfl (List.forall_mem_nil _)
  | cons entry rest ih =>
      rw [List.forall_mem_cons, ← ih]
      constructor
      · intro h
        rcases eq_ok_of_bind h with ⟨_, hentry, hrest⟩
        exact ⟨hentry, hrest⟩
      · rintro ⟨hentry, hrest⟩
        change (services.validate entry >>= fun _ => rest.forM services.validate) = _
        rw [hentry]
        exact hrest

theorem mem_namedTypes_iff {offer : Offer} {service : String} {named : Ty} :
    named ∈ (offer.published service).namedTypes ↔
      ∃ ty ∈ offer.signature service, named ∈ ty.named := by
  rw [Procedure.namedTypes, ← List.mem_flatMap, Offer.signature, List.flatMap_append,
    List.flatMap_map]
  rfl

theorem isNull_iff {value : Value} : value.isNull ↔ value = .null := by
  cases value with
  | null => exact iff_of_true rfl rfl
  | _ => exact iff_of_false Bool.false_ne_true fun h => by cases h

/-- An enumeration is what is left of itself and of an optional one. -/
theorem unwrapped_eq_enumeration_iff {ty : Ty} {service name : String} :
    ty.unwrapped = .enumeration service name ↔
      ty = .enumeration service name ∨ ty = .optional (.enumeration service name) := by
  cases ty with
  | optional inner =>
      rw [Ty.unwrapped, Ty.optional.injEq]
      exact ⟨.inr, fun h => h.resolve_left Ty.noConfusion⟩
  | _ => exact ⟨.inl, fun h => h.resolve_right Ty.noConfusion⟩

section

variable {decls : List ServiceDecl} (hservices : (decls.map (·.name)).Nodup)
  (henumerations : ∀ decl ∈ decls, (decl.enumerations.map (·.name)).Nodup)
include hservices henumerations

/-- The catalog admits the defaults that can stand for arguments. -/
theorem admitsDefault_iff {value : Value} {ty : Ty} :
    (published decls).services.admitsDefault value ty ↔ Admits decls ty value := by
  unfold Services.admitsDefault Admits
  rw [Bool.or_eq_true, Bool.and_eq_true, isNull_iff]
  refine or_congr Iff.rfl (and_congr Iff.rfl ?_)
  split
  · next n service name hty =>
      rw [hasMember_iff hservices henumerations]
      constructor
      · rintro h _ _ _ ⟨⟩ hty'
        rw [← unwrapped_eq_enumeration_iff, hty] at hty'
        cases hty'
        exact h
      · exact fun h => h n service name rfl (unwrapped_eq_enumeration_iff.mp hty)
  · next hother =>
      refine iff_of_true rfl fun n service name hvalue hty => ?_
      exact absurd (unwrapped_eq_enumeration_iff.mpr hty) (hother n service name hvalue)

/-- An entry of the catalog is accepted if its offer fits. -/
theorem validate_published_iff {entry : Descriptor} {offer : Offer} {service : String}
    (hentry : offer.descriptor? service = some entry) :
    (published decls).services.validate entry = .ok () ↔ offer.Fits decls service := by
  rw [validate_eq_ok_iff, Offer.procedure_of_descriptor? hentry]
  refine Iff.trans (and_congr ?_ ?_) ⟨fun h => ⟨h.1, h.2⟩, fun h => ⟨h.types, h.defaults⟩⟩
  · simp only [mem_namedTypes_iff, resolves_iff hservices henumerations]
    constructor
    · intro h ty hty
      rw [← Ty.forall_mem_named_iff fun t => declares_of_not_mem_named decls]
      exact fun named hnamed => h named ⟨ty, hty, hnamed⟩
    · rintro h named ⟨ty, hty, hnamed⟩
      exact h ty hty named (Ty.partOf_of_mem_named ty named hnamed)
  · simp only [admitsDefault_iff hservices henumerations]
    rfl

end

/-- If the services are sound, a list is acceptable if all entries are. -/
theorem forM_validate_iff_acceptable {decls : List ServiceDecl}
    (hservices : (decls.map (·.name)).Nodup) (hsound : ∀ decl ∈ decls, decl.Sound) :
    (decls.flatMap (·.entries)).forM (published decls).services.validate = .ok () ↔
      Acceptable decls := by
  have henumerations : ∀ decl ∈ decls, (decl.enumerations.map (·.name)).Nodup :=
    fun decl hdecl => (hsound decl hdecl).enumerationNames
  rw [forM_validate_eq_ok_iff, List.forall_mem_flatMap]
  constructor
  · refine fun h => ⟨hservices, hsound, fun decl hdecl offer hoffer => ?_⟩
    rcases offer.exists_descriptor? decl.name ((hsound decl hdecl).implemented offer hoffer) with
      ⟨entry, hentry⟩
    exact (validate_published_iff hservices henumerations hentry).mp
      (h decl hdecl entry (List.mem_filterMap.mpr ⟨offer, hoffer, hentry⟩))
  · intro h decl hdecl entry hentry
    rcases List.mem_filterMap.mp hentry with ⟨offer, hoffer, hentry⟩
    exact (validate_published_iff hservices henumerations hentry).mpr
      (h.fitting decl hdecl offer hoffer)

/-! ## The scan -/

/-- What is accepted has no problem, and nothing else is published. -/
theorem acceptable_of_scan {decls : List ServiceDecl} {catalog : Catalog}
    (h : scan decls = .ok catalog) : Acceptable decls ∧ catalog = published decls := by
  rw [scan] at h
  cases hnames : firstRepeated? (decls.map (·.name)) with
  | some name =>
      rw [hnames] at h
      cases h
  | none =>
      rw [hnames] at h
      rw [firstRepeated?_eq_none_iff] at hnames
      rcases eq_ok_of_bind h with ⟨accepted, haccepted, hrest⟩
      rcases mapM_accept_eq_ok_iff.mp haccepted with ⟨hsound, rfl⟩
      rcases eq_ok_of_bind hrest with ⟨_, hvalid, hcatalog⟩
      rw [zipWith_info_entries hsound, ← List.flatMap_def] at hvalid hcatalog
      exact ⟨(forM_validate_iff_acceptable hnames hsound).mp hvalid, (Except.ok.inj hcatalog).symm⟩

/-- What has no problem is accepted. -/
theorem scan_of_acceptable {decls : List ServiceDecl} (h : Acceptable decls) :
    scan decls = .ok (published decls) := by
  have hpublished : published decls =
      ⟨⟨List.zipWith ServiceDecl.info decls (decls.map (·.entries))⟩,
        ⟨(decls.map (·.entries)).flatten⟩⟩ := by
    rw [published, zipWith_info_entries h.sound, List.flatMap_def]
  have hvalid := (forM_validate_iff_acceptable h.serviceNames h.sound).mpr h
  rw [List.flatMap_def, hpublished] at hvalid
  rw [scan, firstRepeated?_eq_none_iff.mpr h.serviceNames]
  simp only
  rw [mapM_accept_eq_ok_iff.mpr ⟨h.sound, rfl⟩, hpublished]
  exact congrArg (· >>= fun _ => _) hvalid

/-- A scan accepts exactly the lists of declarations without a problem, and what
    it publishes of such a list are the services in the order of declaration,
    each with what it offers in catalog order. -/
theorem scan_eq_ok_iff (decls : List ServiceDecl) (catalog : Catalog) :
    scan decls = .ok catalog ↔ Acceptable decls ∧ catalog = published decls :=
  ⟨acceptable_of_scan, fun h => h.2 ▸ scan_of_acceptable h.1⟩

end Switchboard
