import Mathlib.Data.List.TakeWhile
import Switchboard.Proofs.Scan.Agreement

/-!
# Two Ways to Look Up a Name

A qualified name is looked up in two places. A client that has fetched the catalog splits
the name at its first dot and searches for the one part among the services and for the
other among the procedures of that service. The server has a directory of whole names.

The two come to the same procedure, or both to nothing, as long as no name of a service has
a dot. Either way a name is found exactly if it is the name of some service, a dot, and
the name of something that the service offers, and what is found is what is offered there.
For the search this is so because the first dot is then the one that ends the service's
name, and for the directory because no name is listed twice. How many dots there are
behind the first one, and whether there is anything between them, makes no difference.

## Theorems

* `splitQualified?_eq_some_iff`: A name is split at its first dot.
* `procedure?_published_iff`, `get_published_iff`: What is found under a name.
* `get_offered`: A name with a single dot is answered by what it says.
* `lookups_agree`: Both ways come to the same.
-/

namespace Switchboard

/-- A name is split at its first dot. -/
theorem splitQualified?_eq_some_iff {name service procedure : String} :
    splitQualified? name = some (service, procedure) ↔
      name = service ++ "." ++ procedure ∧ '.' ∉ service.toList := by
  have hdrop : name.toList.drop (name.toList.takeWhile (· != '.')).length =
      name.toList.dropWhile (· != '.') :=
    (congrArg (List.drop _) List.takeWhile_append_dropWhile).symm.trans List.drop_left
  unfold splitQualified?
  simp only [hdrop]
  constructor
  · intro h
    split at h
    next => exact nomatch h
    next c after hafter =>
      -- What is left begins where the search stopped, at a dot.
      have hdot : c = '.' := by
        have hstopped := List.head?_dropWhile_not (· != '.') name.toList
        simpa only [hafter, List.head?_cons, bne_eq_false_iff_eq] using hstopped
      have hparts := List.takeWhile_append_dropWhile (p := (· != '.')) (l := name.toList)
      rw [hafter, hdot] at hparts
      cases h
      refine ⟨String.toList_inj.mp ?_, fun hmem => ?_⟩
      · simp only [String.toList_append, String.toList_ofList, List.append_assoc]
        exact hparts.symm
      · rw [String.toList_ofList] at hmem
        have hbefore := List.mem_takeWhile_imp hmem
        simp only [bne_self_eq_false, Bool.false_eq_true] at hbefore
  · rintro ⟨rfl, hservice⟩
    have hchars : (service ++ "." ++ procedure).toList =
        service.toList ++ '.' :: procedure.toList := by
      simp only [String.toList_append, List.append_assoc]
      rfl
    have hbefore : ∀ c ∈ service.toList, (c != '.') = true := by
      rintro c hc
      rw [bne_iff_ne]
      rintro rfl
      exact hservice hc
    rw [hchars, List.takeWhile_append_of_pos hbefore, List.dropWhile_append_of_pos hbefore,
      List.takeWhile_cons_of_neg (by decide), List.dropWhile_cons_of_neg (by decide),
      List.append_nil]
    simp only [String.ofList_toList]

variable {decls : List ServiceDecl} {name : String} {procedure : Procedure}

/-- Some service offers the procedure under the name. -/
def Offered (decls : List ServiceDecl) (name : String) (procedure : Procedure) : Prop :=
  ∃ decl ∈ decls, ∃ offer ∈ decl.offers,
    decl.name ++ "." ++ offer.name = name ∧ offer.published decl.name = procedure

/-- What a search comes to. -/
theorem procedure?_published_iff (h : Acceptable decls)
    (hdots : ∀ decl ∈ decls, '.' ∉ decl.name.toList) :
    (published decls).services.procedure? name = some procedure ↔
      Offered decls name procedure := by
  have hfind : ∀ {decl : ServiceDecl}, decl ∈ decls → ∀ {own : String},
      decl.published.procedure? own = some procedure ↔
        ∃ offer ∈ decl.offers, offer.name = own ∧ offer.published decl.name = procedure := by
    intro decl hdecl own
    change (decl.offers.map (·.published decl.name)).find? (fun p => p.name == own) = _ ↔ _
    rw [List.find?_map, Option.map_eq_some_iff]
    have hsame := @find?_eq_some_iff_of_nodup _ _ _ (h.sound decl hdecl).offerNames own
    simp only [← and_assoc, ← hsame]
    rfl
  unfold Services.procedure?
  simp only [Option.bind_eq_bind, Option.bind_eq_some_iff, Prod.exists, splitQualified?_eq_some_iff,
    service?_published h.serviceNames]
  constructor
  · rintro ⟨service, own, ⟨rfl, -⟩, found, ⟨decl, hdecl, rfl, rfl⟩, hprocedure⟩
    rcases (hfind hdecl).mp hprocedure with ⟨offer, hoffer, rfl, hpublished⟩
    exact ⟨decl, hdecl, offer, hoffer, rfl, hpublished⟩
  · rintro ⟨decl, hdecl, offer, hoffer, rfl, hpublished⟩
    exact ⟨decl.name, offer.name, ⟨rfl, hdots decl hdecl⟩, decl.published, ⟨decl, hdecl, rfl, rfl⟩,
      (hfind hdecl).mpr ⟨offer, hoffer, rfl, hpublished⟩⟩

/-- What the directory comes to, where no name is listed twice. -/
theorem get_published_iff (h : Acceptable decls)
    (hnodup : (published decls).directory.names.Nodup) :
    (∃ entry, (published decls).directory.get name = .ok entry ∧ entry.procedure = procedure) ↔
      Offered decls name procedure := by
  simp only [Directory.get_eq_ok_iff_of_nodup hnodup]
  constructor
  · rintro ⟨entry, ⟨hentry, rfl⟩, rfl⟩
    rcases List.mem_flatMap.mp hentry with ⟨decl, hdecl, hmem⟩
    rcases List.mem_filterMap.mp hmem with ⟨offer, hoffer, hoffered⟩
    rcases Option.map_eq_some_iff.mp hoffered with ⟨handler, -, rfl⟩
    exact ⟨decl, hdecl, offer, hoffer, rfl, rfl⟩
  · rintro ⟨decl, hdecl, offer, hoffer, rfl, rfl⟩
    rcases Option.isSome_iff_exists.mp ((h.sound decl hdecl).implemented offer hoffer) with
      ⟨handler, hhandler⟩
    exact ⟨_, ⟨List.mem_flatMap.mpr ⟨decl, hdecl,
      List.mem_filterMap.mpr ⟨offer, hoffer, Offer.descriptor?_eq hhandler decl.name⟩⟩, rfl⟩, rfl⟩

/-- A name with a single dot can be put together in one way only, so what a service offers
    under its name and an own one without dots answers to the two, whatever the other
    services are called. -/
theorem get_offered {catalog : Catalog} (h : scan decls = .ok catalog) {decl : ServiceDecl}
    (hdecl : decl ∈ decls) {offer : Offer} (hoffer : offer ∈ decl.offers) {handler : Handler}
    (hhandler : offer.handler = some handler) (hservice : '.' ∉ decl.name.toList)
    (hown : '.' ∉ offer.name.toList) :
    catalog.directory.get (decl.name ++ "." ++ offer.name) =
      .ok ⟨decl.name ++ "." ++ offer.name, decl.name, offer.published decl.name, handler⟩ := by
  rcases acceptable_of_scan h with ⟨hacceptable, rfl⟩
  have hlisted : decl.name ++ "." ++ offer.name ∈ (published decls).directory.names := by
    rw [names_published hacceptable.sound]
    exact List.mem_flatMap.mpr ⟨decl, hdecl, List.mem_map.mpr ⟨offer, hoffer, rfl⟩⟩
  rcases Directory.exists_get_iff.mpr hlisted with ⟨entry, hentry⟩
  -- Whatever answers to the name has the same two names in it.
  have hfound := Directory.get_eq_ok_iff.mp hentry
  have hname : entry.qualifiedName = decl.name ++ "." ++ offer.name := by
    simpa only [beq_iff_eq] using List.find?_some hfound
  have hmember := List.mem_reverse.mp (List.mem_of_find?_eq_some hfound)
  rcases List.mem_flatMap.mp hmember with ⟨decl', hdecl', hmem⟩
  rcases List.mem_filterMap.mp hmem with ⟨offer', hoffer', hdescriptor⟩
  rcases Option.map_eq_some_iff.mp hdescriptor with ⟨handler', hhandler', rfl⟩
  rcases eq_of_dotted_eq hservice hown hname with ⟨hsame, hsame'⟩
  have hdecls : decl' = decl :=
    List.inj_on_of_nodup_map hacceptable.serviceNames hdecl' hdecl hsame
  subst hdecls
  have hoffers : offer' = offer :=
    List.inj_on_of_nodup_map (hacceptable.sound decl' hdecl).offerNames hoffer' hoffer hsame'
  subst hoffers
  rw [hhandler, Option.some.injEq] at hhandler'
  rw [hentry, hhandler']

/-- Whatever the name, searching the catalog for it and asking the directory come to the
    same procedure, or both to nothing, if the services have no dots in their names. They
    come to something only if the name is that of a service, a dot, and that of something
    the service offers. -/
theorem lookups_agree {decls : List ServiceDecl} {catalog : Catalog}
    (h : scan decls = .ok catalog) (hdots : ∀ decl ∈ decls, '.' ∉ decl.name.toList)
    (name : String) :
    (∀ procedure, catalog.services.procedure? name = some procedure ↔
      ∃ entry, catalog.directory.get name = .ok entry ∧ entry.procedure = procedure) ∧
    ((∀ decl ∈ decls, ∀ offer ∈ decl.offers, decl.name ++ "." ++ offer.name ≠ name) →
      catalog.services.procedure? name = none ∧
        catalog.directory.get name = .error (.noSuchProcedure name)) := by
  rcases acceptable_of_scan h with ⟨hacceptable, rfl⟩
  have hnodup : (published decls).directory.names.Nodup := by
    rw [names_published hacceptable.sound]
    exact nodup_qualifiedNames hacceptable hdots
  have hfound : ∀ procedure, (published decls).services.procedure? name = some procedure ↔
      Offered decls name procedure := fun _ => procedure?_published_iff hacceptable hdots
  refine ⟨fun procedure => ?_, fun hother => ?_⟩
  · rw [hfound, get_published_iff hacceptable hnodup]
  · have hnothing : ∀ procedure, ¬Offered decls name procedure := by
      rintro procedure ⟨decl, hdecl, offer, hoffer, hname, -⟩
      exact hother decl hdecl offer hoffer hname
    refine ⟨Option.eq_none_iff_forall_ne_some.mpr fun procedure hprocedure =>
      hnothing procedure ((hfound procedure).mp hprocedure), ?_⟩
    rw [Directory.get]
    cases hget : (published decls).directory.find? name with
    | none => rfl
    | some entry =>
        refine absurd ((get_published_iff hacceptable hnodup).mp ?_) (hnothing entry.procedure)
        exact ⟨entry, Directory.get_eq_ok_iff.mpr hget, rfl⟩

/-- A procedure with a dot in its name is found both ways, and a name that ends with the dot
    after a service's name is found neither way. -/
theorem undottedServices_lookups :
    ∃ catalog, scan undottedServices = .ok catalog ∧
      (∃ procedure, catalog.services.procedure? "A.B.C" = some procedure ∧
        procedure.name = "B.C" ∧
        ∃ entry, catalog.directory.get "A.B.C" = .ok entry ∧ entry.procedure = procedure) ∧
      catalog.services.procedure? "AB." = none ∧
      catalog.directory.get "AB." = .error (.noSuchProcedure "AB.") := by
  have hscan : scan undottedServices = .ok (published undottedServices) := rfl
  have hdots : ∀ decl ∈ undottedServices, '.' ∉ decl.name.toList := by decide
  have hfound : (published undottedServices).services.procedure? "A.B.C" =
      some ⟨"B.C", [], none, "", false⟩ := rfl
  exact ⟨_, hscan, ⟨_, hfound, rfl, ((lookups_agree hscan hdots "A.B.C").1 _).mp hfound⟩,
    (lookups_agree hscan hdots "AB.").2 (by decide +kernel)⟩

end Switchboard
