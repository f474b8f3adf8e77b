import Mathlib.Data.Set.Card
import Switchboard.Proofs.Scan.Acceptance

/-!
# Catalog and Directory

Clients read the catalog and call by qualified names, and the directory answers
to them. The two agree if whatever the catalog lists under a service and a name
is what answers to the service's name, a dot, and the name.

They need not agree. Names are checked to differ within each service, and the
directory joins the names of all services into one list, in which the last entry
of a name answers. A dot in the name of a service makes room for two services to
come to one qualified name: procedure `B.C` of service `A` and procedure `C` of
service `A.B`. Then the directory lists the name twice, and a call for the one is
answered by the other.

That is the only way. The entry that answers knows its service, so if everything
is answered by its own entry then no name is shared between services, and within
a service it was never shared. Where no name of a service has a dot, the first
dot of a qualified name tells where the name of the service ends.

## Main definitions

* `ServiceDecl.qualifiedNames`: The names that a service's offers are called by.
* `Agreement`: Everything in the catalog is answered by its own entry.

## Theorems

* `names_published`: What the directory lists.
* `agreement_iff`: When catalog and directory agree.
* `nodup_qualifiedNames`: Services without dots share no names.
* `directory_agrees_iff`: The same for what a scan accepts.
-/

namespace Switchboard

/-- The names that what a service offers is called by. -/
def ServiceDecl.qualifiedNames (decl : ServiceDecl) : List String :=
  decl.offers.map fun offer => decl.name ++ "." ++ offer.name

/-- Everything in the catalog is answered by its own entry, and nothing else is
    answered. -/
structure Agreement (decls : List ServiceDecl) (catalog : Catalog) : Prop where
  /-- The services of the catalog are those declared, with what they offer. -/
  services : catalog.services.services = decls.map (·.published)
  /-- Each procedure is answered by its own entry, with its own handler. -/
  answered : ∀ decl ∈ decls, ∀ offer ∈ decl.offers, ∃ entry,
    catalog.directory.get (decl.name ++ "." ++ offer.name) = .ok entry ∧
      entry.service = decl.name ∧ entry.procedure = offer.published decl.name ∧
      offer.handler = some entry.handler
  /-- The directory lists the qualified names in catalog order. -/
  listed : catalog.directory.names =
    catalog.services.services.flatMap fun s => s.procedures.map fun p => s.name ++ "." ++ p.name
  /-- No name is listed twice. -/
  distinct : catalog.directory.names.Nodup
  /-- The size of the directory is the number of names that it answers to. -/
  counted : {name | ∃ entry, catalog.directory.get name = .ok entry}.ncard = catalog.directory.size

/-! ## Qualified names -/

/-- Up to the first dot a qualified name is the name of the service, unless that
    has a dot itself. -/
theorem eq_of_dotted_services_eq {service procedure service' procedure' : String}
    (hservice : '.' ∉ service.toList) (hservice' : '.' ∉ service'.toList)
    (h : service ++ "." ++ procedure = service' ++ "." ++ procedure') : service = service' := by
  have hchars := congrArg String.toList h
  simp only [String.toList_append, List.append_assoc] at hchars
  change service.toList ++ '.' :: procedure.toList =
    service'.toList ++ '.' :: procedure'.toList at hchars
  rw [← String.toList_inj]
  -- The part by which one name is longer begins with a dot unless it is empty.
  rcases List.append_eq_append_iff.mp hchars with ⟨rest, hlong, htail⟩ | ⟨rest, hlong, htail⟩
  · cases rest with
    | nil => rw [hlong, List.append_nil]
    | cons c rest =>
        rw [List.cons_append, List.cons.injEq] at htail
        exact absurd (hlong ▸ List.mem_append_right _ (htail.1 ▸ List.mem_cons_self)) hservice'
  · cases rest with
    | nil => rw [hlong, List.append_nil]
    | cons c rest =>
        rw [List.cons_append, List.cons.injEq] at htail
        exact absurd (hlong ▸ List.mem_append_right _ (htail.1 ▸ List.mem_cons_self)) hservice

/-- A service's own names differ under its name too. -/
theorem ServiceDecl.Sound.nodup_qualifiedNames {decl : ServiceDecl} (h : decl.Sound) :
    decl.qualifiedNames.Nodup := by
  have hqualified : decl.qualifiedNames =
      (decl.offers.map (·.name)).map fun name => decl.name ++ "." ++ name := by
    rw [List.map_map]
    rfl
  rw [hqualified]
  exact List.Nodup.map (fun _ _ => (String.append_right_inj _).mp) h.offerNames

/-- No name is shared if none is shared between two services. -/
theorem nodup_of_unshared {decls : List ServiceDecl} (h : Acceptable decls)
    (hunshared : ∀ decl ∈ decls, ∀ other ∈ decls, ∀ name ∈ decl.qualifiedNames,
      name ∈ other.qualifiedNames → decl.name = other.name) :
    (decls.flatMap (·.qualifiedNames)).Nodup := by
  rw [List.nodup_flatMap]
  refine ⟨fun decl hdecl => (h.sound decl hdecl).nodup_qualifiedNames, ?_⟩
  refine List.Pairwise.imp_of_mem ?_ (List.pairwise_map.mp h.serviceNames)
  intro decl other hdecl hother hne name hname hname'
  exact hne (hunshared decl hdecl other hother name hname hname')

/-- Services without dots in their names share no qualified names. -/
theorem nodup_qualifiedNames {decls : List ServiceDecl} (h : Acceptable decls)
    (hdots : ∀ decl ∈ decls, '.' ∉ decl.name.toList) :
    (decls.flatMap (·.qualifiedNames)).Nodup := by
  refine nodup_of_unshared h fun decl hdecl other hother name hname hname' => ?_
  rcases List.mem_map.mp hname with ⟨offer, -, rfl⟩
  rcases List.mem_map.mp hname' with ⟨offer', -, heq⟩
  exact eq_of_dotted_services_eq (hdots decl hdecl) (hdots other hother) heq.symm

/-! ## Looking up -/

namespace Directory

variable {d : Directory} {name : String} {entry : Descriptor}

theorem get_eq_ok_iff : d.get name = .ok entry ↔ d.find? name = some entry := by
  rw [get]
  cases d.find? name with
  | none => exact iff_of_false (fun h => nomatch h) fun h => nomatch h
  | some found => rw [Except.ok.injEq, Option.some.injEq]

/-- The directory answers to the names that it lists. -/
theorem exists_get_iff : (∃ entry, d.get name = .ok entry) ↔ name ∈ d.names := by
  simp only [get_eq_ok_iff, ← Option.isSome_iff_exists, find?, find?_isSome_iff, names,
    List.mem_reverse, List.mem_map]

/-- Where no name is listed twice, each entry answers to its name. -/
theorem get_eq_ok_iff_of_nodup (h : d.names.Nodup) :
    d.get name = .ok entry ↔ entry ∈ d.descriptors ∧ entry.qualifiedName = name := by
  have hreverse : (d.descriptors.reverse.map (·.qualifiedName)).Nodup := by
    rw [List.map_reverse]
    exact List.nodup_reverse.mpr h
  rw [get_eq_ok_iff, find?, find?_eq_some_iff_of_nodup hreverse, List.mem_reverse]

/-- Where no name is listed twice, as many names are answered as are listed. -/
theorem ncard_answered (h : d.names.Nodup) :
    {name | ∃ entry, d.get name = .ok entry}.ncard = d.size := by
  have hanswered : {name | ∃ entry, d.get name = .ok entry} = (d.names.toFinset : Set String) := by
    ext name
    rw [Set.mem_ofPred_eq, exists_get_iff, Finset.mem_coe, List.mem_toFinset]
  rw [hanswered, Set.ncard_coe_finset, List.toFinset_card_of_nodup h, names, List.length_map, size]

end Directory

/-! ## Agreement -/

theorem names_published {decls : List ServiceDecl} (h : ∀ decl ∈ decls, decl.Sound) :
    (published decls).directory.names = decls.flatMap (·.qualifiedNames) := by
  change (decls.flatMap (·.entries)).map (·.qualifiedName) = _
  rw [List.map_flatMap]
  refine List.flatMap_congr fun decl hdecl => ?_
  refine map_entries (h decl hdecl).implemented _ _ fun offer entry hentry => ?_
  rcases Option.map_eq_some_iff.mp hentry with ⟨handler, -, rfl⟩
  rfl

/-- The catalog of sound services agrees with its directory if no qualified name
    is shared. -/
theorem agreement_iff {decls : List ServiceDecl} (h : Acceptable decls) :
    Agreement decls (published decls) ↔ (decls.flatMap (·.qualifiedNames)).Nodup := by
  have hnames := names_published h.sound
  constructor
  · intro hagree
    rw [← hnames]
    exact hagree.distinct
  · intro hnodup
    rw [← hnames] at hnodup
    refine ⟨rfl, fun decl hdecl offer hoffer => ?_, ?_, hnodup, Directory.ncard_answered hnodup⟩
    · rcases Option.isSome_iff_exists.mp ((h.sound decl hdecl).implemented offer hoffer) with
        ⟨handler, hhandler⟩
      have hentry := Offer.descriptor?_eq hhandler decl.name
      have hmem : _ ∈ (published decls).directory.descriptors :=
        List.mem_flatMap.mpr ⟨decl, hdecl, List.mem_filterMap.mpr ⟨offer, hoffer, hentry⟩⟩
      exact ⟨_, (Directory.get_eq_ok_iff_of_nodup hnodup).mpr ⟨hmem, rfl⟩, rfl, rfl, hhandler⟩
    · rw [hnames]
      change _ = (decls.map (·.published)).flatMap _
      rw [List.flatMap_map]
      refine List.flatMap_congr fun decl _ => ?_
      change _ = (decl.offers.map (·.published decl.name)).map _
      rw [List.map_map]
      rfl

/-- If everything is answered by an entry of its own service, no qualified name is
    shared. -/
theorem nodup_of_answered {decls : List ServiceDecl} (h : Acceptable decls) {d : Directory}
    (hanswered : ∀ decl ∈ decls, ∀ offer ∈ decl.offers, ∃ entry,
      d.get (decl.name ++ "." ++ offer.name) = .ok entry ∧ entry.service = decl.name) :
    (decls.flatMap (·.qualifiedNames)).Nodup := by
  refine nodup_of_unshared h fun decl hdecl other hother name hname hname' => ?_
  rcases List.mem_map.mp hname with ⟨offer, hoffer, rfl⟩
  rcases List.mem_map.mp hname' with ⟨offer', hoffer', heq⟩
  rcases hanswered decl hdecl offer hoffer with ⟨entry, hget, hservice⟩
  rcases hanswered other hother offer' hoffer' with ⟨entry', hget', hservice'⟩
  -- One name is answered by one entry, which is of one service.
  rw [heq, hget, Except.ok.injEq] at hget'
  rw [← hservice, hget', hservice']

/-- The directory of a scan lists the qualified names in catalog order. It agrees
    with the catalog if none of them is listed twice, which is the case if
    everything is answered by an entry of its own service, and always the case if
    no name of a service has a dot. -/
theorem directory_agrees_iff {decls : List ServiceDecl} {catalog : Catalog}
    (h : scan decls = .ok catalog) :
    catalog.directory.names = decls.flatMap (·.qualifiedNames) ∧
    (Agreement decls catalog ↔ catalog.directory.names.Nodup) ∧
    (catalog.directory.names.Nodup ↔ ∀ decl ∈ decls, ∀ offer ∈ decl.offers, ∃ entry,
      catalog.directory.get (decl.name ++ "." ++ offer.name) = .ok entry ∧
        entry.service = decl.name) ∧
    ((∀ decl ∈ decls, '.' ∉ decl.name.toList) → Agreement decls catalog) := by
  rcases acceptable_of_scan h with ⟨hacceptable, rfl⟩
  have hnames := names_published hacceptable.sound
  have hagree := agreement_iff hacceptable
  rw [← hnames] at hagree
  refine ⟨hnames, hagree, ⟨fun hnodup decl hdecl offer hoffer => ?_, fun hanswered => ?_⟩,
    fun hdots => ?_⟩
  · rcases (hagree.mpr hnodup).answered decl hdecl offer hoffer with ⟨entry, hget, hservice, -⟩
    exact ⟨entry, hget, hservice⟩
  · rw [hnames]
    exact nodup_of_answered hacceptable hanswered
  · rw [hagree, hnames]
    exact nodup_qualifiedNames hacceptable hdots

/-- Two services without dots in their names, one of which has a procedure with a
    dot in its own. -/
def undottedServices : List ServiceDecl :=
  [{ name := "A", procedures := [{ name := "B.C", handler := some (return .done) }] },
    { name := "AB", procedures := [{ name := "C", handler := some (return .done) }] }]

theorem undottedServices_agree :
    ∃ catalog, scan undottedServices = .ok catalog ∧ Agreement undottedServices catalog ∧
      catalog.directory.names = ["A.B.C", "AB.C"] := by
  have hscan : ∃ catalog, scan undottedServices = .ok catalog := ⟨_, rfl⟩
  rcases hscan with ⟨catalog, hscan⟩
  rcases directory_agrees_iff hscan with ⟨hnames, -, -, hagree⟩
  exact ⟨catalog, hscan, hagree (by decide), hnames⟩

/-- Two services that come to one qualified name. -/
def dottedServices : List ServiceDecl :=
  [{ name := "A", procedures := [{ name := "B.C", handler := some (return .done) }] },
    { name := "A.B", procedures := [{ name := "C", handler := some (return .done) }] }]

/-- The name is listed twice, and the procedure of the first service is answered
    by that of the second. -/
theorem dottedServices_disagree :
    ∃ catalog, scan dottedServices = .ok catalog ∧
      catalog.directory.names = ["A.B.C", "A.B.C"] ∧
      (∃ entry, catalog.directory.get ("A" ++ "." ++ "B.C") = .ok entry ∧
        entry.service = "A.B" ∧ entry.procedure.name = "C") ∧
      ¬Agreement dottedServices catalog := by
  refine ⟨_, rfl, rfl, ⟨_, rfl, rfl, rfl⟩, fun hagree => ?_⟩
  exact absurd hagree.distinct (by decide)

end Switchboard
