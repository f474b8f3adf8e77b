import Mathlib.Data.List.Nodup
import Switchboard.Proofs.Coercion.Plain
import Switchboard.Proofs.Scan.Offers

/-!
# What Declarations Declare

The classes, enumerations and members that a list of declarations has, and that
the published catalog finds exactly these.

The catalog looks for the first service of a name, and in that service for the
first class or enumeration of a name. So something declared later under the same
names would be declared and not found. Names of services are not shared, and
neither are those of enumerations within a service, so there is nothing behind
what is found first. For classes the second point does not matter, since it is
only asked whether there is one.

## Main definitions

* `Ty.PartOf`: Descriptors inside descriptors, at any depth.
* `Declares`, `DeclaresMember`: What there is for a descriptor to name.

## Theorems

* `Ty.forall_mem_named_iff`: What is listed is what lies inside.
* `find?_eq_some_iff_of_nodup`: A search by names that are not shared.
* `resolves_iff`, `hasMember_iff`: The catalog finds what is declared.
-/

namespace Switchboard

/-! ## Descriptors inside descriptors -/

namespace Ty

/-- A descriptor is part of another one if it is that one or lies inside it, at
    any depth. -/
inductive PartOf (part : Ty) : Ty → Prop
  | whole : PartOf part part
  | list {element : Ty} : PartOf part element → PartOf part (.list element)
  | set {element : Ty} : PartOf part element → PartOf part (.set element)
  | optional {inner : Ty} : PartOf part inner → PartOf part (.optional inner)
  | key {key : Ty} (value : Ty) : PartOf part key → PartOf part (.map key value)
  | value (key : Ty) {value : Ty} : PartOf part value → PartOf part (.map key value)
  | tuple {element : Ty} {elements : List Ty} (h : element ∈ elements) :
      PartOf part element → PartOf part (.tuple elements)

/-- What a part mentions is mentioned. -/
theorem PartOf.mem_named {part ty : Ty} (h : part.PartOf ty) :
    ∀ t ∈ part.named, t ∈ ty.named := by
  induction h with
  | whole => exact fun _ ht => ht
  | list _ ih | set _ ih | optional _ ih =>
      intro t ht
      rw [named]
      exact ih t ht
  | key value _ ih =>
      intro t ht
      rw [named]
      exact List.mem_append_left _ (ih t ht)
  | value key _ ih =>
      intro t ht
      rw [named]
      exact List.mem_append_right _ (ih t ht)
  | tuple hmem _ ih =>
      intro t ht
      rw [named]
      exact mem_namedAll hmem (ih t ht)

mutual

theorem partOf_of_mem_named : ∀ (ty : Ty), ∀ t ∈ ty.named, t.PartOf ty
  | .bool, _, h | .int32, _, h | .int64, _, h | .float32, _, h | .float64, _, h | .string, _, h
  | .bytes, _, h => absurd h List.not_mem_nil
  | .list element, t, h => .list (partOf_of_mem_named element t (by rwa [named] at h))
  | .set element, t, h => .set (partOf_of_mem_named element t (by rwa [named] at h))
  | .optional inner, t, h => .optional (partOf_of_mem_named inner t (by rwa [named] at h))
  | .map key value, t, h => by
      rw [named] at h
      rcases List.mem_append.mp h with h | h
      · exact .key value (partOf_of_mem_named key t h)
      · exact .value key (partOf_of_mem_named value t h)
  | .tuple elements, t, h => by
      rw [named] at h
      rcases partOf_of_mem_namedAll elements t h with ⟨element, hmem, hpart⟩
      exact .tuple hmem hpart
  | .enumeration service name, t, h => by
      rw [named] at h
      exact List.mem_singleton.mp h ▸ .whole
  | .instanceOf service name, t, h => by
      rw [named] at h
      exact List.mem_singleton.mp h ▸ .whole

theorem partOf_of_mem_namedAll : ∀ (tys : List Ty), ∀ t ∈ namedAll tys,
    ∃ ty ∈ tys, t.PartOf ty
  | [], _, h => absurd h List.not_mem_nil
  | ty :: rest, t, h => by
      rw [namedAll] at h
      rcases List.mem_append.mp h with h | h
      · exact ⟨ty, List.mem_cons_self, partOf_of_mem_named ty t h⟩
      · rcases partOf_of_mem_namedAll rest t h with ⟨other, hmem, hpart⟩
        exact ⟨other, List.mem_cons_of_mem _ hmem, hpart⟩

end

/-- Of the parts of a descriptor those are listed that can fail a test which
    only descriptors of classes and enumerations fail. -/
theorem forall_mem_named_iff {P : Ty → Prop} (hP : ∀ t : Ty, t ∉ t.named → P t) {ty : Ty} :
    (∀ t ∈ ty.named, P t) ↔ ∀ t : Ty, t.PartOf ty → P t := by
  constructor
  · intro h t hpart
    by_cases hself : t ∈ t.named
    · exact h t (hpart.mem_named t hself)
    · exact hP t hself
  · exact fun h t hmem => h t (partOf_of_mem_named ty t hmem)

end Ty

/-! ## Declarations -/

/-- There is a class or enumeration for a descriptor to name. Descriptors of
    other kinds name nothing. -/
def Declares (decls : List ServiceDecl) : Ty → Prop
  | .instanceOf service name =>
      ∃ decl ∈ decls, decl.name = service ∧ ∃ c ∈ decl.classes, c.name = name
  | .enumeration service name =>
      ∃ decl ∈ decls, decl.name = service ∧ ∃ e ∈ decl.enumerations, e.name = name
  | _ => True

/-- An enumeration has a member with an integer value. -/
def DeclaresMember (decls : List ServiceDecl) (service name : String) (n : Int32) : Prop :=
  ∃ decl ∈ decls, decl.name = service ∧
    ∃ e ∈ decl.enumerations, e.name = name ∧ ∃ m ∈ e.members, m.value = n

theorem declares_of_not_mem_named (decls : List ServiceDecl) {t : Ty} (h : t ∉ t.named) :
    Declares decls t := by
  cases t with
  | enumeration service name => exact absurd List.mem_cons_self h
  | instanceOf service name => exact absurd List.mem_cons_self h
  | _ => trivial

/-! ## Searching by name -/

/-- Where names are not shared, what is found under a name is what has it. -/
theorem find?_eq_some_iff_of_nodup {α : Type} {key : α → String} {items : List α}
    (h : (items.map key).Nodup) {name : String} {a : α} :
    items.find? (fun item => key item == name) = some a ↔ a ∈ items ∧ key a = name := by
  constructor
  · intro hfind
    have hname := List.find?_some hfind
    simp only [beq_iff_eq] at hname
    exact ⟨List.mem_of_find?_eq_some hfind, hname⟩
  · rintro ⟨hmem, hname⟩
    induction items with
    | nil => exact absurd hmem List.not_mem_nil
    | cons first rest ih =>
        rw [List.map_cons, List.nodup_cons] at h
        rcases List.mem_cons.mp hmem with rfl | hmem
        · exact List.find?_cons_of_pos (beq_iff_eq.mpr hname)
        · have hother : key first ≠ name := by
            rintro rfl
            exact h.1 (List.mem_map.mpr ⟨a, hmem, hname⟩)
          rw [List.find?_cons_of_neg (by simpa only [beq_iff_eq] using hother)]
          exact ih h.2 hmem

theorem find?_isSome_iff {α : Type} {key : α → String} {items : List α} {name : String} :
    (items.find? fun item => key item == name).isSome ↔ ∃ item ∈ items, key item = name := by
  simp only [List.find?_isSome, beq_iff_eq]

variable {decls : List ServiceDecl}

/-- A service of the catalog is one of those declared. -/
theorem service?_published (hservices : (decls.map (·.name)).Nodup) {service : String}
    {found : Service} : (published decls).services.service? service = some found ↔
      ∃ decl ∈ decls, decl.name = service ∧ decl.published = found := by
  change (decls.map (·.published)).find? (fun s => s.name == service) = _ ↔ _
  rw [List.find?_map, Option.map_eq_some_iff]
  constructor
  · rintro ⟨decl, hfind, rfl⟩
    rcases (find?_eq_some_iff_of_nodup hservices).mp hfind with ⟨hmem, hname⟩
    exact ⟨decl, hmem, hname, rfl⟩
  · rintro ⟨decl, hmem, hname, rfl⟩
    exact ⟨decl, (find?_eq_some_iff_of_nodup hservices).mpr ⟨hmem, hname⟩, rfl⟩

/-- A class of the catalog is one of those declared. -/
theorem class?_published {decl : ServiceDecl} {name : String} :
    (decl.published.class? name).isSome ↔ ∃ c ∈ decl.classes, c.name = name := by
  change ((decl.classes.map (·.info)).find? (fun c => c.name == name)).isSome ↔ _
  rw [List.find?_map, Option.isSome_map]
  exact find?_isSome_iff

/-- An enumeration of the catalog is one of those declared. -/
theorem enumerationFor?_published (hservices : (decls.map (·.name)).Nodup)
    (henumerations : ∀ decl ∈ decls, (decl.enumerations.map (·.name)).Nodup)
    {service name : String} {found : Enumeration} :
    (published decls).services.enumerationFor? (.enumeration service name) = some found ↔
      ∃ decl ∈ decls, decl.name = service ∧
        ∃ e ∈ decl.enumerations, e.name = name ∧ e.info = found := by
  rw [Services.enumerationFor?, Option.bind_eq_bind, Option.bind_eq_some_iff]
  constructor
  · rintro ⟨s, hservice, hfind⟩
    rcases (service?_published hservices).mp hservice with ⟨decl, hdecl, hname, rfl⟩
    change (decl.enumerations.map (·.info)).find? (fun e => e.name == name) = _ at hfind
    rw [List.find?_map, Option.map_eq_some_iff] at hfind
    rcases hfind with ⟨e, hfind, rfl⟩
    rcases (find?_eq_some_iff_of_nodup (henumerations decl hdecl)).mp hfind with ⟨he, hename⟩
    exact ⟨decl, hdecl, hname, e, he, hename, rfl⟩
  · rintro ⟨decl, hdecl, hname, e, he, hename, rfl⟩
    refine ⟨decl.published, (service?_published hservices).mpr ⟨decl, hdecl, hname, rfl⟩, ?_⟩
    change (decl.enumerations.map (·.info)).find? (fun e => e.name == name) = _
    rw [List.find?_map, Option.map_eq_some_iff]
    exact ⟨e, (find?_eq_some_iff_of_nodup (henumerations decl hdecl)).mpr ⟨he, hename⟩, rfl⟩

/-- A descriptor names something in the catalog if there is something declared
    for it to name. -/
theorem resolves_iff (hservices : (decls.map (·.name)).Nodup)
    (henumerations : ∀ decl ∈ decls, (decl.enumerations.map (·.name)).Nodup) {t : Ty} :
    (published decls).services.resolves t ↔ Declares decls t := by
  cases t with
  | instanceOf service name =>
      rw [Services.resolves, Declares]
      cases hfind : (published decls).services.service? service with
      | none =>
          refine iff_of_false Bool.false_ne_true ?_
          rintro ⟨decl, hdecl, hname, -⟩
          rw [(service?_published hservices).mpr ⟨decl, hdecl, hname, rfl⟩] at hfind
          cases hfind
      | some found =>
          rcases (service?_published hservices).mp hfind with ⟨decl, hdecl, hname, rfl⟩
          change (decl.published.class? name).isSome ↔ _
          rw [class?_published]
          constructor
          · exact fun h => ⟨decl, hdecl, hname, h⟩
          · rintro ⟨other, hother, hsame, h⟩
            rwa [List.inj_on_of_nodup_map hservices hdecl hother (hname.trans hsame.symm)]
  | enumeration service name =>
      rw [Services.resolves, Declares, Option.isSome_iff_exists]
      constructor
      · rintro ⟨found, hfind⟩
        rcases (enumerationFor?_published hservices henumerations).mp hfind with
          ⟨decl, hdecl, hname, e, he, hename, -⟩
        exact ⟨decl, hdecl, hname, e, he, hename⟩
      · rintro ⟨decl, hdecl, hname, e, he, hename⟩
        exact ⟨e.info, (enumerationFor?_published hservices henumerations).mpr
          ⟨decl, hdecl, hname, e, he, hename, rfl⟩⟩
  | _ => exact iff_of_true rfl trivial

/-- An integer is a member in the catalog if it is declared as one. -/
theorem hasMember_iff (hservices : (decls.map (·.name)).Nodup)
    (henumerations : ∀ decl ∈ decls, (decl.enumerations.map (·.name)).Nodup)
    {service name : String} {n : Int32} :
    (published decls).services.hasMember (.enumeration service name) n ↔
      DeclaresMember decls service name n := by
  have hmember : ∀ e : EnumerationDecl,
      (e.info.member? n).isSome ↔ ∃ m ∈ e.members, m.value = n := by
    intro e
    rw [Enumeration.member?, EnumerationDecl.info, List.find?_map, Option.isSome_map]
    simp only [List.find?_isSome, Function.comp_apply, beq_iff_eq]
  rw [Services.hasMember, DeclaresMember]
  cases hfind : (published decls).services.enumerationFor? (.enumeration service name) with
  | none =>
      refine iff_of_false Bool.false_ne_true ?_
      rintro ⟨decl, hdecl, hname, e, he, hename, -⟩
      rw [(enumerationFor?_published hservices henumerations).mpr
        ⟨decl, hdecl, hname, e, he, hename, rfl⟩] at hfind
      cases hfind
  | some found =>
      rcases (enumerationFor?_published hservices henumerations).mp hfind with
        ⟨decl, hdecl, hname, e, he, hename, rfl⟩
      rw [hmember e]
      constructor
      · exact fun h => ⟨decl, hdecl, hname, e, he, hename, h⟩
      · rintro ⟨other, hother, hsame, e', he', hename', h⟩
        rw [← List.inj_on_of_nodup_map hservices hdecl hother (hname.trans hsame.symm)] at he'
        rwa [List.inj_on_of_nodup_map (henumerations decl hdecl) he he'
          (hename.trans hename'.symm)]

end Switchboard
