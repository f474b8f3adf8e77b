import Switchboard.Services.Core

/-!
# Entries of the Core Service

A server's own procedures cannot be taken away from it. Whatever is declared
beside the core service, the names of its procedures lead to its own handlers.

That needs an argument because the directory lists the procedures of all
services and the last entry of a name answers to it. An entry's name is that of
its service, a dot, and the procedure's own. No other service is called `Core`,
since names of services are not declared twice. So an entry of another service
could have the name only if the dot stood elsewhere in it, and the names of the
core procedures have no second dot.

## Main definitions

* `coreEntries`: What the core service enters into the directory.

## Theorems

* `eq_of_dotted_eq`: Names around a single dot are told apart.
* `nodup_of_firstRepeated?`: No name is repeated.
* `accept_names`: How the entries of a service are named.
* `find?_core`: The core service answers to the names of its procedures.
-/

namespace Switchboard

/-! ## Names -/

/-- A name with a single dot has one part before it and one after it. -/
theorem eq_of_dotted_eq {service procedure service' procedure' : String}
    (hservice : '.' ∉ service'.toList) (hprocedure : '.' ∉ procedure'.toList)
    (h : service ++ "." ++ procedure = service' ++ "." ++ procedure') :
    service = service' ∧ procedure = procedure' := by
  have hchars := congrArg String.toList h
  simp only [String.toList_append, List.append_assoc] at hchars
  change service.toList ++ '.' :: procedure.toList =
    service'.toList ++ '.' :: procedure'.toList at hchars
  -- The part by which one service's name would be longer begins with a dot
  -- unless it is empty.
  rcases List.append_eq_append_iff.mp hchars with ⟨rest, hlong, htail⟩ | ⟨rest, hlong, htail⟩
  · cases rest with
    | nil =>
        rw [List.append_nil] at hlong
        rw [List.nil_append, List.cons.injEq] at htail
        exact ⟨String.toList_inj.mp hlong.symm, String.toList_inj.mp htail.2⟩
    | cons c rest =>
        rw [List.cons_append, List.cons.injEq] at htail
        exact absurd (hlong ▸ List.mem_append_right _ (htail.1 ▸ List.mem_cons_self)) hservice
  · cases rest with
    | nil =>
        rw [List.append_nil] at hlong
        rw [List.nil_append, List.cons.injEq] at htail
        exact ⟨String.toList_inj.mp hlong, String.toList_inj.mp htail.2.symm⟩
    | cons c rest =>
        rw [List.cons_append, List.cons.injEq] at htail
        exact absurd (htail.2 ▸ List.mem_append_right _ List.mem_cons_self) hprocedure

theorem firstRepeated?_go_eq_none {seen names : List String}
    (h : firstRepeated?.go seen names = none) : names.Nodup ∧ ∀ name ∈ names, name ∉ seen := by
  induction names generalizing seen with
  | nil => exact ⟨List.nodup_nil, fun _ h => absurd h List.not_mem_nil⟩
  | cons name rest ih =>
      rw [firstRepeated?.go] at h
      by_cases hseen : name ∈ seen
      · rw [if_pos hseen] at h
        exact absurd h (Option.some_ne_none name)
      · rw [if_neg hseen] at h
        rcases ih h with ⟨hnodup, hfresh⟩
        refine ⟨List.nodup_cons.mpr ⟨fun hmem => ?_, hnodup⟩, List.forall_mem_cons.mpr ⟨hseen, ?_⟩⟩
        · exact hfresh name hmem List.mem_cons_self
        · exact fun other hmem hold => hfresh other hmem (List.mem_cons_of_mem _ hold)

theorem nodup_of_firstRepeated? {names : List String} (h : firstRepeated? names = none) :
    names.Nodup :=
  (firstRepeated?_go_eq_none h).1

/-! ## Entries of a service -/

/-- A computation succeeds only if each of its parts does. -/
theorem eq_ok_of_bind {ε α β : Type} {x : Except ε α} {f : α → Except ε β} {b : β}
    (h : x >>= f = .ok b) : ∃ a, x = .ok a ∧ f a = .ok b := by
  cases x with
  | error e => exact nomatch h
  | ok a => exact ⟨a, rfl, h⟩

/-- An entry is named after its service and its procedure. -/
theorem accept_names {service : String} {seen : List String} {derived : List Derived}
    {entries : List Descriptor} (h : accept service seen derived = .ok entries) :
    ∀ entry ∈ entries, entry.qualifiedName = service ++ "." ++ entry.procedure.name := by
  induction derived generalizing seen entries with
  | nil =>
      rw [accept, Except.ok.injEq] at h
      exact h ▸ fun _ h => absurd h List.not_mem_nil
  | cons first rest ih =>
      cases first with
      | bareProperty getterName =>
          rw [accept] at h
          exact absurd h (by simp only [reduceCtorEq, not_false_eq_true])
      | procedure procedure handler =>
          unfold accept at h
          split at h
          · exact absurd h (by simp only [reduceCtorEq, not_false_eq_true])
          · cases handler with
            | none => exact absurd h (by simp only [reduceCtorEq, not_false_eq_true])
            | some handler =>
                rcases eq_ok_of_bind h with ⟨accepted, hrest, hentries⟩
                rw [← Except.ok.inj hentries]
                exact List.forall_mem_cons.mpr ⟨rfl, ih hrest⟩

theorem ServiceDecl.accept_names {decl : ServiceDecl} {entries : List Descriptor}
    (h : decl.accept = .ok entries) :
    ∀ entry ∈ entries, entry.qualifiedName = decl.name ++ "." ++ entry.procedure.name := by
  rw [ServiceDecl.accept] at h
  split at h
  · exact absurd h (by simp only [reduceCtorEq, not_false_eq_true])
  · split at h
    · exact absurd h (by simp only [reduceCtorEq, not_false_eq_true])
    · exact Switchboard.accept_names h

/-- Entries of services accepted together are named after one of them. -/
theorem mapM_accept_names {decls : List ServiceDecl} {accepted : List (List Descriptor)}
    (h : decls.mapM ServiceDecl.accept = .ok accepted) :
    ∀ entry ∈ accepted.flatten, ∃ decl ∈ decls,
      entry.qualifiedName = decl.name ++ "." ++ entry.procedure.name := by
  induction decls generalizing accepted with
  | nil =>
      rw [← Except.ok.inj h]
      exact fun _ h => absurd h List.not_mem_nil
  | cons decl rest ih =>
      rw [List.mapM_cons] at h
      rcases eq_ok_of_bind h with ⟨entries, hentries, hothers⟩
      rcases eq_ok_of_bind hothers with ⟨others, hrest, haccepted⟩
      rw [← Except.ok.inj haccepted, List.flatten_cons, List.forall_mem_append]
      refine ⟨fun entry hentry => ?_, fun entry hentry => ?_⟩
      · exact ⟨decl, List.mem_cons_self, decl.accept_names hentries entry hentry⟩
      · rcases ih hrest entry hentry with ⟨other, hmem, hname⟩
        exact ⟨other, List.mem_cons_of_mem _ hmem, hname⟩

/-- What a scan finds before it looks at types: the services have different
    names, and the directory lists the entries of all of them. -/
theorem scan_eq_ok {decls : List ServiceDecl} {catalog : Catalog} (h : scan decls = .ok catalog) :
    (decls.map (·.name)).Nodup ∧ ∃ accepted, decls.mapM ServiceDecl.accept = .ok accepted ∧
      catalog.directory.descriptors = accepted.flatten := by
  rw [scan] at h
  split at h
  · exact absurd h (by simp only [reduceCtorEq, not_false_eq_true])
  · next hnames =>
      rcases eq_ok_of_bind h with ⟨accepted, haccepted, hvalid⟩
      rcases eq_ok_of_bind hvalid with ⟨_, _, hcatalog⟩
      refine ⟨nodup_of_firstRepeated? hnames, accepted, haccepted, ?_⟩
      rw [← Except.ok.inj hcatalog]

/-! ## The core service -/

/-- What the core service enters into the directory. -/
def coreEntries : List Descriptor :=
  match coreService.accept with
  | .ok entries => entries
  | .error _ => []

theorem accept_coreService : coreService.accept = .ok coreEntries := rfl

/-- A name of the core service is answered by what the core service has under
    it, whatever else is declared. -/
theorem find?_core {decls : List ServiceDecl} {catalog : Catalog}
    (h : scanWithCore decls = .ok catalog) {procedure : String} (hdot : '.' ∉ procedure.toList) :
    catalog.directory.find? ("Core" ++ "." ++ procedure) =
      coreEntries.reverse.find? fun entry => entry.qualifiedName == "Core" ++ "." ++ procedure := by
  rcases scan_eq_ok h with ⟨hnodup, accepted, haccepted, hdirectory⟩
  rw [List.mapM_cons, accept_coreService] at haccepted
  rcases eq_ok_of_bind haccepted with ⟨_, hcore, haccepted⟩
  cases hcore
  rcases eq_ok_of_bind haccepted with ⟨others, hothers, haccepted⟩
  rw [List.map_cons, List.nodup_cons] at hnodup
  -- Entries of other services are named after services of other names.
  have hforeign : others.flatten.reverse.find? (fun entry =>
      entry.qualifiedName == "Core" ++ "." ++ procedure) = none := by
    refine List.find?_eq_none.mpr fun entry hentry hname => ?_
    rcases mapM_accept_names hothers entry (List.mem_reverse.mp hentry) with ⟨decl, hdecl, hown⟩
    have hcore := (eq_of_dotted_eq (by decide) hdot (hown.symm.trans (eq_of_beq hname))).1
    exact hnodup.1 (List.mem_map.mpr ⟨decl, hdecl, hcore⟩)
  rw [Directory.find?, hdirectory, ← Except.ok.inj haccepted, List.flatten_cons,
    List.reverse_append, List.find?_append, hforeign, Option.none_or]

end Switchboard
