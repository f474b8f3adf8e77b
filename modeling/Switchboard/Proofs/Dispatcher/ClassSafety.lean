import Switchboard.Proofs.Dispatcher.Course
import Switchboard.Proofs.Dispatcher.Provenance
import Switchboard.Proofs.Scan.Agreement

/-!
# Objects and their Classes

What a client may pass where an object of a class is expected. The table keeps the
key of the class that an instance was entered under, which is the name of the
service, a dot and the name of the class, and compares keys. So what is accepted was
entered at a class with the same key.

That is the class expected if classes have keys of their own. A catalog does not see
to it. As with the names of procedures, a dot in the name of a service makes room for
two classes to come to one key, and then an object of the one is accepted where the
other is expected. Where no name of a service has a dot this cannot happen.

## Main definitions

* `Dispatcher.Listed`: Pending calls are of procedures in the directory.
* `UnsharedKeys`: Declared classes have keys of their own.

## Theorems

* `declares_of_mem_namedTypes`: Signatures of a catalog name declared classes.
* `listed_of_mem_turns`, `listed_replay`: Turns are of procedures in the directory.
* `unsharedKeys_of_undotted`: Services without dots share no keys.
* `accepted_as_created`: What is accepted was entered at a class with the same key.
-/

namespace Switchboard

/-! ## Whose turns they are -/

/-- Every pending call is of a procedure in the directory. -/
def Dispatcher.Listed (d : Dispatcher) : Prop :=
  ∀ id c, d.pending.waiting.get? id = some c → c.descriptor ∈ d.catalog.directory.descriptors

theorem Dispatcher.prepare_listed {d : Dispatcher} {call : Call} {p : Turn}
    (h : d.prepare call = .ok p) : p.descriptor ∈ d.catalog.directory.descriptors :=
  (prepare_bound h).listed

/-- A call that is put back is of the same procedure. -/
theorem Turn.Took.next_listed {p : Turn} {services : Services} {connected : Bool}
    {objects objects' : ObjectTable} {e : Event} {next : Option Continuation}
    (htook : p.Took services connected objects e next objects') {listed : List Descriptor}
    (hp : p.descriptor ∈ listed) {c : Continuation} (hc : next = some c) :
    c.descriptor ∈ listed :=
  (htook.next_eq hc).2.1 ▸ hp

theorem Dispatcher.advance_listed {d : Dispatcher} (horderly : d.pending.Orderly)
    (h : d.Listed) (id : CallId) : (d.advance id).2.Listed := by
  intro k c' hc'
  cases hw : d.pending.waiting.get? id with
  | none =>
      rw [(advance_absent hw).2] at hc' ⊢
      exact h k c' hc'
  | some c =>
      rcases advance_moved horderly hw with ⟨_, next, _, -, -, htook, hmoved, -⟩
      rw [hmoved.catalog]
      rw [hmoved.waiting] at hc'
      split at hc'
      · exact htook.next_listed (h id c hw) hc'
      · exact h k c' hc'

theorem Dispatcher.listed_of_mem_advanceTurns {d : Dispatcher} (horderly : d.pending.Orderly)
    (h : d.Listed) {ids : List CallId} {taken : Dispatcher × Turn}
    (htaken : taken ∈ d.advanceTurns ids) :
    taken.2.descriptor ∈ d.catalog.directory.descriptors := by
  induction ids generalizing d with
  | nil => exact absurd htaken List.not_mem_nil
  | cons id rest ih =>
      rcases List.mem_append.mp htaken with hfirst | hrest
      · rcases Option.map_eq_some_iff.mp (Option.mem_toList.mp hfirst) with ⟨c, hw, rfl⟩
        exact h id c hw
      · have hunmoved := advance_unmoved horderly id
        rw [← hunmoved.catalog]
        exact ih hunmoved.orderly (advance_listed horderly h id) hrest

namespace Session

open Dispatcher

/-- A turn in an operation is of a procedure in the directory if the pending calls
    are. -/
theorem listed_of_mem_turns {s : Session} (hsound : s.Sound) (h : s.dispatcher.Listed)
    {op : Operation} {taken : Dispatcher × Turn} (htaken : taken ∈ s.turns op) :
    taken.2.descriptor ∈ s.dispatcher.catalog.directory.descriptors := by
  cases op with
  | issue | release | disconnect | discard | alter | report =>
      exact absurd htaken List.not_mem_nil
  | dispatch id procedure arguments =>
      rcases Option.bind_eq_some_iff.mp (Option.mem_toList.mp htaken) with ⟨call, -, hturn⟩
      rcases Option.map_eq_some_iff.mp hturn with ⟨p, hp, rfl⟩
      cases hprepare : s.dispatcher.prepare call with
      | error e =>
          rw [hprepare] at hp
          cases hp
      | ok p' =>
          rw [hprepare] at hp
          rw [← Option.some.inj hp]
          exact prepare_listed hprepare
  | tick =>
      have horderly : s.dispatcher.countTick.pending.Orderly := hsound.orderly
      have hcounted : s.dispatcher.countTick.Listed := h
      exact listed_of_mem_advanceTurns horderly hcounted htaken
  | resume id =>
      rcases Option.map_eq_some_iff.mp (Option.mem_toList.mp htaken) with ⟨c, hw, rfl⟩
      exact h id c hw

theorem perform_listed {s : Session} (hsound : s.Sound) (h : s.dispatcher.Listed)
    (op : Operation) : (s.perform op).dispatcher.Listed := by
  intro id c hc
  rw [(kept_perform hsound op).catalog]
  change (s.perform op).waiting id = some c at hc
  -- What waits now was waiting, or was put back by a turn.
  have hchange := change hsound op id
  generalize eventsOf id (s.events op) = happened at hchange
  cases hchange with
  | untouched _ hsame _ => exact h id c (hsame.symm.trans hc)
  | issued _ _ hnone => exact nomatch hnone.symm.trans hc
  | refused _ _ _ hnone => exact nomatch hnone.symm.trans hc
  | begun _ hprepare htook _ hnext =>
      exact htook.next_listed (prepare_listed hprepare) (hnext.symm.trans hc)
  | advanced _ hw htook _ hnext => exact htook.next_listed (h id _ hw) (hnext.symm.trans hc)
  | dropped _ _ _ hnone => exact nomatch hnone.symm.trans hc

theorem listed_replay {s : Session} (hsound : s.Sound) (h : s.dispatcher.Listed)
    (operations : List Operation) : (s.replay operations).dispatcher.Listed := by
  induction operations generalizing s with
  | nil => exact h
  | cons op rest ih => exact ih (sound_perform hsound op) (perform_listed hsound h op)

/-- What is made in a run is made at a class that some signature of the catalog
    names. -/
theorem Created.exists_namedTypes {s : Session} (hsound : s.Sound) (hlisted : s.dispatcher.Listed)
    {operations : List Operation} {id : ObjectId} {seen : Sighting}
    (h : s.Created operations id seen) :
    ∃ entry ∈ s.dispatcher.catalog.directory.descriptors,
      Ty.instanceOf seen.service seen.name ∈ entry.procedure.namedTypes := by
  rcases h with ⟨before, op, after, -, taken, htaken, hcreates⟩
  have hmem := listed_of_mem_turns (sound_replay hsound before)
    (listed_replay hsound hlisted before) htaken
  rw [catalog_replay hsound] at hmem
  exact ⟨taken.2.descriptor, hmem, hcreates.mem_namedTypes⟩

end Session

/-! ## Keys -/

/-- No two declared classes have one key. -/
def UnsharedKeys (decls : List ServiceDecl) : Prop :=
  ∀ service name service' name', Declares decls (.instanceOf service name) →
    Declares decls (.instanceOf service' name') →
      classKey service name = classKey service' name' → service = service' ∧ name = name'

theorem unsharedKeys_of_undotted {decls : List ServiceDecl}
    (hdots : ∀ decl ∈ decls, '.' ∉ decl.name.toList) : UnsharedKeys decls := by
  rintro service name service' name' ⟨decl, hdecl, rfl, -⟩ ⟨decl', hdecl', rfl, -⟩ hkey
  have hservice := eq_of_dotted_services_eq (hdots decl hdecl) (hdots decl' hdecl') hkey
  refine ⟨hservice, ?_⟩
  rw [classKey, classKey, hservice] at hkey
  exact (String.append_right_inj _).mp hkey

/-- The signatures in a catalog name what is declared. -/
theorem declares_of_mem_namedTypes {decls : List ServiceDecl} (h : Acceptable decls)
    {entry : Descriptor} (hentry : entry ∈ (published decls).directory.descriptors) {named : Ty}
    (hnamed : named ∈ entry.procedure.namedTypes) : Declares decls named := by
  rcases List.mem_flatMap.mp hentry with ⟨decl, hdecl, hmem⟩
  rcases List.mem_filterMap.mp hmem with ⟨offer, hoffer, hoffered⟩
  rw [Offer.procedure_of_descriptor? hoffered, mem_namedTypes_iff] at hnamed
  rcases hnamed with ⟨ty, hty, hnamed⟩
  exact (h.fitting decl hdecl offer hoffer).types ty hty named (Ty.partOf_of_mem_named ty _ hnamed)

/-- A number that leads to an instance where a class is expected was made once in the
    run, by writing this instance at a declared class with the same key. It is the class
    expected unless declared classes share a key, and they share none if no name of a
    service has a dot. -/
theorem accepted_as_created {decls : List ServiceDecl} {catalog : Catalog}
    (hscan : scan decls = .ok catalog) (config : ServerConfig) (world : World)
    (operations : List Operation) {entry : Descriptor}
    (hentry : entry ∈ catalog.directory.descriptors) {parameter : Parameter}
    (hparameter : parameter ∈ entry.procedure.parameters) {service name : String}
    (hclass : Ty.instanceOf service name ∈ parameter.ty.named) {context : String} {id : ObjectId}
    {object : Instance}
    (haccepted : decode catalog.services
      ((Session.fresh catalog config world).replay operations).dispatcher.objects context
        (.instanceOf service name) (.object id) = .ok (.object object)) :
    (∃ seen, (Session.fresh catalog config world).Created operations id seen ∧
      (∀ other, (Session.fresh catalog config world).Created operations id other →
        other = seen) ∧
      seen.object = object ∧ seen.key = classKey service name ∧
      Declares decls (.instanceOf seen.service seen.name)) ∧
    (UnsharedKeys decls →
      (Session.fresh catalog config world).Created operations id ⟨object, service, name⟩) ∧
    ((∀ decl ∈ decls, '.' ∉ decl.name.toList) → UnsharedKeys decls) := by
  rcases acceptable_of_scan hscan with ⟨hacceptable, rfl⟩
  have hsound := Session.sound_fresh (published decls) config world
  have hlisted : (Session.fresh (published decls) config world).dispatcher.Listed :=
    fun _ _ hwaiting => nomatch hwaiting
  -- What is accepted is live under the key, and nothing was live when the run began.
  rcases map_eq_ok_iff.mp haccepted with ⟨found, hfound, hsame⟩
  obtain rfl : found = object := Datum.object.inj hsame
  rcases ObjectTable.resolveAs_eq_ok_iff.mp hfound with ⟨live, hlive, hkey, rfl⟩
  have hstems := Session.replay_stems (Session.fresh (published decls) config world) operations
  rcases hstems.traced id live hlive with
    ⟨before, hbefore, -⟩ | ⟨seen, hcreated, hobject, hclassName⟩
  · cases hbefore
  have hseen : Declares decls (.instanceOf seen.service seen.name) := by
    rcases hcreated.exists_namedTypes hsound hlisted with ⟨made, hmade, hnamed⟩
    exact declares_of_mem_namedTypes hacceptable hmade hnamed
  have hexpected : Declares decls (.instanceOf service name) := by
    refine declares_of_mem_namedTypes hacceptable hentry ?_
    rw [Procedure.namedTypes, List.mem_append, List.mem_flatMap]
    exact .inl ⟨parameter, hparameter, hclass⟩
  refine ⟨⟨seen, hcreated, fun other hother => hstems.once id other seen hother hcreated, hobject,
    hclassName.trans hkey, hseen⟩, fun hunshared => ?_, unsharedKeys_of_undotted⟩
  rcases hunshared _ _ _ _ hseen hexpected (hclassName.trans hkey) with ⟨hservice, hname⟩
  rw [← hobject, ← hservice, ← hname]
  exact hcreated

/-- A service that makes objects of a class and takes them back. -/
def mint : List ServiceDecl :=
  [{ name := "Mint"
     classes := [{ name := "Coin" }]
     procedures :=
      [{ name := "Strike"
         returnType := some (.instanceOf "Mint" "Coin")
         handler := some (return .value (.object (← Native.allocate (.label "penny")))) },
       { name := "Spend"
         parameters := [⟨"coin", .instanceOf "Mint" "Coin", none⟩]
         handler := some (return .done) }] }]

theorem mint_accepted_as_created :
    ∃ catalog, scan mint = .ok catalog ∧
      decode catalog.services
        ((Session.fresh catalog {} {}).replay
          [.issue 1, .dispatch 1 "Mint.Strike" []]).dispatcher.objects "Mint.Spend argument 'coin'"
        (.instanceOf "Mint" "Coin") (.object 1) = .ok (.object ⟨1, .label "penny"⟩) ∧
      (Session.fresh catalog {} {}).Created [.issue 1, .dispatch 1 "Mint.Strike" []] 1
        ⟨⟨1, .label "penny"⟩, "Mint", "Coin"⟩ := by
  have hscan : scan mint = .ok (published mint) := rfl
  have haccepted : decode (published mint).services
      ((Session.fresh (published mint) {} {}).replay
        [.issue 1, .dispatch 1 "Mint.Strike" []]).dispatcher.objects "Mint.Spend argument 'coin'"
      (.instanceOf "Mint" "Coin") (.object 1) = .ok (.object ⟨1, .label "penny"⟩) := rfl
  rcases accepted_as_created hscan {} {} [.issue 1, .dispatch 1 "Mint.Strike" []]
    (List.mem_cons_of_mem _ List.mem_cons_self) List.mem_cons_self List.mem_cons_self
    haccepted with ⟨-, hcreated, hundotted⟩
  exact ⟨_, hscan, haccepted, hcreated (hundotted (by decide))⟩

/-- Two services with classes that come to one key. The first makes objects of its
    class, and the second takes objects of its own. -/
def dottedClasses : List ServiceDecl :=
  [{ name := "A"
     classes := [{ name := "B.C" }]
     procedures :=
      [{ name := "Make"
         returnType := some (.instanceOf "A" "B.C")
         handler := some (return .value (.object (← Native.allocate (.label "x")))) }] },
   { name := "A.B"
     classes := [{ name := "C" }]
     procedures :=
      [{ name := "Take"
         parameters := [⟨"of", .instanceOf "A.B" "C", none⟩]
         handler := some (return .done) }] }]

/-- An object of the first class is taken for one of the second, and no object of the
    second has been made. -/
theorem dottedClasses_confused :
    ∃ catalog, scan dottedClasses = .ok catalog ∧
      decode catalog.services
        ((Session.fresh catalog {} {}).replay
          [.issue 1, .dispatch 1 "A.Make" []]).dispatcher.objects "A.B.Take argument 'of'"
        (.instanceOf "A.B" "C") (.object 1) = .ok (.object ⟨1, .label "x"⟩) ∧
      (Session.fresh catalog {} {}).Created [.issue 1, .dispatch 1 "A.Make" []] 1
        ⟨⟨1, .label "x"⟩, "A", "B.C"⟩ ∧
      ¬(Session.fresh catalog {} {}).Created [.issue 1, .dispatch 1 "A.Make" []] 1
        ⟨⟨1, .label "x"⟩, "A.B", "C"⟩ := by
  have hcreated : (Session.fresh (published dottedClasses) {} {}).Created
      [.issue 1, .dispatch 1 "A.Make" []] 1 ⟨⟨1, .label "x"⟩, "A", "B.C"⟩ :=
    ⟨[.issue 1], _, [], rfl, _, List.mem_singleton_self _, _, _, rfl, List.prefix_rfl, rfl, [], [],
      rfl, ⟨rfl, rfl, rfl⟩⟩
  refine ⟨_, rfl, rfl, hcreated, fun hother => ?_⟩
  -- The number was made once, and at the other class.
  have hsame := (Session.replay_stems _ _).once 1 _ _ hcreated hother
  exact absurd (congrArg Sighting.service hsame) (by decide)

end Switchboard
