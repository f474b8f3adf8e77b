import Switchboard.Proofs.Coercion.Arguments
import Switchboard.Proofs.Coercion.Echo
import Switchboard.Proofs.Coercion.Plain
import Switchboard.Proofs.Dispatcher.Transcript
import Switchboard.Proofs.Scan.Search
import Switchboard.Proofs.Services.Handlers

/-!
# Incrementing

What the fixture services do to a collection of integers they do at the leaves alone, and not
at the keys of maps. `Datum.Incremented` says what an incremented value is: it has the same
shape, with as many items in the same order and the same keys, and in the place of each integer
the next one, where the last of its width is followed by the first.

A value can be incremented exactly if every leaf that is not in a key is an integer, and
otherwise the first that is not is reported. Whether the types of a procedure allow for such
values only can be seen from the type.

A client sees none of the three recursions. What it sends is read, incremented and written, and
it is the same as if what it sent had been incremented as it was: for types that count this is
a square that commutes (`exists_incremented`), and what is read is written as it was sent. No
object is in such values, so the table of live objects has no part in it.

## Main definitions

* `Datum.contentLeaves`: What a value is made of, keys of maps apart.
* `Datum.Incremented`: One more for every integer, keys of maps apart.
* `Ty.counts`: Types of which all values can be incremented.
* `Fixture.incrementing`: The procedures that increment.

## Theorems

* `increment_eq_ok_iff`: What a value is incremented to.
* `error?_increment`: Which leaf is reported if there is one.
* `exists_incremented`: Reading takes incremented values to incremented values.
* `dispatch_incrementing`: A call of such a procedure.
* `increments_throughout`: All of this.
-/

namespace Switchboard

namespace Datum

variable {ρ : Type}

/-! ## Incremented values -/

/-- Whether a value is an integer. -/
def isInteger : Datum ρ → Bool
  | .int32 _ => true
  | .int64 _ => true
  | _ => false

mutual

/-- What a value is made of in the end, from left to right, except for what the keys of maps
    are made of. -/
def contentLeaves : Datum ρ → List (Datum ρ)
  | .list items => contentLeavesAll items
  | .set items => contentLeavesAll items
  | .tuple items => contentLeavesAll items
  | .map entries => contentLeavesEntries entries
  | v => [v]

/-- The same for several values. -/
def contentLeavesAll : List (Datum ρ) → List (Datum ρ)
  | [] => []
  | v :: vs => contentLeaves v ++ contentLeavesAll vs

/-- The same for the values of the entries of a map. -/
def contentLeavesEntries : List (Datum ρ × Datum ρ) → List (Datum ρ)
  | [] => []
  | (_, v) :: rest => contentLeaves v ++ contentLeavesEntries rest

end

theorem contentLeavesAll_eq (items : List (Datum ρ)) :
    contentLeavesAll items = items.flatMap contentLeaves := by
  induction items with
  | nil => rfl
  | cons v vs ih => rw [contentLeavesAll, List.flatMap_cons, ih]

theorem contentLeavesEntries_eq (entries : List (Datum ρ × Datum ρ)) :
    contentLeavesEntries entries = entries.flatMap fun entry => entry.2.contentLeaves := by
  induction entries with
  | nil => rfl
  | cons entry rest ih => rw [contentLeavesEntries, List.flatMap_cons, ih]

mutual

/-- The second value is the first with every integer in it replaced by the next one, keys of
    maps apart. The next one is by one larger modulo the number of integers of its width. -/
inductive Incremented : Datum ρ → Datum ρ → Prop
  | int32 {n n' : Int32} : n'.toInt = (n.toInt + 1).bmod (2 ^ 32) →
    Incremented (.int32 n) (.int32 n')
  | int64 {n n' : Int64} : n'.toInt = (n.toInt + 1).bmod (2 ^ 64) →
    Incremented (.int64 n) (.int64 n')
  | list {items items' : List (Datum ρ)} : List.Forall₂ Incremented items items' →
    Incremented (.list items) (.list items')
  | set {items items' : List (Datum ρ)} : List.Forall₂ Incremented items items' →
    Incremented (.set items) (.set items')
  | tuple {items items' : List (Datum ρ)} : List.Forall₂ Incremented items items' →
    Incremented (.tuple items) (.tuple items')
  | map {entries entries' : List (Datum ρ × Datum ρ)} :
    List.Forall₂ IncrementedEntry entries entries' → Incremented (.map entries) (.map entries')

/-- The same for the entries of a map, of which the values are incremented. -/
inductive IncrementedEntry : Datum ρ × Datum ρ → Datum ρ × Datum ρ → Prop
  | mk (key : Datum ρ) {v v' : Datum ρ} : Incremented v v' → IncrementedEntry (key, v) (key, v')

end

end Datum

open Datum (Incremented IncrementedEntry)

/-! ## What can be incremented -/

theorem incrementAll_eq (items : List NativeValue) : incrementAll items = items.mapM increment := by
  induction items with
  | nil => rfl
  | cons v vs ih => rw [incrementAll, List.mapM_cons, ih]

theorem incrementEntries_eq (entries : List (NativeValue × NativeValue)) :
    incrementEntries entries = entries.mapM fun entry => do
      return (entry.1, ← increment entry.2) := by
  induction entries with
  | nil => rfl
  | cons entry rest ih =>
      rw [incrementEntries, List.mapM_cons, ih]
      cases increment entry.2 <;> rfl

/-- Two relations that agree on the items of a list relate it to the same lists. -/
theorem forall₂_iff_of_mem {α β : Type} {R S : α → β → Prop} {items : List α} {results : List β}
    (h : ∀ item ∈ items, ∀ {result}, R item result ↔ S item result) :
    List.Forall₂ R items results ↔ List.Forall₂ S items results := by
  have hmove : ∀ {R S : α → β → Prop}, (∀ item ∈ items, ∀ result, R item result → S item result) →
      List.Forall₂ R items results → List.Forall₂ S items results := fun hRS hR =>
    ((List.forall₂_and_left ..).mpr ⟨hRS, hR⟩).imp fun _ result hboth => hboth.1 result hboth.2
  exact ⟨hmove fun item hitem _ => (h item hitem).mp, hmove fun item hitem _ => (h item hitem).mpr⟩

theorem map_incrementAll_eq_ok_iff {wrap : List NativeValue → NativeValue}
    {items : List NativeValue} {v' : NativeValue}
    (ih : ∀ item ∈ items, ∀ {item'}, increment item = .ok item' ↔ Incremented item item') :
    (do return wrap (← incrementAll items)) = Except.ok v' ↔
      ∃ items', List.Forall₂ Incremented items items' ∧ wrap items' = v' := by
  rw [map_eq_ok_iff, incrementAll_eq]
  simp only [mapM_eq_ok_iff_forall₂, forall₂_iff_of_mem ih]

theorem incrementEntries_eq_ok_iff {entries entries' : List (NativeValue × NativeValue)}
    (ih : ∀ entry ∈ entries, ∀ {v'}, increment entry.2 = .ok v' ↔ Incremented entry.2 v') :
    incrementEntries entries = .ok entries' ↔ List.Forall₂ IncrementedEntry entries entries' := by
  rw [incrementEntries_eq, mapM_eq_ok_iff_forall₂]
  refine forall₂_iff_of_mem fun entry hentry entry' => ?_
  rw [map_eq_ok_iff]
  constructor
  · rintro ⟨v', hv', rfl⟩
    exact .mk entry.1 ((ih entry hentry).mp hv')
  · rintro ⟨key, hv⟩
    exact ⟨_, (ih _ hentry).mpr hv, rfl⟩

/-- What a value is incremented to is incremented. -/
theorem increment_eq_ok_iff : ∀ (v : NativeValue) {v' : NativeValue},
    increment v = .ok v' ↔ Incremented v v' := by
  refine Datum.induction_parts fun v ih => ?_
  intro v'
  cases v with
  | int32 n =>
      constructor
      · rintro ⟨⟩
        exact .int32 (Int32.toInt_add n 1)
      · intro h
        cases h with
        | int32 hn => rw [increment, Int32.toInt_inj.mp (hn.trans (Int32.toInt_add n 1).symm)]
  | int64 n =>
      constructor
      · rintro ⟨⟩
        exact .int64 (Int64.toInt_add n 1)
      · intro h
        cases h with
        | int64 hn => rw [increment, Int64.toInt_inj.mp (hn.trans (Int64.toInt_add n 1).symm)]
  | list items =>
      rw [increment]
      refine (map_incrementAll_eq_ok_iff ih).trans ?_
      constructor
      · rintro ⟨_, h, rfl⟩
        exact .list h
      · intro hv
        cases hv with
        | list h => exact ⟨_, h, rfl⟩
  | set items =>
      rw [increment]
      refine (map_incrementAll_eq_ok_iff ih).trans ?_
      constructor
      · rintro ⟨_, h, rfl⟩
        exact .set h
      · intro hv
        cases hv with
        | set h => exact ⟨_, h, rfl⟩
  | tuple items =>
      rw [increment]
      refine (map_incrementAll_eq_ok_iff ih).trans ?_
      constructor
      · rintro ⟨_, h, rfl⟩
        exact .tuple h
      · intro hv
        cases hv with
        | tuple h => exact ⟨_, h, rfl⟩
  | map entries =>
      have hentries : ∀ entry ∈ entries, ∀ {v'}, increment entry.2 = .ok v' ↔
          Incremented entry.2 v' := fun entry hentry => ih _ (Datum.mem_parts_map hentry).2
      rw [increment, map_eq_ok_iff]
      simp only [incrementEntries_eq_ok_iff hentries]
      constructor
      · rintro ⟨_, h, rfl⟩
        exact .map h
      · intro hv
        cases hv with
        | map h => exact ⟨_, h, rfl⟩
  | _ => exact iff_of_false (fun h => nomatch h) fun h => nomatch h

/-- The error that a computation came to, if it did. -/
def error? {ε α : Type} : Except ε α → Option ε
  | .error e => some e
  | .ok _ => none

theorem exists_ok_iff {ε α : Type} {x : Except ε α} : (∃ a, x = .ok a) ↔ error? x = none := by
  cases x with
  | error e => exact iff_of_false (fun h => nomatch h.choose_spec) fun h => nomatch h
  | ok a => exact iff_of_true ⟨a, rfl⟩ rfl

theorem error?_map {ε α β : Type} (x : Except ε α) (f : α → β) :
    error? (do return f (← x)) = error? x := by
  cases x <;> rfl

/-- A traversal comes to the error of the first step that comes to one. -/
theorem error?_mapM {ε α β : Type} {f : α → Except ε β} {p : α → Option ε} {items : List α}
    (h : ∀ item ∈ items, error? (f item) = p item) :
    error? (items.mapM f) = items.findSome? p := by
  induction items with
  | nil => rfl
  | cons item rest ih =>
      rw [List.forall_mem_cons] at h
      rw [List.mapM_cons, List.findSome?_cons, ← h.1, ← ih h.2]
      cases f item with
      | error e => rfl
      | ok result => exact error?_map _ _

theorem error?_incrementAll {items : List NativeValue}
    (ih : ∀ item ∈ items, error? (increment item) =
      (item.contentLeaves.find? fun leaf => !leaf.isInteger).map Datum.kind) :
    error? (incrementAll items) =
      ((Datum.contentLeavesAll items).find? fun leaf => !leaf.isInteger).map Datum.kind := by
  rw [incrementAll_eq, error?_mapM ih, Datum.contentLeavesAll_eq, List.find?_flatMap,
    List.map_findSome?]
  rfl

/-- What is reported is the shape of the first leaf that is no integer, if there is one. -/
theorem error?_increment : ∀ v : NativeValue, error? (increment v) =
    (v.contentLeaves.find? fun leaf => !leaf.isInteger).map Datum.kind := by
  refine Datum.induction_parts fun v ih => ?_
  cases v with
  | list items | set items | tuple items =>
      rw [increment, error?_map, Datum.contentLeaves]
      exact error?_incrementAll ih
  | map entries =>
      have hentries : ∀ entry ∈ entries, error? (do return (entry.1, ← increment entry.2)) =
          (entry.2.contentLeaves.find? fun leaf => !leaf.isInteger).map Datum.kind := by
        intro entry hentry
        rw [error?_map]
        exact ih _ (Datum.mem_parts_map hentry).2
      rw [increment, error?_map, Datum.contentLeaves, Datum.contentLeavesEntries_eq,
        List.find?_flatMap, List.map_findSome?, incrementEntries_eq]
      exact error?_mapM hentries
  | _ => rfl

/-- A value can be incremented if all that it is made of are integers, keys of maps apart. -/
theorem exists_increment_iff (v : NativeValue) :
    (∃ v', increment v = .ok v') ↔ ∀ leaf ∈ v.contentLeaves, leaf.isInteger := by
  rw [exists_ok_iff, error?_increment, Option.map_eq_none_iff, List.find?_eq_none]
  simp only [Bool.not_eq_true', Bool.not_eq_false]

/-! ## Types -/

mutual

/-- Whether all values of a type can be incremented: it is made of integers, except for the
    types of keys. -/
def Ty.counts : Ty → Bool
  | .int32 => true
  | .int64 => true
  | .list element => element.counts
  | .set element => element.counts
  | .map _ value => value.counts
  | .tuple elements => allCount elements
  | _ => false

/-- Whether all values of several types can be incremented. -/
def Ty.allCount : List Ty → Bool
  | [] => true
  | ty :: tys => ty.counts && allCount tys

end

/-- A square commutes for a traversal if it does so for each of its steps. -/
theorem mapM_square {ε α β : Type} {f : α → Except ε β} {S : α → α → Prop} {T : β → β → Prop}
    {items : List α} {results : List β} (h : items.mapM f = .ok results)
    (hsquare : ∀ item result, f item = .ok result → ∃ item' result',
      S item item' ∧ T result result' ∧ f item' = .ok result') :
    ∃ items' results', List.Forall₂ S items items' ∧ List.Forall₂ T results results' ∧
      items'.mapM f = .ok results' := by
  simp only [mapM_eq_ok_iff_forall₂] at h ⊢
  induction h with
  | nil => exact ⟨[], [], .nil, .nil, .nil⟩
  | cons hfirst _ ih =>
      rcases hsquare _ _ hfirst with ⟨item', result', hS, hT, hf⟩
      rcases ih with ⟨items', results', hSs, hTs, hfs⟩
      exact ⟨item' :: items', result' :: results', .cons hS hSs, .cons hT hTs, .cons hf hfs⟩

variable {services : Services} {objects : ObjectTable} {context : String}

mutual

/-- What is read of a value of a type that counts can be incremented, and it comes to what is
    read of the value incremented. -/
theorem exists_incremented : ∀ (ty : Ty), ty.counts → ∀ (w : Value) (n : NativeValue),
    decode services objects context ty w = .ok n →
      ∃ w' n', Incremented w w' ∧ Incremented n n' ∧
        decode services objects context ty w' = .ok n'
  | .int32, _, w, n, h => by
      -- An integer is read as itself, so it is the same step on both sides.
      cases w with
      | int32 m =>
          rw [← Except.ok.inj h]
          exact ⟨.int32 (m + 1), .int32 (m + 1), .int32 (Int32.toInt_add m 1),
            .int32 (Int32.toInt_add m 1), rfl⟩
      | _ => cases h
  | .int64, _, w, n, h => by
      cases w with
      | int64 m =>
          rw [← Except.ok.inj h]
          exact ⟨.int64 (m + 1), .int64 (m + 1), .int64 (Int64.toInt_add m 1),
            .int64 (Int64.toInt_add m 1), rfl⟩
      | _ => cases h
  | .list element, hcounts, w, n, h => by
      cases w with
      | list items =>
          rw [decode, map_eq_ok_iff] at h
          rcases h with ⟨ns, hns, rfl⟩
          rcases mapM_square hns (exists_incremented element hcounts) with
            ⟨items', ns', hitems, hns', hread⟩
          refine ⟨.list items', .list ns', .list hitems, .list hns', ?_⟩
          rw [decode, hread]
          rfl
      | _ => cases h
  | .set element, hcounts, w, n, h => by
      cases w with
      | set items =>
          rw [decode, map_eq_ok_iff] at h
          rcases h with ⟨ns, hns, rfl⟩
          rcases mapM_square hns (exists_incremented element hcounts) with
            ⟨items', ns', hitems, hns', hread⟩
          refine ⟨.set items', .set ns', .set hitems, .set hns', ?_⟩
          rw [decode, hread]
          rfl
      | _ => cases h
  | .map key value, hcounts, w, n, h => by
      cases w with
      | map entries =>
          rw [decode, map_eq_ok_iff] at h
          rcases h with ⟨ns, hns, rfl⟩
          -- An entry is read key first, and its key stays as it is on both sides.
          have hentry : ∀ entry pair, (do
              let k ← decode services objects context key entry.1
              let v ← decode services objects context value entry.2
              return (k, v)) = Except.ok pair →
              ∃ entry' pair', IncrementedEntry entry entry' ∧ IncrementedEntry pair pair' ∧ (do
                let k ← decode services objects context key entry'.1
                let v ← decode services objects context value entry'.2
                return (k, v)) = Except.ok pair' := by
            rintro ⟨k, v⟩ pair hpair
            rcases map₂_eq_ok_iff.mp hpair with ⟨k', v', hk, hv, rfl⟩
            rcases exists_incremented value hcounts v v' hv with ⟨x, x', hx, hx', hread⟩
            exact ⟨(k, x), (k', x'), .mk k hx, .mk k' hx',
              map₂_eq_ok_iff.mpr ⟨k', x', hk, hread, rfl⟩⟩
          rcases mapM_square hns hentry with ⟨entries', ns', hentries, hns', hread⟩
          refine ⟨.map entries', .map ns', .map hentries, .map hns', ?_⟩
          rw [decode, hread]
          rfl
      | _ => cases h
  | .tuple elements, hcounts, w, n, h => by
      cases w with
      | tuple items =>
          rw [decode] at h
          split at h
          · next hlength =>
              rw [map_eq_ok_iff] at h
              rcases h with ⟨ns, hns, rfl⟩
              rcases existsPairwise_incremented elements hcounts items ns hlength hns with
                ⟨items', ns', hitems, hns', hread⟩
              refine ⟨.tuple items', .tuple ns', .tuple hitems, .tuple hns', ?_⟩
              rw [decode, if_pos (hitems.length_eq.symm.trans hlength), hread]
              rfl
          · cases h
      | _ => cases h

theorem existsPairwise_incremented : ∀ (tys : List Ty), Ty.allCount tys →
    ∀ (ws : List Value) (ns : List NativeValue), ws.length = tys.length →
      decodePairwise services objects context tys ws = .ok ns →
        ∃ ws' ns', List.Forall₂ Incremented ws ws' ∧ List.Forall₂ Incremented ns ns' ∧
          decodePairwise services objects context tys ws' = .ok ns'
  | [], _, [], ns, _, h => by
      rw [← Except.ok.inj h]
      exact ⟨[], [], .nil, .nil, rfl⟩
  | ty :: tys, hcounts, w :: ws, ns, hlength, h => by
      rw [Ty.allCount, Bool.and_eq_true] at hcounts
      rw [decodePairwise, map₂_eq_ok_iff] at h
      rcases h with ⟨n, rest, hn, hrest, rfl⟩
      rcases exists_incremented ty hcounts.1 w n hn with ⟨w', n', hw, hn', hread⟩
      rcases existsPairwise_incremented tys hcounts.2 ws rest (Nat.succ.inj hlength) hrest with
        ⟨ws', ns', hws, hns, hreads⟩
      refine ⟨w' :: ws', n' :: ns', .cons hw hws, .cons hn' hns, ?_⟩
      rw [decodePairwise, map₂_eq_ok_iff]
      exact ⟨n', ns', hread, hreads, rfl⟩
  | [], _, _ :: _, _, hlength, _ => nomatch hlength
  | _ :: _, _, [], _, hlength, _ => nomatch hlength

end

/-- What comes of a value of a plain type that counts is written as the value incremented,
    whatever is live, and changes nothing. -/
theorem exists_written (owner : ConnectionId) (context' : String) {ty : Ty} (hcounts : ty.counts)
    (hplain : ty.Plain) {w : Value} {n : NativeValue}
    (h : decode services objects context ty w = .ok n) :
    ∃ w' n', Incremented w w' ∧ increment n = .ok n' ∧
      (encode services owner context' ty n').run.run objects = (.ok w', objects) := by
  rcases exists_incremented ty hcounts w n h with ⟨w', n', hw, hn, hread⟩
  refine ⟨w', n', hw, (increment_eq_ok_iff n).mpr hn, ?_⟩
  -- It is read, and hence written, as it would be if nothing were live.
  rw [decode_plain services objects {} context ty hplain] at hread
  have hechoes : Echoes {} owner (encode services owner context' ty n') w' w'.references :=
    encode_echoes .init ty w' n' hread
  rcases encode_quiet services context' ty hplain n' with ⟨result, hresult⟩
  have hsame := (hresult owner {}).symm.trans hechoes.run
  rw [hresult owner objects, (Prod.mk.inj hsame).1]

/-! ## Calls -/

/-- A call whose turn comes to a value that can be written, without a change to what is live,
    completes with it. -/
theorem dispatch_completes {d : Dispatcher} {call : Call} {p : Turn} {n : NativeValue} {w : Value}
    (hprepare : d.prepare call = .ok p)
    (hhandled : ∀ inv world, inv.arguments = p.arguments →
      p.descriptor.handler.react inv world = (.ok (.value n), world))
    (hwritten : (Dispatcher.writeReturn d.catalog.services p (some n)).run.run d.objects =
      (.ok (some w), d.objects)) :
    (d.dispatch call).1 = .completed (some w) ∧ (d.dispatch call).2 = d.countDispatch := by
  have hrun := hhandled (d.countDispatch.handled p).invocation d.world rfl
  have hresult : (d.countDispatch.handled p).result = .ok (.value n) := congrArg Prod.fst hrun
  have hafter : (d.countDispatch.handled p).after = d.world := congrArg Prod.snd hrun
  have hstep : d.countDispatch.step p = (.completed (some w), d.countDispatch) := by
    unfold Dispatcher.step
    rw [Dispatcher.runStep_eq, hresult, hafter]
    have hwritten' : (Dispatcher.writeReturn d.countDispatch.catalog.services p (some n)).run.run
        d.countDispatch.objects = (.ok (some w), d.countDispatch.objects) := hwritten
    simp only [Step.value, Dispatcher.conclude, hwritten']
    rfl
  rw [Dispatcher.dispatch_of_ok hprepare, hstep]
  exact ⟨rfl, rfl⟩

namespace Fixture

/-- The procedures of the first service that increment what they are given. -/
def incrementing : List ProcedureDecl :=
  [incrementProcedure "IncrementList" "l" (.list .int32),
    incrementProcedure "IncrementDictionary" "d" (.map .string .int32),
    incrementProcedure "IncrementSet" "h" (.set .int32),
    incrementProcedure "IncrementTuple" "t" (.tuple [.int32, .int64]),
    incrementProcedure "IncrementNestedCollection" "d" (.map .string (.list .int32))]

theorem incrementing_eq : incrementing = (firstService.procedures.drop 17).take 5 := rfl

theorem offer_mem_of_mem_incrementing {p : ProcedureDecl} (h : p ∈ incrementing) :
    Offer.procedure p ∈ firstService.offers := by
  rw [incrementing_eq] at h
  have hmem : p ∈ firstService.procedures := List.mem_of_mem_drop (List.mem_of_mem_take h)
  exact List.mem_append_left _ (List.mem_append_left _ (List.mem_map_of_mem hmem))

/-- They are alike but for a name and a type that counts. -/
theorem of_mem_incrementing {p : ProcedureDecl} (h : p ∈ incrementing) :
    ∃ name parameter ty, p = incrementProcedure name parameter ty ∧ ty.counts ∧ ty.Plain ∧
      '.' ∉ name.toList := by
  simp only [incrementing, List.mem_cons, List.not_mem_nil, or_false] at h
  rcases h with rfl | rfl | rfl | rfl | rfl <;>
    exact ⟨_, _, _, rfl, rfl, Ty.plain_of_named_eq_nil rfl, by decide⟩

theorem incrementArgument_react {inv : Invocation} {n n' : NativeValue}
    (harguments : inv.arguments = [n]) (h : increment n = .ok n') (world : World) :
    incrementArgument.react inv world = (.ok (.value n'), world) := by
  have harg : (Native.arg 0).runOn inv world = (.ok n, world) := by
    rcases inv with ⟨ctx, procedure, services, snapshot, arguments, progress⟩
    subst harguments
    rfl
  change incrementArgument.runOn inv world = _
  rw [incrementArgument, Native.runOn_bind, harg]
  simp only [h]
  rfl

end Fixture

open Fixture (incrementing serviceName firstService)

/-- A call of a procedure that increments completes if its argument can be read, with what was
    sent incremented. -/
theorem dispatch_incrementing {decls : List ServiceDecl} {d : Dispatcher}
    (hscan : scan decls = .ok d.catalog) (hservice : firstService ∈ decls) {p : ProcedureDecl}
    (hp : p ∈ incrementing) {call : Call} (hcall : call.procedure = serviceName ++ "." ++ p.name)
    {bound : List NativeValue}
    (hbound : bindArguments d.catalog.services d.objects call.procedure p.parameters
      call.arguments = .ok bound) :
    ∃ w w', call.arguments = [⟨0, w⟩] ∧ Incremented w w' ∧
      (d.dispatch call).1 = .completed (some w') ∧ (d.dispatch call).2 = d.countDispatch := by
  have hmem := Fixture.offer_mem_of_mem_incrementing hp
  rcases Fixture.of_mem_incrementing hp with ⟨name, parameter, ty, rfl, hcounts, hplain, hname⟩
  have hfound := get_offered hscan hservice hmem rfl (by decide) hname
  have hcalled : call.procedure = firstService.name ++ "." ++
      (Offer.procedure (Fixture.incrementProcedure name parameter ty)).name := hcall
  rw [← hcalled] at hfound
  rcases bindArguments_one rfl hbound with ⟨w, n, harguments, rfl, hread⟩
  rcases exists_written call.ctx.connection (call.procedure ++ " return value") hcounts hplain
    hread with ⟨w', n', hw, hn, hwritten⟩
  refine ⟨w, w', harguments, hw,
    dispatch_completes (Session.prepare_eq hfound hbound) (fun inv world hinv =>
      Fixture.incrementArgument_react hinv hn world) ?_⟩
  unfold Dispatcher.writeReturn
  change (do return some (← encode d.catalog.services call.ctx.connection
    (call.procedure ++ " return value") ty n') : Writing (Option Value)).run.run d.objects = _
  rw [Writing.run_bind, hwritten]
  rfl

/-- Whatever can be bound to a procedure of the fixture services that increments is incremented:
    the call completes with what was sent, and with one more in the place of each integer that
    is not in a key, around the end of its width where there is none. Nothing is entered into
    the table of live objects, nothing is left to wait and nothing is remembered. For values in
    general there are exactly those that have only integers in them, keys apart, and of any
    other it is the first leaf that is no integer whose shape is reported. -/
theorem increments_throughout {decls : List ServiceDecl} {d : Dispatcher}
    (hscan : scan decls = .ok d.catalog) (hservice : firstService ∈ decls) :
    (∀ p ∈ incrementing, ∀ (call : Call) (bound : List NativeValue),
      call.procedure = serviceName ++ "." ++ p.name →
      bindArguments d.catalog.services d.objects call.procedure p.parameters call.arguments =
        .ok bound →
      ∃ w w', call.arguments = [⟨0, w⟩] ∧ Incremented w w' ∧
        (d.dispatch call).1 = .completed (some w') ∧
        (d.dispatch call).2.objects = d.objects ∧ (d.dispatch call).2.pending = d.pending ∧
        (d.dispatch call).2.world = d.world) ∧
    ∀ v : NativeValue,
      (∀ v', increment v = .ok v' ↔ Incremented v v') ∧
      ((∃ v', increment v = .ok v') ↔ ∀ leaf ∈ v.contentLeaves, leaf.isInteger) ∧
      error? (increment v) =
        (v.contentLeaves.find? fun leaf => !leaf.isInteger).map Datum.kind := by
  refine ⟨fun p hp call bound hcall hbound => ?_, fun v =>
    ⟨fun _ => increment_eq_ok_iff v, exists_increment_iff v, error?_increment v⟩⟩
  rcases dispatch_incrementing hscan hservice hp hcall hbound with
    ⟨w, w', harguments, hw, houtcome, hleft⟩
  rw [hleft]
  exact ⟨w, w', harguments, hw, houtcome, rfl, rfl, rfl⟩

/-- The largest integer of its width is followed by the least, and keys are left as they are. -/
theorem nestedCollection_incremented :
    scan fixtureServices = .ok (published fixtureServices) ∧
    (Dispatcher.dispatch { catalog := published fixtureServices }
      ⟨⟨1, 1⟩, "TestService.IncrementNestedCollection",
        [⟨0, .map [(.string "a", .list [.int32 2147483647])]⟩]⟩).1 =
      .completed (some (.map [(.string "a", .list [.int32 (-2147483648)])])) ∧
    ∃ v', increment (.tuple [.int64 9223372036854775807, .set []]) = .ok v' := by
  have hscan : scan fixtureServices = .ok (published fixtureServices) := rfl
  have hthroughout := @increments_throughout _ { catalog := published fixtureServices } hscan
    List.mem_cons_self
  refine ⟨hscan, ?_, (hthroughout.2 _).2.1.mpr (by decide)⟩
  rcases hthroughout.1 _ (List.mem_of_getElem? (i := 4) rfl)
    ⟨⟨1, 1⟩, "TestService.IncrementNestedCollection",
      [⟨0, .map [(.string "a", .list [.int32 2147483647])]⟩]⟩
    _ rfl rfl with ⟨w, w', harguments, hw, houtcome, -⟩
  obtain rfl := congrArg Argument.value (List.cons.inj harguments).1
  rw [houtcome]
  have hshape : ∀ {n : Int32} {w' : Value},
      Incremented (.map [(.string "a", .list [.int32 n])]) w' →
      ∃ n' : Int32, n'.toInt = (n.toInt + 1).bmod (2 ^ 32) ∧
        w' = .map [(.string "a", .list [.int32 n'])] := fun
    | .map (.cons (.mk _ (.list (.cons (.int32 h) .nil))) .nil) => ⟨_, h, rfl⟩
  rcases hshape hw with ⟨n, hn, rfl⟩
  have hleast : n = -2147483648 := Int32.toInt_inj.mp (hn.trans (by decide))
  rw [hleast]

end Switchboard
