import Switchboard.Proofs.Coercion.Decoding
import Switchboard.Proofs.Coercion.Lasting
import Switchboard.Proofs.Coercion.Misfits
import Switchboard.Proofs.Datum.Traversal

/-!
# What is Written is Well Typed

A client can rely on the declared return type of a procedure. What it is sent has the
shape of the type, except that there may be null where an object is expected; the
integers at enumerations are members; and each object number stands for the instance
that the procedure has returned in this place.

The last of these is about the table that is left when the whole value is written,
while the number was given when the table was another. Between the two, instances
further to the right are entered, some of them perhaps the same as this one. Entering
an instance only adds to the table, so the number of an instance stays what it was, and
the value that is written is the value that was returned with each instance replaced by
its number in the table that is left. That holds of the parts of a value and from there
of the value.

For a connection that has disconnected nothing is entered, and the numbers that are
given lead nowhere. They have been handed out all the same.

## Main definitions

* `Ty.lenient`: A type with null allowed wherever an object is expected.
* `ObjectTable.numberFor?`: The number that a connection knows an instance by.
* `Written`: What holds of a value that has been written.

## Theorems

* `Consistent.register_number`: The number that an instance is given.
* `encode_lasts`: What is written is as it should be, now and later.
* `Consistent.resolve_number`: From the number back to the instance.
* `encodes_well_typed`: What is written in a table that operations have made.
-/

namespace Switchboard

/-! ## The type of what is written -/

mutual

/-- A type with null allowed wherever an object is expected. -/
def Ty.lenient : Ty → Ty
  | .optional inner => .optional inner.lenient
  | .list element => .list element.lenient
  | .set element => .set element.lenient
  | .map key value => .map key.lenient value.lenient
  | .tuple elements => .tuple (Ty.lenientAll elements)
  | .instanceOf service name => .optional (.instanceOf service name)
  | ty => ty

/-- So with several types. -/
def Ty.lenientAll : List Ty → List Ty
  | [] => []
  | ty :: tys => ty.lenient :: Ty.lenientAll tys

end

/-- What may stand at a place in a value that is written: no integer at an enumeration
    but its declared members. -/
def Declared (services : Services) : Value → Ty → Prop
  | .enum n, .enumeration service name => services.hasMember (.enumeration service name) n
  | _, _ => True

/-! ## The numbers of instances -/

namespace ObjectTable

/-- The number that a connection knows an instance by. -/
def numberFor? (t : ObjectTable) (owner : ConnectionId) (object : Instance) : Option ObjectId :=
  ((t.entryOf? object).filter fun found => found.2.owners.contains owner).map Prod.fst

variable {t t' : ObjectTable} {owner : ConnectionId} {object : Instance} {id : ObjectId}

theorem numberFor?_eq_some_iff :
    t.numberFor? owner object = some id ↔
      ∃ entry, t.addresses.get? object.address = some id ∧ t.entries.get? id = some entry ∧
        entry.owners.contains owner = true := by
  simp only [numberFor?, Option.map_eq_some_iff, Option.filter_eq_some_iff, Prod.exists,
    entryOf?_eq_some_iff, and_assoc]
  constructor
  · rintro ⟨_, entry, haddress, hentry, howns, rfl⟩
    exact ⟨entry, haddress, hentry, howns⟩
  · rintro ⟨entry, haddress, hentry, howns⟩
    exact ⟨id, entry, haddress, hentry, howns, rfl⟩

/-- A number once known stays known while instances are entered. -/
theorem Grows.numberFor? (h : t.Grows owner (fun _ => True) t')
    (hid : t.numberFor? owner object = some id) : t'.numberFor? owner object = some id := by
  rcases numberFor?_eq_some_iff.mp hid with ⟨entry, haddress, hentry, howns⟩
  rcases h.kept id entry hentry with ⟨entry', hentry', -, -, howners⟩
  refine numberFor?_eq_some_iff.mpr ⟨entry', h.addresses _ _ haddress, hentry', ?_⟩
  rcases howners with hsame | hadded
  · exact hsame ▸ howns
  · exact hadded ▸ (IdSet.contains_add _ _ _).mpr (.inr howns)

/-- The number that is given for an instance has been handed out, and a connection that
    is there knows the instance by it. -/
theorem Consistent.register_number (h : t.Consistent) (object : Instance) (className : String)
    (owner : ConnectionId) :
    (t.register object className owner).1.id < (t.register object className owner).2.nextId ∧
      (t.closed.contains owner = false →
        (t.register object className owner).2.numberFor? owner object =
          some (t.register object className owner).1.id) := by
  cases hfound : t.entryOf? object with
  | some found =>
      rcases found with ⟨id, entry⟩
      rcases entryOf?_eq_some_iff.mp hfound with ⟨haddress, hentry⟩
      rw [register_known hfound]
      refine ⟨?_, fun hopen => numberFor?_eq_some_iff.mpr ?_⟩
      · split <;> exact (h.issued id entry hentry).2
      · rw [hopen, if_neg Bool.false_ne_true]
        refine ⟨_, haddress, by rw [Table.get?_insert, if_pos rfl], ?_⟩
        exact (IdSet.contains_add _ _ _).mpr (.inl rfl)
  | none =>
      rw [register_new hfound]
      refine ⟨?_, fun hopen => numberFor?_eq_some_iff.mpr ?_⟩
      · split <;> exact Nat.lt_succ_self _
      · rw [hopen, if_neg Bool.false_ne_true]
        refine ⟨_, by rw [Table.get?_insert, if_pos rfl], by rw [Table.get?_insert, if_pos rfl], ?_⟩
        exact (IdSet.contains_of _ _).mpr rfl

end ObjectTable

/-! ## What is written -/

/-- What holds of a value that has been written for a connection, in the table that is
    left. -/
structure Written (services : Services) (owner : ConnectionId) (ty : Ty) (v : NativeValue)
    (t : ObjectTable) (w : Value) : Prop where
  conforms : w.conforms ty.lenient = true
  declared : ∀ u s, Datum.StandsAt u s w ty → Declared services u s
  issued : ∀ id ∈ w.references, id < t.nextId
  /-- A connection that is there knows every instance in the value, by the number that
      stands for it. -/
  numbered : t.closed.contains owner = false → v.traverse (t.numberFor? owner) = some w

/-- The same of the items of a tuple. -/
structure WrittenPairwise (services : Services) (owner : ConnectionId) (tys : List Ty)
    (vs : List NativeValue) (t : ObjectTable) (ws : List Value) : Prop where
  conforms : Datum.conformPairwise (Ty.lenientAll tys) ws = true
  declared : ∀ item ∈ ws.zip tys, ∀ u s, Datum.StandsAt u s item.1 item.2 → Declared services u s
  issued : ∀ w ∈ ws, ∀ id ∈ w.references, id < t.nextId
  numbered : t.closed.contains owner = false →
    List.Forall₂ (fun v w => v.traverse (t.numberFor? owner) = some w) vs ws

namespace Written

variable {services : Services} {owner : ConnectionId} {t : ObjectTable}

theorem null {ty : Ty} (h : (.null : Value).conforms ty.lenient = true) :
    Written services owner ty .null t .null where
  conforms := h
  declared := Datum.forall_standsAt_null.mpr trivial
  issued _ hid := absurd hid List.not_mem_nil
  numbered _ := rfl

theorem optional {inner : Ty} {v : NativeValue} {w : Value}
    (h : Written services owner inner v t w) : Written services owner (.optional inner) v t w where
  conforms := by
    rw [Ty.lenient]
    by_cases hnull : w = .null
    · rw [hnull]
      rfl
    · rw [conforms_optional hnull]
      exact h.conforms
  declared := by
    by_cases hnull : w = .null
    · rw [hnull]
      exact Datum.forall_standsAt_null.mpr trivial
    · exact (Datum.forall_standsAt_optional hnull).mpr ⟨by cases w <;> trivial, h.declared⟩
  issued := h.issued
  numbered := h.numbered

theorem list {element : Ty} {items : List NativeValue} {ws : List Value}
    (h : List.Forall₂ (fun item w => Written services owner element item t w) items ws) :
    Written services owner (.list element) (.list items) t (.list ws) where
  conforms := List.all_eq_true.mpr (forall_mem_right h fun _ _ hw => hw.conforms)
  declared := Datum.forall_standsAt_list.mpr
    ⟨trivial, forall_mem_right h fun _ _ hw => hw.declared⟩
  issued := by
    rw [Datum.references_list, List.forall_mem_flatMap]
    exact forall_mem_right h fun _ _ hw => hw.issued
  numbered hopen := Datum.traverse_list_eq_some_iff.mpr
    ⟨ws, h.imp fun _ _ hw => hw.numbered hopen, rfl⟩

theorem set {element : Ty} {items : List NativeValue} {ws : List Value}
    (h : List.Forall₂ (fun item w => Written services owner element item t w) items ws) :
    Written services owner (.set element) (.set items) t (.set ws) where
  conforms := List.all_eq_true.mpr (forall_mem_right h fun _ _ hw => hw.conforms)
  declared := Datum.forall_standsAt_set.mpr
    ⟨trivial, forall_mem_right h fun _ _ hw => hw.declared⟩
  issued := by
    rw [Datum.references_set, List.forall_mem_flatMap]
    exact forall_mem_right h fun _ _ hw => hw.issued
  numbered hopen := Datum.traverse_set_eq_some_iff.mpr
    ⟨ws, h.imp fun _ _ hw => hw.numbered hopen, rfl⟩

theorem map {key value : Ty} {entries : List (NativeValue × NativeValue)}
    {ws : List (Value × Value)}
    (h : List.Forall₂ (fun entry w => Written services owner key entry.1 t w.1 ∧
      Written services owner value entry.2 t w.2) entries ws) :
    Written services owner (.map key value) (.map entries) t (.map ws) where
  conforms := List.all_eq_true.mpr (forall_mem_right h fun _ _ hw =>
    Bool.and_eq_true_iff.mpr ⟨hw.1.conforms, hw.2.conforms⟩)
  declared := Datum.forall_standsAt_map.mpr
    ⟨trivial, forall_mem_right h fun _ _ hw => ⟨hw.1.declared, hw.2.declared⟩⟩
  issued := by
    rw [Datum.references_map, List.forall_mem_flatMap]
    exact forall_mem_right h fun _ _ hw => List.forall_mem_append.mpr ⟨hw.1.issued, hw.2.issued⟩
  numbered hopen := Datum.traverse_map_eq_some_iff.mpr
    ⟨ws, h.imp fun _ _ hw => ⟨hw.1.numbered hopen, hw.2.numbered hopen⟩, rfl⟩

theorem tuple {elements : List Ty} {items : List NativeValue} {ws : List Value}
    (h : WrittenPairwise services owner elements items t ws) :
    Written services owner (.tuple elements) (.tuple items) t (.tuple ws) where
  conforms := h.conforms
  declared := Datum.forall_standsAt_tuple.mpr ⟨trivial, h.declared⟩
  issued := by
    rw [Datum.references_tuple, List.forall_mem_flatMap]
    exact h.issued
  numbered hopen := Datum.traverse_tuple_eq_some_iff.mpr ⟨ws, h.numbered hopen, rfl⟩

end Written

theorem WrittenPairwise.nil (services : Services) (owner : ConnectionId) (t : ObjectTable) :
    WrittenPairwise services owner [] [] t [] where
  conforms := rfl
  declared := List.forall_mem_nil _
  issued := List.forall_mem_nil _
  numbered _ := .nil

theorem WrittenPairwise.cons {services : Services} {owner : ConnectionId} {t : ObjectTable}
    {ty : Ty} {tys : List Ty} {v : NativeValue} {vs : List NativeValue} {w : Value}
    {ws : List Value} (h : Written services owner ty v t w)
    (hrest : WrittenPairwise services owner tys vs t ws) :
    WrittenPairwise services owner (ty :: tys) (v :: vs) t (w :: ws) where
  conforms := Bool.and_eq_true_iff.mpr ⟨h.conforms, hrest.conforms⟩
  declared := List.forall_mem_cons.mpr ⟨h.declared, hrest.declared⟩
  issued := List.forall_mem_cons.mpr ⟨h.issued, hrest.issued⟩
  numbered hopen := .cons (h.numbered hopen) (hrest.numbered hopen)

/-! ## Writing -/

/-- Tables in which everything is in order, and those that come from them by entering
    instances for a connection. -/
def Frame.growing (owner : ConnectionId) : Frame where
  good := ObjectTable.Consistent
  sound := ObjectTable.Consistent
  later t t' := t.Grows owner (fun _ => True) t'
  refl t := .refl t owner _
  trans := .trans

variable {services : Services} {owner : ConnectionId} {context : String}

theorem register_lasts (object : Instance) (className : String) :
    (Frame.growing owner).Lasts (Writing.register object className owner) fun t id =>
      id < t.nextId ∧ (t.closed.contains owner = false →
        t.numberFor? owner object = some id) := by
  intro t hconsistent id t' hrun
  rw [Writing.run_register] at hrun
  cases hrun
  have hgrows : t.Grows owner (fun _ => True) (t.register object className owner).2 :=
    .register hconsistent trivial className owner
  rcases hconsistent.register_number object className owner with ⟨hissued, hnumber⟩
  refine ⟨hconsistent.register object className owner, hgrows, fun t'' hlater _ => ⟨?_, ?_⟩⟩
  · exact Nat.lt_of_lt_of_le hissued hlater.rising
  · -- Nobody is disconnected by writing.
    rw [hlater.closed, hgrows.closed]
    exact fun hopen => hlater.numberFor? (hnumber hopen)

mutual

-- By the recursion of writing. What does not fit is refused, and nothing is said of it.
theorem encode_lasts : ∀ (ty : Ty) (v : NativeValue),
    (Frame.growing owner).Lasts (encode services owner context ty v)
      (Written services owner ty v)
  | .bool, v | .int32, v | .int64, v | .float32, v | .float64, v | .string, v | .bytes, v => by
      cases v <;> first
        | exact .throw
        | exact .pure fun t => ⟨rfl, fun u s hs => by cases hs; trivial,
            fun _ hid => absurd hid List.not_mem_nil, fun _ => rfl⟩
  | .optional inner, v => by
      by_cases hnull : v = .null
      · rw [hnull]
        exact .pure fun t => Written.null rfl
      · rw [encode_optional hnull]
        exact (encode_lasts inner v).imp fun t w => .optional
  | .list element, v => by
      cases v with
      | list items =>
          exact (Frame.Lasts.mapM fun item _ => encode_lasts element item).map fun t ws => .list
      | _ => exact .throw
  | .set element, v => by
      cases v with
      | set items =>
          exact (Frame.Lasts.mapM fun item _ => encode_lasts element item).map fun t ws => .set
      | _ => exact .throw
  | .map key value, v => by
      cases v with
      | map entries =>
          refine Frame.Lasts.map (Frame.Lasts.mapM fun entry _ => ?_) fun t ws => .map
          exact (encode_lasts key entry.1).bind fun k' =>
            (encode_lasts value entry.2).map fun t v' hvalue hkey => ⟨hkey, hvalue⟩
      | _ => exact .throw
  | .tuple elements, v => by
      cases v with
      | tuple items =>
          rw [encode]
          by_cases hlength : items.length = elements.length
          · rw [if_pos hlength]
            exact (encodePairwise_lasts elements items hlength).map fun t ws => .tuple
          · rw [if_neg hlength]
            exact .throw
      | _ => exact .throw
  | .enumeration service name, v => by
      cases v with
      | enum n =>
          refine Frame.Lasts.checkMember.map fun t _ hmember => ⟨rfl, ?_, ?_, fun _ => rfl⟩
          · exact Datum.forall_standsAt_enumeration.mpr hmember
          · exact fun _ hid => absurd hid List.not_mem_nil
      | _ => exact .throw
  | .instanceOf service name, v => by
      cases v with
      | null =>
          exact .pure fun t => Written.null rfl
      | object object =>
          refine (register_lasts object _).map fun t id hid => ⟨rfl, ?_, ?_, fun hopen => ?_⟩
          · exact Datum.forall_standsAt_instanceOf.mpr trivial
          · exact List.forall_mem_singleton.mpr hid.1
          · exact Datum.traverse_object_eq_some_iff.mpr ⟨id, hid.2 hopen, rfl⟩
      | _ => exact .throw

theorem encodePairwise_lasts : ∀ (tys : List Ty) (vs : List NativeValue),
    vs.length = tys.length →
      (Frame.growing owner).Lasts (encodePairwise services owner context tys vs)
        (WrittenPairwise services owner tys vs)
  | [], [], _ => .pure (WrittenPairwise.nil services owner)
  | ty :: tys, v :: vs, hlength =>
      (encode_lasts ty v).bind fun _ =>
        (encodePairwise_lasts tys vs (Nat.succ.inj hlength)).map fun _ _ hrest hfirst =>
          .cons hfirst hrest
  | [], _ :: _, hlength => nomatch hlength
  | _ :: _, [], hlength => nomatch hlength

end

/-! ## In the table that is left -/

namespace ObjectTable

variable {t t' : ObjectTable}

/-- If addresses tell the instances that are entered apart, from each other and from
    those that were live, they still do when these are entered. -/
theorem Grows.admits {among : Instance → Prop} (h : t.Grows owner among t')
    (hadmits : ∀ object, among object → t.Admits object)
    (hapart : ∀ i j, among i → among j → i.address = j.address → i = j) {object : Instance}
    (hamong : among object) : t'.Admits object := by
  rintro ⟨id, entry⟩ hrow haddress
  have hentry : t'.entries.get? id = some entry := Table.mem_rows_iff.mp hrow
  cases hbefore : t.entries.get? id with
  | none => exact hapart _ _ (h.entered id entry hentry hbefore).2.2 hamong haddress
  | some entry₀ =>
      rcases h.kept id entry₀ hbefore with ⟨entry', hentry', hobject, -⟩
      obtain rfl : entry = entry' := Option.some.inj (hentry.symm.trans hentry')
      simp only [hobject] at haddress ⊢
      exact hadmits object hamong (id, entry₀) (Table.mem_rows_iff.mpr hbefore) haddress

/-- The number of an instance leads back to it. -/
theorem Consistent.resolve_number (h : t.Consistent) {object : Instance}
    (hadmits : t.Admits object) {id : ObjectId} (hid : t.numberFor? owner object = some id) :
    t.resolve id = .ok object := by
  rcases numberFor?_eq_some_iff.mp hid with ⟨entry, haddress, hentry, -⟩
  rcases h.entry_of_address _ _ haddress with ⟨entry', hentry', hsame⟩
  obtain rfl : entry = entry' := Option.some.inj (hentry.symm.trans hentry')
  have hobject : entry.object = object :=
    hadmits (id, entry) (Table.mem_rows_iff.mpr hentry) hsame
  rw [resolve, hentry, ← hobject]

end ObjectTable

/-- If two lists can be mapped to the same, what is equal in the one is equal in the
    other. -/
theorem getElem?_eq_of_map_eq {α β γ : Type} {f : α → γ} {g : β → γ} {xs : List α} {ys : List β}
    (h : xs.map f = ys.map g) (hf : Function.Injective f) {i j : Nat} (hij : ys[i]? = ys[j]?) :
    xs[i]? = xs[j]? := by
  refine Option.map_injective hf ?_
  rw [← List.getElem?_map, ← List.getElem?_map, h, List.getElem?_map, List.getElem?_map, hij]

/-- What is written for a connection fits the type, with null allowed where an object
    is expected. Its integers at enumerations are declared members, and its object
    numbers have been handed out. If the connection is there, it owns what they stand
    for. And if addresses tell the instances of the value apart, from each other and
    from those that are live, which is the allocator's part, each number leads back to
    the instance that it stands for, and two are the same exactly if the instances
    are. -/
theorem encodes_well_typed (services : Services) (ops : List ObjectOperation)
    (owner : ConnectionId) (context : String) (ty : Ty) (v : NativeValue) (w : Value)
    (t' : ObjectTable)
    (hwritten : (encode services owner context ty v).run.run (({} : ObjectTable).replay ops) =
      (.ok w, t')) :
    w.conforms ty.lenient = true ∧
    (∀ n service name, Datum.StandsAt (.enum n) (.enumeration service name) w ty →
      services.hasMember (.enumeration service name) n) ∧
    (∀ id ∈ w.references, id < t'.nextId) ∧
    ((({} : ObjectTable).replay ops).closed.contains owner = false →
      (∀ id ∈ w.references, ∃ entry, t'.entries.get? id = some entry ∧
        entry.owners.contains owner = true) ∧
      ((∀ object ∈ v.references, (({} : ObjectTable).replay ops).Admits object) →
        (∀ object ∈ v.references, ∀ other ∈ v.references,
          object.address = other.address → object = other) →
        w.traverse t'.resolve = .ok v ∧
        ∀ i j : Nat, w.references[i]? = w.references[j]? ↔
          v.references[i]? = v.references[j]?)) := by
  have hconsistent := ObjectTable.Consistent.init.replay ops
  rcases encode_lasts ty v _ hconsistent w t' hwritten with ⟨hconsistent', hgrows, hlater⟩
  have hw : Written services owner ty v t' w := hlater t' (.refl t' owner _) hconsistent'
  refine ⟨hw.conforms, fun n service name hs => hw.declared _ _ hs, hw.issued, fun hopen => ?_⟩
  have hnumbered := hw.numbered (hgrows.closed ▸ hopen)
  have hpairs := Datum.references_of_traverse v hnumbered
  refine ⟨forall_mem_right hpairs fun object id hid => ?_, fun hadmits hapart => ?_⟩
  · rcases ObjectTable.numberFor?_eq_some_iff.mp hid with ⟨entry, -, hentry, howns⟩
    exact ⟨entry, hentry, howns⟩
  have hgrows' := encode_grows hconsistent services owner context ty v
  rw [hwritten] at hgrows'
  have hback : ∀ object ∈ v.references, ∀ id, t'.numberFor? owner object = some id →
      t'.resolve id = .ok object := fun object hobject id hid =>
    hconsistent'.resolve_number
      (hgrows'.admits hadmits (fun i j hi hj => hapart i hi j hj) hobject) hid
  refine ⟨Datum.traverse_back v hnumbered hback, fun i j => ⟨?_, ?_⟩⟩
  · -- Equal numbers lead to equal instances.
    have hresolved : v.references.map Except.ok = w.references.map t'.resolve := by
      rw [← List.forall₂_eq_eq_eq, List.forall₂_map_left_iff, List.forall₂_map_right_iff]
      have hboth := (List.forall₂_and_left v.references w.references).mpr
        ⟨fun object (hobject : object ∈ v.references) => hobject, hpairs⟩
      exact hboth.imp fun object id hid => (hback object hid.1 id hid.2).symm
    exact getElem?_eq_of_map_eq hresolved fun _ _ h => Except.ok.inj h
  · -- And equal instances have equal numbers.
    have hnumbers : w.references.map some = v.references.map (t'.numberFor? owner) := by
      rw [← List.forall₂_eq_eq_eq, List.forall₂_map_left_iff, List.forall₂_map_right_iff]
      exact hpairs.flip.imp fun id object hid => hid.symm
    exact getElem?_eq_of_map_eq hnumbers fun _ _ => Option.some.inj

/-- One instance that is new to everyone, twice and with a null in between, and one that
    another connection was given before. -/
theorem encoded_list_well_typed :
    ∃ t', (encode ⟨[]⟩ 1 "S.P return value" (.list (.instanceOf "S" "C"))
        (.list [.object ⟨7, .label "b"⟩, .null, .object ⟨5, .label "a"⟩,
          .object ⟨7, .label "b"⟩])).run.run
        (({} : ObjectTable).replay [.register ⟨5, .label "a"⟩ "S.C" 2]) =
          (.ok (.list [.object 2, .null, .object 1, .object 2]), t') ∧
      (Datum.list [.object 2, .null, .object 1, .object 2] : Value).conforms
        (.list (.optional (.instanceOf "S" "C"))) = true ∧
      (∀ id ∈ [2, 1, 2], ∃ entry, t'.entries.get? id = some entry ∧
        entry.owners.contains 1 = true) ∧
      (Datum.list [.object 2, .null, .object 1, .object 2] : Value).traverse t'.resolve =
        .ok (.list [.object ⟨7, .label "b"⟩, .null, .object ⟨5, .label "a"⟩,
          .object ⟨7, .label "b"⟩]) := by
  refine ⟨_, rfl, ?_⟩
  rcases encodes_well_typed ⟨[]⟩ [.register ⟨5, .label "a"⟩ "S.C" 2] 1 "S.P return value"
    (.list (.instanceOf "S" "C")) (.list [.object ⟨7, .label "b"⟩, .null,
      .object ⟨5, .label "a"⟩, .object ⟨7, .label "b"⟩]) _ _ rfl with ⟨hconforms, -, -, hopen⟩
  rcases hopen rfl with ⟨howned, hback⟩
  refine ⟨hconforms, howned, (hback ?_ (by decide)).1⟩
  unfold ObjectTable.Admits
  decide

end Switchboard
