import Switchboard.Proofs.Coercion.Sightings

/-!
# Plain Types

Coercion against types that name no class. The table of live objects is what
connects the calls of a server with one another, and coercion is the only part
of a call that looks at it; where no class is named it does not. What a client
sends is then read the same way whatever is alive, and what a procedure gives
back is written the same way, for whatever client, without anything being
entered.

## Main definitions

* `Ty.Plain`: No class is named.
* `Quiet`: Writing that neither reads the table nor changes it.

## Theorems

* `decode_plain`, `bindArguments_plain`: Reading does not look at the table.
* `encode_quiet`: Writing neither looks at it nor changes it.
-/

namespace Switchboard

/-- A type in which no class is named. -/
def Ty.Plain (ty : Ty) : Prop := ∀ service name, Ty.instanceOf service name ∉ ty.named

/-- Types in which no class is named. -/
def Ty.AllPlain (tys : List Ty) : Prop := ∀ ty ∈ tys, ty.Plain

theorem Ty.plain_of_named_eq_nil {ty : Ty} (h : ty.named = []) : ty.Plain := by
  intro service name hmem
  rw [h] at hmem
  exact absurd hmem List.not_mem_nil

theorem Ty.plain_map {key value : Ty} (h : (Ty.map key value).Plain) : key.Plain ∧ value.Plain := by
  constructor
  · intro service name hmem
    exact h service name (by rw [Ty.named]; exact List.mem_append_left _ hmem)
  · intro service name hmem
    exact h service name (by rw [Ty.named]; exact List.mem_append_right _ hmem)

theorem Ty.mem_namedAll {tys : List Ty} {ty named : Ty} (hty : ty ∈ tys)
    (hnamed : named ∈ ty.named) : named ∈ Ty.namedAll tys := by
  induction tys with
  | nil => exact absurd hty List.not_mem_nil
  | cons head rest ih =>
      rw [Ty.namedAll, List.mem_append]
      rcases List.mem_cons.mp hty with rfl | hty
      · exact Or.inl hnamed
      · exact Or.inr (ih hty)

theorem Ty.plain_tuple {elements : List Ty} (h : (Ty.tuple elements).Plain) :
    Ty.AllPlain elements := by
  intro ty hty service name hmem
  exact h service name (by rw [Ty.named]; exact Ty.mem_namedAll hty hmem)

/-! ## Reading -/

variable (services : Services) (objects objects' : ObjectTable) (context : String)

mutual

theorem decode_plain : ∀ (ty : Ty), ty.Plain → ∀ v : Value,
    decode services objects context ty v = decode services objects' context ty v
  | .bool, _, v => by cases v <;> rfl
  | .int32, _, v => by cases v <;> rfl
  | .int64, _, v => by cases v <;> rfl
  | .float32, _, v => by cases v <;> rfl
  | .float64, _, v => by cases v <;> rfl
  | .string, _, v => by cases v <;> rfl
  | .bytes, _, v => by cases v <;> rfl
  | .enumeration .., _, v => by cases v <;> rfl
  | .instanceOf service name, h, _ => absurd List.mem_cons_self (h service name)
  | .optional inner, h, v => by
      cases v with
      | null => rfl
      | _ =>
          have ih := decode_plain inner h
          simp only [decode, ih]
  | .list element, h, v => by
      cases v with
      | list items =>
          have ih := funext (decode_plain element h)
          simp only [decode, ih]
      | _ => rfl
  | .set element, h, v => by
      cases v with
      | set items =>
          have ih := funext (decode_plain element h)
          simp only [decode, ih]
      | _ => rfl
  | .map key value, h, v => by
      cases v with
      | map entries =>
          have ihk := decode_plain key (Ty.plain_map h).1
          have ihv := decode_plain value (Ty.plain_map h).2
          simp only [decode, ihk, ihv]
      | _ => rfl
  | .tuple elements, h, v => by
      cases v with
      | tuple items =>
          have ih := decodePairwise_plain elements (Ty.plain_tuple h) items
          simp only [decode, ih]
      | _ => rfl

theorem decodePairwise_plain : ∀ (tys : List Ty), Ty.AllPlain tys → ∀ vs : List Value,
    decodePairwise services objects context tys vs = decodePairwise services objects' context tys vs
  | [], _, vs => by cases vs <;> rfl
  | t :: ts, h, vs => by
      cases vs with
      | nil => rfl
      | cons v vs =>
          have ihv := decode_plain t (h t List.mem_cons_self) v
          have ihs := decodePairwise_plain ts (fun ty hty => h ty (List.mem_cons_of_mem _ hty)) vs
          simp only [decodePairwise, ihv, ihs]

end

/-- Binding an argument to a parameter of a plain type does not look at the
    table. -/
theorem bindParameter_plain (procedure : String) {parameter : Parameter}
    (h : parameter.ty.Plain) (supplied : Option Value) :
    bindParameter services objects procedure parameter supplied =
      bindParameter services objects' procedure parameter supplied := by
  have hfallback : ∀ context, bindParameter.fallback services objects procedure parameter context =
      bindParameter.fallback services objects' procedure parameter context := by
    intro context
    unfold bindParameter.fallback
    simp only [decode_plain services objects objects' context parameter.ty h]
  unfold bindParameter
  simp only [hfallback, decode_plain services objects objects' _ parameter.ty h]

theorem bindArguments_plain (procedure : String) {parameters : List Parameter}
    (h : ∀ parameter ∈ parameters, parameter.ty.Plain) (arguments : List Argument) :
    bindArguments services objects procedure parameters arguments =
      bindArguments services objects' procedure parameters arguments := by
  -- By induction over the parameters, which are numbered from the left.
  have hmapM : ∀ (supplied : Table Value) (rows : List (Parameter × Nat)),
      (∀ row ∈ rows, row.1 ∈ parameters) →
      (rows.mapM fun row =>
        bindParameter services objects procedure row.1 (supplied.get? row.2)) =
      rows.mapM fun row =>
        bindParameter services objects' procedure row.1 (supplied.get? row.2) := by
    intro supplied rows hrows
    induction rows with
    | nil => rfl
    | cons row rest ih =>
        have hrow := h row.1 (hrows _ List.mem_cons_self)
        rw [List.mapM_cons, List.mapM_cons, ih fun r hr => hrows r (List.mem_cons_of_mem _ hr)]
        simp only [bindParameter_plain services objects objects' procedure hrow]
  unfold bindArguments
  congr 1
  funext supplied
  apply hmapM
  intro row hrow
  exact (List.mem_zipIdx' hrow).2 ▸ List.getElem_mem _

/-! ## Writing -/

/-- Writing that neither looks at the table of live objects nor changes it, and
    does not depend on the client it is for. -/
def Quiet {α : Type} (w : ConnectionId → Writing α) : Prop :=
  ∃ result, ∀ owner objects, (w owner).run.run objects = (result, objects)

namespace Quiet

variable {α β : Type}

theorem pure (a : α) : Quiet fun _ => (Pure.pure a : Writing α) := ⟨.ok a, fun _ _ => rfl⟩

theorem throw (e : CallError) : Quiet fun _ => (MonadExcept.throw e : Writing α) :=
  ⟨.error e, fun _ _ => rfl⟩

theorem bind {w : ConnectionId → Writing α} {k : ConnectionId → α → Writing β} (hw : Quiet w)
    (hk : ∀ a, Quiet fun owner => k owner a) : Quiet fun owner => w owner >>= k owner := by
  rcases hw with ⟨result, hresult⟩
  cases result with
  | error e =>
      refine ⟨.error e, ?_⟩
      intro owner objects
      -- What comes after an error is not run.
      have h := hresult owner objects
      simp only [ExceptT.run, StateT.run] at h
      simp only [ExceptT.run, StateT.run, Bind.bind, ExceptT.bind, ExceptT.mk, StateT.bind, h]
      rfl
  | ok a =>
      rcases hk a with ⟨result', hresult'⟩
      refine ⟨result', ?_⟩
      intro owner objects
      have h := hresult owner objects
      have h' := hresult' owner objects
      simp only [ExceptT.run, StateT.run] at h h'
      simp only [ExceptT.run, StateT.run, Bind.bind, ExceptT.bind, ExceptT.mk, StateT.bind, h]
      exact h'

/-- What comes across no instance is quiet. -/
theorem composes : Writing.Composes fun w seen => seen = [] → Quiet w where
  pure a _ := .pure a
  throw e _ _ := .throw e
  register _ _ _ hnone := nomatch hnone
  bind hw hk hnone := by
    rcases List.append_eq_nil_iff.mp hnone with ⟨hfirst, hlater⟩
    exact (hw hfirst).bind fun a => hk a hlater

end Quiet

/-- Where no class is named there is no instance to come across. -/
theorem encode_quiet (services : Services) (context : String) (ty : Ty) (h : ty.Plain)
    (v : NativeValue) : Quiet fun owner => encode services owner context ty v := by
  refine Quiet.composes.encode services context ty v (List.eq_nil_iff_forall_not_mem.mpr ?_)
  intro seen hseen
  exact h seen.service seen.name (mem_named_of_mem_sightings ty hseen)

end Switchboard
