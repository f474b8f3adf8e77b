import Switchboard.Proofs.Coercion.Decoding

/-!
# Which Arguments Can Be Bound

Binding has two stages. Arguments are placed first, and that succeeds if their
positions are those of parameters and differ from each other. Then each
parameter takes what was placed at its position, or its default. What is placed
is found under its position and nothing else is found, so whether a parameter
can be bound is a question about the arguments and not about the order in which
they were given.

## Main definitions

* `Places`: Arguments that can be placed.
* `Omits`: Parameters that have to do with their defaults.
* `Supplied`: What arguments supply at a position.
* `TakenFor`: What is taken for a default.

## Theorems

* `foldlM_supply`, `exists_placed`: What is found after placing.
* `omitted_or_supplied`, `exists_bindParameter`: When a parameter can be bound.
* `exists_bindArguments`: When arguments can be bound, and to what.
-/

namespace Switchboard

/-- Arguments at positions of parameters, no two of them at the same. -/
structure Places (parameters : List Parameter) (arguments : List Argument) : Prop where
  inRange : ∀ a ∈ arguments, a.position.toNat < parameters.length
  distinct : (arguments.map (·.position)).Nodup

/-- There is nothing for a parameter among the arguments but a null that its type
    has no use for. -/
def Omits (arguments : List Argument) (position : Nat) (parameter : Parameter) : Prop :=
  ∀ a ∈ arguments, a.position.toNat = position → a.value = .null ∧ ¬parameter.ty.isOptional

/-- What arguments supply at a position, if anything. -/
def Supplied (arguments : List Argument) (position : Nat) (supplied : Option Value) : Prop :=
  ∀ v, supplied = some v ↔ ∃ a ∈ arguments, a.position.toNat = position ∧ a.value = v

/-- The place of a parameter in messages. -/
def argumentContext (procedure : String) (parameter : Parameter) : String :=
  procedure ++ " argument '" ++ parameter.name ++ "'"

variable {services : Services} {objects : ObjectTable} {procedure : String}

/-! ## Placing -/

/-- Arguments at different positions that are free are all placed, and found
    there beside what was placed before. -/
theorem foldlM_supply {parameters : Nat} {arguments : List Argument} {supplied : Table Value}
    (hrange : ∀ a ∈ arguments, a.position.toNat < parameters)
    (hdistinct : (arguments.map (·.position)).Nodup)
    (hfree : ∀ a ∈ arguments, supplied.get? a.position.toNat = none) :
    ∃ placed, arguments.foldlM (supply procedure parameters) supplied = .ok placed ∧
      ∀ position v, placed.get? position = some v ↔
        (∃ a ∈ arguments, a.position.toNat = position ∧ a.value = v) ∨
          supplied.get? position = some v := by
  induction arguments generalizing supplied with
  | nil =>
      refine ⟨supplied, rfl, fun position v => ⟨.inr, fun h => h.resolve_left ?_⟩⟩
      rintro ⟨a, hmem, -⟩
      exact absurd hmem List.not_mem_nil
  | cons a rest ih =>
      rw [List.forall_mem_cons] at hrange hfree
      rw [List.map_cons, List.nodup_cons] at hdistinct
      have hsupply : supply procedure parameters supplied a =
          .ok (supplied.insert a.position.toNat a.value) := by
        rw [supply]
        simp only [if_neg (Nat.not_le.mpr hrange.1), Table.contains_eq_false_iff.mpr hfree.1,
          Bool.false_eq_true, if_false]
      have hother : ∀ b ∈ rest, b.position.toNat ≠ a.position.toNat := by
        intro b hb heq
        exact hdistinct.1 (List.mem_map.mpr ⟨b, hb, UInt32.toNat_inj.mp heq⟩)
      -- What is placed now does not take the place of anything that comes later.
      rcases @ih (supplied.insert a.position.toNat a.value) hrange.2 hdistinct.2
        (fun b hb => by rw [Table.get?_insert, if_neg (hother b hb)]; exact hfree.2 b hb) with
        ⟨placed, hplaced, hfound⟩
      refine ⟨placed, ?_, fun position v => ?_⟩
      · rw [List.foldlM_cons, hsupply]
        exact hplaced
      · rw [hfound, Table.get?_insert]
        simp only [List.mem_cons, exists_eq_or_imp]
        by_cases hposition : position = a.position.toNat
        · rw [hposition, if_pos rfl, hfree.1]
          simp only [true_and, Option.some.injEq, reduceCtorEq, or_false]
          exact or_comm
        · rw [if_neg hposition]
          simp only [Ne.symm hposition, false_and, false_or]

/-- Arguments that can be placed are, and then what they supply is found. -/
theorem exists_placed {parameters : List Parameter} {arguments : List Argument}
    (h : Places parameters arguments) :
    ∃ placed, arguments.foldlM (supply procedure parameters.length) {} = .ok placed ∧
      ∀ position, Supplied arguments position (placed.get? position) := by
  rcases @foldlM_supply procedure parameters.length arguments {} h.inRange h.distinct
    (fun _ _ => Table.get?_emptyCollection _) with ⟨placed, hplaced, hfound⟩
  refine ⟨placed, hplaced, fun position v => ?_⟩
  rw [hfound, Table.get?_emptyCollection]
  exact ⟨fun h => h.resolve_right (fun h => nomatch h), .inl⟩

/-! ## Binding -/

/-- What is taken for a default: null for null, and otherwise what it is read as. -/
def TakenFor (services : Services) (objects : ObjectTable) (context : String) (ty : Ty)
    (value : Value) (n : NativeValue) : Prop :=
  value = .null ∧ n = .null ∨ value ≠ .null ∧ decode services objects context ty value = .ok n

/-- Where nothing is supplied, and where it is null without the type having a use
    for that, a parameter has to do with its default. -/
theorem bindParameter_omitted {parameter : Parameter} {supplied : Option Value}
    (h : ∀ v, supplied = some v → v = .null ∧ ¬parameter.ty.isOptional) :
    bindParameter services objects procedure parameter supplied =
      bindParameter.fallback services objects procedure parameter
        (argumentContext procedure parameter) := by
  cases supplied with
  | none => rfl
  | some v =>
      rcases h v rfl with ⟨rfl, hoptional⟩
      rw [bindParameter, if_neg hoptional]
      rfl

/-- What is supplied other than null is read. -/
theorem bindParameter_some {parameter : Parameter} {v : Value} (h : v ≠ .null) :
    bindParameter services objects procedure parameter (some v) =
      decode services objects (argumentContext procedure parameter) parameter.ty v := by
  cases v with
  | null => exact absurd rfl h
  | _ => rfl

/-- A value that can be read is what a parameter is bound to. -/
theorem bindParameter_supplied {parameter : Parameter} {w : Value} {n : NativeValue}
    (h : decode services objects (argumentContext procedure parameter) parameter.ty w = .ok n) :
    bindParameter services objects procedure parameter (some w) = .ok n := by
  by_cases hnull : w = .null
  · -- Null is read at optional types alone.
    rw [hnull] at h ⊢
    cases hty : parameter.ty with
    | optional inner =>
        rw [hty] at h
        rw [bindParameter, hty]
        exact h
    | _ =>
        rw [hty] at h
        cases h
  · rw [bindParameter_some hnull, h]

/-- A parameter is omitted if what is supplied at its position is nothing, or a null
    of no use. -/
theorem omits_iff {arguments : List Argument} {position : Nat} {parameter : Parameter}
    {supplied : Option Value} (h : Supplied arguments position supplied) :
    Omits arguments position parameter ↔
      ∀ v, supplied = some v → v = .null ∧ ¬parameter.ty.isOptional := by
  constructor
  · intro homits v hv
    rcases (h v).mp hv with ⟨a, ha, hposition, rfl⟩
    exact homits a ha hposition
  · exact fun homits a ha hposition => homits a.value ((h a.value).mpr ⟨a, ha, hposition, rfl⟩)

/-- A default other than null is read. -/
theorem fallback_some {parameter : Parameter} {value : Value} {context : String}
    (h : parameter.defaultValue = some value) (hnull : value ≠ .null) :
    bindParameter.fallback services objects procedure parameter context =
      decode services objects context parameter.ty value := by
  rw [bindParameter.fallback, h]
  cases value with
  | null => exact absurd rfl hnull
  | _ => rfl

theorem fallback_eq_ok_iff {parameter : Parameter} {value : Value} {context : String}
    {n : NativeValue} (h : parameter.defaultValue = some value) :
    bindParameter.fallback services objects procedure parameter context = .ok n ↔
      TakenFor services objects context parameter.ty value n := by
  rw [TakenFor]
  by_cases hnull : value = .null
  · rw [bindParameter.fallback, h]
    simp only [hnull, true_and, ne_eq, not_true_eq_false, false_and, or_false, Except.ok.injEq,
      eq_comm]
  · rw [fallback_some h hnull]
    simp only [hnull, false_and, ne_eq, not_false_eq_true, true_and, false_or]

/-- What may be supplied: nothing of use, or a null that the type has a use for, or
    another value. -/
theorem omitted_or_supplied (parameter : Parameter) (supplied : Option Value) :
    (∀ v, supplied = some v → v = .null ∧ ¬parameter.ty.isOptional) ∨
      (supplied = some .null ∧ parameter.ty.isOptional) ∨
        ∃ v, v ≠ .null ∧ supplied = some v := by
  cases supplied with
  | none => exact .inl fun v h => absurd h.symm (Option.some_ne_none v)
  | some v =>
      by_cases hnull : v = .null
      · by_cases hoptional : parameter.ty.isOptional
        · exact .inr (.inl ⟨congrArg some hnull, hoptional⟩)
        · exact .inl fun v' h => ⟨(Option.some.inj h).symm.trans hnull, hoptional⟩
      · exact .inr (.inr ⟨v, hnull, rfl⟩)

/-- A parameter can be bound if what is supplied can be read, and if something can
    be taken for its default where it has to do with that. -/
theorem exists_bindParameter {parameter : Parameter} {supplied : Option Value}
    (hsupplied : ∀ v, supplied = some v → v ≠ .null →
      ∃ n, decode services objects (argumentContext procedure parameter) parameter.ty v = .ok n)
    (hdefault : (∀ v, supplied = some v → v = .null ∧ ¬parameter.ty.isOptional) →
      ∃ value n, parameter.defaultValue = some value ∧
        TakenFor services objects (argumentContext procedure parameter) parameter.ty value n) :
    ∃ n, bindParameter services objects procedure parameter supplied = .ok n := by
  rcases omitted_or_supplied parameter supplied with homitted | ⟨rfl, hoptional⟩ | ⟨v, hnull, rfl⟩
  · rcases hdefault homitted with ⟨value, n, hvalue, htaken⟩
    exact ⟨n, by rw [bindParameter_omitted homitted, fallback_eq_ok_iff hvalue]; exact htaken⟩
  · exact ⟨.null, by rw [bindParameter, if_pos hoptional]⟩
  · rw [bindParameter_some hnull]
    exact hsupplied v rfl hnull

theorem getElem?_zipIdx_eq_some_iff {parameters : List Parameter} {position index : Nat}
    {parameter : Parameter} :
    parameters.zipIdx[position]? = some (parameter, index) ↔
      parameters[position]? = some parameter ∧ index = position := by
  rw [List.getElem?_zipIdx, Nat.zero_add, Option.map_eq_some_iff]
  constructor
  · rintro ⟨_, hparameter, hrow⟩
    cases hrow
    exact ⟨hparameter, rfl⟩
  · rintro ⟨hparameter, rfl⟩
    exact ⟨parameter, hparameter, rfl⟩

/-- Arguments can be bound if they can be placed and each parameter can be bound to
    what is placed at its position, and each parameter is bound to that. -/
theorem exists_bindArguments {parameters : List Parameter} {arguments : List Argument}
    (hplaces : Places parameters arguments)
    (hbound : ∀ position parameter, parameters[position]? = some parameter →
      ∀ supplied, Supplied arguments position supplied →
        ∃ n, bindParameter services objects procedure parameter supplied = .ok n) :
    ∃ bound, bindArguments services objects procedure parameters arguments = .ok bound ∧
      bound.length = parameters.length ∧
      ∀ position parameter, parameters[position]? = some parameter →
        ∃ supplied n, Supplied arguments position supplied ∧ bound[position]? = some n ∧
          bindParameter services objects procedure parameter supplied = .ok n := by
  rcases @exists_placed procedure parameters arguments hplaces with ⟨placed, hplaced, hsupplied⟩
  have hrows : ∃ bound, (parameters.zipIdx.mapM fun row =>
      bindParameter services objects procedure row.1 (placed.get? row.2)) = .ok bound := by
    refine exists_mapM_iff.mpr fun ⟨parameter, position⟩ hrow => ?_
    exact hbound position parameter (List.mk_mem_zipIdx_iff_getElem?.mp hrow) _
      (hsupplied position)
  rcases hrows with ⟨bound, hrows⟩
  rcases getElem?_of_mapM hrows with ⟨hlength, heach⟩
  refine ⟨bound, ?_, hlength.trans List.length_zipIdx, fun position parameter hparameter => ?_⟩
  · rw [bindArguments, hplaced]
    exact hrows
  · have hrow := getElem?_zipIdx_eq_some_iff.mpr ⟨hparameter, rfl⟩
    rcases heach position _ hrow with ⟨n, hn, hparameterBound⟩
    exact ⟨placed.get? position, n, hsupplied position, hn, hparameterBound⟩

end Switchboard
