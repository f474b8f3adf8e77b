import Mathlib.Data.List.Induction
import Mathlib.Data.List.Nodup
import Mathlib.Data.List.Perm.Subperm
import Switchboard.Proofs.Coercion.Binding
import Switchboard.Proofs.Coercion.Refusals

/-!
# What Arguments are Bound to

What a parameter is bound to is decided by what the arguments supply at its position
and by its default. There are five cases, one constructor of `Resolves` for each, and
together they are all there are: an argument list that can be placed settles each
parameter in exactly one way. Binding as a whole is then no more than that for each
parameter, in declaration order, and it stops at the first parameter that gives an
error.

Nothing in this depends on the order of the arguments. What depends on it is which of
several misplaced arguments is reported, and that is decided by the positions alone,
before any value is looked at.

## Main definitions

* `Resolves`: What a parameter is bound to, or why it is not.
* `misplaced`: What is reported for an argument at a position it cannot have.
* `Procedure.requiredPositions`: Where the parameters without a default are.

## Theorems

* `resolves_iff_bindParameter`: The cases are those of binding a parameter.
* `existsUnique_resolves`: Each parameter is settled in exactly one way.
* `exists_first_misplaced`: Of arguments that cannot be placed one is the first.
* `bindArguments_misplaced`: The error is decided by the positions.
* `exists_bound_iff`, `bindArguments_eq_error_iff`: Binding, by parameters.
* `bindArguments_one`, `bindArguments_pair_iff`: What one parameter or two are bound to.
* `binds_as_specified`: All of this, with what follows for the order and the number
    of arguments.
-/

namespace Switchboard

/-- What a parameter is bound to, given the arguments, or the error if it is not bound. -/
inductive Resolves (services : Services) (objects : ObjectTable) (procedure : String)
    (arguments : List Argument) (position : Nat) (parameter : Parameter) :
    Except CallError NativeValue → Prop
  /-- A value other than null is read. -/
  | read {v : Value} (hgiven : ∃ a ∈ arguments, a.position.toNat = position ∧ a.value = v)
      (hnull : v ≠ .null) :
      Resolves services objects procedure arguments position parameter
        (decode services objects (argumentContext procedure parameter) parameter.ty v)
  /-- Null is kept where the type is optional. -/
  | null (hgiven : ∃ a ∈ arguments, a.position.toNat = position ∧ a.value = .null)
      (hoptional : parameter.ty.isOptional) :
      Resolves services objects procedure arguments position parameter (.ok .null)
  /-- Null is kept as a default. -/
  | nullDefault (homitted : Omits arguments position parameter)
      (hdefault : parameter.defaultValue = some .null) :
      Resolves services objects procedure arguments position parameter (.ok .null)
  /-- Any other default is read. -/
  | default {v : Value} (homitted : Omits arguments position parameter)
      (hdefault : parameter.defaultValue = some v) (hnull : v ≠ .null) :
      Resolves services objects procedure arguments position parameter
        (decode services objects (argumentContext procedure parameter) parameter.ty v)
  /-- There is no default. -/
  | missing (homitted : Omits arguments position parameter)
      (hdefault : parameter.defaultValue = none) :
      Resolves services objects procedure arguments position parameter
        (.error (.missingArgument procedure parameter.name))

variable {services : Services} {objects : ObjectTable} {procedure : String}
  {parameters : List Parameter} {arguments arguments' : List Argument}

/-! ## One parameter -/

theorem resolves_bindParameter {position : Nat} {parameter : Parameter} {supplied : Option Value}
    (h : Supplied arguments position supplied) :
    Resolves services objects procedure arguments position parameter
      (bindParameter services objects procedure parameter supplied) := by
  rcases omitted_or_supplied parameter supplied with hnothing | ⟨rfl, hoptional⟩ | ⟨v, hnull, rfl⟩
  · have homitted : Omits arguments position parameter := (omits_iff h).mpr hnothing
    rw [bindParameter_omitted hnothing]
    cases hdefault : parameter.defaultValue with
    | none =>
        rw [bindParameter.fallback, hdefault]
        exact .missing homitted hdefault
    | some v =>
        by_cases hnull : v = .null
        · rw [bindParameter.fallback, hdefault, hnull]
          exact .nullDefault homitted (hnull ▸ hdefault)
        · rw [fallback_some hdefault hnull]
          exact .default homitted hdefault hnull
  · rw [bindParameter, if_pos hoptional]
    exact .null ((h _).mp rfl) hoptional
  · rw [bindParameter_some hnull]
    exact .read ((h _).mp rfl) hnull

/-- A parameter comes to one result, and that is what it is bound to. -/
theorem resolves_iff_bindParameter {position : Nat} {parameter : Parameter}
    {supplied : Option Value} {result : Except CallError NativeValue}
    (h : Supplied arguments position supplied) :
    Resolves services objects procedure arguments position parameter result ↔
      bindParameter services objects procedure parameter supplied = result := by
  constructor
  · intro hresolves
    cases hresolves with
    | read hgiven hnull => rw [(h _).mpr hgiven, bindParameter_some hnull]
    | null hgiven hoptional => rw [(h _).mpr hgiven, bindParameter, if_pos hoptional]
    | nullDefault homitted hdefault =>
        rw [bindParameter_omitted ((omits_iff h).mp homitted), bindParameter.fallback, hdefault]
    | default homitted hdefault hnull =>
        rw [bindParameter_omitted ((omits_iff h).mp homitted), fallback_some hdefault hnull]
    | missing homitted hdefault =>
        rw [bindParameter_omitted ((omits_iff h).mp homitted), bindParameter.fallback, hdefault]
  · exact fun hbound => hbound ▸ resolves_bindParameter h

/-- An argument is missing exactly where it is omitted and there is no default. -/
theorem resolves_missingArgument_iff {position : Nat} {parameter : Parameter} :
    (∃ called name, Resolves services objects procedure arguments position parameter
      (.error (.missingArgument called name))) ↔
      Omits arguments position parameter ∧ parameter.defaultValue = none := by
  -- What is read or not is never missing, so only one of the cases is left.
  have hread : ∀ {v called name}, decode services objects (argumentContext procedure parameter)
      parameter.ty v ≠ .error (.missingArgument called name) := by
    intro v called name h
    rcases (blames_of_decode _ v h).error with ⟨_, _, _, h⟩ | ⟨_, _, h⟩ <;> exact nomatch h
  constructor
  · rintro ⟨called, name, h⟩
    generalize hresult : Except.error (CallError.missingArgument called name) = result at h
    cases h with
    | read _ _ => exact absurd hresult.symm hread
    | null _ _ => exact nomatch hresult
    | nullDefault _ _ => exact nomatch hresult
    | default _ _ _ => exact absurd hresult.symm hread
    | missing homitted hdefault => exact ⟨homitted, hdefault⟩
  · rintro ⟨homitted, hdefault⟩
    exact ⟨_, _, .missing homitted hdefault⟩

/-- Where there is no default and still no error, something is given that can be read. -/
theorem Resolves.exists_decode {position : Nat} {parameter : Parameter} {n : NativeValue}
    (h : Resolves services objects procedure arguments position parameter (.ok n))
    (hdefault : parameter.defaultValue = none) :
    ∃ a ∈ arguments, a.position.toNat = position ∧
      decode services objects (argumentContext procedure parameter) parameter.ty a.value = .ok n := by
  generalize hresult : Except.ok n = result at h
  cases h with
  | read hgiven _ =>
      rcases hgiven with ⟨a, ha, hposition, rfl⟩
      exact ⟨a, ha, hposition, rfl⟩
  | null hgiven hoptional =>
      rcases hgiven with ⟨a, ha, hposition, hvalue⟩
      refine ⟨a, ha, hposition, ?_⟩
      rw [hvalue]
      generalize parameter.ty = ty at hoptional
      cases ty <;> cases hoptional
      rw [decode]
  | nullDefault _ hsome => exact nomatch hdefault.symm.trans hsome
  | default _ hsome _ => exact nomatch hdefault.symm.trans hsome
  | missing _ _ => exact nomatch hresult

/-! ## Misplaced arguments -/

/-- What is reported for an argument at a position that is no parameter's or that is
    taken. -/
def misplaced (procedure : String) (parameters position : Nat) : CallError :=
  if parameters ≤ position then
    .typeMismatch procedure ("at most " ++ parameters.repr ++ " arguments")
      ("an argument at position " ++ position.repr)
  else .typeMismatch procedure ("one value at position " ++ position.repr) "several"

theorem misplaced_eq (procedure : String) (parameters position : Nat) :
    ∃ expected actual, misplaced procedure parameters position =
      .typeMismatch procedure expected actual := by
  unfold misplaced
  split <;> exact ⟨_, _, rfl⟩

/-- Whether arguments can be placed is seen from their positions. -/
theorem Places.congr (h : arguments'.map (·.position) = arguments.map (·.position))
    (hplaces : Places parameters arguments) : Places parameters arguments' := by
  refine ⟨fun a ha => ?_, h ▸ hplaces.distinct⟩
  have hposition : a.position ∈ arguments.map (·.position) := h ▸ List.mem_map_of_mem ha
  rcases List.mem_map.mp hposition with ⟨b, hb, heq⟩
  exact heq ▸ hplaces.inRange b hb

/-- Arguments that cannot be placed begin with some that can and one that then cannot. -/
theorem exists_first_misplaced (h : ¬Places parameters arguments) :
    ∃ before a after, arguments = before ++ a :: after ∧ Places parameters before ∧
      ¬Places parameters (before ++ [a]) := by
  induction arguments using List.reverseRecOn with
  | nil => exact absurd ⟨fun _ hmem => absurd hmem List.not_mem_nil, List.nodup_nil⟩ h
  | append_singleton front a ih =>
      by_cases hfront : Places parameters front
      · exact ⟨front, a, [], rfl, hfront, h⟩
      · rcases ih hfront with ⟨before, b, after, hfront, hbefore, hb⟩
        exact ⟨before, b, after ++ [a], by rw [hfront, List.append_assoc]; rfl, hbefore, hb⟩

theorem supply_misplaced {a : Argument} {placed : Table Value}
    (hbefore : Places parameters arguments) (h : ¬Places parameters (arguments ++ [a]))
    (hplaced : ∀ position, Supplied arguments position (placed.get? position)) :
    supply procedure parameters.length placed a =
      .error (misplaced procedure parameters.length a.position.toNat) := by
  rw [supply, misplaced]
  by_cases hrange : parameters.length ≤ a.position.toNat
  · simp only [if_pos hrange]
  · -- The position is some parameter's, so it is one that is taken.
    have htaken : placed.contains a.position.toNat = true := by
      refine Decidable.byContradiction fun hfree => h ⟨?_, ?_⟩
      · refine List.forall_mem_append.mpr ⟨hbefore.inRange, ?_⟩
        exact List.forall_mem_singleton.mpr (Nat.not_le.mp hrange)
      · rw [List.map_append, List.map_singleton, List.nodup_append]
        refine ⟨hbefore.distinct, List.pairwise_singleton _ _, ?_⟩
        intro position hmem other hother heq
        rw [List.mem_singleton.mp hother] at heq
        rcases List.mem_map.mp (heq ▸ hmem) with ⟨b, hb, hposition⟩
        refine hfree ?_
        have hfound : placed.get? a.position.toNat = some b.value :=
          (hplaced _ _).mpr ⟨b, hb, congrArg _ hposition, rfl⟩
        exact Table.contains_iff.mpr ⟨_, hfound⟩
    simp only [if_neg hrange, htaken, if_true]

/-- Of arguments that cannot be placed one is reported, and the same for any values at
    the same positions. -/
theorem bindArguments_misplaced (h : ¬Places parameters arguments) :
    ∃ expected actual, ∀ services objects arguments',
      arguments'.map (·.position) = arguments.map (·.position) →
        bindArguments services objects procedure parameters arguments' =
          .error (.typeMismatch procedure expected actual) := by
  rcases exists_first_misplaced h with ⟨before, a, after, rfl, hbefore, ha⟩
  rcases misplaced_eq procedure parameters.length a.position.toNat with ⟨expected, actual, herror⟩
  refine ⟨expected, actual, fun services objects arguments' hpositions => ?_⟩
  rw [List.map_append, List.map_cons, List.map_eq_append_iff] at hpositions
  rcases hpositions with ⟨before', others', rfl, hbefore', hothers'⟩
  rcases List.map_eq_cons_iff.mp hothers' with ⟨a', after', rfl, hposition, -⟩
  have hplaces' : Places parameters before' := hbefore.congr hbefore'
  have ha' : ¬Places parameters (before' ++ [a']) := by
    refine fun hplaces => ha (hplaces.congr ?_)
    rw [List.map_append, List.map_append, List.map_singleton, List.map_singleton, hbefore',
      hposition]
  rcases @exists_placed procedure parameters before' hplaces' with ⟨placed, hplaced, hsupplied⟩
  have hstopped := @supply_misplaced procedure _ _ _ _ hplaces' ha' hsupplied
  rw [hposition, herror] at hstopped
  have hfold : (before' ++ a' :: after').foldlM (supply procedure parameters.length) {} =
      .error (.typeMismatch procedure expected actual) := by
    rw [List.foldlM_append, hplaced]
    exact congrArg (· >>= after'.foldlM (supply procedure parameters.length)) hstopped
  rw [bindArguments, hfold]
  rfl

/-! ## All parameters -/

/-- Arguments that can be placed are bound parameter by parameter. -/
theorem exists_bind (services : Services) (objects : ObjectTable) (procedure : String)
    (h : Places parameters arguments) :
    ∃ bind : Parameter × Nat → Except CallError NativeValue,
      bindArguments services objects procedure parameters arguments =
        parameters.zipIdx.mapM bind ∧
      ∀ position parameter result,
        Resolves services objects procedure arguments position parameter result ↔
          bind (parameter, position) = result := by
  rcases @exists_placed procedure _ _ h with ⟨placed, hplaced, hsupplied⟩
  refine ⟨fun row => bindParameter services objects procedure row.1 (placed.get? row.2), ?_,
    fun position _ _ => resolves_iff_bindParameter (hsupplied position)⟩
  rw [bindArguments, hplaced]
  rfl

/-- Arguments that can be placed settle each parameter in exactly one way. -/
theorem existsUnique_resolves (h : Places parameters arguments) (position : Nat)
    (parameter : Parameter) :
    ∃! result, Resolves services objects procedure arguments position parameter result := by
  rcases exists_bind services objects procedure h with ⟨bind, -, hbind⟩
  refine ⟨bind (parameter, position), (hbind _ _ _).mpr rfl, fun result hresult => ?_⟩
  exact ((hbind _ _ _).mp hresult).symm

/-- What is bound could be placed. -/
theorem places_of_bindArguments {bound : List NativeValue}
    (h : bindArguments services objects procedure parameters arguments = .ok bound) :
    Places parameters arguments := by
  refine Classical.byContradiction fun hmisplaced => ?_
  rcases @bindArguments_misplaced procedure _ _ hmisplaced with ⟨_, _, herror⟩
  exact nomatch h.symm.trans (herror services objects arguments rfl)

/-- Arguments are bound if they can be placed and every parameter comes to a value. -/
theorem exists_bound_iff :
    (∃ bound, bindArguments services objects procedure parameters arguments = .ok bound) ↔
      Places parameters arguments ∧
        ∀ position parameter, parameters[position]? = some parameter →
          ∃ n, Resolves services objects procedure arguments position parameter (.ok n) := by
  constructor
  · rintro ⟨bound, hbound⟩
    have hplaces := places_of_bindArguments hbound
    rcases exists_bind services objects procedure hplaces with ⟨bind, heq, hbind⟩
    refine ⟨hplaces, fun position parameter hparameter => ?_⟩
    have hrow := List.mk_mem_zipIdx_iff_getElem?.mpr hparameter
    exact (exists_mapM_iff.mp ⟨bound, heq ▸ hbound⟩ _ hrow).imp fun n => (hbind _ _ _).mpr
  · rintro ⟨hplaces, hresolves⟩
    rcases exists_bind services objects procedure hplaces with ⟨bind, heq, hbind⟩
    rw [heq, exists_mapM_iff]
    intro row hrow
    exact (hresolves _ _ (List.mk_mem_zipIdx_iff_getElem?.mp hrow)).imp fun n => (hbind _ _ _).mp

/-- There is one result for each parameter, in the order of the parameters. -/
theorem resolves_of_bindArguments {bound : List NativeValue}
    (h : bindArguments services objects procedure parameters arguments = .ok bound) :
    bound.length = parameters.length ∧
      ∀ position parameter, parameters[position]? = some parameter →
        ∃ n, bound[position]? = some n ∧
          Resolves services objects procedure arguments position parameter (.ok n) := by
  rcases exists_bind services objects procedure (places_of_bindArguments h) with ⟨bind, heq, hbind⟩
  rcases getElem?_of_mapM (heq ▸ h) with ⟨hlength, heach⟩
  refine ⟨hlength.trans List.length_zipIdx, fun position parameter hparameter => ?_⟩
  rcases heach position _ (getElem?_zipIdx_eq_some_iff.mpr ⟨hparameter, rfl⟩) with ⟨n, hn, hrow⟩
  exact ⟨n, hn, (hbind _ _ _).mpr hrow⟩

/-- The error is that of the first parameter which comes to one. -/
theorem bindArguments_eq_error_iff {e : CallError} (hplaces : Places parameters arguments) :
    bindArguments services objects procedure parameters arguments = .error e ↔
      ∃ position parameter, parameters[position]? = some parameter ∧
        Resolves services objects procedure arguments position parameter (.error e) ∧
        ∀ before < position, ∀ earlier, parameters[before]? = some earlier →
          ∃ n, Resolves services objects procedure arguments before earlier (.ok n) := by
  rcases exists_bind services objects procedure hplaces with ⟨bind, heq, hbind⟩
  rw [heq, mapM_eq_error_iff]
  constructor
  · rintro ⟨position, ⟨parameter, _⟩, hrow, herror, hearlier⟩
    rcases getElem?_zipIdx_eq_some_iff.mp hrow with ⟨hparameter, rfl⟩
    refine ⟨_, parameter, hparameter, (hbind _ _ _).mpr herror, fun before hbefore earlier h => ?_⟩
    have hearlierRow := getElem?_zipIdx_eq_some_iff.mpr ⟨h, rfl⟩
    exact (hearlier before hbefore _ hearlierRow).imp fun n => (hbind _ _ _).mpr
  · rintro ⟨position, parameter, hparameter, herror, hearlier⟩
    refine ⟨position, (parameter, position), getElem?_zipIdx_eq_some_iff.mpr ⟨hparameter, rfl⟩,
      (hbind _ _ _).mp herror, fun before hbefore ⟨earlier, _⟩ hrow => ?_⟩
    rcases getElem?_zipIdx_eq_some_iff.mp hrow with ⟨hearlierRow, rfl⟩
    exact (hearlier _ hbefore earlier hearlierRow).imp fun n => (hbind _ _ _).mp

/-! ## The order and the number of arguments -/

theorem Places.perm (h : arguments.Perm arguments') (hplaces : Places parameters arguments) :
    Places parameters arguments' :=
  ⟨fun a ha => hplaces.inRange a (h.mem_iff.mpr ha),
    (h.map (·.position)).nodup_iff.mp hplaces.distinct⟩

/-- What one list of arguments supplies another supplies that has the same arguments. -/
theorem supplied_unique {position : Nat} {supplied supplied' : Option Value}
    (h : ∀ a, a ∈ arguments ↔ a ∈ arguments') (hsupplied : Supplied arguments position supplied)
    (hsupplied' : Supplied arguments' position supplied') : supplied = supplied' := by
  refine Option.ext fun v => (hsupplied v).trans (Iff.trans ?_ (hsupplied' v).symm)
  exact exists_congr fun a => and_congr_left' (h a)

theorem bindArguments_perm (hplaces : Places parameters arguments)
    (h : arguments.Perm arguments') :
    bindArguments services objects procedure parameters arguments =
      bindArguments services objects procedure parameters arguments' := by
  rcases @exists_placed procedure _ _ hplaces with ⟨placed, hplaced, hsupplied⟩
  rcases @exists_placed procedure _ _ (hplaces.perm h) with ⟨placed', hplaced', hsupplied'⟩
  have hsame : placed.get? = placed'.get? := by
    funext position
    exact supplied_unique (fun a => h.mem_iff) (hsupplied position) (hsupplied' position)
  rw [bindArguments, hplaced, bindArguments, hplaced']
  exact congrArg (fun found : Nat → Option Value => parameters.zipIdx.mapM fun row =>
    bindParameter services objects procedure row.1 (found row.2)) hsame

/-- What is bound to a single parameter without a default is the only argument there is. -/
theorem bindArguments_one {parameter : Parameter} {bound : List NativeValue}
    (hdefault : parameter.defaultValue = none)
    (h : bindArguments services objects procedure [parameter] arguments = .ok bound) :
    ∃ w n, arguments = [⟨0, w⟩] ∧ bound = [n] ∧
      decode services objects (argumentContext procedure parameter) parameter.ty w = .ok n := by
  have hplaces := places_of_bindArguments h
  rcases resolves_of_bindArguments h with ⟨hlength, heach⟩
  rcases heach 0 parameter rfl with ⟨n, hn, hresolves⟩
  rcases hresolves.exists_decode hdefault with ⟨⟨position, w⟩, ha, hposition, hread⟩
  obtain rfl : position = 0 := UInt32.toNat_inj.mp hposition
  have honly : ∀ a, a ∈ arguments ↔ a ∈ [(⟨0, w⟩ : Argument)] := by
    intro a
    rw [List.mem_singleton]
    refine ⟨fun hmem => ?_, fun heq => heq ▸ ha⟩
    have hfirst : a.position.toNat = 0 := Nat.lt_one_iff.mp (hplaces.inRange a hmem)
    exact List.inj_on_of_nodup_map hplaces.distinct hmem ha (UInt32.toNat_inj.mp hfirst)
  have hperm := (List.perm_ext_iff_of_nodup hplaces.distinct.of_map
    (List.nodup_singleton _)).mpr honly
  refine ⟨w, n, List.perm_singleton.mp hperm, ?_, hread⟩
  rcases List.length_eq_one_iff.mp hlength with ⟨x, rfl⟩
  rw [Option.some.inj hn]

/-- What can be placed for two parameters is one argument for each, in either order. -/
theorem Places.perm_pair {first second : Parameter} {a b : Argument}
    (h : Places [first, second] arguments) (ha : a ∈ arguments) (hb : b ∈ arguments)
    (hfirst : a.position.toNat = 0) (hsecond : b.position.toNat = 1) :
    arguments.Perm [a, b] := by
  have hnodup : [a, b].Nodup := by
    refine List.nodup_cons.mpr ⟨fun hsame => ?_, List.nodup_singleton b⟩
    rw [List.mem_singleton.mp hsame, hsecond] at hfirst
    exact Nat.one_ne_zero hfirst
  have hsame : ∀ {c d}, c ∈ arguments → d ∈ arguments → c.position.toNat = d.position.toNat →
      c = d := fun hc hd hposition =>
    List.inj_on_of_nodup_map h.distinct hc hd (UInt32.toNat_inj.mp hposition)
  refine (List.perm_ext_iff_of_nodup h.distinct.of_map hnodup).mpr fun c => ?_
  rw [List.mem_pair]
  refine ⟨fun hc => ?_, ?_⟩
  · have hrange : c.position.toNat < 2 := h.inRange c hc
    have hposition : c.position.toNat = 0 ∨ c.position.toNat = 1 := by omega
    exact hposition.imp (fun h0 => hsame hc ha (h0.trans hfirst.symm))
      fun h1 => hsame hc hb (h1.trans hsecond.symm)
  · rintro (rfl | rfl) <;> assumption

/-- Two parameters without a default are bound if one value is given for each and can be read
    there. -/
theorem bindArguments_pair_iff {first second : Parameter} (hfirst : first.defaultValue = none)
    (hsecond : second.defaultValue = none) {bound : List NativeValue} :
    bindArguments services objects procedure [first, second] arguments = .ok bound ↔
      ∃ w w' n n', arguments.Perm [⟨0, w⟩, ⟨1, w'⟩] ∧
        decode services objects (argumentContext procedure first) first.ty w = .ok n ∧
        decode services objects (argumentContext procedure second) second.ty w' = .ok n' ∧
        bound = [n, n'] := by
  constructor
  · intro h
    rcases resolves_of_bindArguments h with ⟨hlength, heach⟩
    rcases heach 0 first rfl with ⟨n, hn, hresolves⟩
    rcases heach 1 second rfl with ⟨n', hn', hresolves'⟩
    rcases hresolves.exists_decode hfirst with ⟨⟨position, w⟩, ha, hposition, hread⟩
    rcases hresolves'.exists_decode hsecond with ⟨⟨position', w'⟩, hb, hposition', hread'⟩
    obtain rfl : position = 0 := UInt32.toNat_inj.mp hposition
    obtain rfl : position' = 1 := UInt32.toNat_inj.mp hposition'
    refine ⟨w, w', n, n', (places_of_bindArguments h).perm_pair ha hb rfl rfl, hread, hread', ?_⟩
    rcases List.length_eq_two.mp hlength with ⟨x, y, rfl⟩
    rw [Option.some.inj hn, Option.some.inj hn']
  · rintro ⟨w, w', n, n', hperm, hread, hread', rfl⟩
    have hsupply : [(⟨0, w⟩ : Argument), ⟨1, w'⟩].foldlM (supply procedure 2) {} =
        .ok ((({} : Table Value).insert 0 w).insert 1 w') := rfl
    have hbound : bindArguments services objects procedure [first, second] [⟨0, w⟩, ⟨1, w'⟩] =
        .ok [n, n'] := by
      rw [bindArguments, List.length_cons, List.length_singleton, hsupply]
      change (do
        let bound ← bindParameter services objects procedure first (some w)
        let bound' ← bindParameter services objects procedure second (some w')
        return [bound, bound']) = _
      rw [bindParameter_supplied hread, bindParameter_supplied hread']
      rfl
    have hplaces := places_of_bindArguments hbound
    rw [bindArguments_perm (hplaces.perm hperm.symm) hperm]
    exact hbound

/-- Where the parameters without a default are. -/
def Procedure.requiredPositions (p : Procedure) : List Nat :=
  (p.parameters.zipIdx.filter fun row => row.1.defaultValue.isNone).map Prod.snd

theorem Procedure.mem_requiredPositions {p : Procedure} {position : Nat} :
    position ∈ p.requiredPositions ↔
      ∃ parameter, p.parameters[position]? = some parameter ∧ parameter.defaultValue = none := by
  simp only [requiredPositions, List.mem_map, List.mem_filter, Option.isNone_iff_eq_none,
    Prod.exists, List.mk_mem_zipIdx_iff_getElem?, exists_eq_right]

theorem Procedure.nodup_requiredPositions (p : Procedure) : p.requiredPositions.Nodup := by
  have hall := List.nodup_range' (s := 0) (n := p.parameters.length)
  rw [← List.zipIdx_map_snd] at hall
  exact hall.sublist (List.filter_sublist.map _)

theorem Procedure.length_requiredPositions (p : Procedure) :
    p.requiredPositions.length = p.required := by
  rw [requiredPositions, List.length_map, ← List.countP_eq_length_filter, required]
  nth_rewrite 2 [← List.zipIdx_map_fst 0 p.parameters]
  rw [List.countP_map]
  rfl

/-- The parameters without a default need an argument each, and no argument does for
    two of them. -/
theorem required_le {procedure : Procedure}
    (h : ∀ position ∈ procedure.requiredPositions, ∃ a ∈ arguments, a.position.toNat = position) :
    procedure.required ≤ arguments.length := by
  have hsubset : procedure.requiredPositions ⊆ arguments.map (·.position.toNat) :=
    fun position hposition => List.mem_map.mpr (h position hposition)
  have hle := (List.subperm_of_subset procedure.nodup_requiredPositions hsubset).length_le
  rwa [procedure.length_requiredPositions, List.length_map] at hle

theorem bindArguments_of_lt_required {procedure : Procedure} {name : String}
    (h : arguments.length < procedure.required) :
    ∃ e, bindArguments services objects name procedure.parameters arguments = .error e := by
  cases hbound : bindArguments services objects name procedure.parameters arguments with
  | error e => exact ⟨e, rfl⟩
  | ok bound =>
      have hle : procedure.required ≤ arguments.length := by
        refine required_le fun position hposition => ?_
        rcases Procedure.mem_requiredPositions.mp hposition with ⟨parameter, hparameter, hdefault⟩
        rcases (resolves_of_bindArguments hbound).2 position parameter hparameter with ⟨n, _, hn⟩
        exact (hn.exists_decode hdefault).imp fun _ ha => ⟨ha.1, ha.2.1⟩
      exact absurd h (Nat.not_lt.mpr hle)

/-- Binding is as its cases say. It succeeds exactly if the arguments can be placed and
    every parameter comes to a value, and then those are the values, one for each
    parameter in declaration order. Arguments that cannot be placed are a misfit, the
    same for all values at these positions. Otherwise each parameter is settled in one
    way, the error is that of the first which comes to one, and an argument is missing
    exactly where there is no default to take. So the order of arguments that can be
    placed does not matter, and with fewer arguments than are required there is always
    an error. -/
theorem binds_as_specified (services : Services) (objects : ObjectTable) (name : String)
    (procedure : Procedure) (arguments : List Argument) :
    ((∃ bound, bindArguments services objects name procedure.parameters arguments = .ok bound) ↔
      Places procedure.parameters arguments ∧
        ∀ position parameter, procedure.parameters[position]? = some parameter →
          ∃ n, Resolves services objects name arguments position parameter (.ok n)) ∧
    (∀ bound, bindArguments services objects name procedure.parameters arguments = .ok bound →
      bound.length = procedure.parameters.length ∧
        ∀ position parameter, procedure.parameters[position]? = some parameter →
          ∃ n, bound[position]? = some n ∧
            Resolves services objects name arguments position parameter (.ok n)) ∧
    (¬Places procedure.parameters arguments →
      ∃ expected actual, ∀ services objects arguments',
        arguments'.map (·.position) = arguments.map (·.position) →
          bindArguments services objects name procedure.parameters arguments' =
            .error (.typeMismatch name expected actual)) ∧
    (Places procedure.parameters arguments →
      (∀ position parameter, ∃! result,
        Resolves services objects name arguments position parameter result) ∧
      (∀ e, bindArguments services objects name procedure.parameters arguments = .error e ↔
        ∃ position parameter, procedure.parameters[position]? = some parameter ∧
          Resolves services objects name arguments position parameter (.error e) ∧
          ∀ before < position, ∀ earlier, procedure.parameters[before]? = some earlier →
            ∃ n, Resolves services objects name arguments before earlier (.ok n)) ∧
      (∀ position parameter, (∃ called missing,
          Resolves services objects name arguments position parameter
            (.error (.missingArgument called missing))) ↔
        Omits arguments position parameter ∧ parameter.defaultValue = none) ∧
      ∀ arguments', arguments.Perm arguments' →
        bindArguments services objects name procedure.parameters arguments =
          bindArguments services objects name procedure.parameters arguments') ∧
    (arguments.length < procedure.required →
      ∃ e, bindArguments services objects name procedure.parameters arguments = .error e) :=
  ⟨exists_bound_iff, fun _ => resolves_of_bindArguments, bindArguments_misplaced,
    fun hplaces => ⟨existsUnique_resolves hplaces, fun _ => bindArguments_eq_error_iff hplaces,
      fun _ _ => resolves_missingArgument_iff, fun _ => bindArguments_perm hplaces⟩,
    bindArguments_of_lt_required⟩

end Switchboard
