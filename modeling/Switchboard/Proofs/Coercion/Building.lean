import Switchboard.Proofs.Coercion.Arguments

/-!
# Building Calls

A caller puts a call together one argument after the other, each at the next position or
at a position of its own. There are two builders, one for what a client sends and one for
what the server dispatches, and both do the same to the arguments.

The next position is the least one past all that are in use, and there is one as long as
the last position is free. After that an appended argument shares the last position with
the one that has it. The same position can also be given twice by hand. None of this is
lost on the way: each addition stays an argument of its own, and arguments that share a
position are refused when they are bound. With no more parameters than there are positions
but one, the last position is refused in any case, since no parameter has it.

## Main definitions

* `Addition`: One step in building a call.
* `ProcedureCall.build`, `Call.build`: A chain of additions to an empty call.
* `added`: The arguments that a chain comes to.
* `Shares`: Coming to share a position.
* `Built`: What is true of them.

## Theorems

* `nextPosition_le_iff`: The next position is the least past all in use.
* `ProcedureCall.build_eq`, `Call.build_eq`: Both builders add the same arguments.
* `getElem?_added`: What each addition of a chain comes to.
* `added_plain`: Arguments that are all appended.
* `distinct_added_iff`: Arguments share a position in two ways only.
* `builds_apart`: All of this, for every chain.
-/

namespace Switchboard

/-- The last position there is. -/
def lastPosition : UInt32 := 0xFFFFFFFF

/-! ## The next position -/

theorem le_lastPosition (p : UInt32) : p ≤ lastPosition :=
  UInt32.le_iff_toNat_le.mpr (Nat.le_of_lt_succ p.toNat_lt)

theorem lt_lastPosition {p : UInt32} (h : p ≠ lastPosition) : p < lastPosition :=
  UInt32.lt_of_le_of_ne (le_lastPosition p) h

theorem toNat_positionAfter (p : UInt32) :
    (positionAfter p).toNat = min (p.toNat + 1) 4294967295 := by
  unfold positionAfter
  split
  next hlast =>
    rw [hlast]
    rfl
  next hbefore =>
    have hlt := UInt32.lt_iff_toNat_lt.mp (lt_lastPosition hbefore)
    have hmost : lastPosition.toNat = 4294967295 := rfl
    have hone : (1 : UInt32).toNat = 1 := rfl
    rw [UInt32.toNat_add]
    omega

theorem le_positionAfter (p : UInt32) : p ≤ positionAfter p := by
  have hlt := p.toNat_lt
  rw [UInt32.le_iff_toNat_le, toNat_positionAfter]
  omega

/-- What follows a position is the least position past it, or the last. -/
theorem positionAfter_le_iff {p q : UInt32} :
    positionAfter p ≤ q ↔ p < q ∨ q = lastPosition := by
  have hp := p.toNat_lt
  have hq := q.toNat_lt
  have hmost : lastPosition.toNat = 4294967295 := rfl
  rw [UInt32.le_iff_toNat_le, toNat_positionAfter, UInt32.lt_iff_toNat_lt, ← UInt32.toNat_inj]
  omega

theorem max_le_iff_le (p p' q : UInt32) : max p p' ≤ q ↔ p ≤ q ∧ p' ≤ q := by
  change (if p ≤ p' then p' else p) ≤ q ↔ _
  split <;> simp only [UInt32.le_iff_toNat_le] at * <;> omega

variable {arguments : List Argument}

/-- The next position is the least one past all that are in use, as far as there is one. -/
theorem nextPosition_le_iff {q : UInt32} :
    nextPosition arguments ≤ q ↔ ∀ a ∈ arguments, a.position < q ∨ q = lastPosition := by
  -- The best so far changes along the list, so the induction is for any.
  have hfold : ∀ best,
      arguments.foldl (fun best a => max best (positionAfter a.position)) best ≤ q ↔
        best ≤ q ∧ ∀ a ∈ arguments, a.position < q ∨ q = lastPosition := by
    induction arguments with
    | nil => exact fun best => (and_iff_left (List.forall_mem_nil _)).symm
    | cons a rest ih =>
        intro best
        rw [List.foldl_cons, ih, max_le_iff_le, positionAfter_le_iff, List.forall_mem_cons,
          and_assoc]
  exact (hfold 0).trans (and_iff_right (UInt32.zero_le ..))

/-- Once the last position is in use the next one is the last. -/
theorem nextPosition_of_last (h : ∃ a ∈ arguments, a.position = lastPosition) :
    nextPosition arguments = lastPosition := by
  rcases h with ⟨a, ha, hposition⟩
  rcases nextPosition_le_iff.mp (UInt32.le_refl (nextPosition arguments)) a ha with hlt | hlast
  · rw [hposition] at hlt
    exact absurd (UInt32.lt_of_lt_of_le hlt (le_lastPosition _)) (UInt32.lt_irrefl _)
  · exact hlast

/-- Until then the next position is past all that are in use. -/
theorem lt_nextPosition (h : ∀ a ∈ arguments, a.position ≠ lastPosition) :
    ∀ a ∈ arguments, a.position < nextPosition arguments := by
  intro a ha
  rcases nextPosition_le_iff.mp (UInt32.le_refl (nextPosition arguments)) a ha with hlt | hlast
  · exact hlt
  · rw [hlast]
    exact lt_lastPosition (h a ha)

theorem nextPosition_append (value : Value) :
    nextPosition (appendArgument arguments value) = positionAfter (nextPosition arguments) := by
  rw [appendArgument, nextPosition, List.foldl_append]
  exact if_pos (le_positionAfter _)

/-! ## Chains of additions -/

/-- One step in building a call. -/
inductive Addition where
  /-- A value at the next position. -/
  | arg (value : Value)
  /-- A value at a position of its own. -/
  | argAt (position : UInt32) (value : Value)

/-- The argument that an addition comes to after others. -/
def Addition.argument (arguments : List Argument) : Addition → Argument
  | .arg value => ⟨nextPosition arguments, value⟩
  | .argAt position value => ⟨position, value⟩

/-- A client's call with one argument more. -/
def ProcedureCall.add (call : ProcedureCall) : Addition → ProcedureCall
  | .arg value => call.arg value
  | .argAt position value => call.argAt position value

/-- A call with one argument more. -/
def Call.add (call : Call) : Addition → Call
  | .arg value => call.arg value
  | .argAt position value => call.argAt position value

/-- A client's call, built from nothing by a chain of additions. -/
def ProcedureCall.build (service procedure : String) (chain : List Addition) : ProcedureCall :=
  chain.foldl ProcedureCall.add (.bare service procedure)

/-- A call, built from nothing by a chain of additions. -/
def Call.build (ctx : CallContext) (procedure : String) (chain : List Addition) : Call :=
  chain.foldl Call.add (.bare ctx procedure)

/-- The arguments that a chain comes to. -/
def added (chain : List Addition) : List Argument :=
  chain.foldl (fun arguments x => arguments ++ [x.argument arguments]) []

variable {chain : List Addition}

theorem added_concat (chain : List Addition) (x : Addition) :
    added (chain ++ [x]) = added chain ++ [x.argument (added chain)] := by
  rw [added, List.foldl_concat]
  rfl

theorem ProcedureCall.build_eq (service procedure : String) (chain : List Addition) :
    ProcedureCall.build service procedure chain = ⟨service, procedure, added chain⟩ := by
  induction chain using List.reverseRecOn with
  | nil => rfl
  | append_singleton front x ih =>
      rw [ProcedureCall.build] at ih ⊢
      rw [List.foldl_concat, ih, added_concat]
      cases x <;> rfl

theorem Call.build_eq (ctx : CallContext) (procedure : String) (chain : List Addition) :
    Call.build ctx procedure chain = ⟨ctx, procedure, added chain⟩ := by
  induction chain using List.reverseRecOn with
  | nil => rfl
  | append_singleton front x ih =>
      rw [Call.build] at ih ⊢
      rw [List.foldl_concat, ih, added_concat]
      cases x <;> rfl

theorem length_added (chain : List Addition) : (added chain).length = chain.length := by
  induction chain using List.reverseRecOn with
  | nil => rfl
  | append_singleton front x ih =>
      rw [added_concat, List.length_append, List.length_append, ih]
      rfl

/-- Later additions leave the arguments there are as they are. -/
theorem added_prefix (front rest : List Addition) : added front <+: added (front ++ rest) := by
  induction rest using List.reverseRecOn with
  | nil => exact (List.append_nil front).symm ▸ List.prefix_rfl
  | append_singleton rest x ih =>
      rw [← List.append_assoc, added_concat]
      exact ih.trans (List.prefix_append ..)

theorem take_added (chain : List Addition) (k : Nat) :
    (added chain).take k = added (chain.take k) := by
  by_cases hk : k ≤ chain.length
  · have hprefix := added_prefix (chain.take k) (chain.drop k)
    rw [List.take_append_drop] at hprefix
    have hlength : (added (chain.take k)).length = k := by
      rw [length_added, List.length_take_of_le hk]
    rw [List.prefix_iff_eq_take.mp hprefix, hlength]
  · have hle := Nat.le_of_not_le hk
    rw [List.take_of_length_le hle, List.take_of_length_le ((length_added chain).symm ▸ hle)]

/-- Each addition of a chain comes to an argument, after those before it. -/
theorem getElem?_added {k : Nat} {x : Addition} (h : chain[k]? = some x) :
    (added chain)[k]? = some (x.argument ((added chain).take k)) := by
  have htake : chain.take (k + 1) = chain.take k ++ [x] := by
    rw [List.take_add_one, h]
    rfl
  have hlength : (added (chain.take k)).length = k := by
    rw [length_added, List.length_take_of_le (Nat.le_of_lt (List.getElem?_eq_some_iff.mp h).1)]
  have hfirst : (added chain)[k]? = ((added chain).take (k + 1))[k]? :=
    (List.getElem?_take_of_lt (Nat.lt_succ_self k)).symm
  rw [hfirst, take_added, htake, added_concat, take_added]
  rw [List.getElem?_append_right (Nat.le_of_eq hlength), hlength, Nat.sub_self]
  rfl

/-! ## Arguments that are all appended -/

theorem toNat_nextPosition_plain (values : List Value) :
    (nextPosition (added (values.map .arg))).toNat = min values.length 4294967295 := by
  induction values using List.reverseRecOn with
  | nil => rfl
  | append_singleton front v ih =>
      rw [List.map_append, List.map_singleton, added_concat]
      change (nextPosition (appendArgument (added (front.map .arg)) v)).toNat = _
      rw [nextPosition_append, toNat_positionAfter, ih, List.length_append, List.length_singleton]
      omega

/-- Appended arguments count up from zero until they reach the last position. -/
theorem added_plain (values : List Value) :
    added (values.map .arg) =
      values.zipIdx.map fun row => ⟨UInt32.ofNat (min row.2 4294967295), row.1⟩ := by
  induction values using List.reverseRecOn with
  | nil => rfl
  | append_singleton front v ih =>
      rw [List.map_append, List.map_singleton, added_concat, List.zipIdx_append, List.map_append,
        ← ih, Nat.zero_add, List.zipIdx_singleton, List.map_singleton,
        ← toNat_nextPosition_plain front, UInt32.ofNat_toNat]
      rfl

/-- As many as there are positions have the first ones. -/
theorem positions_added_plain {values : List Value} (h : values.length ≤ 4294967296) :
    (added (values.map .arg)).map (·.position.toNat) = List.range values.length := by
  rw [added_plain, List.map_map, List.range_eq_range', ← List.zipIdx_map_snd 0 values]
  refine List.map_congr_left fun row hrow => ?_
  have hlt : row.2 < values.length := List.snd_lt_of_mem_zipIdx hrow
  have hfits : min row.2 4294967295 < 4294967296 := by omega
  rw [Function.comp_apply, UInt32.toNat_ofNat_of_lt' hfits]
  omega

/-! ## Shared positions -/

/-- How an addition of a chain comes to share the position of an argument before it. -/
inductive Shares (chain : List Addition) (arguments : List Argument) (k : Nat) : Prop
  /-- It is appended after the last position. -/
  | saturated {value : Value} (h : chain[k]? = some (.arg value))
      (hlast : ∃ a ∈ arguments.take k, a.position = lastPosition)
  /-- It has a position of its own that is in use. -/
  | taken {position : UInt32} {value : Value} (h : chain[k]? = some (.argAt position value))
      (hused : ∃ a ∈ arguments.take k, a.position = position)

theorem distinct_iff : (arguments.map (·.position)).Nodup ↔
    ∀ k a, arguments[k]? = some a → ∀ b ∈ arguments.take k, b.position ≠ a.position := by
  rw [List.Nodup, List.pairwise_map, List.pairwise_iff_getElem]
  constructor
  · intro h k a ha b hb
    rcases List.getElem?_eq_some_iff.mp ha with ⟨hk, rfl⟩
    rcases List.mem_take_iff_getElem.mp hb with ⟨j, hj, rfl⟩
    exact h j k _ hk (Nat.lt_of_lt_of_le hj (Nat.min_le_left ..))
  · intro h j k hj hk hlt
    refine h k _ (List.getElem?_eq_getElem hk) _ (List.mem_take_iff_getElem.mpr ?_)
    exact ⟨j, Nat.lt_min.mpr ⟨hlt, hj⟩, rfl⟩

/-- There is no other way for two arguments to share a position. -/
theorem distinct_added_iff (chain : List Addition) :
    ((added chain).map (·.position)).Nodup ↔ ∀ k, ¬Shares chain (added chain) k := by
  rw [distinct_iff]
  constructor
  · intro h k hshares
    cases hshares with
    | saturated hk hlast =>
        rcases hlast with ⟨b, hb, hposition⟩
        have hnext := nextPosition_of_last ⟨b, hb, hposition⟩
        exact h k _ (getElem?_added hk) b hb (hposition.trans hnext.symm)
    | taken hk hused =>
        rcases hused with ⟨b, hb, hposition⟩
        exact h k _ (getElem?_added hk) b hb hposition
  · -- What is at a position in use was given it, or appended when the last one was in use.
    intro h k a ha b hb heq
    have hk : k < chain.length := length_added chain ▸ (List.getElem?_eq_some_iff.mp ha).1
    have hx := List.getElem?_eq_getElem hk
    obtain rfl := Option.some.inj ((getElem?_added hx).symm.trans ha)
    cases hchain : chain[k] with
    | arg value =>
        rw [hchain] at hx heq
        refine h k (.saturated hx (Classical.byContradiction fun hfree => ?_))
        have hlt := lt_nextPosition (fun a ha hlast => hfree ⟨a, ha, hlast⟩) b hb
        exact UInt32.ne_of_lt hlt heq
    | argAt position value =>
        rw [hchain] at hx heq
        exact h k (.taken hx ⟨b, hb, heq⟩)

/-- What is true of the arguments that a chain comes to. -/
structure Built (chain : List Addition) (arguments : List Argument) : Prop where
  /-- Each addition stays an argument of its own. -/
  length : arguments.length = chain.length
  /-- One with a position of its own keeps it. -/
  kept : ∀ (k : Nat) (position : UInt32) (value : Value),
    chain[k]? = some (.argAt position value) → arguments[k]? = some ⟨position, value⟩
  /-- One that is appended goes past all before it. If the last position is among these it
      has that one, and otherwise it has the least that is left. -/
  appended : ∀ (k : Nat) (value : Value), chain[k]? = some (.arg value) →
    ∃ position, arguments[k]? = some ⟨position, value⟩ ∧
      ((∃ a ∈ arguments.take k, a.position = lastPosition) → position = lastPosition) ∧
      ((∀ a ∈ arguments.take k, a.position ≠ lastPosition) →
        (∀ a ∈ arguments.take k, a.position < position) ∧
        ∀ q, (∀ a ∈ arguments.take k, a.position < q) → position ≤ q)
  /-- There are two ways to share a position. -/
  distinct : (arguments.map (·.position)).Nodup ↔ ∀ k, ¬Shares chain arguments k
  /-- Giving the same position twice is one of them. -/
  repeated : ∀ (j k : Nat) (position : UInt32) (v v' : Value), j < k →
    chain[j]? = some (.argAt position v) → chain[k]? = some (.argAt position v') →
      Shares chain arguments k
  /-- What shares a position is refused, and what no parameter can have is as well. -/
  refused : ∀ services objects name (procedure : Procedure),
    (∃ k, Shares chain arguments k) ∨
        procedure.parameters.length ≤ 4294967295 ∧
          (∃ a ∈ arguments, a.position = lastPosition) →
      ∃ expected actual, bindArguments services objects name procedure.parameters arguments =
        .error (.typeMismatch name expected actual)

theorem built_added (chain : List Addition) : Built chain (added chain) where
  length := length_added chain
  kept k position value h := getElem?_added h
  appended k value h :=
    ⟨_, getElem?_added h, nextPosition_of_last, fun hfree => ⟨lt_nextPosition hfree,
      fun q hq => nextPosition_le_iff.mpr fun a ha => .inl (hq a ha)⟩⟩
  distinct := distinct_added_iff chain
  repeated j k position v v' hlt hj hk := by
    have hgiven : ((added chain).take k)[j]? = some ⟨position, v⟩ := by
      rw [List.getElem?_take_of_lt hlt]
      exact getElem?_added hj
    exact .taken hk ⟨_, List.mem_of_getElem? hgiven, rfl⟩
  refused services objects name procedure h := by
    have hplaces : ¬Places procedure.parameters (added chain) := by
      intro hplaces
      rcases h with ⟨k, hshares⟩ | ⟨hmost, a, ha, hlast⟩
      · exact (distinct_added_iff chain).mp hplaces.distinct k hshares
      · have hlt := hplaces.inRange a ha
        rw [hlast] at hlt
        exact absurd hlt (Nat.not_lt.mpr hmost)
    rcases bindArguments_misplaced hplaces with ⟨expected, actual, herror⟩
    exact ⟨expected, actual, herror services objects (added chain) rfl⟩

/-- No chain of additions brings two arguments together unnoticed. With either builder each
    addition stays an argument of its own. An appended one is past all before it unless the last
    position is among these, and then it shares the last position; this and giving a position
    that is in use are the only ways to share one, and both are refused with a type mismatch
    when the arguments are bound, whatever they are bound to. What a client builds becomes the
    call that the server would have built by the same chain, so it is bound in the same way.
    Values that are all appended have the positions from zero on, one each as long as there are
    that many. -/
theorem builds_apart (ctx : CallContext) (service procedure : String) (chain : List Addition) :
    Built chain (ProcedureCall.build service procedure chain).arguments ∧
    (∀ name, Built chain (Call.build ctx name chain).arguments) ∧
    Call.ofWire ctx (ProcedureCall.build service procedure chain) =
      Call.build ctx (service ++ "." ++ procedure) chain ∧
    ∀ values : List Value,
      (ProcedureCall.build service procedure (values.map .arg)).arguments =
        values.zipIdx.map (fun row => ⟨UInt32.ofNat (min row.2 4294967295), row.1⟩) ∧
      (values.length ≤ 4294967296 →
        (ProcedureCall.build service procedure (values.map .arg)).arguments.map
          (·.position.toNat) = List.range values.length) := by
  simp only [ProcedureCall.build_eq, Call.build_eq]
  exact ⟨built_added chain, fun _ => built_added chain, rfl,
    fun values => ⟨added_plain values, positions_added_plain⟩⟩

/-- After a gap the next position is past it, and after the last there is only the last. -/
example (v : Value) :
    (added [.arg v, .argAt 7 v, .arg v, .argAt 0xFFFFFFFF v, .arg v]).map (·.position) =
      [0, 7, 8, lastPosition, lastPosition] := rfl

end Switchboard
