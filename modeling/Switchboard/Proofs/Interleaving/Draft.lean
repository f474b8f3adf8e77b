import Switchboard.Dispatcher

/-!
# Writing in Steps

What is written for a client, cut at the points where others can get in.

Writing enters instances one after the other, and the table of live objects is
free between two of them. A `Draft` is writing up to the next instance, with the
rest of it as a function of the number that the instance gets. Nothing else in
it depends on the table, so nothing else has to be a step.

`encodeDraft` follows `encode` clause by clause and differs in the monad alone.
That the two agree when nobody gets in is `encode_drafted`, by the recursion that
both have in common.

## Main definitions

* `Draft`: Writing that stops before each instance.
* `Draft.finish`: The rest of it in one go.
* `encodeDraft`, `returnDraft`: What is written of a value and of a result.
* `Drafted`: Writing and its draft.

## Theorems

* `encode_drafted`: Values are written as drafted.
* `writeReturn_drafted`: So are results.
-/

namespace Switchboard

/-- Writing that stops before each instance it enters. -/
inductive Draft (α : Type) where
  /-- It is done, or has failed. -/
  | done (result : Except CallError α)
  /-- It goes on when an instance has been entered. -/
  | enter (object : Instance) (className : String) (rest : ObjectId → Draft α)

namespace Draft

variable {α β : Type}

/-- Goes on with what has been written unless it has failed. -/
def bind (k : α → Draft β) : Draft α → Draft β
  | .done (.ok a) => k a
  | .done (.error e) => .done (.error e)
  | .enter object className rest => .enter object className fun id => (rest id).bind k

instance : Monad Draft where
  pure a := .done (.ok a)
  bind d k := d.bind k

theorem bind_pure (d : Draft α) : d.bind Pure.pure = d := by
  induction d with
  | done result => cases result <;> rfl
  | enter object className rest ih => exact congrArg (Draft.enter object className) (funext ih)

theorem bind_assoc {γ : Type} (d : Draft α) (k : α → Draft β) (l : β → Draft γ) :
    (d.bind k).bind l = d.bind fun a => (k a).bind l := by
  induction d with
  | done result => cases result <;> rfl
  | enter object className rest ih => exact congrArg (Draft.enter object className) (funext ih)

instance : LawfulMonad Draft := .mk' Draft bind_pure (fun _ _ => rfl) bind_assoc

/-- Gives up. -/
def fail (e : CallError) : Draft α := .done (.error e)

/-- Enters an instance and gives its number. -/
def register (object : Instance) (className : String) : Draft ObjectId :=
  .enter object className pure

/-- Does the rest of the writing with nobody in between. -/
def finish (owner : ConnectionId) : Draft α → ObjectTable → Except CallError α × ObjectTable
  | .done result, objects => (result, objects)
  | .enter object className rest, objects =>
    let (reference, objects) := objects.register object className owner
    (rest reference.id).finish owner objects

end Draft

mutual

/-- A native value, written against a type. -/
def encodeDraft (services : Services) (context : String) : Ty → NativeValue → Draft Value
  | .optional _, .null => return .null
  | .instanceOf .., .null => return .null
  | .optional inner, v => encodeDraft services context inner v
  | .bool, .bool b => return .bool b
  | .int32, .int32 n => return .int32 n
  | .int64, .int64 n => return .int64 n
  | .float32, .float32 x => return .float32 x
  | .float64, .float64 x => return .float64 x
  | .string, .string s => return .string s
  | .bytes, .bytes bs => return .bytes bs
  | .list element, .list items => do
    return .list (← items.mapM (encodeDraft services context element))
  | .set element, .set items => do
    return .set (← items.mapM (encodeDraft services context element))
  | .map key value, .map entries => do
    return .map (← entries.mapM fun (k, v) => do
      let k' ← encodeDraft services context key k
      let v' ← encodeDraft services context value v
      return (k', v'))
  | .tuple elements, .tuple items =>
    if items.length = elements.length then do
      return .tuple (← encodePairwiseDraft services context elements items)
    else .fail (.typeMismatch context (Ty.tuple elements).text "Tuple")
  | .enumeration service name, .enum n => do
    let _ ← Draft.done (checkMember services context (.enumeration service name) n)
    return .enum n
  | .instanceOf service name, .object object => do
    return .object (← Draft.register object (classKey service name))
  | ty, v => .fail (.typeMismatch context ty.text v.kind)

/-- The items of a tuple, each written against its own type. -/
def encodePairwiseDraft (services : Services) (context : String) :
    List Ty → List NativeValue → Draft (List Value)
  | t :: ts, v :: vs => do
    let first ← encodeDraft services context t v
    return first :: (← encodePairwiseDraft services context ts vs)
  | _, _ => return []

end

/-- What a finished procedure gives back, written for its client. -/
def returnDraft (services : Services) (p : Turn) (value : Option NativeValue) :
    Draft (Option Value) :=
  let context := p.descriptor.qualifiedName ++ " return value"
  match p.descriptor.procedure.returnType, value with
  | none, none => return none
  | none, some v => .fail (.typeMismatch context "no value" v.kind)
  | some ty, v => do return some (← encodeDraft services context ty (v.getD .null))

/-! ## Writing as drafted -/

/-- Writing that does what a draft does if nobody gets in between. -/
def Drafted {α : Type} (owner : ConnectionId) (w : Writing α) (d : Draft α) : Prop :=
  ∀ objects, w.run.run objects = d.finish owner objects

namespace Drafted

variable {α β : Type} {owner : ConnectionId}

theorem pure (a : α) : Drafted owner (Pure.pure a) (Pure.pure a) := fun _ => rfl

theorem throw (e : CallError) : Drafted owner (MonadExcept.throw e : Writing α) (.fail e) :=
  fun _ => rfl

theorem register (object : Instance) (className : String) :
    Drafted owner (Writing.register object className owner) (.register object className) :=
  fun _ => rfl

theorem finish_bind (d : Draft α) (k : α → Draft β) (objects : ObjectTable) :
    (d >>= k).finish owner objects =
      match d.finish owner objects with
      | (.ok a, objects) => (k a).finish owner objects
      | (.error e, objects) => (.error e, objects) := by
  induction d generalizing objects with
  | done result => cases result <;> rfl
  | enter object className rest ih => exact ih _ _

theorem bind {w : Writing α} {d : Draft α} {k : α → Writing β} {k' : α → Draft β}
    (hw : Drafted owner w d) (hk : ∀ a, Drafted owner (k a) (k' a)) :
    Drafted owner (w >>= k) (d >>= k') := by
  intro objects
  have h := hw objects
  simp only [ExceptT.run, StateT.run] at h
  rw [finish_bind, ← h]
  simp only [ExceptT.run, StateT.run, Bind.bind, ExceptT.bind, ExceptT.mk, StateT.bind]
  rcases w objects with ⟨result, objects'⟩
  cases result with
  | error e => rfl
  | ok a => exact hk a objects'

theorem mapM {f : α → Writing β} {f' : α → Draft β} (items : List α)
    (h : ∀ item ∈ items, Drafted owner (f item) (f' item)) :
    Drafted owner (items.mapM f) (items.mapM f') := by
  induction items with
  | nil => exact .pure []
  | cons head rest ih =>
      simp only [List.mapM_cons]
      refine .bind (h head List.mem_cons_self) fun b => ?_
      refine .bind (ih fun item hitem => h item (List.mem_cons_of_mem _ hitem)) fun bs => ?_
      exact .pure (b :: bs)

end Drafted

variable (services : Services) (owner : ConnectionId) (context : String)

mutual

theorem encode_drafted : ∀ (ty : Ty) (v : NativeValue),
    Drafted owner (encode services owner context ty v) (encodeDraft services context ty v)
  | .bool, v | .int32, v | .int64, v | .float32, v | .float64, v | .string, v | .bytes, v => by
      cases v <;> first | exact .pure _ | exact .throw _
  | .enumeration service name, v => by
      cases v with
      | enum n =>
          refine .bind ?_ fun _ => .pure _
          cases checkMember services context (.enumeration service name) n with
          | ok _ => exact .pure _
          | error e => exact .throw e
      | _ => exact .throw _
  | .instanceOf service name, v => by
      cases v with
      | null => exact .pure _
      | object object => exact .bind (.register object _) fun _ => .pure _
      | _ => exact .throw _
  | .optional inner, v => by
      cases v with
      | null => exact .pure _
      | _ => exact encode_drafted inner _
  | .list element, v => by
      cases v with
      | list items =>
          exact .bind (.mapM items fun item _ => encode_drafted element item) fun _ => .pure _
      | _ => exact .throw _
  | .set element, v => by
      cases v with
      | set items =>
          exact .bind (.mapM items fun item _ => encode_drafted element item) fun _ => .pure _
      | _ => exact .throw _
  | .map key value, v => by
      cases v with
      | map entries =>
          refine .bind (.mapM entries fun entry _ => ?_) fun _ => .pure _
          refine .bind (encode_drafted key entry.1) fun _ => ?_
          exact .bind (encode_drafted value entry.2) fun _ => .pure _
      | _ => exact .throw _
  | .tuple elements, v => by
      cases v with
      | tuple items =>
          simp only [encode, encodeDraft]
          by_cases hlength : items.length = elements.length
          · simp only [if_pos hlength]
            exact .bind (encodePairwise_drafted elements items) fun _ => .pure _
          · simp only [if_neg hlength]
            exact .throw _
      | _ => exact .throw _

theorem encodePairwise_drafted : ∀ (tys : List Ty) (vs : List NativeValue),
    Drafted owner (encodePairwise services owner context tys vs)
      (encodePairwiseDraft services context tys vs)
  | [], vs => by cases vs <;> exact .pure _
  | t :: ts, vs => by
      cases vs with
      | nil => exact .pure _
      | cons v vs =>
          refine .bind (encode_drafted t v) fun _ => ?_
          exact .bind (encodePairwise_drafted ts vs) fun _ => .pure _

end

/-- A result is written as drafted. -/
theorem writeReturn_drafted (p : Turn) (value : Option NativeValue) :
    Drafted p.ctx.connection (Dispatcher.writeReturn services p value)
      (returnDraft services p value) := by
  unfold Dispatcher.writeReturn returnDraft
  cases p.descriptor.procedure.returnType with
  | none =>
      cases value with
      | none => exact .pure _
      | some v => exact .throw _
  | some ty => exact .bind (encode_drafted _ _ _ _ _) fun _ => .pure _

end Switchboard
