import Switchboard.Proofs.Dispatcher.Course
import Switchboard.Proofs.Scan.Offers
import Switchboard.Proofs.Services.Handlers

/-!
# Procedures that Keep to Themselves

Most procedures of the fixture services are functions of their arguments. They read them
through accessors, work on them and give something back, and neither remember anything nor
ask who calls. The procedures that block are no different, except that they go on from the
progress they left.

`Native.Determined` says this of a computation: it comes to the same in all runs that agree
in the name of the procedure, the arguments and the progress, whatever else is different.
The name belongs to what has to agree, because an accessor that fails reports it. What a run
does to the world is not asked about, since no other run looks at it. The steps that
handlers are made of are determined or compose, so that a handler is determined as it is
written.

A procedure that makes an object is not determined, because the object gets the next address
there is. But it has a class in its signature, and it is by the signatures that
`Fixture.plainService` is cut out of the first service.

## Main definitions

* `Invocation.Agrees`: Runs with nothing between them that matters.
* `Native.Determined`: Computations that come to the same in such runs.
* `Offer.Settled`: Offers with determined implementations.
* `Fixture.plainService`: The procedures of the fixture that name no class.

## Theorems

* `Native.Determined.bind`, `Native.Determined.reading`: Steps of handlers.
* `Native.Determined.pure_descriptor`: Determined handlers are pure.
* `plain_published`: Catalogs of settled offers with plain signatures are plain.
* `firstService_settled`: Procedures of the fixture that name no class are settled.
* `plainService_plain`: Together they are a catalog of calls that keep to themselves.
-/

namespace Switchboard

/-- Invocations of one procedure with the same arguments and the same progress. The caller,
    the services and the numbers of the server may be different. -/
structure Invocation.Agrees (inv inv' : Invocation) : Prop where
  procedure : inv.procedure = inv'.procedure
  arguments : inv.arguments = inv'.arguments
  progress : inv.progress = inv'.progress

namespace Native

variable {α β : Type}

/-- A computation that comes to the same in runs that agree, on any two worlds. -/
def Determined (m : Native α) : Prop :=
  ∀ inv inv' w w', inv.Agrees inv' → (m.runOn inv w).1 = (m.runOn inv' w').1

namespace Determined

theorem pure (a : α) : Determined (Pure.pure a : Native α) := fun _ _ _ _ _ => rfl

theorem throw (i : Interrupt) : Determined (MonadExcept.throw i : Native α) :=
  fun _ _ _ _ _ => rfl

theorem bind {m : Native α} {k : α → Native β} (hm : Determined m)
    (hk : ∀ a, Determined (k a)) : Determined (m >>= k) := by
  intro inv inv' w w' hagrees
  have hfirst := hm inv inv' w w' hagrees
  rw [runOn_bind, runOn_bind]
  rcases hrun : m.runOn inv w with ⟨result, w₁⟩
  rcases hrun' : m.runOn inv' w' with ⟨result', w₁'⟩
  rw [hrun, hrun'] at hfirst
  -- The worlds may have parted by now, but that has no bearing on the rest either.
  obtain rfl : result = result' := hfirst
  cases result with
  | error i => rfl
  | ok a => exact hk a inv inv' w₁ w₁' hagrees

theorem map {m : Native α} (hm : Determined m) (f : α → β) : Determined (do return f (← m)) :=
  hm.bind fun _ => pure _

/-- A handler may look at all it is given as long as it uses no more than what agrees. -/
theorem reading {k : Invocation → Native α}
    (hsame : ∀ inv inv', inv.Agrees inv' → k inv = k inv') (hk : ∀ inv, Determined (k inv)) :
    Determined (do k (← read)) := by
  intro inv inv' w w' hagrees
  change ((k inv).runOn inv w).1 = ((k inv').runOn inv' w').1
  rw [hsame inv inv' hagrees]
  exact hk inv' inv inv' w w' hagrees

theorem fail (e : CallError) : Determined (Native.fail e : Native α) := throw (.error e)

theorem fault (text : String) : Determined (Native.fault text : Native α) := fail _

theorem panic (message : Option String) : Determined (Native.panic message : Native α) :=
  throw (.panic message)

theorem arg (index : Nat) : Determined (Native.arg index) := by
  refine reading ?_ ?_
  · intro inv inv' hagrees
    simp only [hagrees.arguments, hagrees.procedure]
  · intro inv
    split
    · exact pure _
    · exact fail _

theorem argAs {index : Nat} {expected : String} {accept : NativeValue → Option α} :
    Determined (Native.argAs index expected accept) := by
  refine (arg index).bind fun v => ?_
  split
  · exact pure _
  · refine reading ?_ fun inv => fail _
    intro inv inv' hagrees
    simp only [hagrees.procedure]

theorem progress (accept : NativeValue → Option α) : Determined (Native.progress accept) := by
  refine reading ?_ fun inv => pure _
  intro inv inv' hagrees
  simp only [hagrees.progress]

/-- A procedure with a determined handler is pure: the run under its own name, from any
    server and any world, is the function that it is. -/
theorem pure_descriptor {d : Descriptor} (h : Determined d.handler) (services : Services) :
    d.Pure services := by
  refine ⟨fun arguments progress => (d.handler.react ⟨⟨0, 0⟩, d.qualifiedName, services,
    Dispatcher.snapshot { catalog := ⟨services, ⟨[]⟩⟩ }, arguments, progress⟩ {}).1, ?_⟩
  intro inv w hprocedure _
  exact h inv _ w {} ⟨hprocedure, rfl, rfl⟩

end Determined

end Native

/-- An offer with an implementation that is determined. -/
def Offer.Settled (offer : Offer) : Prop :=
  ∃ handler, offer.handler = some handler ∧ Native.Determined handler

/-- A catalog is plain if everything that is offered has a plain signature and a determined
    implementation. -/
theorem plain_published {decls : List ServiceDecl}
    (h : ∀ decl ∈ decls, ∀ offer ∈ decl.offers,
      (offer.published decl.name).Plain ∧ offer.Settled) :
    (published decls).Plain := by
  have hentry : ∀ d ∈ (published decls).directory.descriptors,
      Native.Determined d.handler ∧ d.procedure.Plain := by
    intro d hd
    rcases List.mem_flatMap.mp hd with ⟨decl, hdecl, hmem⟩
    rcases List.mem_filterMap.mp hmem with ⟨offer, hoffer, hoffered⟩
    rcases h decl hdecl offer hoffer with ⟨hplain, handler, hhandler, hdetermined⟩
    rw [Offer.descriptor?_eq hhandler, Option.some.injEq] at hoffered
    rw [← hoffered]
    exact ⟨hdetermined, hplain⟩
  exact ⟨fun d hd => (hentry d hd).1.pure_descriptor _, fun d hd => (hentry d hd).2⟩

namespace Fixture

open Native (Determined)

/-! ## Procedures of the fixture -/

theorem parseInt_determined : Determined parseInt := by
  refine Determined.argAs.bind fun text => ?_
  split
  · exact .pure _
  · exact .fault _

theorem addMultiple_determined : Determined addMultiple :=
  Determined.argAs.bind fun _ => Determined.argAs.bind fun _ =>
    Determined.argAs.map _

theorem echoEnum_determined : Determined echoEnum := Determined.map .argAs _

theorem incrementArgument_determined : Determined incrementArgument := by
  refine (Determined.arg 0).bind fun v => ?_
  split
  · exact .pure _
  · exact .fault _

theorem checked_determined (operation : String) (n : Int) : Determined (checked operation n) := by
  unfold checked
  split
  · exact .pure _
  · exact .panic _

theorem countFrom_determined (n sum : Int32) : Determined (countFrom n sum) := by
  unfold countFrom
  split
  · exact .pure _
  · exact (checked_determined _ _).bind fun _ => (checked_determined _ _).map _

theorem countDown_determined : Determined countDown := by
  refine (Determined.progress _).bind fun earlier => ?_
  cases earlier with
  | some p => exact countFrom_determined p.1 p.2
  | none =>
      exact Determined.argAs.bind fun n => Determined.argAs.bind fun sum =>
        countFrom_determined n sum

/-- What the other procedure that blocks does with the number that it goes on from. -/
theorem countQuietly_determined (n : Int32) :
    Determined (if n = 0 then return .done
      else return .yield (.int32 (← checked "subtract" (n.toInt - 1))) : Handler) := by
  split
  · exact .pure _
  · exact (checked_determined _ _).map _

theorem countDownQuietly_determined : Determined countDownQuietly := by
  refine (Determined.progress _).bind fun earlier => ?_
  cases earlier with
  | some n => exact countQuietly_determined n
  | none => exact Determined.argAs.bind fun n => countQuietly_determined n

/-- Whether a type is a class. -/
def isClass : Ty → Bool
  | .instanceOf .. => true
  | _ => false

/-- Whether the signature of a procedure of the first service names no class. -/
def namesNoClass (p : ProcedureDecl) : Bool :=
  ((Offer.procedure p).published serviceName).namedTypes.all fun ty => !isClass ty

theorem plain_of_namesNoClass {p : ProcedureDecl} (h : namesNoClass p = true) :
    ((Offer.procedure p).published serviceName).Plain :=
  fun _ _ hmem => Bool.noConfusion (List.all_eq_true.mp h _ hmem)

/-- The first service, with those of its procedures whose signatures name no class. -/
def plainService : ServiceDecl :=
  { firstService with
    procedures := firstService.procedures.filter namesNoClass, properties := [], classes := [] }

/-- A procedure of the first service has a class in its signature or is settled. -/
theorem firstService_settled : ∀ p ∈ firstService.procedures,
    namesNoClass p = false ∨ (Offer.procedure p).Settled := by
  have htext : ∀ name ty {α : Type} {m : Native α} {text : α → String}, Determined m →
      (Offer.procedure (textProcedure name ty do textStep (text (← m)))).Settled :=
    fun _ _ _ _ _ h => ⟨_, rfl, h.map _⟩
  have hincrement : ∀ name parameter ty,
      (Offer.procedure (incrementProcedure name parameter ty)).Settled :=
    fun _ _ _ => ⟨_, rfl, incrementArgument_determined⟩
  have hfailing : ∀ name message, (Offer.procedure (failingProcedure name message)).Settled :=
    fun _ message => ⟨_, rfl, .fault message⟩
  simp only [firstService, List.forall_mem_cons]
  exact ⟨.inr ⟨_, rfl, .pure _⟩, .inr (htext _ _ .argAs), .inr (htext _ _ .argAs),
    .inr (htext _ _ .argAs), .inr (htext _ _ .argAs), .inr (htext _ _ .argAs),
    .inr ⟨_, rfl, parseInt_determined⟩, .inr (htext _ _ .argAs),
    .inr ⟨_, rfl, addMultiple_determined⟩, .inl rfl, .inl rfl, .inl rfl,
    .inr ⟨_, rfl, countDown_determined⟩, .inr ⟨_, rfl, countDownQuietly_determined⟩,
    .inr ⟨_, rfl, .pure _⟩, .inr ⟨_, rfl, echoEnum_determined⟩,
    .inr ⟨_, rfl, echoEnum_determined⟩, .inr (hincrement ..), .inr (hincrement ..),
    .inr (hincrement ..), .inr (hincrement ..), .inr (hincrement ..), .inl rfl,
    .inr (hfailing ..), .inr (hfailing ..), List.forall_mem_nil _⟩

theorem plainService_plain : (published [plainService]).Plain := by
  refine plain_published ?_
  rw [List.forall_mem_singleton]
  intro offer hoffer
  -- It has no properties and no classes, so procedures are all that it offers.
  have hprocedure : offer ∈ plainService.procedures.map .procedure := by
    unfold ServiceDecl.offers at hoffer
    rwa [plainService, List.flatMap_nil, List.flatMap_nil, List.append_nil, List.append_nil]
      at hoffer
  rcases List.mem_map.mp hprocedure with ⟨p, hp, rfl⟩
  rcases List.mem_filter.mp hp with ⟨hmem, hplain⟩
  refine ⟨plain_of_namesNoClass hplain, (firstService_settled p hmem).resolve_left ?_⟩
  intro hclass
  exact Bool.noConfusion (hplain.symm.trans hclass)

end Fixture

end Switchboard
