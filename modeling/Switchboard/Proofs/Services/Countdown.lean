import Switchboard.Proofs.Dispatcher.Transcript
import Switchboard.Proofs.Scan.Search
import Switchboard.Services.Fixture

/-!
# Counting Down

The blocking procedure of the fixture services adds the numbers from one argument down to one
to the other, a number with every step. It ends whatever it is given. From a number that is
not negative it goes down to zero, unless the sum leaves the range of 32 bits on the way. From
a negative number it would never come to zero, and only the range stops it: the numbers run
out at the least one, if the sum does not leave the range before.

`Fixture.Counts` is the course of a count on paper, with one constructor for each way that a
step can go. Nothing in it refers to handlers or calls. That every count has a course is an
induction on the distance to where it would end, which is zero from above and the least number
from below; what the course comes to is an induction on the course itself. One step of the
handler is one constructor (`Counts.took`), and the ticks follow by going through the course.

## Main definitions

* `Fixture.Counts`: The course of a count.
* `Fixture.SumFits`: When it comes to a sum.
* `Session.countdown`: A call that is dispatched and ticked.
* `Session.CountsDown`: What becomes of it.

## Theorems

* `exists_counts`: Every count ends.
* `Counts.of_sumFits`, `Counts.of_not_sumFits`: What it ends with.
* `Counts.took`: One turn of a call.
* `told_ticks`: All of its turns.
* `countDown_ends`: What becomes of a call in a session.
-/

namespace Switchboard

namespace Fixture

/-! ## Counting on paper -/

/-- An integer of 32 bits. -/
def InRange (n : Int) : Prop := -2147483648 ≤ n ∧ n ≤ 2147483647

/-- The numbers from a number down to one can be added to a sum. -/
def SumFits (n sum : Int32) : Prop :=
  0 ≤ n.toInt ∧ sum.toInt + n.toInt * (n.toInt + 1) / 2 ≤ 2147483647

/-- The failure that an operation without a result amounts to. -/
def overflow (operation : String) : Outcome :=
  .failed (.nativeFault ("attempt to " ++ operation ++ " with overflow"))

/-- The course of a count from a number and a sum: how many more steps follow, the number
    of the last one, and what it comes to. -/
inductive Counts : Int32 → Int32 → Nat → Int32 → Outcome → Prop
  | finished (sum : Int32) : Counts 0 sum 0 0 (.completed (some (.int32 sum)))
  | outOfNumbers {n : Int32} (sum : Int32) : ¬InRange (n.toInt - 1) →
    Counts n sum 0 n (overflow "subtract")
  | sumTooLarge {n sum : Int32} :
    n ≠ 0 → InRange (n.toInt - 1) → ¬InRange (sum.toInt + n.toInt) →
    Counts n sum 0 n (overflow "add")
  | counted {n sum n' sum' last : Int32} {steps : Nat} {final : Outcome} :
    n ≠ 0 → n'.toInt = n.toInt - 1 → sum'.toInt = sum.toInt + n.toInt →
    Counts n' sum' steps last final → Counts n sum (steps + 1) last final

theorem inRange_toInt (n : Int32) : InRange n.toInt :=
  ⟨n.le_toInt, Int.le_of_lt_add_one n.toInt_lt⟩

theorem toInt_ofInt_of_inRange {n : Int} (h : InRange n) : (Int32.ofInt n).toInt = n :=
  Int32.toInt_ofInt_of_le h.1 (Int.lt_add_one_of_le h.2)

theorem toInt_ne_zero {n : Int32} (h : n ≠ 0) : n.toInt ≠ 0 := by
  intro hzero
  exact h (Int32.toInt_inj.mp hzero)

/-- How far a number is from where a count ends: from zero, or from the least number. -/
def distance (n : Int32) : Nat :=
  if 0 ≤ n.toInt then n.toInt.toNat else (n.toInt + 2147483648).toNat

theorem distance_lt {n n' : Int32} (hn : n ≠ 0) (hn' : n'.toInt = n.toInt - 1) :
    distance n' < distance n := by
  have hne := toInt_ne_zero hn
  have hleast := (inRange_toInt n').1
  unfold distance
  split <;> split <;> omega

/-- Every count comes to an end. -/
theorem exists_counts (n sum : Int32) : ∃ steps last final, Counts n sum steps last final := by
  -- By induction on the distance to the end. Below zero no number is the last one but the
  -- least, and every step that is not the last gets closer to it.
  induction hd : distance n using Nat.strongRecOn generalizing n sum with
  | ind d ih =>
    by_cases hzero : n = 0
    · subst hzero
      exact ⟨0, 0, _, .finished sum⟩
    · by_cases hnext : InRange (n.toInt - 1)
      · by_cases htotal : InRange (sum.toInt + n.toInt)
        · have hcloser := distance_lt hzero (toInt_ofInt_of_inRange hnext)
          rcases ih _ (hd ▸ hcloser) (Int32.ofInt (n.toInt - 1))
            (Int32.ofInt (sum.toInt + n.toInt)) rfl with ⟨steps, last, final, hcounts⟩
          exact ⟨steps + 1, last, final, .counted hzero (toInt_ofInt_of_inRange hnext)
            (toInt_ofInt_of_inRange htotal) hcounts⟩
        · exact ⟨0, n, _, .sumTooLarge hzero hnext htotal⟩
      · exact ⟨0, n, _, .outOfNumbers sum hnext⟩

/-- What a number adds to a sum it adds at once, and the numbers below it add the rest. -/
theorem triangle_eq (n : Int) : n * (n + 1) / 2 = n + (n - 1) * (n - 1 + 1) / 2 := by
  have hdouble : n * (n + 1) = (n - 1) * (n - 1 + 1) + n * 2 := by
    simp only [Int.sub_mul, Int.mul_add, Int.mul_sub, Int.one_mul, Int.mul_one]
    omega
  rw [hdouble, Int.add_mul_ediv_right _ _ (by decide), Int.add_comm]

theorem le_triangle {n : Int} (h : 0 ≤ n) : n ≤ n * (n + 1) / 2 := by
  by_cases hzero : n = 0
  · subst hzero
    decide
  · have hrest : 0 ≤ (n - 1) * (n - 1 + 1) / 2 :=
      Int.ediv_nonneg (Int.mul_nonneg (by omega) (by omega)) (by decide)
    rw [triangle_eq]
    omega

/-- One step does not change whether the sum fits in the end. -/
theorem sumFits_iff {n sum n' sum' : Int32} (hn : n ≠ 0) (hn' : n'.toInt = n.toInt - 1)
    (hsum : sum'.toInt = sum.toInt + n.toInt) : SumFits n' sum' ↔ SumFits n sum := by
  have hne := toInt_ne_zero hn
  unfold SumFits
  rw [hn', hsum, triangle_eq n.toInt]
  omega

variable {n sum last : Int32} {steps : Nat} {final : Outcome}

/-- A count whose sum fits goes down to zero and ends with the sum. -/
theorem Counts.of_sumFits (h : Counts n sum steps last final) (hfits : SumFits n sum) :
    steps = n.toInt.toNat ∧ ∃ total : Int32,
      total.toInt = sum.toInt + n.toInt * (n.toInt + 1) / 2 ∧
        final = .completed (some (.int32 total)) := by
  induction h with
  | finished sum => exact ⟨rfl, sum, (Int.add_zero _).symm, rfl⟩
  | @outOfNumbers n sum hnext =>
      have hn := inRange_toInt n
      unfold InRange at hnext hn
      exact absurd hfits.1 (by omega)
  | @sumTooLarge n sum _ _ htotal =>
      have hn := inRange_toInt n
      have hsum := inRange_toInt sum
      have hleast := le_triangle hfits.1
      have hmost := hfits.2
      have hcounts := hfits.1
      unfold InRange at htotal hn hsum
      omega
  | @counted n sum n' sum' last steps final hn hn' hsum' _ ih =>
      rcases ih ((sumFits_iff hn hn' hsum').mpr hfits) with ⟨hsteps, total, htotal, hfinal⟩
      have hne := toInt_ne_zero hn
      have hcounts := hfits.1
      refine ⟨by omega, total, ?_, hfinal⟩
      rw [htotal, hn', hsum', triangle_eq n.toInt, Int.add_assoc]

/-- A count whose sum does not fit breaks down, and the number of its last step says at
    which operation. -/
theorem Counts.of_not_sumFits (h : Counts n sum steps last final) (hfits : ¬SumFits n sum) :
    final = overflow (if last.toInt = -2147483648 then "subtract" else "add") := by
  induction h with
  | finished sum =>
      refine absurd ⟨Int.le_refl _, ?_⟩ hfits
      have hsum := inRange_toInt sum
      exact (Int.add_zero sum.toInt).symm ▸ hsum.2
  | @outOfNumbers n sum hnext =>
      have hn := inRange_toInt n
      unfold InRange at hnext hn
      rw [if_pos (by omega)]
  | @sumTooLarge n sum _ hnext _ =>
      rw [if_neg (by have := hnext.1; omega)]
  | counted hn hn' hsum' _ ih => exact ih fun h => hfits ((sumFits_iff hn hn' hsum').mp h)

/-! ## One step of the handler -/

/-- What the handler does when it knows what to go on from. -/
def countFrom (n sum : Int32) : Handler :=
  if n = 0 then return .value (.int32 sum)
  else do
    let next ← checked "subtract" (n.toInt - 1)
    let total ← checked "add" (sum.toInt + n.toInt)
    return .yield (.tuple [.int32 next, .int32 total])

/-- A number and a sum that a step left behind. -/
def carried? : NativeValue → Option (Int32 × Int32)
  | .tuple [.int32 n, .int32 sum] => some (n, sum)
  | _ => none

/-- A number and a sum that a call brings. -/
def brought? : List NativeValue → Option (Int32 × Int32)
  | [.int32 n, .int32 sum] => some (n, sum)
  | _ => none

/-- What a step goes on from: what the step before it left behind, and what the call brings
    if there is none. -/
def standing? (arguments : List NativeValue) (progress : Option NativeValue) :
    Option (Int32 × Int32) :=
  (progress.bind carried?).or (brought? arguments)

/-- What the handler does when it knows what the step before it left behind, if there was
    one. -/
def countOn (earlier : Option (Int32 × Int32)) : Handler := do
  let (n, sum) ← match earlier with
    | some state => pure state
    | none => do pure (← Native.int32 0, ← Native.int32 1)
  countFrom n sum

/-- The handler looks for what to go on from, and does the rest with that alone. -/
theorem countDown_react {inv : Invocation} {n sum : Int32}
    (h : standing? inv.arguments inv.progress = some (n, sum)) (w : World) :
    countDown.react inv w = (countFrom n sum).react inv w := by
  have hstart : countDown.react inv w = (countOn (inv.progress.bind carried?)).react inv w := rfl
  rw [hstart]
  rw [standing?, Option.or_eq_some_iff] at h
  rcases h with h | ⟨h, harguments⟩
  · rw [h]
    rfl
  · rw [h]
    unfold brought? at harguments
    split at harguments
    next n' sum' heq =>
      cases harguments
      rcases inv with ⟨ctx, procedure, services, snapshot, arguments, progress⟩
      subst heq
      rfl
    next => exact absurd harguments (by simp only [reduceCtorEq, not_false_eq_true])

theorem checked_of_inRange {operation : String} {n : Int} (h : InRange n) :
    checked operation n = pure (Int32.ofInt n) := if_pos h

theorem checked_of_not_inRange {operation : String} {n : Int} (h : ¬InRange n) :
    checked operation n = Native.panic (some ("attempt to " ++ operation ++ " with overflow")) :=
  if_neg h

/-- The procedure that counts down. -/
def blockingProcedure : ProcedureDecl where
  name := "BlockingProcedure"
  parameters := [⟨"n", .int32, none⟩, ⟨"sum", .int32, some (.int32 0)⟩]
  returnType := some .int32
  blocking := true
  handler := some countDown

/-- What answers to its name. -/
def blockingEntry : Descriptor where
  qualifiedName := "TestService.BlockingProcedure"
  service := serviceName
  procedure := (Offer.procedure blockingProcedure).published serviceName
  handler := countDown

theorem blockingProcedure_mem : Offer.procedure blockingProcedure ∈ firstService.offers :=
  List.mem_append_left _ (List.mem_append_left _
    (List.mem_map_of_mem (List.mem_of_getElem? (i := 12) rfl)))

theorem writeReturn_int32 {p : Turn} (hentry : p.descriptor = blockingEntry) (services : Services)
    (n : Int32) (objects : ObjectTable) :
    (Dispatcher.writeReturn services p (some (.int32 n))).run.run objects =
      (.ok (some (.int32 n)), objects) := by
  rcases p with ⟨descriptor, ctx, arguments, progress, steps⟩
  subst hentry
  rfl

/-- A call that waits with a number and a sum. -/
structure Left (ctx : CallContext) (n sum : Int32) (c : Continuation) : Prop where
  ctx : c.ctx = ctx
  descriptor : c.descriptor = blockingEntry
  standing : standing? c.turn.arguments c.turn.progress = some (n, sum)

/-- A turn of a call that counts down is the last one, or leaves the rest of the count. -/
theorem Counts.took (h : Counts n sum steps last final) {services : Services} {p : Turn}
    {objects objects' : ObjectTable} {e : Event} {next : Option Continuation}
    (htook : p.Took services true objects e next objects') (hentry : p.descriptor = blockingEntry)
    (hstanding : standing? p.arguments p.progress = some (n, sum)) :
    (steps = 0 ∧ n = last ∧ e.outcome = final ∧ next = none) ∨
      ∃ n' sum' steps' c, steps = steps' + 1 ∧ Counts n' sum' steps' last final ∧
        e.outcome = .continuing p.ctx.call ∧ next = some c ∧ Left p.ctx n' sum' c := by
  rcases htook.run with ⟨run, hrun, hserves, hconcludes⟩
  have hresult : run.result = ((countFrom n sum).react run.invocation run.world).1 := by
    unfold HandlerRun.result
    rw [hserves.handler, hentry]
    refine congrArg Prod.fst (countDown_react ?_ run.world)
    rw [hserves.arguments, hserves.progress, hstanding]
  rw [hresult] at hconcludes
  unfold countFrom at hconcludes
  generalize e.outcome = outcome at hconcludes
  cases h with
  | finished =>
      cases hconcludes with
      | completed hw =>
          rw [writeReturn_int32 hentry] at hw
          cases hw
          exact .inl ⟨rfl, rfl, rfl, rfl⟩
      | unwritable hw =>
          rw [writeReturn_int32 hentry] at hw
          exact nomatch (Prod.mk.inj hw).1
  | outOfNumbers _ hnext =>
      have hn : n ≠ 0 := by
        rintro rfl
        exact hnext ⟨by decide, by decide⟩
      rw [if_neg hn, checked_of_not_inRange hnext] at hconcludes
      cases hconcludes with
      | interrupted _ => exact .inl ⟨rfl, rfl, rfl, rfl⟩
  | sumTooLarge hn hnext htotal =>
      rw [if_neg hn, checked_of_inRange hnext, checked_of_not_inRange htotal] at hconcludes
      cases hconcludes with
      | interrupted _ => exact .inl ⟨rfl, rfl, rfl, rfl⟩
  | @counted _ _ n' sum' _ steps' _ hn hn' hsum' hrest =>
      have hnext : InRange (n.toInt - 1) := hn' ▸ inRange_toInt n'
      have htotal : InRange (sum.toInt + n.toInt) := hsum' ▸ inRange_toInt sum'
      rw [if_neg hn, checked_of_inRange hnext, checked_of_inRange htotal, ← hn', ← hsum',
        Int32.ofInt_toInt, Int32.ofInt_toInt] at hconcludes
      cases hconcludes with
      | parked _ _ _ =>
          exact .inr ⟨n', sum', steps', _, rfl, hrest, rfl, rfl, rfl, hentry, rfl⟩
      | disconnected _ _ hc => exact nomatch hc
      | notBlocking _ hb =>
          rw [hentry] at hb
          exact nomatch hb

end Fixture

/-- The number that a step of a count went on from. -/
def Event.number? (e : Event) : Option Int32 :=
  e.run.bind fun run =>
    (Fixture.standing? run.invocation.arguments run.invocation.progress).map Prod.fst

theorem Turn.Took.number? {services : Services} {connected : Bool} {p : Turn}
    {objects objects' : ObjectTable} {e : Event} {next : Option Continuation}
    (htook : p.Took services connected objects e next objects') :
    e.number? = (Fixture.standing? p.arguments p.progress).map Prod.fst := by
  rcases htook.run with ⟨run, hrun, hserves, -⟩
  rw [Event.number?, hrun, Option.bind_some, hserves.arguments, hserves.progress]

namespace Session

open Fixture (Counts standing? blockingEntry)

/-- Ticks do not bring a call back. -/
theorem absent_ticks {s : Session} (h : s.Sound) {id : CallId} (habsent : s.waiting id = none)
    (ticks : Nat) : eventsOf id (s.history (List.replicate ticks .tick)) = [] ∧
      (s.replay (List.replicate ticks .tick)).waiting id = none := by
  refine absent_replay h (fun op hop => ?_) habsent
  rw [List.eq_of_mem_replicate hop]
  exact fun _ _ => nofun

variable {n sum last : Int32} {steps : Nat} {final : Outcome}

/-- What a client is told of a call that takes further steps before the last one. -/
def course (id : CallId) (steps : Nat) (final : Outcome) : List Outcome :=
  List.replicate steps (.continuing id) ++ [final]

/-- A call that took a turn of its count goes on counting, one step with every tick. -/
theorem told_ticks (h : Counts n sum steps last final) {services : Services} {p : Turn}
    {objects objects' : ObjectTable} {e : Event} {next : Option Continuation}
    (htook : p.Took services true objects e next objects') (hentry : p.descriptor = blockingEntry)
    (hstanding : standing? p.arguments p.progress = some (n, sum)) {s : Session} (hs : s.Sound)
    (hnext : s.waiting p.ctx.call = next) (ticks : Nat) :
    let events := e :: eventsOf p.ctx.call (s.history (List.replicate ticks .tick))
    events.map Event.outcome = (course p.ctx.call steps final).take (ticks + 1) ∧
      (steps ≤ ticks → events.getLast?.bind Event.number? = some last ∧
        (s.replay (List.replicate ticks .tick)).waiting p.ctx.call = none) := by
  have hnumber : e.number? = some n := by rw [htook.number?, hstanding, Option.map_some]
  induction ticks generalizing n sum steps services p objects objects' e next s with
  | zero =>
      rcases h.took htook hentry hstanding with
        ⟨rfl, rfl, rfl, rfl⟩ | ⟨_, _, steps', _, rfl, -, houtcome, -, -⟩
      · exact ⟨rfl, fun _ => ⟨hnumber, hnext⟩⟩
      · refine ⟨?_, fun hle => absurd hle (Nat.not_succ_le_zero _)⟩
        simp only [List.replicate_zero, history, eventsOf_nil, List.map_singleton, houtcome]
        rfl
  | succ ticks ih =>
      rcases h.took htook hentry hstanding with
        ⟨rfl, rfl, rfl, rfl⟩ | ⟨n', sum', steps', c, rfl, hrest, houtcome, rfl, hparked⟩
      · rcases absent_ticks hs hnext (ticks + 1) with ⟨hnothing, habsent⟩
        simp only [hnothing, List.map_singleton]
        exact ⟨rfl, fun _ => ⟨hnumber, habsent⟩⟩
      · have hchange := change_tick hs p.ctx.call
        have hsound := sound_perform hs .tick
        simp only [List.replicate_succ, history, eventsOf_append, replay_cons]
        generalize eventsOf p.ctx.call (s.events .tick) = happened at hchange
        cases hchange with
        | untouched _ _ hidle =>
            rw [hidle rfl] at hnext
            exact absurd hnext (by simp only [reduceCtorEq, not_false_eq_true])
        | dropped hdrops _ _ _ => exact Bool.noConfusion hdrops
        | @advanced _ c' e' next' _ _ _ hwaiting htook' _ hnext' =>
            cases hnext.symm.trans hwaiting
            have hcall : c.turn.ctx.call = p.ctx.call := congrArg CallContext.call hparked.ctx
            rcases ih hrest htook' hparked.descriptor hparked.standing hsound (hcall ▸ hnext')
              (htook'.number?.trans (congrArg _ hparked.standing)) with ⟨htold, hend⟩
            rw [hcall] at htold hend
            refine ⟨?_, fun hle => ?_⟩
            · rw [List.map_cons, List.singleton_append, htold, houtcome]
              rfl
            · rcases hend (Nat.le_of_succ_le_succ hle) with ⟨hlast, habsent⟩
              refine ⟨?_, habsent⟩
              rwa [List.singleton_append, List.getLast?_cons_cons]

/-- The dispatch of a count under the next number. -/
def countCall (s : Session) (n sum : Int32) : Operation :=
  .dispatch s.dispatcher.nextCall "TestService.BlockingProcedure"
    [⟨0, .int32 n⟩, ⟨1, .int32 sum⟩]

/-- A count that is dispatched at once and ticked a number of times. -/
def countdown (s : Session) (connection : ConnectionId) (n sum : Int32) (ticks : Nat) :
    List Operation :=
  .issue connection :: s.countCall n sum :: List.replicate ticks .tick

/-- What becomes of a count that takes some number of ticks. -/
structure CountsDown (s : Session) (connection : ConnectionId) (n sum : Int32) (steps : Nat)
    (final : Outcome) : Prop where
  /-- The client is told that the call continues until it is told how it ended. -/
  told : ∀ ticks,
    (eventsOf s.dispatcher.nextCall (s.history (s.countdown connection n sum ticks))).map
      Event.outcome = (course s.dispatcher.nextCall steps final).take (ticks + 1)
  /-- A sum that fits is told after as many ticks as there are numbers. -/
  completes : Fixture.SumFits n sum → steps = n.toInt.toNat ∧ ∃ total : Int32,
    total.toInt = sum.toInt + n.toInt * (n.toInt + 1) / 2 ∧
      final = .completed (some (.int32 total))
  /-- Otherwise the call breaks down, and the number of its last step says how. -/
  breaksDown : ¬Fixture.SumFits n sum → ∀ ticks, steps ≤ ticks → ∃ e number,
    (eventsOf s.dispatcher.nextCall
      (s.history (s.countdown connection n sum ticks))).getLast? = some e ∧
    e.number? = some number ∧
    final = Fixture.overflow (if number.toInt = -2147483648 then "subtract" else "add")
  /-- In the end nothing waits that did not wait before. -/
  leavesNothing : ∀ ticks, steps ≤ ticks →
    ∀ id ∈ (s.replay (s.countdown connection n sum ticks)).dispatcher.pending.ids,
      id ∈ s.dispatcher.pending.ids ∧ id ≠ s.dispatcher.nextCall

/-- Nothing waits after a count that has ended but what waited before it. -/
theorem waited_of_countdown {s : Session} (hs : s.Sound) {connection : ConnectionId} {ticks : Nat}
    (hended : (s.replay (s.countdown connection n sum ticks)).waiting s.dispatcher.nextCall = none)
    {id : CallId}
    (hid : id ∈ (s.replay (s.countdown connection n sum ticks)).dispatcher.pending.ids) :
    id ∈ s.dispatcher.pending.ids ∧ id ≠ s.dispatcher.nextCall := by
  rcases Table.mem_keys_iff.mp hid with ⟨c, hc⟩
  have hne : id ≠ s.dispatcher.nextCall := by
    rintro rfl
    exact nomatch hended.symm.trans hc
  refine ⟨?_, hne⟩
  cases hwaiting : s.waiting id with
  | some c => exact Table.mem_keys_iff.mpr ⟨c, hwaiting⟩
  | none =>
      -- None of the operations is a dispatch of another call.
      have hops : ∀ op ∈ s.countdown connection n sum ticks, ∀ procedure arguments,
          op ≠ .dispatch id procedure arguments := by
        intro op hop procedure arguments
        rcases List.mem_cons.mp hop with rfl | hop
        · exact nofun
        · rcases List.mem_cons.mp hop with rfl | hop
          · rw [countCall, ne_eq, Operation.dispatch.injEq]
            exact fun h => hne h.1.symm
          · rw [List.eq_of_mem_replicate hop]
            exact nofun
      exact nomatch (absent_replay hs hops hwaiting).2.symm.trans hc

/-- A count is dispatched as a call of the procedure that counts, with both arguments. -/
theorem begins_countdown {s : Session} (hs : s.Sound) {connection : ConnectionId}
    (hfound : s.dispatcher.catalog.directory.get "TestService.BlockingProcedure" =
      .ok blockingEntry)
    (hopen : s.dispatcher.pending.closed.contains connection = false) (n sum : Int32) :
    ∃ services objects objects' e next,
      Turn.Took services true
        ⟨blockingEntry, ⟨s.dispatcher.nextCall, connection⟩, [.int32 n, .int32 sum], none, 0⟩
        objects e next objects' ∧
      ((s.perform (.issue connection)).perform (s.countCall n sum)).waiting
        s.dispatcher.nextCall = next ∧
      ∀ ticks, eventsOf s.dispatcher.nextCall (s.history (s.countdown connection n sum ticks)) =
        e :: eventsOf s.dispatcher.nextCall
          (((s.perform (.issue connection)).perform (s.countCall n sum)).history
            (List.replicate ticks .tick)) := by
  have hissue := sound_perform hs (.issue connection)
  have hissued : (s.perform (.issue connection)).issued.get? s.dispatcher.nextCall =
      some connection := by
    simp only [perform, Dispatcher.context, Table.get?_insert, if_true]
  have hprepare : (s.perform (.issue connection)).dispatcher.prepare
      ⟨⟨s.dispatcher.nextCall, connection⟩, "TestService.BlockingProcedure",
        [⟨0, .int32 n⟩, ⟨1, .int32 sum⟩]⟩ =
      .ok ⟨blockingEntry, ⟨s.dispatcher.nextCall, connection⟩, [.int32 n, .int32 sum], none, 0⟩ :=
    prepare_eq hfound rfl
  rcases begun_of_prepared hissue hissued hprepare with
    ⟨e, next, objects', hevent, htook, hnext, -⟩
  have hconnected : (s.perform (.issue connection)).dispatcher.connected
      ⟨s.dispatcher.nextCall, connection⟩ = true := congrArg (! ·) hopen
  rw [hconnected] at htook
  refine ⟨_, _, objects', e, next, htook, hnext, fun ticks => ?_⟩
  rw [countdown, history, history, eventsOf_append, eventsOf_append, countCall, hevent]
  rfl

/-- Every count that is dispatched for a connection that is still there ends, whatever else is
    going on: with the sum of the numbers if that fits, and otherwise with a breakdown that
    tells by which operation the range was left. -/
theorem countDown_ends {decls : List ServiceDecl} {catalog : Catalog}
    (hscan : scan decls = .ok catalog) (hservice : Fixture.firstService ∈ decls)
    (config : ServerConfig) (world : World) (before : List Operation) {connection : ConnectionId}
    (hopen : ((fresh catalog config world).replay before).dispatcher.pending.closed.contains
      connection = false) (n sum : Int32) :
    ∃ steps final,
      ((fresh catalog config world).replay before).CountsDown connection n sum steps final := by
  have hs := sound_replay (sound_fresh catalog config world) before
  have hfound : ((fresh catalog config world).replay before).dispatcher.catalog.directory.get
      "TestService.BlockingProcedure" = .ok blockingEntry := by
    rw [catalog_replay (sound_fresh catalog config world) before]
    exact get_offered hscan hservice Fixture.blockingProcedure_mem rfl (by decide) (by decide)
  generalize (fresh catalog config world).replay before = s at hs hfound hopen
  rcases Fixture.exists_counts n sum with ⟨steps, last, final, hcounts⟩
  -- The first turn is that of the dispatch, and each further one that of a tick.
  rcases begins_countdown hs hfound hopen n sum with
    ⟨services, objects, objects', e, next, htook, hnext, hevents⟩
  have hsound := sound_perform (sound_perform hs (.issue connection)) (s.countCall n sum)
  have hticks := told_ticks hcounts htook rfl rfl hsound hnext
  refine ⟨steps, final, fun ticks => ?_, hcounts.of_sumFits, fun hfits ticks hle => ?_,
    fun ticks hle id hid => ?_⟩
  · rw [hevents]
    exact (hticks ticks).1
  · rw [hevents]
    rcases Option.bind_eq_some_iff.mp ((hticks ticks).2 hle).1 with ⟨e', he', hnumber⟩
    exact ⟨e', last, he', hnumber, hcounts.of_not_sumFits hfits⟩
  · exact waited_of_countdown hs ((hticks ticks).2 hle).2 hid

/-- Three numbers are added to ten in three ticks, while another call waits. -/
theorem threeNumbers_counted :
    ∃ catalog, scan fixtureServices = .ok catalog ∧
      let s := (fresh catalog {} {}).replay
        [.issue 9, .dispatch 1 "TestService.BlockingProcedureNoReturn" [⟨0, .int32 5⟩]]
      s.dispatcher.pending.ids = [1] ∧
        (eventsOf 2 (s.history (s.countdown 7 3 10 4))).map Event.outcome =
          [.continuing 2, .continuing 2, .continuing 2, .completed (some (.int32 16))] := by
  have hscan : scan fixtureServices = .ok (published fixtureServices) := rfl
  refine ⟨_, hscan, rfl, ?_⟩
  rcases @countDown_ends _ _ hscan List.mem_cons_self {} {}
    [.issue 9, .dispatch 1 "TestService.BlockingProcedureNoReturn" [⟨0, .int32 5⟩]] 7 rfl
    3 10 with ⟨steps, final, h⟩
  rcases h.completes ⟨by decide, by decide⟩ with ⟨rfl, total, htotal, rfl⟩
  have hsum : total = 16 := Int32.toInt_inj.mp htotal
  subst hsum
  exact h.told 4

end Session

end Switchboard
