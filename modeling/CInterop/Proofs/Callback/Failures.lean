import Mathlib.Data.List.DropRight
import CInterop.Callback
import CInterop.Proofs.Heap.Run

/-!
# Failures of callbacks

What becomes of an invocation of a trampoline follows from its arguments, from how the host function
ends and from whether its value can be encoded (`comes_dispatch`). A failure leaves zeros, is told
to the handler once and is the last error from then on; a success changes none of that
(`exists_answers`). Over any number of invocations the last error is thus the most recent failure
since the last error was taken.

`Trampoline.entryCode` is the same entry point with the unwinding of panics spelled out.
-/

namespace CInterop

/-! ## Unwinding -/

/-- How code ends: it returns, or it unwinds with the message of a panic. -/
inductive Ended (α : Type) where
  | returned (a : α)
  | unwound (message : Option String)

namespace Ended

variable {α β : Type}

/-- Goes on with what was returned. Nothing stops unwinding here. -/
def andThen (ended : Ended α) (next : α → Ended β) : Ended β :=
  match ended with
  | returned a => next a
  | unwound message => unwound message

/-- Stops unwinding, and returns the message of the panic. -/
def caught : Ended α → Ended (Except (Option String) α)
  | returned a => returned (.ok a)
  | unwound message => returned (.error message)

end Ended

/-- A result as code: it is returned, but for an overflow, which unwinds. -/
def Ended.ofResult {α : Type} : Except Failure α → Ended (Except Failure α)
  | .error (.overflow operation) => unwound (some (Failure.overflow operation).message)
  | result => returned result

namespace Trampoline

/-- A host function as code. -/
def hostCode (host : HostFunction) (args : List Value) (heap : Heap) :
    Ended (Except String Value) × Heap :=
  match host args heap with
  | (.value value, heap) => (.returned (.ok value), heap)
  | (.failed reason, heap) => (.returned (.error reason), heap)
  | (.panicked message, heap) => (.unwound message, heap)

/-- A handler as code. -/
def handlerCode (handler : ErrorHandler) (failure : Failure) : Ended Unit :=
  match handler failure with
  | .returned => .returned ()
  | .panicked => .unwound none

/-- Running the host function, as code: a panic of the host function goes through. -/
def dispatchCode (t : Trampoline) (frame : List Bytes) (heap : Heap) :
    Ended (Except Failure (Bytes × Option Block)) × List Call × Heap :=
  match decodeArgs t.foreignReads t.args frame heap with
  | (.error failure, heap) => (.ofResult (.error failure), [], heap)
  | (.ok args, heap) =>
    let (ended, after) := hostCode t.host args heap
    match ended with
    | .unwound message => (.unwound message, [{ args, heap }], after)
    | .returned (.error reason) =>
      (.returned (.error (.callback t.name reason)), [{ args, heap }], after)
    | .returned (.ok value) =>
      let (result, after) := encodeResult t.returns value after
      (.ofResult result, [{ args, heap }], after)

/-- Recording a failure, as code. -/
def recordCode (t : Trampoline) (failure : Failure) : Ended Trampoline :=
  let told : Ended Trampoline := match t.handler with
    | none => .returned t
    | some handler => (handlerCode handler failure).caught.andThen fun _ =>
      .returned { t with reported := t.reported ++ [(failure, handler failure)] }
  told.andThen fun t => .returned { t with lastError := some failure }

/-- The entry point as code. -/
def entryCode (t : Trampoline) (frame : List Bytes) (heap : Heap) :
    Ended (Bytes × Trampoline × Heap) :=
  let (ended, calls, heap) := t.dispatchCode frame heap
  let t := { t with calls := t.calls ++ calls }
  let fail (failure : Failure) := (t.recordCode failure).andThen fun after =>
    .returned (Bytes.zeros t.slotSize, after, heap)
  ended.caught.andThen fun
    | .ok (.ok (bytes, held)) => .returned (bytes, { t with held := t.held ++ held.toList }, heap)
    | .ok (.error failure) => fail failure
    | .error message => fail (panicFailure t.name message)

variable {t : Trampoline} {frame : List Bytes} {heap : Heap}

theorem recordCode_eq (t : Trampoline) (failure : Failure) :
    t.recordCode failure = .returned (t.recordFailure failure) := by
  unfold recordCode recordFailure handlerCode
  cases installed : t.handler with
  | none => simp only [installed, Ended.andThen]
  | some handler =>
    cases ended : handler failure <;> simp only [ended, Ended.caught, Ended.andThen]

/-- No panic leaves the entry point: it returns, and returns what `enter` gives. -/
theorem entryCode_eq (t : Trampoline) (frame : List Bytes) (heap : Heap) :
    t.entryCode frame heap = .returned (t.enter frame heap) := by
  unfold entryCode enter dispatchCode dispatch hostCode
  cases decodeArgs t.foreignReads t.args frame heap with
  | mk decoded seen =>
    cases decoded with
    | error failure =>
      cases failure <;>
        simp only [Ended.ofResult, caught, Ended.caught, Ended.andThen, recordCode_eq]
    | ok args =>
      cases ended : t.host args seen with
      | mk reply after =>
        cases reply with
        | failed reason => simp only [ended, Ended.caught, Ended.andThen, recordCode_eq]
        | panicked message => simp only [ended, Ended.caught, Ended.andThen, recordCode_eq]
        | value value =>
          simp only [ended]
          cases encodeResult t.returns value after with
          | mk result last =>
            cases result with
            | ok result =>
              simp only [Ended.ofResult, Except.mapError, Ended.caught, Ended.andThen]
            | error failure =>
              cases failure <;> simp only [Ended.ofResult, Except.mapError, caught, Ended.caught,
                Ended.andThen, recordCode_eq]

/-! ## One invocation -/

/-- What an invocation comes to, by the arguments, the end of the host function and its value. -/
inductive Comes (t : Trampoline) (frame : List Bytes) (heap : Heap) :
    Except Failure (Bytes × Option Block) → Prop where
  | undecoded {failure : Failure} {seen : Heap}
      (refused : decodeArgs t.foreignReads t.args frame heap = (.error failure, seen)) :
      Comes t frame heap (.error (caught t.name failure))
  | failed {args : List Value} {reason : String} {seen after : Heap}
      (decoded : decodeArgs t.foreignReads t.args frame heap = (.ok args, seen))
      (ended : t.host args seen = (.failed reason, after)) :
      Comes t frame heap (.error (.callback t.name reason))
  | panicked {args : List Value} {message : Option String} {seen after : Heap}
      (decoded : decodeArgs t.foreignReads t.args frame heap = (.ok args, seen))
      (ended : t.host args seen = (.panicked message, after)) :
      Comes t frame heap (.error (panicFailure t.name message))
  | unencoded {args : List Value} {value : Value} {failure : Failure} {seen after last : Heap}
      (decoded : decodeArgs t.foreignReads t.args frame heap = (.ok args, seen))
      (ended : t.host args seen = (.value value, after))
      (refused : encodeResult t.returns value after = (.error failure, last)) :
      Comes t frame heap (.error (caught t.name failure))
  | encoded {args : List Value} {value : Value} {bytes : Bytes} {held : Option Block}
      {seen after last : Heap}
      (decoded : decodeArgs t.foreignReads t.args frame heap = (.ok args, seen))
      (ended : t.host args seen = (.value value, after))
      (ran : encodeResult t.returns value after = (.ok (bytes, held), last)) :
      Comes t frame heap (.ok (bytes, held))

theorem comes_dispatch (t : Trampoline) (frame : List Bytes) (heap : Heap) :
    Comes t frame heap (t.dispatch frame heap).1 := by
  unfold dispatch
  split
  case h_1 refused => exact .undecoded refused
  case h_2 args seen decoded =>
    split
    case h_1 ended => exact .failed decoded ended
    case h_2 ended => exact .panicked decoded ended
    case h_3 value after ended =>
      cases ran : encodeResult t.returns value after with
      | mk result last =>
        cases result with
        | error failure => exact .unencoded decoded ended ran
        | ok result => exact .encoded decoded ended ran

/-- An encoded result fills the slot. -/
theorem length_encodeResult {value : Value} {bytes : Bytes} {held : Option Block} {after : Heap}
    (ran : encodeResult t.returns value heap = (.ok (bytes, held), after)) :
    bytes.length = t.slotSize := by
  unfold encodeResult at ran
  unfold slotSize
  split at ran
  case isTrue void =>
    cases ran
    rw [if_pos void, List.length_nil]
  case isFalse present =>
    rw [if_neg present]
    split at ran
    -- An integer below the size of a register is widened to it, which is what the slot takes.
    case isTrue narrow =>
      obtain ⟨seen, _, _, rest⟩ := HeapM.bind_eq_ok.mp ran
      obtain ⟨bits, _, _, widened⟩ := HeapM.bind_eq_ok.mp rest
      cases widened
      obtain ⟨integral, small⟩ := Bool.and_eq_true_iff.mp narrow
      rw [if_pos integral, Bytes.length_ofWord, Nat.max_eq_right (of_decide_eq_true small).le]
      rfl
    case isFalse wide =>
      obtain ⟨staging, _, _, rest⟩ := HeapM.bind_eq_ok.mp ran
      obtain ⟨_, _, _, rest⟩ := HeapM.bind_eq_ok.mp rest
      obtain ⟨seen, _, _, loaded⟩ := HeapM.bind_eq_ok.mp rest
      cases loaded
      rw [Memory.length_load]
      split
      case isTrue integral =>
        rw [integral, Bool.true_and, decide_eq_true_eq, Nat.not_lt] at wide
        exact (Nat.max_eq_left wide).symm
      case isFalse => rfl

/-- What native code, the handler and the last error have of an invocation. -/
def Answers (t : Trampoline) (frame : List Bytes) (heap : Heap) :
    Except Failure (Bytes × Option Block) → Prop
  | .ok (bytes, _) =>
    (t.enter frame heap).1 = bytes ∧ bytes.length = t.slotSize
      ∧ (t.enter frame heap).2.1.lastError = t.lastError
      ∧ (t.enter frame heap).2.1.reported = t.reported
  | .error failure =>
    (t.enter frame heap).1 = Bytes.zeros t.slotSize
      ∧ (t.enter frame heap).2.1.lastError = some failure
      ∧ (t.enter frame heap).2.1.reported
          = t.reported ++ (t.handler.map fun handler => (failure, handler failure)).toList

theorem enter_of_ok {bytes : Bytes} {held : Option Block}
    (ran : (t.dispatch frame heap).1 = .ok (bytes, held)) :
    (t.enter frame heap).1 = bytes
      ∧ (t.enter frame heap).2.1.lastError = t.lastError
      ∧ (t.enter frame heap).2.1.reported = t.reported := by
  unfold enter
  generalize t.dispatch frame heap = dispatched at ran
  obtain ⟨result, calls, after⟩ := dispatched
  obtain rfl : result = .ok (bytes, held) := ran
  exact ⟨rfl, rfl, rfl⟩

theorem enter_of_error {failure : Failure} (failed : (t.dispatch frame heap).1 = .error failure) :
    (t.enter frame heap).1 = Bytes.zeros t.slotSize
      ∧ (t.enter frame heap).2.1.lastError = some failure
      ∧ (t.enter frame heap).2.1.reported
          = t.reported ++ (t.handler.map fun handler => (failure, handler failure)).toList := by
  unfold enter
  generalize t.dispatch frame heap = dispatched at failed
  obtain ⟨result, calls, after⟩ := dispatched
  obtain rfl : result = .error failure := failed
  refine ⟨rfl, rfl, ?_⟩
  simp only [recordFailure]
  cases t.handler with
  | none => exact (List.append_nil _).symm
  | some handler => rfl

/-- Every invocation answers by what it comes to. -/
theorem exists_answers (t : Trampoline) (frame : List Bytes) (heap : Heap) :
    ∃ result, Comes t frame heap result ∧ Answers t frame heap result := by
  have comes := comes_dispatch t frame heap
  refine ⟨_, comes, ?_⟩
  cases dispatched : (t.dispatch frame heap).1 with
  | error failure => exact enter_of_error dispatched
  | ok result =>
    obtain ⟨bytes, held⟩ := result
    obtain ⟨found, kept, told⟩ := enter_of_ok dispatched
    rw [dispatched] at comes
    cases comes with
    | encoded _ _ ran => exact ⟨found, length_encodeResult ran, kept, told⟩

/-! ## Any number of invocations -/

/-- What happens to a trampoline: native code enters it, while the host function does what it does
this time; its last error is taken; or an error handler is installed. -/
inductive Event where
  | entered (host : HostFunction) (frame : List Bytes) (heap : Heap)
  | taken
  | handled (handler : ErrorHandler)

/-- Whether the last error is taken. -/
def Event.isTaken : Event → Bool
  | taken => true
  | _ => false

/-- The trampoline after an event. -/
def step (t : Trampoline) : Event → Trampoline
  | .entered host frame heap => ({ t with host }.enter frame heap).2.1
  | .taken => t.forgetError
  | .handled handler => t.handleWith handler

/-- The trampoline after some events. -/
def run (t : Trampoline) (events : List Event) : Trampoline := events.foldl step t

/-- The failure that an event comes to, if any. -/
def failure? (t : Trampoline) : Event → Option Failure
  | .entered host frame heap =>
    match ({ t with host }.dispatch frame heap).1 with
    | .ok _ => none
    | .error failure => some failure
  | _ => none

/-- The events since the last error was taken, or all of them. -/
def sinceTaken (events : List Event) : List Event := events.rtakeWhile fun event => !event.isTaken

/-- Entering a trampoline changes its records only. -/
theorem enter_eq (t : Trampoline) (frame : List Bytes) (heap : Heap) :
    ∃ lastError held calls reported,
      (t.enter frame heap).2.1 = { t with lastError, held, calls, reported } := by
  unfold enter
  generalize t.dispatch frame heap = dispatched
  obtain ⟨result, calls, after⟩ := dispatched
  cases result <;> exact ⟨_, _, _, _, rfl⟩

theorem failure?_step (event other : Event) : (t.step event).failure? other = t.failure? other := by
  cases other with
  | entered host frame heap =>
    cases event with
    -- What an invocation comes to depends on none of the records that another one changes.
    | entered host' frame' heap' =>
      obtain ⟨_, _, _, _, same⟩ := enter_eq { t with host := host' } frame' heap'
      simp only [step, same]
      rfl
    | taken => rfl
    | handled => rfl
  | taken => rfl
  | handled => rfl

theorem run_concat (events : List Event) (event : Event) :
    t.run (events ++ [event]) = (t.run events).step event := by
  rw [run, List.foldl_append]
  rfl

theorem failure?_run (events : List Event) (other : Event) :
    (t.run events).failure? other = t.failure? other := by
  induction events using List.reverseRecOn with
  | nil => rfl
  | append_singleton events event ih => rw [run_concat, failure?_step, ih]

theorem lastError_entered (t : Trampoline) (host : HostFunction) (frame : List Bytes)
    (heap : Heap) :
    (t.step (.entered host frame heap)).lastError
      = (t.failure? (.entered host frame heap)).or t.lastError := by
  simp only [step, failure?]
  cases dispatched : ({ t with host }.dispatch frame heap).1 with
  | ok result => exact (enter_of_ok dispatched).2.1
  | error failure => exact (enter_of_error dispatched).2.1

theorem sinceTaken_concat (events : List Event) {event : Event} (other : event.isTaken = false) :
    sinceTaken (events ++ [event]) = sinceTaken events ++ [event] :=
  List.rtakeWhile_concat_pos _ _ _ (by rw [other]; rfl)

theorem sinceTaken_taken (events : List Event) : sinceTaken (events ++ [.taken]) = [] :=
  List.rtakeWhile_concat_neg _ _ _ (by decide)

/-- The last error is the most recent failure since the last error was taken. -/
theorem lastError_run (t : Trampoline) (events : List Event) :
    (t.run events).lastError = ((sinceTaken events).filterMap t.failure?).getLast?.or
      (if events.any Event.isTaken then none else t.lastError) := by
  -- From the last event backwards: it is the one that the last error depends on first.
  induction events using List.reverseRecOn with
  | nil => rfl
  | append_singleton events event ih =>
    rw [run_concat]
    cases event with
    | taken =>
      rw [sinceTaken_taken]
      simp [step, forgetError, Event.isTaken]
    | handled handler =>
      rw [sinceTaken_concat _ rfl, List.filterMap_append]
      simpa [step, handleWith, Event.isTaken, failure?] using ih
    | entered host frame heap =>
      rw [lastError_entered, failure?_run, ih, sinceTaken_concat _ rfl, List.filterMap_append]
      cases came : t.failure? (.entered host frame heap) with
      | none => simp [came, Event.isTaken]
      | some failure => simp [came]

/-- What the next entry of a trampoline does, after anything that happened to it: it returns to the
native caller, and answers by what becomes of the arguments, of the host function and of its value.
Until then the last error is the most recent failure since the last error was taken. -/
theorem failure_protocol (t : Trampoline) (events : List Event) (host : HostFunction)
    (frame : List Bytes) (heap : Heap) :
    let now : Trampoline := { t.run events with host }
    now.entryCode frame heap = .returned (now.enter frame heap)
      ∧ (∃ result, Comes now frame heap result ∧ Answers now frame heap result)
      ∧ (t.run events).lastError = ((sinceTaken events).filterMap t.failure?).getLast?.or
          (if events.any Event.isTaken then none else t.lastError) :=
  ⟨entryCode_eq .., exists_answers .., lastError_run t events⟩

end Trampoline

end CInterop
