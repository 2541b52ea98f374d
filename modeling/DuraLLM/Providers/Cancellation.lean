import Mathlib.Algebra.Order.Group.Multiset
import Mathlib.Data.List.Induction
import Mathlib.Tactic.Abel

/-! # Cancelling a request

Any number of threads add callbacks to a token and cancel it, each call in the
steps that other threads can see.  The flag and the reason are read without the
lock, so the two steps that write them stand apart.
-/

namespace DuraLLM

/-- Where the call is that holds the lock. -/
inductive TokenHolder (Callback : Type) where
  | adding (callback : Callback)
  | cancelling (reason : String)
  | reasonSet
  | flagSet

/-- The callback that the call brings. -/
def TokenHolder.handedIn {Callback : Type} : TokenHolder Callback → List Callback
  | .adding callback => [callback]
  | _ => []

/-- The token, the callbacks that each cancel call outside the lock has still to
    run, those that were run, and those that were ever handed in. -/
structure RequestCancellation (Callback : Type) where
  cancelled : Bool := false
  reason : String := ""
  callbacks : List Callback := []
  lock : Option (TokenHolder Callback) := none
  running : List (List Callback) := []
  ran : List Callback := []
  added : List Callback := []

/-- A thread enters a call, the call in the lock takes its next step, or the
    `i`-th cancel call outside the lock runs its next callback. -/
inductive CancellationStep (Callback : Type) where
  | addCallback (callback : Callback)
  | cancel (reason : String)
  | proceed
  | run (i : Nat)

namespace RequestCancellation

variable {Callback : Type}

/-- The lock is not given to a second call: it waits. -/
def enter (token : RequestCancellation Callback) (call : TokenHolder Callback) :
    RequestCancellation Callback :=
  match token.lock with
  | some _ => token
  | none => { token with lock := some call, added := token.added ++ call.handedIn }

def proceed (token : RequestCancellation Callback) : RequestCancellation Callback :=
  match token.lock with
  | none => token
  | some (.adding callback) =>
      if token.cancelled then { token with ran := token.ran ++ [callback], lock := none }
      else { token with callbacks := token.callbacks ++ [callback], lock := none }
  | some (.cancelling reason) =>
      if token.cancelled then { token with lock := none }
      else { token with reason, lock := some .reasonSet }
  | some .reasonSet => { token with cancelled := true, lock := some .flagSet }
  | some .flagSet =>
      { token with callbacks := [], running := token.running ++ [token.callbacks], lock := none }

/-- What a callback raises is swallowed. -/
def runNext (token : RequestCancellation Callback) (i : Nat) : RequestCancellation Callback :=
  match token.running[i]? with
  | some (callback :: later) =>
      { token with running := token.running.set i later, ran := token.ran ++ [callback] }
  | _ => token

def after (token : RequestCancellation Callback) :
    CancellationStep Callback → RequestCancellation Callback
  | .addCallback callback => token.enter (.adding callback)
  | .cancel reason => token.enter (.cancelling reason)
  | .proceed => token.proceed
  | .run i => token.runNext i

def run (steps : List (CancellationStep Callback)) : RequestCancellation Callback :=
  steps.foldl after {}

/-! ## Every callback has one place -/

/-- Callbacks that are not run yet. -/
def waiting (token : RequestCancellation Callback) : Multiset Callback :=
  token.callbacks + (token.lock.toList.flatMap TokenHolder.handedIn) + token.running.flatten

structure Kept (token : RequestCancellation Callback) : Prop where
  places : (token.ran : Multiset Callback) + token.waiting = token.added
  before : token.cancelled = false →
    token.ran = [] ∧ token.running = [] ∧ token.lock ≠ some .flagSet
  since : token.cancelled = true →
    token.lock ≠ some .reasonSet ∧ (token.lock ≠ some .flagSet → token.callbacks = [])

theorem Kept.new : Kept ({} : RequestCancellation Callback) :=
  ⟨rfl, fun _ => ⟨rfl, rfl, nofun⟩, fun set => by cases set⟩

theorem coe_flatten_set {running : List (List Callback)} {i : Nat} {callback : Callback}
    {later : List Callback} (found : running[i]? = some (callback :: later)) :
    (running.flatten : Multiset Callback) = callback ::ₘ ((running.set i later).flatten) := by
  obtain ⟨inside, here⟩ := List.getElem?_eq_some_iff.mp found
  rw [List.set_eq_take_append_cons_drop, if_pos inside]
  conv_lhs => rw [← List.take_append_drop i running, List.drop_eq_getElem_cons inside, here]
  simp only [List.flatten_append, List.flatten_cons, ← Multiset.coe_add, List.cons_append,
    ← Multiset.cons_coe, Multiset.add_cons]

theorem Kept.enter {token : RequestCancellation Callback} (kept : token.Kept)
    {call : TokenHolder Callback} (unflagged : call ≠ .flagSet) (unset : call ≠ .reasonSet) :
    (token.enter call).Kept := by
  unfold RequestCancellation.enter
  split
  · exact kept
  · next free =>
    refine ⟨?_, fun clear => ?_, fun set => ?_⟩
    · have places := kept.places
      simp only [waiting, free, Option.toList_none, List.flatMap_nil, Multiset.coe_nil,
        add_zero] at places
      rw [← Multiset.coe_add, ← places]
      simp only [waiting, Option.toList_some, List.flatMap_singleton]
      abel
    · obtain ⟨ran, running, -⟩ := kept.before clear
      exact ⟨ran, running, fun held => unflagged (Option.some.inj held)⟩
    · obtain ⟨-, empty⟩ := kept.since set
      exact ⟨fun held => unset (Option.some.inj held), fun _ => empty (by rw [free]; nofun)⟩

theorem Kept.proceed {token : RequestCancellation Callback} (kept : token.Kept) :
    token.proceed.Kept := by
  obtain ⟨places, before, since⟩ := kept
  unfold RequestCancellation.proceed
  simp only [waiting] at places
  split
  · exact ⟨places, before, since⟩
  · next callback held =>
    simp only [held, Option.toList_some, List.flatMap_singleton, TokenHolder.handedIn] at places
    split_ifs with set
    · obtain ⟨-, empty⟩ := since set
      refine ⟨?_, fun clear => ?_, fun _ => ?_⟩
      · rw [← places]
        simp only [waiting, Option.toList_none, List.flatMap_nil, ← Multiset.coe_add,
          Multiset.coe_nil, add_zero]
        abel
      · rw [set] at clear
        cases clear
      · exact ⟨nofun, fun _ => empty (by rw [held]; nofun)⟩
    · have clear : token.cancelled = false := by simpa using set
      refine ⟨?_, fun _ => ?_, fun now => ?_⟩
      · rw [← places]
        simp only [waiting, Option.toList_none, List.flatMap_nil, ← Multiset.coe_add,
          Multiset.coe_nil, add_zero]
      · exact ⟨(before clear).1, (before clear).2.1, nofun⟩
      · exact absurd now set
  · next reason held =>
    simp only [held, Option.toList_some, List.flatMap_singleton, TokenHolder.handedIn] at places
    split_ifs with set
    · obtain ⟨-, empty⟩ := since set
      refine ⟨by simpa [waiting, TokenHolder.handedIn] using places, fun clear => ?_, fun _ => ?_⟩
      · rw [set] at clear
        cases clear
      · exact ⟨nofun, fun _ => empty (by rw [held]; nofun)⟩
    · have clear : token.cancelled = false := by simpa using set
      exact ⟨by simpa [waiting, TokenHolder.handedIn] using places,
        fun _ => ⟨(before clear).1, (before clear).2.1, nofun⟩, fun now => absurd now set⟩
  · next held =>
    simp only [held, Option.toList_some, List.flatMap_singleton, TokenHolder.handedIn] at places
    exact ⟨by simpa [waiting, TokenHolder.handedIn] using places, nofun,
      fun _ => ⟨nofun, fun out => absurd rfl out⟩⟩
  · next held =>
    simp only [held, Option.toList_some, List.flatMap_singleton, TokenHolder.handedIn] at places
    refine ⟨?_, fun clear => absurd held (before clear).2.2, fun _ => ⟨nofun, fun _ => rfl⟩⟩
    rw [← places]
    simp only [waiting, Option.toList_none, List.flatMap_nil, List.flatten_append,
      List.flatten_singleton, ← Multiset.coe_add, Multiset.coe_nil, add_zero, zero_add]
    abel

theorem Kept.runNext {token : RequestCancellation Callback} (kept : token.Kept) (i : Nat) :
    (token.runNext i).Kept := by
  unfold RequestCancellation.runNext
  split
  · next callback later found =>
    refine ⟨?_, fun clear => ?_, kept.since⟩
    · rw [← kept.places]
      simp only [waiting, coe_flatten_set found, ← Multiset.coe_add, ← Multiset.singleton_add,
        ← Multiset.coe_singleton]
      abel
    · rw [(kept.before clear).2.1] at found
      cases found
  · exact kept

theorem Kept.after {token : RequestCancellation Callback} (kept : token.Kept)
    (step : CancellationStep Callback) : (token.after step).Kept := by
  cases step with
  | addCallback callback => exact kept.enter nofun nofun
  | cancel reason => exact kept.enter nofun nofun
  | proceed => exact kept.proceed
  | run i => exact kept.runNext i

theorem Kept.run (steps : List (CancellationStep Callback)) : (run steps).Kept := by
  induction steps using List.reverseRecOn with
  | nil => exact .new
  | append_singleton steps step ih =>
      rw [RequestCancellation.run, List.foldl_append]
      exact ih.after step

/-- No callback runs twice or before the flag is set, and once no call is under
    way on a cancelled token every callback has run. -/
structure OnceEach (token : RequestCancellation Callback) : Prop where
  atMostOnce : (token.ran : Multiset Callback) ≤ token.added
  notBefore : token.cancelled = false → token.ran = []
  allRun : token.cancelled = true → token.lock = none → (∀ later ∈ token.running, later = []) →
    token.ran.Perm token.added

theorem Kept.onceEach {token : RequestCancellation Callback} (kept : token.Kept) :
    token.OnceEach where
  atMostOnce := kept.places ▸ Multiset.le_add_right _ _
  notBefore := fun clear => (kept.before clear).1
  allRun := by
    intro set free drained
    have callbacks : token.callbacks = [] := (kept.since set).2 (by rw [free]; nofun)
    have flat : token.running.flatten = [] := List.flatten_eq_nil_iff.mpr drained
    have places := kept.places
    simp only [waiting, callbacks, free, flat, Option.toList_none, List.flatMap_nil,
      Multiset.coe_nil, add_zero] at places
    exact Multiset.coe_eq_coe.mp places

/-- However the threads of a request take turns, each callback runs once. -/
theorem run_onceEach (steps : List (CancellationStep Callback)) : (run steps).OnceEach :=
  (Kept.run steps).onceEach

/-! ## One reason -/

/-- Once set, the flag and the reason stay. -/
def Settled (token later : RequestCancellation Callback) : Prop :=
  token.cancelled = true → later.cancelled = true ∧ later.reason = token.reason

theorem settled_after (token : RequestCancellation Callback) (step : CancellationStep Callback) :
    token.Settled (token.after step) := by
  intro set
  cases step with
  | addCallback callback =>
      simp only [after, enter]
      split <;> exact ⟨set, rfl⟩
  | cancel reason =>
      simp only [after, enter]
      split <;> exact ⟨set, rfl⟩
  | run i =>
      simp only [after, runNext]
      split <;> exact ⟨set, rfl⟩
  | proceed =>
      simp only [after, proceed]
      split
      · exact ⟨set, rfl⟩
      · rw [if_pos set]
        exact ⟨set, rfl⟩
      · rw [if_pos set]
        exact ⟨set, rfl⟩
      · exact ⟨rfl, rfl⟩
      · exact ⟨set, rfl⟩

theorem settled_foldl (token : RequestCancellation Callback)
    (later : List (CancellationStep Callback)) : token.Settled (later.foldl after token) := by
  induction later generalizing token with
  | nil => exact fun set => ⟨set, rfl⟩
  | cons step later ih =>
      intro set
      obtain ⟨still, same⟩ := settled_after token step set
      obtain ⟨last, reason⟩ := ih (token.after step) still
      exact ⟨last, reason.trans same⟩

/-- The reason on its way, or given, is one that a cancel call brought. -/
structure Brought (steps : List (CancellationStep Callback))
    (token : RequestCancellation Callback) : Prop where
  held : ∀ reason, token.lock = some (.cancelling reason) → .cancel reason ∈ steps
  given : token.lock = some .reasonSet ∨ token.cancelled = true → .cancel token.reason ∈ steps

theorem Brought.later {steps : List (CancellationStep Callback)}
    {token : RequestCancellation Callback} (brought : Brought steps token)
    (step : CancellationStep Callback) : Brought (steps ++ [step]) token :=
  ⟨fun reason held => List.mem_append_left _ (brought.held reason held),
    fun given => List.mem_append_left _ (brought.given given)⟩

/-- A step that leaves the flag and the reason as they are, and the lock with no
    cancel call short of setting the flag. -/
theorem Brought.relocked {steps : List (CancellationStep Callback)}
    {token next : RequestCancellation Callback} (brought : Brought steps token)
    (flag : next.cancelled = token.cancelled) (same : next.reason = token.reason)
    (unheld : ∀ reason, next.lock ≠ some (.cancelling reason))
    (unset : next.lock ≠ some .reasonSet) : Brought steps next := by
  refine ⟨fun reason held => absurd held (unheld reason), fun given => ?_⟩
  rw [same]
  rcases given with held | set
  · exact absurd held unset
  · exact brought.given (.inr (flag ▸ set))

theorem Brought.after {steps : List (CancellationStep Callback)}
    {token : RequestCancellation Callback} (brought : Brought steps token)
    (step : CancellationStep Callback) : Brought (steps ++ [step]) (token.after step) := by
  have earlier : Brought (steps ++ [step]) token := brought.later step
  cases step with
  | addCallback callback =>
      simp only [RequestCancellation.after, enter]
      split
      · exact earlier
      · exact earlier.relocked rfl rfl nofun nofun
  | cancel reason =>
      simp only [RequestCancellation.after, enter]
      split
      · exact earlier
      · -- the reason in the lock is the one this step brings
        refine ⟨fun other held => ?_, fun given => earlier.given (.inr (given.resolve_left nofun))⟩
        obtain rfl := TokenHolder.cancelling.inj (Option.some.inj held)
        exact List.mem_append_right _ (List.mem_singleton_self _)
  | run i =>
      simp only [RequestCancellation.after, runNext]
      split
      · exact ⟨earlier.held, earlier.given⟩
      · exact earlier
  | proceed =>
      simp only [RequestCancellation.after, RequestCancellation.proceed]
      split
      · exact earlier
      · split <;> exact earlier.relocked rfl rfl nofun nofun
      · next reason held =>
        split
        · exact earlier.relocked rfl rfl nofun nofun
        · exact ⟨nofun, fun _ => earlier.held reason held⟩
      · next held => exact ⟨nofun, fun _ => earlier.given (.inl held)⟩
      · exact earlier.relocked rfl rfl nofun nofun

theorem Brought.run (steps : List (CancellationStep Callback)) : Brought steps (run steps) := by
  induction steps using List.reverseRecOn with
  | nil => exact ⟨nofun, by rintro (held | set) <;> trivial⟩
  | append_singleton steps step ih =>
      rw [RequestCancellation.run, List.foldl_append]
      exact ih.after step

/-- A thread that sees the flag without the lock reads, then and later, one
    reason: that of a cancel call. -/
def OneReason (steps later : List (CancellationStep Callback)) : Prop :=
  (run steps).cancelled = true →
    (run (steps ++ later)).cancelled = true ∧
      (run (steps ++ later)).reason = (run steps).reason ∧
        .cancel (run steps).reason ∈ steps

theorem run_oneReason (steps later : List (CancellationStep Callback)) : OneReason steps later := by
  intro set
  have settled := settled_foldl (run steps) later set
  rw [run, List.foldl_append]
  exact ⟨settled.1, settled.2, (Brought.run steps).given (.inr set)⟩

end RequestCancellation

end DuraLLM
