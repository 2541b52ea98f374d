/-! # What one side of a machine sees

A machine answers one call after another.  Some of the calls are a caller's
own, the others are foreign.  When two states that are alike for the caller
answer its own calls alike, and a foreign call leaves a state that is alike,
the caller gets the answers it would get if the foreign calls were left out.
-/

namespace Unwinding

variable {State Call Answer : Type} (step : State → Call → Answer × State)

/-- The answers to the caller's own calls. -/
def answers (own : Call → Bool) (s : State) : List Call → List Answer
  | [] => []
  | call :: calls =>
      let (answer, after) := step s call
      if own call then answer :: answers own after calls else answers own after calls

/-- `Alike call` relates the states that the call, and those that may come after
    it, cannot tell apart. -/
structure Unwinds (own : Call → Bool) (before : Call → Call → Prop)
    (Alike : Call → State → State → Prop) : Prop where
  answer : ∀ call s t, own call = true → Alike call s t → (step s call).1 = (step t call).1
  both : ∀ call later s t, own call = true → before call later → Alike call s t →
    Alike later (step s call).2 (step t call).2
  alone : ∀ call later s t, own call = false → before call later → Alike call s t →
    Alike later (step s call).2 t

variable {step} {own : Call → Bool} {before : Call → Call → Prop}
  {Alike : Call → State → State → Prop}

/-- The foreign calls make no difference to the answers. -/
theorem Unwinds.answers_purged (unwinds : Unwinds step own before Alike) {calls : List Call}
    {s t : State} (order : calls.Pairwise before) (alike : ∀ call ∈ calls, Alike call s t) :
    answers step own s calls = answers step own t (calls.filter own) := by
  induction calls generalizing s t with
  | nil => rfl
  | cons call calls ih =>
      rw [List.pairwise_cons] at order
      have here := alike call List.mem_cons_self
      cases mine : own call with
      | true =>
          simp only [answers, List.filter_cons, mine, if_true, unwinds.answer call s t mine here]
          rw [ih order.2 fun later member => unwinds.both call later s t mine
            (order.1 later member) here]
      | false =>
          simp only [answers, List.filter_cons, mine, Bool.false_eq_true, if_false]
          exact ih order.2 fun later member => unwinds.alone call later s t mine
            (order.1 later member) here

end Unwinding
