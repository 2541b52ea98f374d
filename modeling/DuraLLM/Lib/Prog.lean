import Mathlib.Data.List.Basic
import Mathlib.Logic.Relation

/-! # Programs over atomic operations

A program is a tree of operations it asks of its surroundings.  Each operation
is atomic, and the program continues with the answer.  Three readings of one
tree are used by the developments above this file:

* `exec` runs it to its end with nobody else moving;
* `Pool.run` interleaves any number of programs, one operation at a time, with
  processes that die and an outside world that moves between two operations;
* `Traces` lists the exchanges of a program with surroundings that may answer
  anything.

`Prog.Safe` is the proof rule of the second reading.  It is a rely/guarantee
condition with a single relation: what others may do between two operations of
a program is exactly what each of its own operations is allowed to do.
-/

structure Signature where
  Op : Type
  Ans : Op → Type

inductive Prog (S : Signature) (α : Type) where
  | ret (a : α)
  | ask (op : S.Op) (next : S.Ans op → Prog S α)

namespace Prog

variable {S : Signature} {α β σ : Type}

def bind : Prog S α → (α → Prog S β) → Prog S β
  | .ret a, f => f a
  | .ask op next, f => .ask op fun ans => (next ans).bind f

instance : Monad (Prog S) where
  pure := .ret
  bind := .bind

/-- A single operation, answering with what the surroundings say. -/
def call (op : S.Op) : Prog S (S.Ans op) := .ask op .ret

/-- An interpretation of the operations over a state. -/
abbrev Handler (S : Signature) (σ : Type) := (op : S.Op) → σ → S.Ans op × σ

section Sequential

variable (handle : Handler S σ)

/-- Run a program to its end, with nobody moving in between. -/
def exec : Prog S α → σ → α × σ
  | .ret a, s => (a, s)
  | .ask op next, s => (next (handle op s).1).exec (handle op s).2

@[simp] theorem exec_pure (a : α) (s : σ) : (pure a : Prog S α).exec handle s = (a, s) := rfl

@[simp] theorem exec_ask (op : S.Op) (next : S.Ans op → Prog S α) (s : σ) :
    (Prog.ask op next).exec handle s = (next (handle op s).1).exec handle (handle op s).2 := rfl

theorem exec_bind (p : Prog S α) (f : α → Prog S β) (s : σ) :
    (p >>= f).exec handle s = (f (p.exec handle s).1).exec handle (p.exec handle s).2 := by
  induction p generalizing s with
  | ret a => rfl
  | ask op next ih => exact ih _ _

/-- Every operation the program can ever ask for satisfies `P`. -/
def Asks (P : S.Op → Prop) : Prog S α → Prop
  | .ret _ => True
  | .ask op next => P op ∧ ∀ ans, (next ans).Asks P

theorem Asks.bind {P : S.Op → Prop} {p : Prog S α} {f : α → Prog S β} (asks : p.Asks P)
    (rest : ∀ a, (f a).Asks P) : (p >>= f).Asks P := by
  induction p with
  | ret a => exact rest a
  | ask op next ih => exact ⟨asks.1, fun ans => ih ans (asks.2 ans)⟩

theorem asks_true (p : Prog S α) : p.Asks fun _ => True := by
  induction p with
  | ret a => trivial
  | ask op next ih => exact ⟨trivial, ih⟩

theorem exec_keeps {I : σ → Prop} {P : S.Op → Prop} (keeps : ∀ op s, P op → I s → I (handle op s).2)
    {p : Prog S α} (asks : p.Asks P) {s : σ} (start : I s) : I (p.exec handle s).2 := by
  induction p generalizing s with
  | ret a => exact start
  | ask op next ih => exact ih _ (asks.2 _) (keeps op s asks.1 start)

/-- Run alone from `s`, every operation satisfies `P` in the state that performs
    it. -/
def Along (P : S.Op → σ → Prop) : Prog S α → σ → Prop
  | .ret _, _ => True
  | .ask op next, s => P op s ∧ (next (handle op s).1).Along P (handle op s).2

instance decidableAlong {P : S.Op → σ → Prop} [∀ op s, Decidable (P op s)] :
    (p : Prog S α) → (s : σ) → Decidable (p.Along handle P s)
  | .ret _, _ => inferInstanceAs (Decidable True)
  | .ask op next, s =>
      @instDecidableAnd _ _ _ (decidableAlong (next (handle op s).1) (handle op s).2)

theorem along_bind {P : S.Op → σ → Prop} (p : Prog S α) (f : α → Prog S β) (s : σ) :
    (p >>= f).Along handle P s ↔
      p.Along handle P s ∧ (f (p.exec handle s).1).Along handle P (p.exec handle s).2 := by
  induction p generalizing s with
  | ret a => simp [Along, exec, Bind.bind, Prog.bind]
  | ask op next ih =>
      constructor
      · rintro ⟨first, rest⟩
        obtain ⟨later, last⟩ := (ih _ _).mp rest
        exact ⟨⟨first, later⟩, last⟩
      · rintro ⟨⟨first, later⟩, last⟩
        exact ⟨first, (ih _ _).mpr ⟨later, last⟩⟩

/-- Run alone from `s`, the program ends as `post` says. -/
def Runs (p : Prog S α) (s : σ) (post : α → σ → Prop) : Prop :=
  post (p.exec handle s).1 (p.exec handle s).2

variable {handle}

theorem Runs.imp {post post' : α → σ → Prop} {p : Prog S α} {s : σ} (runs : p.Runs handle s post)
    (weaker : ∀ a t, post a t → post' a t) : p.Runs handle s post' :=
  weaker _ _ runs

theorem Runs.seq {mid : α → σ → Prop} {post : β → σ → Prop} {p : Prog S α} {f : α → Prog S β}
    {s : σ} (first : p.Runs handle s mid) (rest : ∀ a t, mid a t → (f a).Runs handle t post) :
    (p >>= f).Runs handle s post := by
  unfold Runs
  rw [exec_bind]
  exact rest _ _ first

end Sequential

section Concurrent

variable {handle : Handler S σ} {I : σ → Prop} {R : σ → σ → Prop}

/-- From state `s` on, whatever the others do along `R`, each operation of the
    program keeps `I` and moves along `R`, and its result satisfies `post`. -/
def Safe (handle : Handler S σ) (I : σ → Prop) (R : σ → σ → Prop) (post : α → σ → Prop) :
    Prog S α → σ → Prop
  | .ret a, s => post a s
  | .ask op next, s => ∀ t, R s t → I t →
      I (handle op t).2 ∧ R t (handle op t).2 ∧
        Safe handle I R post (next (handle op t).1) (handle op t).2

theorem Safe.bind {post : β → σ → Prop} {p : Prog S α} {f : α → Prog S β} {s : σ}
    (safe : Safe handle I R (fun a t => Safe handle I R post (f a) t) p s) :
    Safe handle I R post (p >>= f) s := by
  induction p generalizing s with
  | ret a => exact safe
  | ask op next ih =>
      intro t moved inv
      obtain ⟨kept, along, rest⟩ := safe t moved inv
      exact ⟨kept, along, ih _ rest⟩

theorem Safe.imp {post post' : α → σ → Prop} {p : Prog S α} {s : σ}
    (weaker : ∀ a t, post a t → post' a t) (safe : Safe handle I R post p s) :
    Safe handle I R post' p s := by
  induction p generalizing s with
  | ret a => exact weaker a s safe
  | ask op next ih =>
      intro t moved inv
      obtain ⟨kept, along, rest⟩ := safe t moved inv
      exact ⟨kept, along, ih _ rest⟩

/-- Sequencing: the rest of a program starts from what its first part ensures. -/
theorem Safe.seq {mid : α → σ → Prop} {post : β → σ → Prop} {p : Prog S α} {f : α → Prog S β}
    {s : σ} (first : Safe handle I R mid p s)
    (rest : ∀ a t, mid a t → Safe handle I R post (f a) t) :
    Safe handle I R post (p >>= f) s :=
  (first.imp rest).bind

/-- Where every operation keeps `I` and moves along `R`, a program only has to
    establish its result. -/
theorem safe_step {post : α → σ → Prop}
    (keeps : ∀ op t, I t → I (handle op t).2 ∧ R t (handle op t).2) {op : S.Op}
    {next : S.Ans op → Prog S α} {s : σ}
    (rest : ∀ t, R s t → I t →
      Safe handle I R post (next (handle op t).1) (handle op t).2) :
    Safe handle I R post (.ask op next) s := by
  intro t moved inv
  exact ⟨(keeps op t inv).1, (keeps op t inv).2, rest t moved inv⟩

theorem safe_always {post : α → σ → Prop}
    (keeps : ∀ op t, I t → I (handle op t).2 ∧ R t (handle op t).2)
    (holds : ∀ a t, post a t) (p : Prog S α) (s : σ) : Safe handle I R post p s := by
  induction p generalizing s with
  | ret a => exact holds a s
  | ask op next ih => exact safe_step keeps fun t _ _ => ih _ _

/-- What a program has yet to do stays safe when others move. -/
theorem Safe.stable {post : α → σ → Prop} {p : Prog S α} {s t : σ}
    (trans : ∀ {a b c}, R a b → R b c → R a c)
    (keeps : ∀ a {s t}, R s t → post a s → post a t)
    (moved : R s t) (safe : Safe handle I R post p s) : Safe handle I R post p t := by
  cases p with
  | ret a => exact keeps a moved safe
  | ask op next => exact fun u later inv => safe u (trans moved later) inv

end Concurrent

/-- The exchanges of a program with surroundings that may answer anything. -/
def Traces : Prog S α → List (Sigma S.Ans) → α → Prop
  | .ret a, exchanges, result => exchanges = [] ∧ a = result
  | .ask op next, exchanges, result =>
      ∃ ans rest, exchanges = ⟨op, ans⟩ :: rest ∧ (next ans).Traces rest result

theorem traces_bind {p : Prog S α} {f : α → Prog S β} {exchanges : List (Sigma S.Ans)}
    {result : β} :
    (p >>= f).Traces exchanges result ↔
      ∃ before after a, exchanges = before ++ after ∧ p.Traces before a ∧
        (f a).Traces after result := by
  induction p generalizing exchanges with
  | ret a =>
      constructor
      · intro rest
        exact ⟨[], exchanges, a, rfl, ⟨rfl, rfl⟩, rest⟩
      · rintro ⟨_, after, _, rfl, ⟨rfl, rfl⟩, rest⟩
        exact rest
  | ask op next ih =>
      constructor
      · rintro ⟨ans, rest, rfl, tail⟩
        obtain ⟨before, after, a, rfl, first, second⟩ := (ih ans).mp tail
        exact ⟨⟨op, ans⟩ :: before, after, a, rfl, ⟨ans, before, rfl, first⟩, second⟩
      · rintro ⟨_, after, a, rfl, ⟨ans, before, rfl, first⟩, second⟩
        exact ⟨ans, before ++ after, rfl, (ih ans).mpr ⟨before, after, a, rfl, first, second⟩⟩

end Prog

/-! ## Interleaved programs -/

/-- A call in progress. `rest` is what is left of its program, and `none` once
    the process that ran it has died. -/
structure Thread (S : Signature) (ι α : Type) where
  label : ι
  rest : Option (Prog S α)

namespace Thread

variable {S : Signature} {ι α : Type}

/-- The result of a finished call. -/
def result (t : Thread S ι α) : Option α :=
  match t.rest with
  | some (.ret a) => some a
  | _ => none

/-- The operation that is next. -/
def nextOp (t : Thread S ι α) : Option S.Op :=
  match t.rest with
  | some (.ask op _) => some op
  | _ => none

/-- A dying process takes its unfinished calls with it; results already handed
    to a caller stay with the caller. -/
def die (t : Thread S ι α) : Thread S ι α :=
  match t.rest with
  | some (.ask _ _) => { t with rest := none }
  | _ => t

@[simp] theorem die_label (t : Thread S ι α) : t.die.label = t.label := by
  unfold die
  split <;> rfl

theorem die_rest {t : Thread S ι α} {p : Prog S α} (running : t.die.rest = some p) :
    t.rest = some p := by
  obtain ⟨label, rest⟩ := t
  cases rest with
  | none => simp [die] at running
  | some q => cases q with
    | ret a => exact running
    | ask op next => simp [die] at running

end Thread

/-- How calls are run: the program behind each label, which labels may start,
    what the operations do for the `index`-th call, what the outside world can
    do, and which calls an outside event kills. -/
structure Machine (S : Signature) (σ ι ε α : Type) where
  program : ι → Prog S α
  admits : List (Thread S ι α) → ι → Bool
  handle : Nat → Prog.Handler S σ
  outside : ε → σ → σ
  kills : ε → ι → Bool

structure Pool (S : Signature) (σ ι α : Type) where
  state : σ
  threads : List (Thread S ι α)

inductive Move (ι ε : Type) where
  /-- Issue a new call. -/
  | spawn (label : ι)
  /-- Let the call at this position perform its next operation. -/
  | run (index : Nat)
  /-- The outside world moves. -/
  | outside (event : ε)

namespace Pool

variable {S : Signature} {σ ι ε α : Type} (m : Machine S σ ι ε α)

def step (pool : Pool S σ ι α) : Move ι ε → Pool S σ ι α
  | .spawn label =>
      if m.admits pool.threads label then
        { pool with threads := pool.threads ++ [⟨label, some (m.program label)⟩] }
      else pool
  | .run index =>
      match pool.threads[index]? with
      | some ⟨label, some (.ask op next)⟩ =>
          { state := (m.handle index op pool.state).2
            threads := pool.threads.set index
              ⟨label, some (next (m.handle index op pool.state).1)⟩ }
      | _ => pool
  | .outside event =>
      { state := m.outside event pool.state
        threads := pool.threads.map fun t => if m.kills event t.label then t.die else t }

/-- Any interleaving is a list of moves. -/
def run (pool : Pool S σ ι α) (moves : List (Move ι ε)) : Pool S σ ι α := moves.foldl (step m) pool

section Invariants

/-- The call that the move lets perform an operation, and the operation. -/
def performs (pool : Pool S σ ι α) : Move ι ε → Option (Nat × S.Op)
  | .run index =>
      match pool.threads[index]? with
      | some ⟨_, some (.ask op _)⟩ => some (index, op)
      | _ => none
  | _ => none

/-- Every operation of the interleaving satisfies `P` in the pool that performs
    it. -/
def Along (P : Pool S σ ι α → Nat → S.Op → Prop) (pool : Pool S σ ι α) :
    List (Move ι ε) → Prop
  | [] => True
  | move :: moves =>
      (∀ next ∈ pool.performs move, P pool next.1 next.2) ∧ Along P (pool.step m move) moves

instance decidableAlong {P : Pool S σ ι α → Nat → S.Op → Prop}
    [∀ pool index op, Decidable (P pool index op)] (pool : Pool S σ ι α) :
    (moves : List (Move ι ε)) → Decidable (pool.Along m P moves)
  | [] => inferInstanceAs (Decidable True)
  | move :: moves => @instDecidableAnd _ _ inferInstance (decidableAlong (pool.step m move) moves)

variable {m}

theorem along_true (pool : Pool S σ ι α) (moves : List (Move ι ε)) :
    pool.Along m (fun _ _ _ => True) moves := by
  induction moves generalizing pool with
  | nil => trivial
  | cons move moves ih => exact ⟨fun _ _ => trivial, ih _⟩

/-- What every move keeps holds after every interleaving. -/
theorem run_keeps {I : Pool S σ ι α → Prop} {P : Pool S σ ι α → Nat → S.Op → Prop}
    (keeps : ∀ pool move, I pool → (∀ next ∈ pool.performs move, P pool next.1 next.2) →
      I (pool.step m move))
    {pool : Pool S σ ι α} (start : I pool) (moves : List (Move ι ε))
    (along : pool.Along m P moves) : I (pool.run m moves) := by
  induction moves generalizing pool with
  | nil => exact start
  | cons move moves ih => exact ih (keeps pool move start along.1) along.2

end Invariants

section RelyGuarantee

variable {m}
variable (I : σ → Prop) (R : σ → σ → Prop) (post : Nat → ι → α → σ → Prop)

/-- The pool invariant of the rely/guarantee rule. -/
structure Safe (pool : Pool S σ ι α) : Prop where
  invariant : I pool.state
  threads : ∀ index label p, pool.threads[index]? = some ⟨label, some p⟩ →
    Prog.Safe (m.handle index) I R (post index label) p pool.state

/-- The premises of the rule: `R` composes, results stay true along `R`, the
    outside world respects both, and every admitted call starts out safe. -/
structure Rule : Prop where
  refl : ∀ s, R s s
  trans : ∀ {a b c}, R a b → R b c → R a c
  postStable : ∀ index label a {s t}, R s t → post index label a s → post index label a t
  outside : ∀ event s, I s → I (m.outside event s) ∧ R s (m.outside event s)
  starts : ∀ (pool : Pool S σ ι α) label, Safe (m := m) I R post pool →
    m.admits pool.threads label →
    Prog.Safe (m.handle pool.threads.length) I R (post pool.threads.length label)
      (m.program label) pool.state

variable {I R post}

/-- One move: it keeps the pool safe and moves the state along `R`. -/
theorem Safe.step (rule : Rule (m := m) I R post) {pool : Pool S σ ι α}
    (safe : Safe (m := m) I R post pool) (move : Move ι ε) :
    Safe (m := m) I R post (pool.step m move) ∧ R pool.state (pool.step m move).state := by
  cases move with
  | spawn label =>
      simp only [Pool.step]
      split
      next admitted =>
        refine ⟨⟨safe.invariant, ?_⟩, rule.refl _⟩
        intro index other p found
        simp only [List.getElem?_append] at found
        split at found
        · exact safe.threads index other p found
        · next outside =>
          have last : index - pool.threads.length = 0 := by
            by_contra positive
            simp [List.getElem?_eq_none, Nat.one_le_iff_ne_zero.mpr positive] at found
          have position : index = pool.threads.length := by omega
          subst position
          simp only [Nat.sub_self, List.getElem?_cons_zero, Option.some.injEq, Thread.mk.injEq] at found
          obtain ⟨rfl, rfl⟩ := found
          exact rule.starts pool _ safe admitted
      next => exact ⟨safe, rule.refl _⟩
  | run index =>
      simp only [Pool.step]
      split
      next label op next running =>
        have own := safe.threads index label _ running
        obtain ⟨kept, along, rest⟩ := own pool.state (rule.refl _) safe.invariant
        refine ⟨⟨kept, ?_⟩, along⟩
        intro other otherLabel p found
        by_cases same : index = other
        · subst same
          have inside : index < pool.threads.length := (List.getElem?_eq_some_iff.mp running).1
          simp only [List.getElem?_set_self inside, Option.some.injEq, Thread.mk.injEq] at found
          obtain ⟨rfl, rfl⟩ := found
          exact rest
        · simp only [List.getElem?_set_ne same] at found
          exact (safe.threads other otherLabel p found).stable rule.trans
            (fun a _ _ => rule.postStable other otherLabel a) along
      next => exact ⟨safe, rule.refl _⟩
  | outside event =>
      obtain ⟨kept, along⟩ := rule.outside event pool.state safe.invariant
      refine ⟨⟨kept, ?_⟩, along⟩
      intro index label p found
      simp only [Pool.step, List.getElem?_map, Option.map_eq_some_iff] at found
      obtain ⟨t, located, same⟩ := found
      have before : t.label = label ∧ t.rest = some p := by
        split at same
        · exact ⟨by rw [← Thread.die_label t, same], Thread.die_rest (by rw [same])⟩
        · subst same
          exact ⟨rfl, rfl⟩
      refine (safe.threads index label p ?_).stable rule.trans
        (fun a _ _ => rule.postStable index label a) along
      rw [located, ← before.1, ← before.2]

/-- The run lemma: any interleaving stays safe and moves along `R`. -/
theorem Safe.run (rule : Rule (m := m) I R post) {pool : Pool S σ ι α}
    (safe : Safe (m := m) I R post pool) (moves : List (Move ι ε)) :
    Safe (m := m) I R post (pool.run m moves) ∧ R pool.state (pool.run m moves).state := by
  induction moves generalizing pool with
  | nil => exact ⟨safe, rule.refl _⟩
  | cons move moves ih =>
      obtain ⟨next, along⟩ := safe.step rule move
      obtain ⟨final, rest⟩ := ih next
      exact ⟨final, rule.trans along rest⟩

/-- A finished call in a safe pool satisfies its postcondition. -/
theorem Safe.result {pool : Pool S σ ι α} (safe : Safe (m := m) I R post pool)
    {index : Nat} {t : Thread S ι α} {a : α} (located : pool.threads[index]? = some t)
    (finished : t.result = some a) : post index t.label a pool.state := by
  obtain ⟨label, rest⟩ := t
  cases rest with
  | none => simp [Thread.result] at finished
  | some p =>
      cases p with
      | ret b =>
          obtain rfl : b = a := by simpa [Thread.result] using finished
          exact safe.threads index label _ located
      | ask op next => simp [Thread.result] at finished

end RelyGuarantee

end Pool
