import DuraLLM.Lib.Prog

/-! # Transcripts of programs

The exchanges of one run, and a proof rule for what a program leaves in a log
of them.  A `note` picks out of each exchange what it adds to the log, if
anything; `Prog.Logs` says what a program can leave there whatever it is
answered.  Two signatures are put side by side by `Signature.sum`, so that a
program over the left one is silent in every log that only notes the right one.

A `Contract` adds what a program takes for granted of the answers and what it
promises of the operations it asks for.  `Prog.Meets` is the rule for one
program; run with surroundings that are fair as long as the promise is kept,
the promise is kept to the end.
-/

def Signature.sum (S T : Signature) : Signature where
  Op := S.Op ⊕ T.Op
  Ans := Sum.elim S.Ans T.Ans

namespace Prog

variable {S T : Signature} {α β σ ω : Type}

/-- The exchanges of a run with nobody else moving. -/
def transcript (handle : Handler S σ) : Prog S α → σ → List (Sigma S.Ans)
  | .ret _, _ => []
  | .ask op next, s =>
      ⟨op, (handle op s).1⟩ :: (next (handle op s).1).transcript handle (handle op s).2

theorem traces_exec (handle : Handler S σ) (p : Prog S α) (s : σ) :
    p.Traces (p.transcript handle s) (p.exec handle s).1 := by
  induction p generalizing s with
  | ret a => exact ⟨rfl, rfl⟩
  | ask op next ih => exact ⟨_, _, rfl, ih _ _⟩

/-- A program over the left of two signatures. -/
def inLeft : Prog S α → Prog (S.sum T) α
  | .ret a => .ret a
  | .ask op next => .ask (.inl op) fun ans => (next ans).inLeft

section Log

variable {note : Sigma S.Ans → Option ω}

/-- Whatever the program is answered, its result and its log satisfy `post`. -/
def Logs (note : Sigma S.Ans → Option ω) (post : α → List ω → Prop) (p : Prog S α) : Prop :=
  ∀ exchanges result, p.Traces exchanges result → post result (exchanges.filterMap note)

theorem logs_ret {post : α → List ω → Prop} {a : α} (holds : post a []) :
    (Prog.ret a : Prog S α).Logs note post := by
  rintro _ _ ⟨rfl, rfl⟩
  exact holds

theorem logs_ask {post : α → List ω → Prop} {op : S.Op} {next : S.Ans op → Prog S α}
    (rest : ∀ ans, (next ans).Logs note fun a log => post a ((note ⟨op, ans⟩).toList ++ log)) :
    (Prog.ask op next).Logs note post := by
  rintro _ result ⟨ans, tail, rfl, traces⟩
  have held := rest ans tail result traces
  cases noted : note ⟨op, ans⟩ with
  | none => simpa only [List.filterMap_cons, noted, Option.toList_none, List.nil_append] using held
  | some mark =>
      simpa only [List.filterMap_cons, noted, Option.toList_some, List.singleton_append] using held

theorem Logs.imp {post post' : α → List ω → Prop} {p : Prog S α} (logs : p.Logs note post)
    (weaker : ∀ a log, post a log → post' a log) : p.Logs note post' :=
  fun exchanges result traces => weaker _ _ (logs exchanges result traces)

theorem Logs.seq {mid : α → List ω → Prop} {post : β → List ω → Prop} {p : Prog S α}
    {f : α → Prog S β} (first : p.Logs note mid)
    (rest : ∀ a log, mid a log → (f a).Logs note fun b more => post b (log ++ more)) :
    (p >>= f).Logs note post := by
  intro exchanges result traces
  obtain ⟨before, after, a, rfl, one, two⟩ := traces_bind.mp traces
  rw [List.filterMap_append]
  exact rest a _ (first before a one) after result two

/-- A part that is noted nowhere. -/
theorem logs_unnoted {post : β → List ω → Prop} (p : Prog S α) {f : α → Prog S β}
    (rest : ∀ a, (f a).Logs (fun _ => none) post) : (p >>= f).Logs (fun _ => none) post := by
  intro exchanges result traces
  obtain ⟨before, after, a, rfl, _, later⟩ := traces_bind.mp traces
  simpa only [List.filterMap_none] using rest a after result later

section Raising

variable {ε : Type} {f : α → ExceptT ε (Prog S) β}

/-- Sequencing of programs that may raise. -/
theorem Logs.raising {p : ExceptT ε (Prog S) α} {mid : Except ε α → List ω → Prop}
    {post : Except ε β → List ω → Prop} (first : p.run.Logs note mid)
    (raised : ∀ e log, mid (.error e) log → post (.error e) log)
    (rest : ∀ a log, mid (.ok a) log → (f a).run.Logs note fun b more => post b (log ++ more)) :
    (p >>= f).run.Logs note post := by
  refine first.seq fun result log held => ?_
  cases result with
  | ok a => exact rest a log held
  | error e =>
      refine logs_ret ?_
      rw [List.append_nil]
      exact raised e log held

theorem Logs.lift {q : Prog S α} {mid : α → List ω → Prop} {post : Except ε β → List ω → Prop}
    (first : q.Logs note mid)
    (rest : ∀ a log, mid a log → (f a).run.Logs note fun b more => post b (log ++ more)) :
    ((ExceptT.lift q : ExceptT ε (Prog S) α) >>= f).run.Logs note post := by
  have lifted : (ExceptT.lift q : ExceptT ε (Prog S) α).run.Logs note
      fun result log => ∃ a, result = .ok a ∧ mid a log :=
    first.seq fun a log held => logs_ret ⟨a, rfl, (List.append_nil log).symm ▸ held⟩
  refine lifted.raising (fun e log held => ?_) fun a log held => ?_
  · obtain ⟨a, same, _⟩ := held
    cases same
  · obtain ⟨_, same, held⟩ := held
    cases same
    exact rest a log held

end Raising

end Log

/-- The log of a program over the left of two signatures. -/
theorem Logs.inLeft {note : Sigma (S.sum T).Ans → Option ω} {post : α → List ω → Prop}
    {p : Prog S α} (logs : p.Logs (fun exchange => note ⟨.inl exchange.1, exchange.2⟩) post) :
    (p.inLeft : Prog (S.sum T) α).Logs note post := by
  induction p generalizing post with
  | ret a => exact logs_ret (logs [] a ⟨rfl, rfl⟩)
  | ask op next ih =>
      refine logs_ask fun ans => ih ans fun exchanges result traces => ?_
      have held := logs (⟨op, ans⟩ :: exchanges) result ⟨ans, exchanges, rfl, traces⟩
      cases noted : note ⟨.inl op, ans⟩ with
      | none => simpa only [List.filterMap_cons, noted, Option.toList_none, List.nil_append] using held
      | some mark =>
          simpa only [List.filterMap_cons, noted, Option.toList_some, List.singleton_append]
            using held

/-- A program over the left signature leaves no trace in a log of the right. -/
theorem logs_inLeft {note : Sigma (S.sum T).Ans → Option ω} {post : α → List ω → Prop}
    (silent : ∀ op ans, note ⟨.inl op, ans⟩ = none) (p : Prog S α) (holds : ∀ a, post a []) :
    (p.inLeft : Prog (S.sum T) α).Logs note post := by
  induction p with
  | ret a => exact logs_ret (holds a)
  | ask op next ih =>
      refine logs_ask fun ans => ?_
      rw [silent]
      exact ih ans

end Prog

/-! ## Contracts -/

/-- Which answers a program takes for granted, which operations it promises to
    keep to, and what it leaves in the log. -/
structure Contract (S : Signature) (ω : Type) where
  fair : (op : S.Op) → S.Ans op → Prop
  good : S.Op → Prop
  note : Sigma S.Ans → Option ω

/-- The part of a contract that a program over the left signature sees. -/
def Contract.left {S T : Signature} {ω : Type} (c : Contract (S.sum T) ω) : Contract S ω where
  fair := fun op ans => c.fair (.inl op) ans
  good := fun op => c.good (.inl op)
  note := fun exchange => c.note ⟨.inl exchange.1, exchange.2⟩

namespace Prog

variable {S T : Signature} {α β σ ω : Type} {c : Contract S ω}

/-- As long as the answers are fair, every operation is good, and the result and
    the log satisfy `post`. -/
def Meets (c : Contract S ω) : Prog S α → (α → List ω → Prop) → Prop
  | .ret a, post => post a []
  | .ask op next, post =>
      c.good op ∧ ∀ ans, c.fair op ans →
        (next ans).Meets c fun a log => post a ((c.note ⟨op, ans⟩).toList ++ log)

theorem Meets.imp {p : Prog S α} {post post' : α → List ω → Prop} (meets : p.Meets c post)
    (weaker : ∀ a log, post a log → post' a log) : p.Meets c post' := by
  induction p generalizing post post' with
  | ret a => exact weaker a [] meets
  | ask op next ih =>
      obtain ⟨good, rest⟩ := meets
      exact ⟨good, fun ans fair => ih ans (rest ans fair) fun a log => weaker a _⟩

theorem Meets.seq {p : Prog S α} {f : α → Prog S β} {mid : α → List ω → Prop}
    {post : β → List ω → Prop} (first : p.Meets c mid)
    (rest : ∀ a log, mid a log → (f a).Meets c fun b more => post b (log ++ more)) :
    (p >>= f).Meets c post := by
  induction p generalizing mid post with
  | ret a => exact rest a [] first
  | ask op next ih =>
      obtain ⟨good, answered⟩ := first
      refine ⟨good, fun ans fair => ih ans (answered ans fair) fun a log held => ?_⟩
      exact (rest a _ held).imp fun b more later => by rwa [List.append_assoc] at later

/-- What a log says whatever is answered, with nothing to promise. -/
theorem Logs.meets {p : Prog S α} {post : α → List ω → Prop} (logs : p.Logs c.note post)
    (good : ∀ op, c.good op) : p.Meets c post := by
  induction p generalizing post with
  | ret a => exact logs [] a ⟨rfl, rfl⟩
  | ask op next ih =>
      refine ⟨good op, fun ans _ => ih ans fun exchanges result traces => ?_⟩
      have held := logs (⟨op, ans⟩ :: exchanges) result ⟨ans, exchanges, rfl, traces⟩
      cases noted : c.note ⟨op, ans⟩ with
      | none => simpa only [List.filterMap_cons, noted, Option.toList_none, List.nil_append] using held
      | some mark =>
          simpa only [List.filterMap_cons, noted, Option.toList_some, List.singleton_append]
            using held

theorem meets_call {op : S.Op} {mark : ω} (good : c.good op)
    (noted : ∀ ans, c.note ⟨op, ans⟩ = some mark) :
    (call op).Meets c fun ans log => log = [mark] ∧ c.fair op ans := by
  refine ⟨good, fun ans fair => ?_⟩
  rw [noted]
  exact ⟨rfl, fair⟩

theorem meets_inLeft {c : Contract (S.sum T) ω} {p : Prog S α} {post : α → List ω → Prop}
    (meets : p.Meets c.left post) : (p.inLeft : Prog (S.sum T) α).Meets c post := by
  induction p generalizing post with
  | ret a => exact meets
  | ask op next ih => exact ⟨meets.1, fun ans fair => ih ans (meets.2 ans fair)⟩

/-- Surroundings that are fair in every state that good operations lead to. -/
theorem Meets.run {handle : Handler S σ} {I : σ → Prop}
    (fair : ∀ op s, I s → c.fair op (handle op s).1)
    (keeps : ∀ op s, I s → c.good op → I (handle op s).2) {p : Prog S α}
    {post : α → List ω → Prop} (meets : p.Meets c post) {s : σ} (start : I s) :
    post (p.exec handle s).1 ((p.transcript handle s).filterMap c.note) ∧
      I (p.exec handle s).2 ∧ ∀ exchange ∈ p.transcript handle s, c.good exchange.1 := by
  induction p generalizing s post with
  | ret a => exact ⟨meets, start, fun _ none => absurd none List.not_mem_nil⟩
  | ask op next ih =>
      obtain ⟨good, rest⟩ := meets
      obtain ⟨held, kept, later⟩ := ih _ (rest _ (fair op s start)) (keeps op s start good)
      refine ⟨?_, kept, ?_⟩
      · cases noted : c.note ⟨op, (handle op s).1⟩ with
        | none =>
            simpa only [exec_ask, transcript, List.filterMap_cons, noted, Option.toList_none,
              List.nil_append] using held
        | some mark =>
            simpa only [exec_ask, transcript, List.filterMap_cons, noted, Option.toList_some,
              List.singleton_append] using held
      · intro exchange member
        cases member with
        | head => exact good
        | tail _ member => exact later exchange member

/-- A run that was answered fairly. -/
theorem Meets.traces {p : Prog S α} {post : α → List ω → Prop} (meets : p.Meets c post)
    {exchanges : List (Sigma S.Ans)} {result : α} (traces : p.Traces exchanges result)
    (fair : ∀ exchange ∈ exchanges, c.fair exchange.1 exchange.2) :
    post result (exchanges.filterMap c.note) ∧ ∀ exchange ∈ exchanges, c.good exchange.1 := by
  induction p generalizing exchanges post with
  | ret a =>
      obtain ⟨rfl, rfl⟩ := traces
      exact ⟨meets, fun _ none => absurd none List.not_mem_nil⟩
  | ask op next ih =>
      obtain ⟨ans, tail, rfl, later⟩ := traces
      obtain ⟨good, rest⟩ := meets
      have answered := rest ans (fair ⟨op, ans⟩ List.mem_cons_self)
      obtain ⟨held, kept⟩ := ih ans answered later fun exchange member =>
        fair exchange (List.mem_cons_of_mem _ member)
      refine ⟨?_, ?_⟩
      · cases noted : c.note ⟨op, ans⟩ with
        | none =>
            simpa only [List.filterMap_cons, noted, Option.toList_none, List.nil_append] using held
        | some mark =>
            simpa only [List.filterMap_cons, noted, Option.toList_some, List.singleton_append]
              using held
      · intro exchange member
        cases member with
        | head => exact good
        | tail _ member => exact kept exchange member

/-! ### Programs that leave no note -/

/-- The program meets the contract, leaves the log alone and returns what `Q`
    says. -/
def Quiet (c : Contract S ω) (Q : α → Prop) (p : Prog S α) : Prop :=
  p.Meets c fun a log => log = [] ∧ Q a

section Quiet

variable {Q : α → Prop} {R : β → Prop} {p : Prog S α} {f : α → Prog S β}

theorem quiet_pure {a : α} (holds : Q a) : (pure a : Prog S α).Quiet c Q := ⟨rfl, holds⟩

theorem quiet_call {op : S.Op} (good : c.good op) (silent : ∀ ans, c.note ⟨op, ans⟩ = none) :
    (call op).Quiet c (c.fair op) := by
  refine ⟨good, fun ans fair => ?_⟩
  rw [silent]
  exact ⟨rfl, fair⟩

theorem Quiet.imp {Q' : α → Prop} (quiet : p.Quiet c Q) (weaker : ∀ a, Q a → Q' a) :
    p.Quiet c Q' :=
  Meets.imp quiet fun a _ held => ⟨held.1, weaker a held.2⟩

theorem Quiet.meets {post : α → List ω → Prop} (quiet : p.Quiet c Q)
    (holds : ∀ a, Q a → post a []) : p.Meets c post :=
  Meets.imp quiet fun a _ held => held.1 ▸ holds a held.2

/-- What follows a quiet program sees an empty log. -/
theorem Quiet.then {post : β → List ω → Prop} (first : p.Quiet c Q)
    (rest : ∀ a, Q a → (f a).Meets c post) : (p >>= f).Meets c post := by
  refine Meets.seq first fun a log held => ?_
  obtain ⟨rfl, result⟩ := held
  exact rest a result

theorem Quiet.bind (first : p.Quiet c Q) (rest : ∀ a, Q a → (f a).Quiet c R) :
    (p >>= f).Quiet c R :=
  first.then rest

theorem quiet_forM {γ : Type} {g : γ → Prog S PUnit} (quiet : ∀ x, (g x).Quiet c fun _ => True)
    (xs : List γ) : (xs.forM g).Quiet c fun _ => True := by
  induction xs with
  | nil => exact quiet_pure trivial
  | cons x xs ih => exact (quiet x).bind fun _ _ => ih

end Quiet

/-- As `Quiet`, for a program that may raise: `Q` is about what it returns. -/
def QuietExcept {ε : Type} (c : Contract S ω) (Q : α → Prop) (p : ExceptT ε (Prog S) α) : Prop :=
  p.run.Quiet c fun result => ∀ a, result = .ok a → Q a

section Raising

variable {ε : Type} {Q : α → Prop} {R : β → Prop} {p : ExceptT ε (Prog S) α}
  {f : α → ExceptT ε (Prog S) β}

theorem quietExcept_pure {a : α} (holds : Q a) :
    QuietExcept c Q (pure a : ExceptT ε (Prog S) α) :=
  quiet_pure fun _ same => Except.ok.inj same ▸ holds

theorem quietExcept_throw (e : ε) : QuietExcept c Q (throw e : ExceptT ε (Prog S) α) :=
  quiet_pure fun _ same => nomatch same

theorem quietExcept_lift {q : Prog S α} (quiet : q.Quiet c Q) :
    QuietExcept c Q (ExceptT.lift q : ExceptT ε (Prog S) α) :=
  quiet.bind fun _ holds => quiet_pure fun _ same => Except.ok.inj same ▸ holds

theorem quietExcept_call {op : S.Op} {q : S.Ans op → Except ε α} (good : c.good op)
    (silent : ∀ ans, c.note ⟨op, ans⟩ = none)
    (holds : ∀ ans, c.fair op ans → ∀ a, q ans = .ok a → Q a) :
    QuietExcept c Q (ExceptT.mk (.ask op fun ans => .ret (q ans))) := by
  refine ⟨good, fun ans fair => ?_⟩
  rw [silent]
  exact ⟨rfl, holds ans fair⟩

theorem QuietExcept.imp {Q' : α → Prop} (quiet : QuietExcept c Q p) (weaker : ∀ a, Q a → Q' a) :
    QuietExcept c Q' p :=
  Quiet.imp quiet fun _ held a same => weaker a (held a same)

theorem QuietExcept.bind (first : QuietExcept c Q p) (rest : ∀ a, Q a → QuietExcept c R (f a)) :
    QuietExcept c R (p >>= f) := by
  refine Quiet.bind first fun result held => ?_
  cases result with
  | ok a => exact rest a (held a rfl)
  | error e => exact quiet_pure fun _ same => nomatch same

/-- What follows a quiet program that may raise. -/
theorem QuietExcept.then {post : Except ε β → List ω → Prop} (first : QuietExcept c Q p)
    (raised : ∀ e, post (.error e) []) (rest : ∀ a, Q a → (f a).run.Meets c post) :
    (p >>= f).run.Meets c post := by
  refine Quiet.then first fun result held => ?_
  cases result with
  | ok a => exact rest a (held a rfl)
  | error e => exact raised e

theorem Meets.lift {q : Prog S α} {mid : α → List ω → Prop} {post : Except ε β → List ω → Prop}
    (first : q.Meets c mid)
    (rest : ∀ a log, mid a log → (f a).run.Meets c fun b more => post b (log ++ more)) :
    ((ExceptT.lift q : ExceptT ε (Prog S) α) >>= f).run.Meets c post := by
  have lifted : (ExceptT.lift q : ExceptT ε (Prog S) α).run.Meets c
      fun result log => ∃ a, result = .ok a ∧ mid a log :=
    first.seq fun a log held => ⟨a, rfl, (List.append_nil log).symm ▸ held⟩
  refine lifted.seq fun result log held => ?_
  obtain ⟨a, rfl, held⟩ := held
  exact rest a log held

theorem Quiet.lift {q : Prog S α} {post : Except ε β → List ω → Prop} (first : q.Quiet c Q)
    (rest : ∀ a, Q a → (f a).run.Meets c post) :
    ((ExceptT.lift q : ExceptT ε (Prog S) α) >>= f).run.Meets c post := by
  refine Meets.lift first fun a log held => ?_
  obtain ⟨rfl, result⟩ := held
  exact rest a result

end Raising

end Prog

/-! ## Contracts of interleaved programs -/

namespace Pool

variable {S : Signature} {σ ι ε α ω : Type} (m : Machine S σ ι ε α)

/-- The call that the move lets perform an operation, and the exchange. -/
def exchange (pool : Pool S σ ι α) : Move ι ε → Option (ι × Sigma S.Ans)
  | .run index =>
      match pool.threads[index]? with
      | some ⟨label, some (.ask op _)⟩ => some (label, ⟨op, (m.handle index op pool.state).1⟩)
      | _ => none
  | _ => none

/-- The exchanges of an interleaving, each with the call it belongs to. -/
def exchanges (pool : Pool S σ ι α) : List (Move ι ε) → List (ι × Sigma S.Ans)
  | [] => []
  | move :: moves => (pool.exchange m move).toList ++ (pool.step m move).exchanges moves

/-- Each call in progress meets the contract of its label. -/
def Keeping (c : ι → Contract S ω) (pool : Pool S σ ι α) : Prop :=
  ∀ t ∈ pool.threads, ∀ p, t.rest = some p → p.Meets (c t.label) fun _ _ => True

variable {m}

/-- A call that is let run performs its next operation, if it has one. -/
theorem run_cases (pool : Pool S σ ι α) (index : Nat) :
    (pool.exchange m (.run index) = none ∧ pool.step m (.run index) = pool) ∨
      ∃ label op next, ⟨label, some (.ask op next)⟩ ∈ pool.threads ∧
        pool.exchange m (.run index) = some (label, ⟨op, (m.handle index op pool.state).1⟩) ∧
        pool.step m (.run index) =
          { state := (m.handle index op pool.state).2
            threads := pool.threads.set index
              ⟨label, some (next (m.handle index op pool.state).1)⟩ } := by
  rcases located : pool.threads[index]? with _ | ⟨label, _ | p⟩
  · exact .inl ⟨by simp only [exchange, located], by simp only [step, located]⟩
  · exact .inl ⟨by simp only [exchange, located], by simp only [step, located]⟩
  · cases p with
    | ret a => exact .inl ⟨by simp only [exchange, located], by simp only [step, located]⟩
    | ask op next =>
        exact .inr ⟨label, op, next, List.mem_of_getElem? located,
          by simp only [exchange, located], by simp only [step, located]⟩

variable {c : ι → Contract S ω}

/-- One move: a fair answer is answered by good operations to come. -/
theorem Keeping.step (programs : ∀ label, (m.program label).Meets (c label) fun _ _ => True)
    {pool : Pool S σ ι α} (keeping : pool.Keeping c) (move : Move ι ε)
    (fair : ∀ e ∈ pool.exchange m move, (c e.1).fair e.2.1 e.2.2) :
    (pool.step m move).Keeping c ∧ ∀ e ∈ pool.exchange m move, (c e.1).good e.2.1 := by
  cases move with
  | spawn label =>
      refine ⟨?_, fun e none => by cases none⟩
      simp only [Pool.step]
      split
      · intro t inside p running
        cases List.mem_append.mp inside with
        | inl old => exact keeping t old p running
        | inr new =>
            obtain rfl := List.mem_singleton.mp new
            cases running
            exact programs label
      · exact keeping
  | outside event =>
      refine ⟨?_, fun e none => by cases none⟩
      intro t inside p running
      obtain ⟨old, located, rfl⟩ := List.mem_map.mp inside
      split at running
      next killed =>
        rw [if_pos killed, Thread.die_label]
        exact keeping old located p (Thread.die_rest running)
      next spared =>
        rw [if_neg spared]
        exact keeping old located p running
  | run index =>
      rcases pool.run_cases index with ⟨idle, same⟩ | ⟨label, op, next, inside, asked, moved⟩
      · rw [idle, same]
        exact ⟨keeping, fun e none => by cases none⟩
      · have own := keeping _ inside _ rfl
        rw [asked] at fair ⊢
        rw [moved]
        refine ⟨?_, fun e found => ?_⟩
        · intro t member p running
          cases List.mem_or_eq_of_mem_set member with
          | inl old => exact keeping t old p running
          | inr new =>
              subst new
              cases running
              exact (own.2 _ (fair _ rfl)).imp fun _ _ _ => trivial
        · cases found
          exact own.1

theorem exchanges_append (pool : Pool S σ ι α) (before after : List (Move ι ε)) :
    pool.exchanges m (before ++ after) =
      pool.exchanges m before ++ (pool.run m before).exchanges m after := by
  induction before generalizing pool with
  | nil => rfl
  | cons move before ih =>
      simp only [List.cons_append, exchanges, ih, List.append_assoc]
      rfl

/-- Interleaved programs that are answered fairly only ask good operations. -/
theorem Keeping.good (programs : ∀ label, (m.program label).Meets (c label) fun _ _ => True)
    {pool : Pool S σ ι α} (keeping : pool.Keeping c) (moves : List (Move ι ε))
    (fair : ∀ e ∈ pool.exchanges m moves, (c e.1).fair e.2.1 e.2.2) :
    ∀ e ∈ pool.exchanges m moves, (c e.1).good e.2.1 := by
  induction moves generalizing pool with
  | nil => exact fun _ none => by cases none
  | cons move moves ih =>
      obtain ⟨later, now⟩ := keeping.step programs move fun e found =>
        fair e (List.mem_append_left _ (by simpa using found))
      intro e found
      cases List.mem_append.mp found with
      | inl first => exact now e (by simpa using first)
      | inr rest => exact ih later (fun e inside => fair e (List.mem_append_right _ inside)) e rest

/-- A part of the state that every operation changes as `apply` says is the
    fold of the exchanges. -/
theorem run_fold {τ : Type} (view : σ → τ) (apply : τ → S.Op → τ)
    (handled : ∀ index op s, view (m.handle index op s).2 = apply (view s) op)
    (untouched : ∀ event s, view (m.outside event s) = view s) (pool : Pool S σ ι α)
    (moves : List (Move ι ε)) :
    view (pool.run m moves).state =
      (pool.exchanges m moves).foldl (fun t e => apply t e.2.1) (view pool.state) := by
  induction moves generalizing pool with
  | nil => rfl
  | cons move moves ih =>
      have stepped : view (pool.step m move).state =
          (pool.exchange m move).toList.foldl (fun t e => apply t e.2.1) (view pool.state) := by
        cases move with
        | spawn label =>
            simp only [Pool.step]
            split <;> rfl
        | outside event => exact untouched event pool.state
        | run index =>
            rcases pool.run_cases index with ⟨idle, same⟩ | ⟨label, op, next, _, asked, moved⟩
            · rw [idle, same]
              rfl
            · rw [asked, moved]
              exact handled _ _ _
      rw [exchanges, List.foldl_append, ← stepped]
      exact ih _

end Pool
