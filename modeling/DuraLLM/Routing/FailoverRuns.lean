import DuraLLM.Routing.Failover

/-! # Runs of the failover router

Every run of `dispatch`, whatever other threads do to the pools between its
steps: what a turn adds to the log and to the manager, and by induction what a
run adds.  A model that was noted as gone is not asked again, a clamp is only
followed by requests for less, and an answer is what the last request brought.
-/

namespace DuraLLM

theorem last_of_split {α : Type} {front before more : List α} {last found : α}
    (split : front ++ [last] = before ++ found :: more) (fresh : found ∉ front) :
    found = last ∧ more = [] := by
  induction front generalizing before with
  | nil =>
      cases before with
      | nil =>
          obtain ⟨rfl, rfl⟩ := List.cons.inj split
          exact ⟨rfl, rfl⟩
      | cons head before =>
          have none := (List.cons.inj split).2
          simp at none
  | cons head front ih =>
      cases before with
      | nil => exact absurd ((List.cons.inj split).1 ▸ List.mem_cons_self) fresh
      | cons first before =>
          exact ih (List.cons.inj split).2 fun member => fresh (List.mem_cons_of_mem _ member)

/-! ## What never shrinks -/

/-- The models that are gone stay gone, the routes stay listed, and neither the
    allowed providers nor the keys change. -/
structure IsolatedPoolManager.Grows (manager later : IsolatedPoolManager) : Prop where
  deprecated : manager.deprecated ⊆ later.deprecated
  routes : ∀ pool, manager.routes pool ⊆ later.routes pool
  allowed : later.allowedProviders = manager.allowedProviders
  keys : later.keys = manager.keys

namespace IsolatedPoolManager.Grows

variable {casing : Casing} {manager later last : IsolatedPoolManager} {pool : String} {now : Clock}

theorem refl (manager : IsolatedPoolManager) : manager.Grows manager :=
  ⟨List.Subset.refl _, fun _ => List.Subset.refl _, rfl, rfl⟩

theorem trans (first : manager.Grows later) (second : later.Grows last) : manager.Grows last where
  deprecated := fun _ member => second.deprecated (first.deprecated member)
  routes pool _ member := second.routes pool (first.routes pool member)
  allowed := second.allowed.trans first.allowed
  keys := second.keys.trans first.keys

/-- Marks of time and of success touch nothing of it. -/
theorem of_same (deprecated : later.deprecated = manager.deprecated)
    (routes : later.routes = manager.routes)
    (allowed : later.allowedProviders = manager.allowedProviders)
    (keys : later.keys = manager.keys) : manager.Grows later :=
  ⟨by rw [deprecated]; exact List.Subset.refl _,
    fun pool => by rw [routes]; exact List.Subset.refl _, allowed, keys⟩

theorem markDeprecated (model : String) :
    manager.Grows (manager.markDeprecated casing pool model) :=
  ⟨List.subset_cons_self _ _, fun _ => List.Subset.refl _, rfl, rfl⟩

theorem addDiscoveredRoute (route : RouteDefinition) :
    manager.Grows (manager.addDiscoveredRoute pool route) := by
  unfold IsolatedPoolManager.addDiscoveredRoute
  split
  · exact refl manager
  · split
    · refine ⟨List.Subset.refl _, fun other => ?_, rfl, rfl⟩
      unfold IsolatedPoolManager.routes
      split
      · exact List.subset_append_left _ _
      · exact List.Subset.refl _
    · refine ⟨List.Subset.refl _, fun other => ?_, rfl, rfl⟩
      unfold IsolatedPoolManager.routes
      split
      · exact List.Subset.refl _
      · exact List.subset_append_left _ _

theorem relieved : manager.Grows (manager.relieved casing pool now).2 := by
  unfold IsolatedPoolManager.relieved
  dsimp only
  split
  · split
    · exact of_same rfl rfl rfl rfl
    · exact of_same rfl rfl rfl rfl
  · exact of_same rfl rfl rfl rfl

theorem selectRoute : manager.Grows (manager.selectRoute casing pool now).2 := by
  have first : manager.Grows (manager.relieved casing pool now).2 := relieved
  unfold IsolatedPoolManager.selectRoute
  generalize manager.relieved casing pool now = relief at first ⊢
  obtain ⟨candidates, after⟩ := relief
  dsimp only at first ⊢
  split
  · exact first
  · split
    · exact first
    · split
      · exact first.trans (of_same rfl rfl rfl rfl)
      · exact first.trans (of_same rfl rfl rfl rfl)

theorem perform (request : PoolRequest) : manager.Grows (manager.perform casing request).2 := by
  obtain ⟨now, pool, call⟩ := request
  cases call with
  | selectRoute => exact selectRoute
  | markDeprecated model => exact markDeprecated model
  | addDiscoveredRoute route => exact addDiscoveredRoute route
  | _ => exact of_same rfl rfl rfl rfl

theorem after (requests : List PoolRequest) : manager.Grows (manager.after casing requests) := by
  induction requests generalizing manager with
  | nil => exact refl manager
  | cons request requests ih => exact (perform request).trans ih

end IsolatedPoolManager.Grows

theorem pruneOpenaiRequest_rest {pruning : Libraries} {payload pruned : ChatPayload}
    {limits : PruneLimits} (done : pruneOpenaiRequest pruning payload limits = some pruned) :
    pruned.rest = payload.rest := by
  unfold pruneOpenaiRequest at done
  dsimp only at done
  split at done
  · rw [← Option.some.inj done]
  · split at done
    · rw [← Option.some.inj done]
      rfl
    · unfold pruneHistory at done
      dsimp only at done
      split at done
      · rw [← Option.some.inj done]
        rfl
      · split at done
        · cases done
        · split at done
          · rw [← Option.some.inj done]
            rfl
          · split at done
            · cases done
            · rw [← Option.some.inj done]
              rfl

namespace UniversalFailoverRouter

variable {Json : Type} (lib : DispatchLibraries Json) (around : Surroundings)

/-! ## What a program adds -/

def DispatchEvent.isMark : DispatchEvent → Bool
  | .deprecated _ => true
  | _ => false

/-- What is added to the log, with the manager growing, and every model that is
    noted as gone being gone. -/
structure Leads (casing : Casing) (pool : String) (s : DispatchState)
    (events : List DispatchEvent) (t : DispatchState) : Prop where
  log : t.log = s.log ++ events
  grows : s.manager.Grows t.manager
  noted : ∀ model, .deprecated model ∈ events →
    (casing.lower pool, casing.lower model) ∈ t.manager.deprecated

namespace Leads

variable {casing : Casing} {pool : String} {s t u : DispatchState}

theorem refl (s : DispatchState) : Leads casing pool s [] s :=
  ⟨(List.append_nil _).symm, .refl _, fun _ none => absurd none List.not_mem_nil⟩

theorem trans {events more : List DispatchEvent} (first : Leads casing pool s events t)
    (second : Leads casing pool t more u) : Leads casing pool s (events ++ more) u where
  log := by rw [second.log, first.log, List.append_assoc]
  grows := first.grows.trans second.grows
  noted model member := by
    cases List.mem_append.mp member with
    | inl early => exact second.grows.deprecated (first.noted model early)
    | inr late => exact second.noted model late

end Leads

section Marks

variable {α β : Type} {casing : Casing} {pool : String} {s : DispatchState}

/-- What the program adds from a state on. -/
def Adds (casing : Casing) (pool : String) (p : Dispatching α) (s : DispatchState)
    (post : DispatchState → α → List DispatchEvent → Prop) : Prop :=
  ∃ events, Leads casing pool s events (p s).2 ∧ post (p s).2 (p s).1 events

theorem adds_pure {a : α} {post : DispatchState → α → List DispatchEvent → Prop}
    (holds : post s a []) : Adds casing pool (pure a) s post :=
  ⟨[], .refl s, holds⟩

theorem Adds.bind {p : Dispatching α} {f : α → Dispatching β}
    {post : DispatchState → α → List DispatchEvent → Prop}
    {post' : DispatchState → β → List DispatchEvent → Prop} (first : Adds casing pool p s post)
    (rest : ∀ t a events, Leads casing pool s events t → post t a events →
      Adds casing pool (f a) t fun u b more => post' u b (events ++ more)) :
    Adds casing pool (p >>= f) s post' := by
  obtain ⟨events, leads, held⟩ := first
  obtain ⟨more, later, holds⟩ := rest _ _ events leads held
  exact ⟨events ++ more, leads.trans later, holds⟩

/-- What it adds from every state on. -/
def Marks (casing : Casing) (pool : String) (p : Dispatching α)
    (post : α → List DispatchEvent → Prop) : Prop :=
  ∀ s, Adds casing pool p s fun _ => post

variable {post : α → List DispatchEvent → Prop}

theorem marks_pure {a : α} (holds : post a []) : Marks casing pool (pure a) post :=
  fun _ => adds_pure holds

theorem Marks.bind {p : Dispatching α} {f : α → Dispatching β}
    {post' : β → List DispatchEvent → Prop} (first : Marks casing pool p post)
    (rest : ∀ a events, post a events →
      Marks casing pool (f a) fun b more => post' b (events ++ more)) :
    Marks casing pool (p >>= f) post' :=
  fun s => (first s).bind fun t a events _ held => rest a events held t

theorem Marks.imp {p : Dispatching α} {post' : α → List DispatchEvent → Prop}
    (marks : Marks casing pool p post) (weaker : ∀ a events, post a events → post' a events) :
    Marks casing pool p post' := by
  intro s
  obtain ⟨events, leads, held⟩ := marks s
  exact ⟨events, leads, weaker _ _ held⟩

variable {lib : DispatchLibraries Json} {around : Surroundings}

theorem marks_atOnce {call : IsolatedPoolManager → Clock → α × IsolatedPoolManager}
    (grows : ∀ (manager : IsolatedPoolManager) (now : Clock), manager.Grows (call manager now).2) :
    Marks lib.casing pool (atOnce lib around call) fun _ events => events = [] := by
  intro s
  refine ⟨[], ⟨(List.append_nil _).symm, ?_, fun _ none => absurd none List.not_mem_nil⟩, rfl⟩
  exact (IsolatedPoolManager.Grows.after _).trans (grows _ _)

/-- No note is made of a mark that the log does not follow. -/
theorem marks_silent {mark : IsolatedPoolManager → Clock → IsolatedPoolManager}
    (grows : ∀ (manager : IsolatedPoolManager) (now : Clock), manager.Grows (mark manager now)) :
    Marks lib.casing pool (marking lib around mark) fun _ events => ∀ e ∈ events, e.isMark = true := by
  refine (marks_atOnce grows).imp fun _ events none => ?_
  subst none
  exact fun _ member => absurd member List.not_mem_nil

theorem marks_markDeprecated (model : String) :
    Marks lib.casing pool (markDeprecated lib around pool model) fun _ events =>
      ∀ e ∈ events, e.isMark = true := by
  intro s
  refine ⟨[.deprecated model], ⟨rfl, ?_, ?_⟩, by simp [DispatchEvent.isMark]⟩
  · exact (IsolatedPoolManager.Grows.after _).trans (.markDeprecated model)
  · intro other member
    obtain rfl : other = model := by simpa using member
    exact List.mem_cons_self

theorem marks_markClassified (route : RouteDefinition) (classified : FailureClassification) :
    Marks lib.casing pool (markClassified lib around pool route classified) fun _ events =>
      ∀ e ∈ events, e.isMark = true := by
  have nothing : Marks lib.casing pool (pure () : Dispatching Unit) fun _ events =>
      ∀ e ∈ events, e.isMark = true := marks_pure fun _ member => absurd member List.not_mem_nil
  unfold markClassified
  split
  · exact nothing
  · split
    · dsimp only
      refine Marks.bind (marks_silent fun _ _ => ?_) fun _ events quiet => ?_
      · exact .of_same rfl rfl rfl rfl
      split
      · refine Marks.imp (marks_silent fun _ _ => ?_) fun _ more also => ?_
        · exact .of_same rfl rfl rfl rfl
        exact fun e member => (List.mem_append.mp member).elim (quiet e) (also e)
      · exact marks_pure (by simpa using quiet)
    · split
      · exact marks_markDeprecated route.id
      · exact nothing

theorem marks_markFailure (route : RouteDefinition) (classified : FailureClassification)
    (status : Nat) (headers : List (String × String)) :
    Marks lib.casing pool (markFailure lib around pool route classified status headers) fun _ events =>
      ∀ e ∈ events, e.isMark = true := by
  unfold markFailure
  split
  · dsimp only
    split
    · refine (marks_atOnce fun _ _ => .refl _).bind fun resetSec events none => ?_
      subst none
      exact marks_silent fun _ _ => .of_same rfl rfl rfl rfl
    · exact marks_silent fun _ _ => .of_same rfl rfl rfl rfl
  · split
    · exact marks_silent fun _ _ => .of_same rfl rfl rfl rfl
    · split
      · exact marks_markDeprecated route.model
      · split
        · exact marks_silent fun _ _ => .of_same rfl rfl rfl rfl
        · exact marks_pure fun _ member => absurd member List.not_mem_nil

/-! ## What a turn adds -/

/-- A clamp is below the tokens that were asked for. -/
def Lowers (payload : ChatPayload) (tokens : Int) : Prop :=
  ∀ n, payload.maxTokens = some (.scalar (.int n)) → tokens < n

/-- What is noted of a failure, and how the turn ends. -/
inductive FailureLog (payload : ChatPayload) : TurnEnd Json → List DispatchEvent → Prop where
  | raised (error : RaisedError) {marks : List DispatchEvent}
      (quiet : ∀ e ∈ marks, e.isMark = true) : FailureLog payload (.raised error) marks
  | clamped {tokens : Int} (lowers : Lowers payload tokens) {marks : List DispatchEvent}
      (quiet : ∀ e ∈ marks, e.isMark = true) :
      FailureLog payload (.again (payload.setMaxTokens tokens)) (marks ++ [.capped tokens])
  | next {after : ChatPayload} (same : after.rest = payload.rest) {marks : List DispatchEvent}
      (quiet : ∀ e ∈ marks, e.isMark = true) : FailureLog payload (.again after) marks

/-- The clamp is below the cap, and the cap below what was asked for. -/
theorem clampTokens_lowers {payload : ChatPayload} {classified : FailureClassification}
    {body : String} {tokens : Int}
    (clamped : clampTokens lib payload classified body = .ok (some tokens)) :
    Lowers payload tokens := by
  intro n asked
  unfold clampTokens at clamped
  split at clamped
  · cases clamped
  · cases named : Classifier.parseOutputCapFromError lib.readers body with
    | error e =>
        rw [named] at clamped
        cases clamped
    | ok found =>
        rw [named] at clamped
        rcases found with _ | _ | cap
        · cases clamped
        · cases clamped
        · simp only [bind, Except.bind] at clamped
          rw [asked, DispatchLibraries.mayClamp] at clamped
          by_cases exceeds : ((cap + 1 : Nat) : Int) < n
          · simp only [exceeds, decide_true, if_true] at clamped
            obtain rfl : clampedTokens (cap + 1) = tokens := Option.some.inj (Except.ok.inj clamped)
            unfold clampedTokens
            split <;> omega
          · simp only [exceeds, decide_false, Bool.false_eq_true, if_false] at clamped
            cases clamped

theorem shrinkInput_rest {payload pruned : ChatPayload} {classified : FailureClassification}
    {body : String} (shrunk : shrinkInput lib payload classified body = .ok (some pruned)) :
    pruned.rest = payload.rest := by
  unfold shrinkInput at shrunk
  split at shrunk
  · cases shrunk
  · cases named : Classifier.parseInputTpmLimit lib.readers body with
    | error e =>
        rw [named] at shrunk
        cases shrunk
    | ok found =>
        rw [named] at shrunk
        rcases found with _ | _ | limit
        · cases shrunk
        · cases shrunk
        · cases done : pruneOpenaiRequest lib.pruning payload
              { maxContextTokens := max 1000 (lib.shareOf (limit + 1)) } with
          | none =>
              simp only [bind, Except.bind] at shrunk
              rw [done] at shrunk
              cases shrunk
          | some cut =>
              simp only [bind, Except.bind] at shrunk
              rw [done] at shrunk
              cases shrunk
              exact pruneOpenaiRequest_rest done

theorem marks_note_capped (tokens : Int) :
    Marks lib.casing pool (note (.capped tokens)) fun _ events => events = [.capped tokens] := by
  intro s
  refine ⟨[.capped tokens], ⟨rfl, .refl _, fun _ member => ?_⟩, rfl⟩
  simp at member

theorem marks_handleFailure (payload : ChatPayload) (route : RouteDefinition)
    (reply : UpstreamReply) (status : Nat) :
    Marks lib.casing pool (handleFailure lib around pool payload route reply status)
      (FailureLog payload) := by
  refine (marks_atOnce fun _ _ => .refl _).bind fun now events none => ?_
  subst none
  split
  · exact marks_pure (.raised _ fun _ member => absurd member List.not_mem_nil)
  next classified _ =>
    refine (marks_markClassified route classified).bind fun _ marks quiet => ?_
    split
    · exact marks_pure (.raised _ (by simpa using quiet))
    next tokens clamped =>
      refine (marks_note_capped tokens).bind fun _ noted same => ?_
      subst same
      refine marks_pure ?_
      simpa using FailureLog.clamped (clampTokens_lowers clamped) quiet
    · split
      · exact marks_pure (.raised _ (by simpa using quiet))
      next pruned shrunk =>
        exact marks_pure (.next (shrinkInput_rest shrunk) (by simpa using quiet))
      · refine (marks_markFailure route classified status reply.headers).bind
          fun _ more also => marks_pure ?_
        refine .next rfl fun e member => ?_
        simp only [List.nil_append, List.append_nil, List.mem_append] at member
        exact member.elim (quiet e) (also e)

end Marks

/-- A route that is offered to the pool, by what the manager knew at the start. -/
structure Offered (casing : Casing) (pool : String) (s t : DispatchState)
    (route : RouteDefinition) : Prop where
  current : (casing.lower pool, casing.lower route.model) ∉ s.manager.deprecated
  allowed : s.manager.isAllowed casing route = true
  keyed : s.manager.hasKey route = true
  listed : route ∈ t.manager.routes pool

/-- What a turn of the loop adds, and how it ends. -/
inductive TurnLog [JsonCodec Json] (pool : String) (payload : ChatPayload) (s t : DispatchState) :
    TurnEnd Json → List DispatchEvent → Prop where
  | noRoute : TurnLog pool payload s t .noRoute []
  | unprunable (error : RaisedError) : TurnLog pool payload s t (.raised error) []
  | answered {route : RouteDefinition} (offered : Offered lib.casing pool s t route)
      {pruned : ChatPayload} (same : pruned.rest = payload.rest) {reply : UpstreamReply}
      {parsed : Json} (read : parseReply lib route reply = some parsed) :
      TurnLog pool payload s t (.answered parsed route) [.sent route pruned reply]
  | failed {route : RouteDefinition} (offered : Offered lib.casing pool s t route)
      {pruned : ChatPayload} (same : pruned.rest = payload.rest) {reply : UpstreamReply}
      {stop : TurnEnd Json} {noted : List DispatchEvent} (failure : FailureLog payload stop noted) :
      TurnLog pool payload s t stop (.sent route pruned reply :: noted)

section Turn

variable {lib around} {pool : String} {payload : ChatPayload} {s : DispatchState}

/-- A route that is selected is offered. -/
theorem adds_selectRoute : Adds lib.casing pool (atOnce lib around fun manager now =>
      manager.selectRoute lib.casing pool now) s fun t selected events =>
    events = [] ∧ ∀ route, selected = some route → Offered lib.casing pool s t route := by
  have grown : s.manager.Grows (s.manager.after lib.casing (around.others s.step)) := .after _
  refine ⟨[], ⟨(List.append_nil _).symm, grown.trans .selectRoute,
    fun _ none => absurd none List.not_mem_nil⟩, rfl, fun route selected => ?_⟩
  obtain ⟨routes, allowed, keyed, current, -⟩ := IsolatedPoolManager.usable_of_mem_relieved
    ((IsolatedPoolManager.selectRoute_answer _ _ _ _).1 route selected)
  refine ⟨fun gone => current (grown.deprecated gone), ?_, ?_, ?_⟩
  · rwa [IsolatedPoolManager.isAllowed, grown.allowed] at allowed
  · rwa [IsolatedPoolManager.hasKey, grown.keys] at keyed
  · exact IsolatedPoolManager.Grows.selectRoute.routes pool routes

theorem adds_executeUpstreamRequest {casing : Casing} (route : RouteDefinition) (timeout : Int) :
    Adds casing pool (executeUpstreamRequest around route payload timeout) s fun _ reply events =>
      events = [.sent route payload reply] :=
  ⟨_, ⟨rfl, .refl _, fun _ member => by simp at member⟩, rfl⟩

theorem Offered.later {casing : Casing} {t u : DispatchState} {route : RouteDefinition}
    (offered : Offered casing pool s t route) (grows : t.manager.Grows u.manager) :
    Offered casing pool s u route :=
  { offered with listed := grows.routes pool offered.listed }

variable [JsonCodec Json]

theorem adds_tryRoute {route : RouteDefinition} {t : DispatchState}
    (offered : Offered lib.casing pool s t route) :
    Adds lib.casing pool (tryRoute lib around pool payload route) t
      fun u stop events => TurnLog lib pool payload s u stop events := by
  unfold tryRoute
  split
  · exact adds_pure (.unprunable _)
  next pruned done =>
    refine (adds_executeUpstreamRequest route _).bind fun u reply sent leads same => ?_
    subst same
    have known := offered.later leads.grows
    have kept := pruneOpenaiRequest_rest done
    split
    next parsed read =>
      have success : Marks lib.casing pool (marking lib around fun manager now =>
          manager.recordRouteSuccess lib.casing pool route.id now) fun _ events => events = [] :=
        marks_atOnce fun _ _ => .of_same rfl rfl rfl rfl
      refine (success u).bind fun v _ more later none => ?_
      subst none
      exact adds_pure (.answered (known.later later.grows) kept read)
    next =>
      have handled : ∀ status, Marks lib.casing pool
          (handleFailure lib around pool payload route reply status) (FailureLog payload) :=
        fun status => marks_handleFailure payload route reply status
      obtain ⟨noted, leads, failure⟩ := handled _ u
      exact ⟨noted, leads, .failed (known.later leads.grows) kept failure⟩

theorem adds_dispatchTurn : Adds lib.casing pool (dispatchTurn lib around pool payload) s
    fun t stop events => TurnLog lib pool payload s t stop events := by
  refine adds_selectRoute.bind fun t selected events _ held => ?_
  obtain ⟨rfl, offered⟩ := held
  cases selected with
  | none => exact adds_pure .noRoute
  | some route => exact adds_tryRoute (offered route rfl)

end Turn

/-! ## What a run adds -/

/-- The result of a run that stops here. -/
def TurnEnd.result : TurnEnd Json → Option (DispatchResult Json)
  | .noRoute => some .unavailable
  | .answered parsed route => some (.answered parsed route)
  | .raised error => some (.raised error)
  | .again _ => none

inductive RunLog [JsonCodec Json] (pool : String) : Nat → ChatPayload → DispatchState →
    DispatchResult Json → List DispatchEvent → DispatchState → Prop where
  | spent (payload : ChatPayload) (s : DispatchState) : RunLog pool 0 payload s .unavailable [] s
  | ended {n : Nat} {payload : ChatPayload} {s t : DispatchState} {stop : TurnEnd Json}
      {events : List DispatchEvent} (leads : Leads lib.casing pool s events t)
      (turn : TurnLog lib pool payload s t stop events) {result : DispatchResult Json}
      (ends : stop.result = some result) : RunLog pool (n + 1) payload s result events t
  | again {n : Nat} {payload next : ChatPayload} {s t u : DispatchState}
      {events more : List DispatchEvent} (leads : Leads lib.casing pool s events t)
      (turn : TurnLog lib pool payload s t (.again next) events) {result : DispatchResult Json}
      (rest : RunLog pool n next t result more u) :
      RunLog pool (n + 1) payload s result (events ++ more) u

section Run

variable {lib around} [JsonCodec Json] {pool : String}

theorem adds_dispatch (n : Nat) (payload : ChatPayload) (s : DispatchState) :
    Adds lib.casing pool (dispatch lib around pool n payload) s fun t result events =>
      RunLog lib pool n payload s result events t := by
  induction n generalizing payload s with
  | zero => exact adds_pure (.spent payload s)
  | succ n ih =>
      refine adds_dispatchTurn.bind fun t stop events leads turn => ?_
      cases stop with
      | again next =>
          obtain ⟨more, later, rest⟩ := ih next t
          exact ⟨more, later, .again leads turn rest⟩
      | noRoute =>
          refine adds_pure ?_
          rw [List.append_nil]
          exact .ended leads turn rfl
      | answered parsed route =>
          refine adds_pure ?_
          rw [List.append_nil]
          exact .ended leads turn rfl
      | raised error =>
          refine adds_pure ?_
          rw [List.append_nil]
          exact .ended leads turn rfl

variable {n : Nat} {payload : ChatPayload} {s t : DispatchState} {result : DispatchResult Json}
  {events : List DispatchEvent}

omit [JsonCodec Json] in
theorem FailureLog.unsent {stop : TurnEnd Json} (failure : FailureLog payload stop events)
    {route : RouteDefinition} {sent : ChatPayload} {reply : UpstreamReply} :
    .sent route sent reply ∉ events := by
  intro member
  cases failure with
  | raised error quiet => exact absurd (quiet _ member) (by simp [DispatchEvent.isMark])
  | next same quiet => exact absurd (quiet _ member) (by simp [DispatchEvent.isMark])
  | clamped lowers quiet =>
      cases List.mem_append.mp member with
      | inl early => exact absurd (quiet _ early) (by simp [DispatchEvent.isMark])
      | inr late => simp at late

/-- A turn sends at most once, and first of all, to a route that is offered. -/
theorem TurnLog.sends {stop : TurnEnd Json} (turn : TurnLog lib pool payload s t stop events) :
    events = [] ∨ ∃ route pruned reply noted, events = .sent route pruned reply :: noted ∧
      Offered lib.casing pool s t route ∧ pruned.rest = payload.rest ∧
      ∀ route sent reply, .sent route sent reply ∉ noted := by
  cases turn with
  | noRoute => exact .inl rfl
  | unprunable error => exact .inl rfl
  | answered offered same read =>
      exact .inr ⟨_, _, _, [], rfl, offered, same, fun _ _ _ => List.not_mem_nil⟩
  | failed offered same failure =>
      exact .inr ⟨_, _, _, _, rfl, offered, same, fun _ _ _ => failure.unsent⟩

/-! ### Models that are gone -/

/-- A request goes out to a route whose model was not gone before. -/
theorem TurnLog.current {stop : TurnEnd Json} (turn : TurnLog lib pool payload s t stop events)
    {route : RouteDefinition} {sent : ChatPayload} {reply : UpstreamReply}
    (member : .sent route sent reply ∈ events) :
    (lib.casing.lower pool, lib.casing.lower route.model) ∉ s.manager.deprecated := by
  rcases turn.sends with rfl | ⟨first, pruned, answer, noted, rfl, offered, -, unsent⟩
  · cases member
  · cases List.mem_cons.mp member with
    | inl same =>
        cases same
        exact offered.current
    | inr later => exact absurd later (unsent _ _ _)

theorem RunLog.current (run : RunLog lib pool n payload s result events t)
    {route : RouteDefinition} {sent : ChatPayload} {reply : UpstreamReply}
    (member : .sent route sent reply ∈ events) :
    (lib.casing.lower pool, lib.casing.lower route.model) ∉ s.manager.deprecated := by
  induction run with
  | spent payload s => cases member
  | ended leads turn ends => exact turn.current member
  | again leads turn rest ih =>
      cases List.mem_append.mp member with
      | inl early => exact turn.current early
      | inr late => exact fun gone => ih late (leads.grows.deprecated gone)

/-- After a note nothing is sent in the same turn. -/
theorem TurnLog.silent {stop : TurnEnd Json} (turn : TurnLog lib pool payload s t stop events)
    {before after : List DispatchEvent} {event : DispatchEvent}
    (split : events = before ++ event :: after) {route : RouteDefinition}
    {sent : ChatPayload} {reply : UpstreamReply} : .sent route sent reply ∉ after := by
  rcases turn.sends with rfl | ⟨first, pruned, answer, noted, rfl, -, -, unsent⟩
  · cases before <;> cases split
  · intro member
    cases before with
    | nil =>
        obtain ⟨-, rfl⟩ := List.cons.inj split
        exact unsent _ _ _ member
    | cons head before =>
        obtain ⟨-, rfl⟩ := List.cons.inj split
        exact unsent _ _ _ (List.mem_append_right _ (List.mem_cons_of_mem _ member))

theorem RunLog.gone (run : RunLog lib pool n payload s result events t)
    {before after : List DispatchEvent} {model : String}
    (split : events = before ++ .deprecated model :: after) {route : RouteDefinition}
    {sent : ChatPayload} {reply : UpstreamReply} (member : .sent route sent reply ∈ after) :
    lib.casing.lower route.model ≠ lib.casing.lower model := by
  induction run generalizing before with
  | spent payload s => cases before <;> cases split
  | ended leads turn ends => exact absurd member (turn.silent split)
  | again leads turn rest ih =>
      rcases List.append_eq_append_iff.mp split with ⟨more, same, cut⟩ | ⟨more, same, cut⟩
      · exact ih cut
      · cases more with
        | nil => exact @ih [] cut.symm
        | cons event more =>
            -- The note is of this turn, and what is sent later of another one.
            obtain ⟨rfl, rfl⟩ := List.cons.inj cut
            have later := (List.mem_append.mp member).resolve_left (turn.silent same)
            have gone := leads.noted model (by simp [same])
            intro alike
            exact rest.current later (alike ▸ gone)

/-! ### Clamps -/

omit [JsonCodec Json] in
/-- What the next turn is asked for: what this one was, or less. -/
theorem FailureLog.tokens {next : ChatPayload}
    (failure : FailureLog payload (.again next : TurnEnd Json) events) :
    (next.maxTokens = payload.maxTokens ∧ ∀ tokens, .capped tokens ∉ events) ∨
      ∃ tokens marks, next.maxTokens = some (.scalar (.int tokens)) ∧ Lowers payload tokens ∧
        events = marks ++ [.capped tokens] ∧ ∀ other, .capped other ∉ marks := by
  have silent {marks : List DispatchEvent} (quiet : ∀ e ∈ marks, e.isMark = true) (tokens : Int) :
      .capped tokens ∉ marks := fun member =>
    absurd (quiet _ member) (by simp [DispatchEvent.isMark])
  cases failure with
  | clamped lowers quiet => exact .inr ⟨_, _, Entries.get_set_self .., lowers, rfl, silent quiet⟩
  | next same quiet => exact .inl ⟨by rw [ChatPayload.maxTokens, same]; rfl, silent quiet⟩

theorem TurnLog.again_inv {next : ChatPayload}
    (turn : TurnLog lib pool payload s t (.again next) events) :
    ∃ route pruned reply noted, events = .sent route pruned reply :: noted ∧
      pruned.maxTokens = payload.maxTokens ∧
        FailureLog payload (.again next : TurnEnd Json) noted := by
  cases turn with
  | failed offered same failure =>
      exact ⟨_, _, _, _, rfl, by rw [ChatPayload.maxTokens, same]; rfl, failure⟩

/-- Where a run stops, nothing is clamped. -/
theorem TurnLog.unclamped {stop : TurnEnd Json} (turn : TurnLog lib pool payload s t stop events)
    (ends : stop.result = some result) (tokens : Int) : .capped tokens ∉ events := by
  intro member
  cases turn with
  | noRoute => cases member
  | unprunable error => cases member
  | answered offered same read => simp at member
  | failed offered same failure =>
      cases failure with
      | raised error quiet =>
          have noted := (List.mem_cons.mp member).resolve_left (by simp)
          exact absurd (quiet _ noted) (by simp [DispatchEvent.isMark])
      | clamped lowers quiet => cases ends
      | next same quiet => cases ends

theorem TurnLog.sent_tokens {stop : TurnEnd Json}
    (turn : TurnLog lib pool payload s t stop events) {route : RouteDefinition}
    {sent : ChatPayload} {reply : UpstreamReply} (member : .sent route sent reply ∈ events) :
    sent.maxTokens = payload.maxTokens := by
  rcases turn.sends with rfl | ⟨first, pruned, answer, noted, rfl, -, same, unsent⟩
  · cases member
  · cases List.mem_cons.mp member with
    | inl here =>
        cases here
        rw [ChatPayload.maxTokens, same]
        rfl
    | inr later => exact absurd later (unsent _ _ _)

/-- A run that is asked for so many tokens asks for no more, and clamps to less. -/
theorem RunLog.asked (run : RunLog lib pool n payload s result events t) {tokens : Int}
    (asked : payload.maxTokens = some (.scalar (.int tokens))) :
    (∀ route sent reply, .sent route sent reply ∈ events →
      ∃ k ≤ tokens, sent.maxTokens = some (.scalar (.int k))) ∧
      ∀ other, .capped other ∈ events → other < tokens := by
  induction run generalizing tokens with
  | spent payload s => exact ⟨fun _ _ _ member => absurd member List.not_mem_nil,
      fun _ member => absurd member List.not_mem_nil⟩
  | ended leads turn ends =>
      exact ⟨fun _ _ _ member => ⟨tokens, le_rfl, (turn.sent_tokens member).trans asked⟩,
        fun other member => absurd member (turn.unclamped ends other)⟩
  | again leads turn rest ih =>
      obtain ⟨first, pruned, answer, noted, rfl, -, failure⟩ := turn.again_inv
      have here : ∀ route sent reply, .sent route sent reply ∈
          (.sent first pruned answer :: noted) → ∃ k ≤ tokens,
            sent.maxTokens = some (.scalar (.int k)) :=
        fun _ _ _ member => ⟨tokens, le_rfl, (turn.sent_tokens member).trans asked⟩
      rcases failure.tokens with ⟨same, none⟩ | ⟨lower, marks, set, lowers, rfl, none⟩
      · obtain ⟨sends, clamps⟩ := ih (same.trans asked)
        refine ⟨fun route sent reply member => ?_, fun other member => ?_⟩
        · exact (List.mem_append.mp member).elim (here route sent reply) (sends route sent reply)
        · cases List.mem_append.mp member with
          | inl early => exact absurd ((List.mem_cons.mp early).resolve_left (by simp)) (none other)
          | inr late => exact clamps other late
      · have below : lower < tokens := lowers tokens asked
        obtain ⟨sends, clamps⟩ := ih set
        refine ⟨fun route sent reply member => ?_, fun other member => ?_⟩
        · cases List.mem_append.mp member with
          | inl early => exact here route sent reply early
          | inr late =>
              obtain ⟨k, le, is⟩ := sends route sent reply late
              exact ⟨k, le.trans below.le, is⟩
        · cases List.mem_append.mp member with
          | inl early =>
              have noted := (List.mem_cons.mp early).resolve_left (by simp)
              cases List.mem_append.mp noted with
              | inl mark => exact absurd mark (none other)
              | inr last =>
                  obtain rfl : other = lower := by simpa using last
                  exact below
          | inr late => exact (clamps other late).trans below

/-- What follows a clamp is asked for the tokens it leaves. -/
theorem RunLog.clamped (run : RunLog lib pool n payload s result events t)
    {before after : List DispatchEvent} {tokens : Int}
    (split : events = before ++ .capped tokens :: after) :
    (∀ route sent reply, .sent route sent reply ∈ after →
      ∃ k ≤ tokens, sent.maxTokens = some (.scalar (.int k))) ∧
      ∀ other, .capped other ∈ after → other < tokens := by
  induction run generalizing before with
  | spent payload s => cases before <;> cases split
  | ended leads turn ends => exact absurd (by simp [split]) (turn.unclamped ends tokens)
  | again leads turn rest ih =>
      rcases List.append_eq_append_iff.mp split with ⟨more, same, cut⟩ | ⟨more, same, cut⟩
      · exact ih cut
      · cases more with
        | nil => exact @ih [] cut.symm
        | cons event more =>
            -- A clamp is the last note of its turn.
            obtain ⟨rfl, rfl⟩ := List.cons.inj cut
            obtain ⟨first, pruned, answer, noted, rfl, -, failure⟩ := turn.again_inv
            rcases failure.tokens with ⟨-, none⟩ | ⟨lower, marks, set, -, rfl, none⟩
            · have noted := List.mem_append_right before
                (List.mem_cons_self : .capped tokens ∈ .capped tokens :: more)
              rw [← same] at noted
              exact absurd ((List.mem_cons.mp noted).resolve_left (by simp)) (none tokens)
            · rw [← List.cons_append] at same
              obtain ⟨capped, rfl⟩ := last_of_split same (by simpa using none tokens)
              obtain rfl : tokens = lower := by simpa using capped
              exact rest.asked set

/-! ### Answers -/

theorem RunLog.grows (run : RunLog lib pool n payload s result events t) :
    s.manager.Grows t.manager := by
  induction run with
  | spent payload s => exact .refl _
  | ended leads turn ends => exact leads.grows
  | again leads turn rest ih => exact leads.grows.trans ih

/-- A request goes to a route of the pool that is allowed and has its key. -/
theorem RunLog.offered (run : RunLog lib pool n payload s result events t)
    {route : RouteDefinition} {sent : ChatPayload} {reply : UpstreamReply}
    (member : .sent route sent reply ∈ events) :
    s.manager.isAllowed lib.casing route = true ∧ s.manager.hasKey route = true ∧
      route ∈ t.manager.routes pool := by
  have of_turn {payload : ChatPayload} {s t : DispatchState} {stop : TurnEnd Json}
      {events : List DispatchEvent} (turn : TurnLog lib pool payload s t stop events)
      (member : .sent route sent reply ∈ events) : Offered lib.casing pool s t route := by
    rcases turn.sends with rfl | ⟨first, pruned, answer, noted, rfl, offered, -, unsent⟩
    · cases member
    · cases List.mem_cons.mp member with
      | inl here =>
          cases here
          exact offered
      | inr later => exact absurd later (unsent _ _ _)
  induction run with
  | spent payload s => cases member
  | ended leads turn ends =>
      obtain ⟨-, allowed, keyed, listed⟩ := of_turn turn member
      exact ⟨allowed, keyed, listed⟩
  | again leads turn rest ih =>
      cases List.mem_append.mp member with
      | inl early =>
          obtain ⟨-, allowed, keyed, listed⟩ := of_turn turn early
          exact ⟨allowed, keyed, rest.grows.routes pool listed⟩
      | inr late =>
          obtain ⟨allowed, keyed, listed⟩ := ih late
          rw [IsolatedPoolManager.isAllowed, leads.grows.allowed] at allowed
          rw [IsolatedPoolManager.hasKey, leads.grows.keys] at keyed
          exact ⟨allowed, keyed, listed⟩

def DispatchEvent.isSent : DispatchEvent → Bool
  | .sent _ _ _ => true
  | _ => false

theorem TurnLog.countP_le {stop : TurnEnd Json} (turn : TurnLog lib pool payload s t stop events) :
    events.countP DispatchEvent.isSent ≤ 1 := by
  rcases turn.sends with rfl | ⟨first, pruned, answer, noted, rfl, -, -, unsent⟩
  · simp
  · have none : noted.countP DispatchEvent.isSent = 0 := by
      rw [List.countP_eq_zero]
      intro event member isSent
      cases event with
      | sent route sent reply => exact unsent _ _ _ member
      | _ => cases isSent
    rw [List.countP_cons, none]
    split <;> omega

theorem RunLog.countP_le (run : RunLog lib pool n payload s result events t) :
    events.countP DispatchEvent.isSent ≤ n := by
  induction run with
  | spent payload s => exact Nat.zero_le _
  | ended leads turn ends => exact turn.countP_le.trans (Nat.succ_le_succ (Nat.zero_le _))
  | again leads turn rest ih =>
      rw [List.countP_append]
      have := turn.countP_le
      omega

/-- An answer is what the last request brought. -/
theorem RunLog.answered (run : RunLog lib pool n payload s result events t) {parsed : Json}
    {route : RouteDefinition} (answer : result = .answered parsed route) :
    ∃ before sent reply, events = before ++ [.sent route sent reply] ∧
      parseReply lib route reply = some parsed := by
  induction run with
  | spent payload s => cases answer
  | ended leads turn ends =>
      subst answer
      cases turn with
      | noRoute => cases ends
      | unprunable error => cases ends
      | answered offered same read =>
          cases ends
          exact ⟨[], _, _, rfl, read⟩
      | failed offered same failure => cases failure <;> cases ends
  | again leads turn rest ih =>
      obtain ⟨before, sent, reply, rfl, read⟩ := ih answer
      exact ⟨_ ++ before, sent, reply, (List.append_assoc ..).symm, read⟩

end Run

/-! ## Every run -/

/-- A model that was noted as gone is not asked again. -/
def GoneForGood (casing : Casing) (log : List DispatchEvent) : Prop :=
  ∀ before model after, log = before ++ .deprecated model :: after →
    ∀ route sent reply, .sent route sent reply ∈ after →
      casing.lower route.model ≠ casing.lower model

/-- What follows a clamp asks for no more than the clamp leaves, and is clamped
    to less. -/
def ClampsFall (log : List DispatchEvent) : Prop :=
  ∀ before tokens after, log = before ++ .capped tokens :: after →
    (∀ route sent reply, .sent route sent reply ∈ after →
      ∃ k ≤ tokens, sent.maxTokens = some (.scalar (.int k))) ∧
      ∀ other, .capped other ∈ after → other < tokens

section Runs

variable [JsonCodec Json] (pool : String) (maxAttempts : Nat) (payload : ChatPayload)
  (manager : IsolatedPoolManager)

/-- The result of a run, and the state that it leaves. -/
def dispatchRun : DispatchResult Json × DispatchState :=
  dispatch lib around pool maxAttempts payload { manager }

/-- The requests of a run are few enough and go to routes of the pool that are
    allowed and have their keys; and an answer is what the last of them brought. -/
structure Served : Prop where
  bounded : (dispatchRun lib around pool maxAttempts payload manager).2.log.countP
    DispatchEvent.isSent ≤ maxAttempts
  offered : ∀ route sent reply,
    .sent route sent reply ∈ (dispatchRun lib around pool maxAttempts payload manager).2.log →
      manager.isAllowed lib.casing route = true ∧ manager.hasKey route = true ∧
        route ∈ (dispatchRun lib around pool maxAttempts payload manager).2.manager.routes pool
  answered : ∀ parsed route,
    (dispatchRun lib around pool maxAttempts payload manager).1 = .answered parsed route →
      ∃ before sent reply, (dispatchRun lib around pool maxAttempts payload manager).2.log =
        before ++ [.sent route sent reply] ∧ parseReply lib route reply = some parsed

theorem runLog_dispatch : RunLog lib pool maxAttempts payload { manager }
    (dispatchRun lib around pool maxAttempts payload manager).1
    (dispatchRun lib around pool maxAttempts payload manager).2.log
    (dispatchRun lib around pool maxAttempts payload manager).2 := by
  have adds : Adds lib.casing pool (dispatch lib around pool maxAttempts payload) { manager }
      fun t result events => RunLog lib pool maxAttempts payload { manager } result events t :=
    adds_dispatch maxAttempts payload _
  obtain ⟨events, leads, run⟩ := adds
  rw [dispatchRun, leads.log]
  exact run

/-- Whatever other threads do to the pools in between, and whatever the providers
    answer. -/
theorem dispatch_served : Served lib around pool maxAttempts payload manager where
  bounded := (runLog_dispatch lib around pool maxAttempts payload manager).countP_le
  offered _ _ _ member := (runLog_dispatch lib around pool maxAttempts payload manager).offered member
  answered _ _ answer := (runLog_dispatch lib around pool maxAttempts payload manager).answered answer

theorem dispatch_gone_for_good :
    GoneForGood lib.casing (dispatchRun lib around pool maxAttempts payload manager).2.log :=
  fun _ _ _ split _ _ _ member =>
    (runLog_dispatch lib around pool maxAttempts payload manager).gone split member

theorem dispatch_clamps_fall :
    ClampsFall (dispatchRun lib around pool maxAttempts payload manager).2.log :=
  fun _ _ _ split => (runLog_dispatch lib around pool maxAttempts payload manager).clamped split

end Runs

end UniversalFailoverRouter

end DuraLLM
