import DuraLLM.Execution.Hops

/-! # No way back, and no way too far

What decides on the next candidate bounds every run of `execute`.  An endpoint is
not left and attempted again unless a rollover of rate limits readmits it, or the
endpoints attempted in between.  With at most `H` hops allowed, one more than `H`
endpoints are attempted before the first rollover, and two more than `H` between
one rollover and the next: the hop away from an endpoint that was given up before
the rollover is counted already.  An endpoint is attempted more often than the
policy allows only after a key rotation.
-/

namespace DuraLLM

open Visit (recalled stretches changes leaving)

variable {Json Decision : Type} {terms : HopTerms}

/-! ## No way back -/

theorem AttemptNotes.visits {endpointId : String} {notes : List HopNote}
    (made : AttemptNotes endpointId notes) :
    ∃ n, visitsIn notes = List.replicate (n + 1) (.visit endpointId) := by
  cases made with
  | once success => exact ⟨0, rfl⟩
  | twice => exact ⟨1, rfl⟩

/-- One endpoint is visited, and it is on the ledger where the loop goes on. -/
theorem AttemptHops.visits {s : LoopState Json} {endpointId : String}
    {result : PassResult Json Decision} {notes : List HopNote}
    (attempt : AttemptHops terms s endpointId result notes) :
    ∃ n, visitsIn notes = List.replicate n (.visit endpointId) ∧
      ∀ t, result = .next t → 0 < n ∧
        t.ledger.endpointsAttempted = recalled s.ledger.endpointsAttempted (visitsIn notes) := by
  cases attempt with
  | stopped final made =>
      rcases made with rfl | made
      · exact ⟨0, rfl, fun t same => absurd same (final t)⟩
      · obtain ⟨n, visits⟩ := made.visits
        exact ⟨n + 1, visits, fun t same => absurd same (final t)⟩
  | rotated records =>
      refine ⟨1, rfl, fun t same => ?_⟩
      cases same
      exact ⟨Nat.one_pos, records.memory⟩
  | failed made records recovers =>
      obtain ⟨n, visits⟩ := made.visits
      refine ⟨n + 1, visits, fun t same => ?_⟩
      cases same
      refine ⟨Nat.succ_pos n, ?_⟩
      cases recovers with
      | kept keeps => rw [keeps.ledger, records.memory]
      | gaveUp gives =>
          rw [gives.ledger, ← records.memory]
          rfl

theorem permitted_replicate {memory : List String} {endpointId : String}
    (permits : Visit.Permits memory endpointId) (n : Nat) :
    Visit.Permitted memory (List.replicate n (.visit endpointId)) := by
  induction n generalizing memory with
  | zero => trivial
  | succ n ih => exact ⟨permits, ih (.inl List.getLast?_concat)⟩

/-- What a pass visits, the memory permits, and the memory follows. -/
theorem PassHops.permitted {s : LoopState Json} {result : PassResult Json Decision}
    {notes : List HopNote} (pass : PassHops terms s result notes) :
    Visit.Permitted s.ledger.endpointsAttempted (visitsIn notes) ∧
      ∀ t, result = .next t →
        t.ledger.endpointsAttempted = recalled s.ledger.endpointsAttempted (visitsIn notes) := by
  cases pass with
  | stopped final => exact ⟨trivial, fun t same => absurd same (final t)⟩
  | idle keeps =>
      refine ⟨trivial, fun t same => ?_⟩
      cases same
      exact congrArg AttemptLedger.endpointsAttempted keeps.ledger
  | rolledOver rolls =>
      refine ⟨trivial, fun t same => ?_⟩
      cases same
      obtain ⟨policy, ledger⟩ := rolls.ledger
      rw [ledger]
      rfl
  | passed chosen keeps =>
      refine ⟨trivial, fun t same => ?_⟩
      cases same
      rw [keeps.ledger]
      exact chosen.memory
  | tried chosen attempt =>
      obtain ⟨n, visits, goesOn⟩ := attempt.visits
      obtain ⟨policy, -, valid⟩ := chosen.valid
      refine ⟨?_, fun t same => ?_⟩
      · rw [visits]
        exact permitted_replicate (AttemptLedger.permits_of_validate valid).2 n
      · rw [(goesOn t same).2, chosen.memory]

theorem RunHops.permitted {s : LoopState Json} {notes : List HopNote}
    (run : @RunHops Json Decision terms s notes) :
    Visit.Permitted s.ledger.endpointsAttempted (visitsIn notes) := by
  induction run with
  | done s => trivial
  | last final pass => exact pass.permitted.1
  | next pass rest ih =>
      obtain ⟨now, memory⟩ := pass.permitted
      rw [visitsIn_append, Visit.permitted_append, ← memory _ rfl]
      exact ⟨now, ih⟩

/-! ## No way too far -/

section Budget

variable {H : Nat}

/-- At most `H` hops are allowed. -/
def hopTerms (H : Nat) : HopTerms where
  policies := fun policy => policy.fallback.maxFallbackHops ≤ H
  honours := False

/-- The changes of place that are still to be had: one that is counted already
    does not count against the maximum. -/
def LoopState.hopsLeft (H : Nat) (s : LoopState Json) : Nat :=
  if s.ledger.fallbackCount < H then
    H - s.ledger.fallbackCount + if s.fallbackMarked then 1 else 0
  else 0

/-- The endpoint changed since the last attempt, which was paid for. -/
def LoopState.away (s : LoopState Json) (current : Option String) : Nat :=
  match s.lastEndpoint with
  | none => 0
  | some last => leaving current last.id

theorem Keeps.hopsLeft {s t : LoopState Json} (keeps : s.Keeps t) : t.hopsLeft H = s.hopsLeft H := by
  rw [LoopState.hopsLeft, keeps.ledger, keeps.marked, LoopState.hopsLeft]

theorem Keeps.away {s t : LoopState Json} (keeps : s.Keeps t) (current : Option String) :
    t.away current = s.away current := by
  rw [LoopState.away, keeps.last, LoopState.away]

/-- To choose another endpoint takes one of the changes left. -/
theorem Chooses.hopsLeft {s t : LoopState Json} {endpointId : String}
    (chosen : s.Chooses (hopTerms H) endpointId t) {current : Option String}
    (known : s.lastEndpoint = none → current = none) :
    leaving current endpointId + t.hopsLeft H ≤ s.hopsLeft H + s.away current ∧
      s.ledger.fallbackCount < H := by
  obtain ⟨policy, allowed, valid⟩ := chosen.valid
  have below : policy.fallback.maxFallbackHops ≤ H := allowed
  have hops := (AttemptLedger.permits_of_validate valid).1
  have left : s.hopsLeft H =
      H - s.ledger.fallbackCount + if s.fallbackMarked then 1 else 0 := if_pos (by omega)
  refine ⟨?_, by omega⟩
  rcases chosen.hop with ⟨marked, count, same⟩ | ⟨marked, count⟩
  · have kept : t.hopsLeft H = s.hopsLeft H := by
      rw [LoopState.hopsLeft, marked, count, LoopState.hopsLeft]
    cases last : s.lastEndpoint with
    | none =>
        rw [known last, kept]
        exact Nat.le_trans (Nat.le_of_eq (Nat.zero_add _)) (Nat.le_add_right _ _)
    | some here =>
        have away : s.away current = leaving current endpointId := by
          simp only [LoopState.away, last, same here last]
        omega
  · have one : leaving current endpointId ≤ 1 := by
      cases current with
      | none => exact Nat.zero_le 1
      | some b =>
          rw [leaving]
          split <;> omega
    have fewer : t.hopsLeft H + 1 ≤ s.hopsLeft H := by
      rw [left, LoopState.hopsLeft, marked, count]
      cases s.fallbackMarked with
      | true =>
          simp only [if_true, Nat.add_zero, if_pos (show s.ledger.fallbackCount < H by omega)]
          exact Nat.le_refl _
      | false =>
          simp only [Bool.false_eq_true, if_false]
          split <;> omega
    omega

/-- An attempt takes no change but the one to the endpoint. -/
theorem AttemptHops.hopsLeft {s t : LoopState Json} {endpointId : String} {notes : List HopNote}
    (attempt : AttemptHops terms s endpointId (.next t : PassResult Json Decision) notes)
    (here : s.lastEndpoint.map (·.id) = some endpointId) :
    t.hopsLeft H ≤ s.hopsLeft H ∧ t.lastEndpoint.map (·.id) = some endpointId := by
  have after {u v : LoopState Json} (hops : u.ledger.fallbackCount = v.ledger.fallbackCount)
      (marked : u.fallbackMarked = v.fallbackMarked) : u.hopsLeft H = v.hopsLeft H := by
    rw [LoopState.hopsLeft, hops, marked, LoopState.hopsLeft]
  cases attempt with
  | stopped final => exact absurd rfl (final t)
  | rotated records =>
      exact ⟨Nat.le_of_eq (after records.hops records.marked), records.last ▸ here⟩
  | failed made records recovers =>
      have recorded := after records.hops records.marked
      cases recovers with
      | kept keeps =>
          refine ⟨Nat.le_of_eq ?_, keeps.last ▸ records.last ▸ here⟩
          rw [← recorded]
          exact after (congrArg _ keeps.ledger) keeps.marked
      | gaveUp gives =>
          refine ⟨?_, gives.last ▸ records.last ▸ here⟩
          rw [← recorded, LoopState.hopsLeft, gives.ledger, gives.marked, LoopState.hopsLeft]
          simp only [AttemptLedger.markFallback, if_true]
          split <;> split <;> omega

/-- The stretches of a run from `s` on, where `current` was attempted last. -/
structure HopsWithin (H : Nat) (s : LoopState Json) (current : Option String)
    (visits : List (Visit String)) : Prop where
  first : ∀ first rest, stretches visits = first :: rest →
    changes current first ≤ s.hopsLeft H + s.away current ∧
      (H ≤ s.ledger.fallbackCount → first = [])
  rest : ∀ first rest, stretches visits = first :: rest →
    ∀ stretch ∈ rest, changes none stretch ≤ H + 1 ∧ (H = 0 → stretch = [])

theorem within_nil (s : LoopState Json) (current : Option String) : HopsWithin H s current [] where
  first := by
    intro first rest same
    cases same
    exact ⟨Nat.zero_le _, fun _ => rfl⟩
  rest := by
    intro first rest same
    cases same
    exact fun _ none => by cases none

/-- Nothing is attempted. -/
theorem HopsWithin.quiet {s t : LoopState Json} {current : Option String}
    {visits : List (Visit String)} (within : HopsWithin H t current visits)
    (left : t.hopsLeft H + t.away current ≤ s.hopsLeft H + s.away current)
    (spent : H ≤ s.ledger.fallbackCount → H ≤ t.ledger.fallbackCount) :
    HopsWithin H s current visits where
  first := by
    intro first rest cut
    obtain ⟨bound, none⟩ := within.first first rest cut
    exact ⟨by omega, fun spentAll => none (spent spentAll)⟩
  rest := within.rest

/-- The endpoint is attempted once or more. -/
theorem HopsWithin.replicate {s t : LoopState Json} {current : Option String} {endpointId : String}
    {visits : List (Visit String)} (within : HopsWithin H t (some endpointId) visits)
    (left : leaving current endpointId + t.hopsLeft H ≤ s.hopsLeft H + s.away current)
    (here : t.away (some endpointId) = 0) (room : s.ledger.fallbackCount < H) (n : Nat) :
    HopsWithin H s current (List.replicate (n + 1) (.visit endpointId) ++ visits) := by
  obtain ⟨first, rest, cut⟩ := Visit.exists_stretches visits
  have whole := Visit.stretches_replicate (a := endpointId) (n + 1) cut
  refine ⟨fun first' rest' same => ?_, fun first' rest' same => ?_⟩
  · rw [whole] at same
    cases same
    have later := (within.first first rest cut).1
    rw [Visit.changes_replicate]
    exact ⟨by omega, fun spentAll => absurd room (by omega)⟩
  · rw [whole] at same
    cases same
    exact within.rest first rest cut

theorem away_here {s : LoopState Json} {endpointId : String}
    (here : s.lastEndpoint.map (·.id) = some endpointId) : s.away (some endpointId) = 0 := by
  obtain ⟨last, found, same⟩ := Option.map_eq_some_iff.mp here
  simp [LoopState.away, found, leaving, same]

theorem PassHops.within {s : LoopState Json} {result : PassResult Json Decision}
    {notes : List HopNote} (pass : PassHops (hopTerms H) s result notes) {current : Option String}
    (known : s.lastEndpoint = none → current = none) (later : List (Visit String))
    (rest : ∀ t, result = .next t → ∀ current, (t.lastEndpoint = none → current = none) →
      HopsWithin H t current later)
    (ended : (∀ t, result ≠ .next t) → later = []) : HopsWithin H s current (visitsIn notes ++ later) := by
  cases pass with
  | stopped final =>
      rw [ended final]
      exact within_nil s current
  | @idle t keeps =>
      refine (rest t rfl current fun none => known (keeps.last ▸ none)).quiet ?_ ?_
      · rw [Keeps.hopsLeft keeps, Keeps.away keeps]
      · exact fun spentAll => keeps.ledger ▸ spentAll
  | @rolledOver endpointIds t rolls =>
      obtain ⟨policy, ledger⟩ := rolls.ledger
      have count : t.ledger.fallbackCount = 0 := by rw [ledger]; rfl
      obtain ⟨first, behind, cut⟩ := Visit.exists_stretches later
      have within := rest t rfl none fun _ => rfl
      have whole : stretches (visitsIn [.rolledOver endpointIds] ++ later) = [] :: first :: behind :=
        congrArg (List.cons []) cut
      refine ⟨fun first' rest' same => ?_, fun first' rest' same stretch member => ?_⟩
      · rw [whole] at same
        cases same
        exact ⟨Nat.zero_le _, fun _ => rfl⟩
      · rw [whole] at same
        cases same
        rcases List.mem_cons.mp member with rfl | member
        · obtain ⟨bound, nothing⟩ := within.first stretch behind cut
          have away : t.away none = 0 := by
            unfold LoopState.away
            split <;> rfl
          have most : t.hopsLeft H ≤ H + 1 := by
            have prepaid : (if t.fallbackMarked then 1 else 0) ≤ 1 := by split <;> omega
            unfold LoopState.hopsLeft
            rw [count]
            split <;> omega
          exact ⟨by omega, fun zero => nothing (by omega)⟩
        · exact within.rest first behind cut stretch member
  | @passed endpointId t u chosen keeps =>
      obtain ⟨left, room⟩ := Chooses.hopsLeft chosen known
      obtain ⟨last, found, same⟩ := Option.map_eq_some_iff.mp chosen.last
      have away : u.away current = leaving current endpointId := by
        rw [Keeps.away keeps, LoopState.away, found, ← same]
      refine (rest u rfl current fun none => ?_).quiet ?_ fun spentAll => absurd room (by omega)
      · rw [keeps.last, found] at none
        cases none
      · rw [Keeps.hopsLeft keeps, away]
        omega
  | @tried endpointId t chosen _ _ attempt =>
      obtain ⟨left, room⟩ := Chooses.hopsLeft chosen known
      obtain ⟨n, visits, goesOn⟩ := attempt.visits
      rw [visits]
      by_cases final : ∀ u, result ≠ .next u
      · rw [ended final]
        cases n with
        | zero => exact within_nil s current
        | succ n =>
            exact (within_nil t (some endpointId)).replicate left (away_here chosen.last) room n
      · obtain ⟨u, next⟩ := not_forall_not.mp final
        subst next
        obtain ⟨n, rfl⟩ := Nat.exists_eq_add_of_lt (goesOn u rfl).1
        obtain ⟨fewer, here⟩ := attempt.hopsLeft (H := H) chosen.last
        rw [Nat.zero_add]
        refine (rest u rfl (some endpointId) fun none => ?_).replicate (by omega)
          (away_here here) room n
        rw [none] at here
        cases here

theorem RunHops.within {s : LoopState Json} {notes : List HopNote}
    (run : @RunHops Json Decision (hopTerms H) s notes) {current : Option String}
    (known : s.lastEndpoint = none → current = none) : HopsWithin H s current (visitsIn notes) := by
  induction run generalizing current with
  | done s => exact within_nil s current
  | last final pass =>
      have whole := pass.within known [] (fun t same => absurd same (final t)) fun _ => rfl
      rwa [List.append_nil] at whole
  | next pass rest ih =>
      rw [visitsIn_append]
      refine pass.within known _ (fun t same current known => ?_) fun final => absurd rfl (final _)
      cases same
      exact ih known

end Budget

/-! ## No attempt too many -/

section Retries

variable {M : Nat}

/-- At most `M` attempts on an endpoint are allowed, and no excluded endpoint is
    chosen. -/
def retryTerms (M : Nat) : HopTerms where
  policies := fun policy => policy.retry.maxAttemptsSameEndpoint ≤ M
  honours := True

/-- The last attempt on the endpoint gave way to another key. -/
def RotatedLast (notes : List HopNote) (endpointId : String) : Prop :=
  ∃ front behind, notes = front ++ .rotated endpointId :: .attempted endpointId false :: behind ∧
    ∀ success, .attempted endpointId success ∉ behind

/-- The attempts of `notes`, after those of `front`: one beyond the `M` since the
    endpoint was forgotten last follows on a rotation.  An attempt that is
    reported again is not a new one. -/
def RetriesWithin (M : Nat) (front notes : List HopNote) : Prop :=
  ∀ before endpointId success after, notes = before ++ .attempted endpointId success :: after →
    (front ++ before).getLast? ≠ some (.attempted endpointId true) →
    max 1 M ≤ (recalled [] (visitsIn (front ++ before))).count endpointId →
      RotatedLast (front ++ before) endpointId

theorem RetriesWithin.append {front notes later : List HopNote}
    (begins : RetriesWithin M front notes) (goesOn : RetriesWithin M (front ++ notes) later) :
    RetriesWithin M front (notes ++ later) := by
  intro before endpointId success after split fresh many
  rcases List.append_eq_append_iff.mp split with ⟨more, same, cut⟩ | ⟨more, same, cut⟩
  · subst same
    rw [← List.append_assoc] at fresh many ⊢
    exact goesOn more endpointId success after cut fresh many
  · cases more with
    | nil =>
        rw [List.append_nil] at same
        subst same
        have here := goesOn [] endpointId success after cut.symm
        rw [List.append_nil] at here
        exact here fresh many
    | cons note more =>
        obtain ⟨rfl, -⟩ := List.cons.inj cut
        exact begins before endpointId success more same fresh many

theorem RotatedLast.append {front notes : List HopNote} {endpointId : String}
    (rotated : RotatedLast front endpointId)
    (others : ∀ success, .attempted endpointId success ∉ notes) :
    RotatedLast (front ++ notes) endpointId := by
  obtain ⟨before, behind, rfl, free⟩ := rotated
  refine ⟨before, behind ++ notes, by simp only [List.append_assoc, List.cons_append], ?_⟩
  intro success member
  exact (List.mem_append.mp member).elim (free success) (others success)

/-- What holds between two passes, after the notes of those before: the memory is
    that of the notes, and an endpoint that may be chosen has attempts left or was
    rotated last. -/
structure Retriable (M : Nat) (front : List HopNote) (s : LoopState Json) : Prop where
  memory : s.ledger.endpointsAttempted = recalled [] (visitsIn front)
  counted : s.ledger.Counted
  free : ∀ endpointId, endpointId ∈ s.excludedEndpoints ∨
    (recalled [] (visitsIn front)).count endpointId < max 1 M ∨ RotatedLast front endpointId

theorem Retriable.quiet {front : List HopNote} {s t : LoopState Json}
    (retriable : Retriable M front s)
    (memory : t.ledger.endpointsAttempted = s.ledger.endpointsAttempted)
    (counts : t.ledger.endpointCounts = s.ledger.endpointCounts)
    (excluded : s.excludedEndpoints ⊆ t.excludedEndpoints) : Retriable M (front ++ []) t := by
  rw [List.append_nil]
  refine ⟨memory.trans retriable.memory, fun endpointId => ?_, fun endpointId => ?_⟩
  · rw [AttemptLedger.attemptsOn, memory, counts]
    exact retriable.counted endpointId
  · exact (retriable.free endpointId).imp_left fun member => excluded member

theorem Retriable.rolledOver {front : List HopNote} {s t : LoopState Json}
    (retriable : Retriable M front s) {endpointIds : List String}
    (rolls : s.Readmits endpointIds t) : Retriable M (front ++ [.rolledOver endpointIds]) t := by
  obtain ⟨policy, ledger⟩ := rolls.ledger
  have forgotten : recalled [] (visitsIn (front ++ [.rolledOver endpointIds])) =
      (recalled [] (visitsIn front)).filter fun id => id ∉ endpointIds := by
    rw [visitsIn_append, Visit.recalled_append]
    rfl
  refine ⟨?_, ?_, fun endpointId => ?_⟩
  · rw [forgotten, ← retriable.memory, ledger]
    rfl
  · rw [ledger]
    exact AttemptLedger.counted_reset retriable.counted policy endpointIds
  · rw [forgotten]
    by_cases named : endpointId ∈ endpointIds
    · have none : ((recalled [] (visitsIn front)).filter fun id => id ∉ endpointIds).count
          endpointId = 0 := by
        rw [List.count_eq_zero]
        intro member
        simpa [named] using (List.mem_filter.mp member).2
      exact .inr (.inl (by omega))
    · rw [List.count_filter (by simpa using named)]
      rcases retriable.free endpointId with out | few | rotated
      · exact .inl ((rolls.excluded endpointId out).resolve_left named)
      · exact .inr (.inl few)
      · exact .inr (.inr (rotated.append fun success member => by simp at member))

/-- After an attempt, the other endpoints are as free as before. -/
theorem Retriable.attempt {front notes : List HopNote} {s t : LoopState Json}
    (retriable : Retriable M front s) {endpointId : String} {n : Nat}
    (visits : visitsIn notes = List.replicate n (.visit endpointId))
    (own : ∀ other success, .attempted other success ∈ notes → other = endpointId)
    (memory : t.ledger.endpointsAttempted = recalled s.ledger.endpointsAttempted (visitsIn notes))
    (counted : t.ledger.Counted) (excluded : s.excludedEndpoints ⊆ t.excludedEndpoints)
    (free : endpointId ∈ t.excludedEndpoints ∨ t.ledger.attemptsOn endpointId < max 1 M ∨
      RotatedLast (front ++ notes) endpointId) : Retriable M (front ++ notes) t := by
  have same : t.ledger.endpointsAttempted = recalled [] (visitsIn (front ++ notes)) := by
    rw [visitsIn_append, Visit.recalled_append, memory, retriable.memory]
  refine ⟨same, counted, fun other => ?_⟩
  by_cases here : other = endpointId
  · subst here
    rw [← same, ← counted other]
    exact free
  · have count : (recalled [] (visitsIn (front ++ notes))).count other =
        (recalled [] (visitsIn front)).count other := by
      rw [visitsIn_append, Visit.recalled_append, visits, Visit.recalled_replicate,
        List.count_append, List.count_replicate]
      simp [Ne.symm here]
    rw [count]
    rcases retriable.free other with out | few | rotated
    · exact .inl (excluded out)
    · exact .inr (.inl few)
    · exact .inr (.inr (rotated.append fun success member => here (own other success member)))

theorem retriesWithin_nil (front : List HopNote) : RetriesWithin M front [] := by
  intro before endpointId success after split
  simp at split

/-- The reports of an attempt on an endpoint that may be chosen. -/
theorem AttemptNotes.retriesWithin {front notes : List HopNote} {endpointId : String}
    (made : AttemptNotes endpointId notes)
    (free : (recalled [] (visitsIn front)).count endpointId < max 1 M ∨
      RotatedLast front endpointId) : RetriesWithin M front notes := by
  intro before other success after split fresh many
  cases made with
  | once reported =>
      rcases List.cons_eq_append_iff.mp split with ⟨rfl, same⟩ | ⟨more, rfl, none⟩
      · cases same
        rw [List.append_nil] at many ⊢
        exact free.resolve_left (by omega)
      · simp at none
  | twice =>
      rcases List.cons_eq_append_iff.mp split with ⟨rfl, same⟩ | ⟨more, rfl, again⟩
      · cases same
        rw [List.append_nil] at many ⊢
        exact free.resolve_left (by omega)
      · -- The second report is not a new attempt.
        rcases List.cons_eq_append_iff.mp again with ⟨rfl, same⟩ | ⟨more, rfl, none⟩
        · cases same
          exact absurd List.getLast?_concat fresh
        · simp at none

theorem retriesWithin_rotated {front : List HopNote} {endpointId : String}
    (free : (recalled [] (visitsIn front)).count endpointId < max 1 M ∨
      RotatedLast front endpointId) :
    RetriesWithin M front [.rotated endpointId, .attempted endpointId false] := by
  intro before other success after split fresh many
  rcases List.cons_eq_append_iff.mp split with ⟨rfl, same⟩ | ⟨more, rfl, again⟩
  · cases same
  · rcases List.cons_eq_append_iff.mp again with ⟨rfl, same⟩ | ⟨more, rfl, none⟩
    · cases same
      have count : recalled [] (visitsIn (front ++ [.rotated endpointId])) =
          recalled [] (visitsIn front) := by
        rw [visitsIn_append, Visit.recalled_append]
        rfl
      rw [count] at many
      exact (free.resolve_left (by omega)).append fun success member => by simp at member
    · simp at none

theorem PassHops.retries {s : LoopState Json} {result : PassResult Json Decision}
    {front notes : List HopNote} (pass : PassHops (retryTerms M) s result notes)
    (retriable : Retriable M front s) :
    RetriesWithin M front notes ∧ ∀ t, result = .next t → Retriable M (front ++ notes) t := by
  cases pass with
  | stopped final => exact ⟨retriesWithin_nil front, fun t same => absurd same (final t)⟩
  | idle keeps =>
      refine ⟨retriesWithin_nil front, fun t same => ?_⟩
      cases same
      exact retriable.quiet (congrArg _ keeps.ledger) (congrArg _ keeps.ledger) keeps.excluded
  | rolledOver rolls =>
      refine ⟨?_, fun t same => ?_⟩
      · intro before endpointId success after split
        rcases List.cons_eq_append_iff.mp split with ⟨rfl, same⟩ | ⟨more, rfl, none⟩
        · cases same
        · simp at none
      · cases same
        exact retriable.rolledOver rolls
  | passed chosen keeps =>
      refine ⟨retriesWithin_nil front, fun t same => ?_⟩
      cases same
      refine retriable.quiet ?_ ?_ (List.Subset.trans chosen.excluded keeps.excluded)
      · rw [keeps.ledger, chosen.memory]
      · rw [keeps.ledger, chosen.counts]
  | @tried endpointId t chosen _ _ attempt =>
      have free := (retriable.free endpointId).resolve_left (chosen.free trivial)
      have begun : Retriable M front t := by
        have quiet := retriable.quiet chosen.memory chosen.counts chosen.excluded
        rwa [List.append_nil] at quiet
      cases attempt with
      | stopped final made =>
          refine ⟨?_, fun u same => absurd same (final u)⟩
          rcases made with rfl | made
          · exact retriesWithin_nil front
          · exact made.retriesWithin free
      | rotated records =>
          refine ⟨retriesWithin_rotated free, fun u same => ?_⟩
          cases same
          have own : ∀ other success, HopNote.attempted other success ∈
              [.rotated endpointId, .attempted endpointId false] → other = endpointId := by
            intro other success member
            simp only [List.mem_cons, reduceCtorEq, false_or, List.not_mem_nil, or_false,
              HopNote.attempted.injEq] at member
            exact member.1
          exact begun.attempt (n := 1) rfl own records.memory (records.counted begun.counted)
            records.excluded (.inr (.inr ⟨front, [], rfl, fun _ none => by cases none⟩))
      | failed made records recovers =>
          refine ⟨made.retriesWithin free, fun u same => ?_⟩
          cases same
          obtain ⟨n, visits⟩ := made.visits
          have own : ∀ other success, .attempted other success ∈ notes → other = endpointId := by
            intro other success member
            cases made <;> simp at member
            · exact member.1
            · exact member.elim And.left And.left
          cases recovers with
          | kept keeps shown room =>
              have allowed : _ ≤ M := shown
              simp only [AttemptLedger.canAttemptEndpoint, Bool.and_eq_true, decide_eq_true_eq] at room
              refine begun.attempt visits own (keeps.ledger ▸ records.memory)
                (keeps.ledger ▸ records.counted begun.counted)
                (List.Subset.trans records.excluded keeps.excluded) (.inr (.inl ?_))
              rw [keeps.ledger]
              omega
          | gaveUp gives =>
              refine begun.attempt visits own ?_ ?_
                (List.Subset.trans records.excluded gives.excluded) (.inl gives.gone)
              · rw [gives.ledger]
                exact records.memory
              · rw [gives.ledger]
                exact records.counted begun.counted

theorem RunHops.retries {s : LoopState Json} {notes : List HopNote}
    (run : @RunHops Json Decision (retryTerms M) s notes) {front : List HopNote}
    (retriable : Retriable M front s) : RetriesWithin M front notes := by
  induction run generalizing front with
  | done s => exact retriesWithin_nil front
  | last final pass => exact (pass.retries retriable).1
  | next pass rest ih =>
      obtain ⟨now, later⟩ := pass.retries retriable
      exact now.append (ih (later _ rfl))

end Retries

/-! ## Whole runs -/

section Runs

/-- The policy that is shown. -/
def shownPolicy : Exchange Json Decision → Option ExecutionPolicy
  | ⟨.inl .policy, (policy : ExecutionPolicy)⟩ => some policy
  | _ => none

/-- The router chooses no excluded endpoint. -/
def honoursExclusions : Exchange Json Decision → Bool
  | ⟨.inl (.selectCandidate _ _ _ _ excluded _),
      (.ok (some endpoint, _) : Except RaisedError (Option Endpoint × Decision))⟩ =>
      endpoint.id ∉ excluded
  | _ => true

theorem fair_of_shown {terms : HopTerms} {exchange : Exchange Json Decision}
    (policies : ∀ policy ∈ shownPolicy exchange, terms.policies policy)
    (honours : terms.honours → honoursExclusions exchange = true) :
    (hopContract Json Decision terms).fair exchange.1 exchange.2 := by
  rcases exchange with ⟨op | op, answer⟩
  · cases op with
    | policy => exact policies _ rfl
    | selectCandidate requirements pool strategy requestId excluded reason =>
        change Except RaisedError (Option Endpoint × Decision) at answer
        rcases answer with e | ⟨_ | endpoint, decision⟩
        · trivial
        · trivial
        · exact fun promised => of_decide_eq_true (honours promised)
    | _ => trivial
  · trivial

variable [JsonCodec Json] {σ : Type} (handle : Prog.Handler (executorSig Json Decision) σ)
  (executor : GatewayExecutor Json) (args : ExecuteRequest Json) (fuel : Nat) (start : σ)

/-- The endpoints attempted in a run of `execute`, and the rollovers. -/
def endpointVisits : List (Visit String) :=
  visitsIn (((execute executor args fuel).transcript handle start).filterMap hopNote)

/-- In every run of `execute`, an endpoint that is left and attempted again was
    readmitted by a rollover in between, or every endpoint attempted in between
    was, after its attempt. -/
theorem no_return_between_endpoints :
    Visit.NoReturn (endpointVisits handle executor args fuel start) := by
  have anything : ∀ exchange : Exchange Json Decision,
      (hopContract Json Decision ⟨fun _ => True, False⟩).fair exchange.1 exchange.2 :=
    fun _ => fair_of_shown (fun _ _ => trivial) False.elim
  have run := ((hops_execute executor args fuel).traces (Prog.traces_exec handle _ start)
    fun exchange _ => anything exchange).1
  exact run.permitted.noReturn

/-- In every run of `execute` under policies of at most `H` hops, at most `H + 1`
    endpoints are attempted before the first rollover and at most `H + 2` between
    one rollover and the next, and none at all where `H` is zero. -/
theorem endpoints_within_hops (H : Nat)
    (allowed : ∀ exchange ∈ (execute executor args fuel).transcript handle start,
      ∀ policy ∈ shownPolicy exchange, policy.fallback.maxFallbackHops ≤ H) :
    ∃ first rest, stretches (endpointVisits handle executor args fuel start) = first :: rest ∧
      first.toFinset.card ≤ (if H = 0 then 0 else H + 1) ∧
      ∀ stretch ∈ rest, stretch.toFinset.card ≤ if H = 0 then 0 else H + 2 := by
  have notes : ExecutionHops (hopTerms H) (execute executor args fuel : Execution Json Decision _)
      fun _ log => @RunHops Json Decision (hopTerms H) { request := args.request } log :=
    hops_execute executor args fuel
  have run := (notes.traces (Prog.traces_exec handle _ start) fun exchange member =>
    fair_of_shown (allowed exchange member) False.elim).1
  have within := run.within fun _ => rfl
  obtain ⟨first, rest, cut⟩ := Visit.exists_stretches (endpointVisits handle executor args fuel start)
  obtain ⟨bound, none⟩ := within.first first rest cut
  have left : LoopState.hopsLeft H ({ request := args.request } : LoopState Json) ≤ H := by
    unfold LoopState.hopsLeft
    split
    · exact Nat.le_refl _
    · exact Nat.zero_le _
  refine ⟨first, rest, cut, ?_, fun stretch member => ?_⟩
  · have few := Visit.card_le_changes first
    split
    next zero => rw [none (Nat.le_of_eq zero)]; simp
    next =>
      have away : LoopState.away ({ request := args.request } : LoopState Json) Option.none = 0 := rfl
      omega
  · obtain ⟨bound, none⟩ := within.rest first rest cut stretch member
    have few := Visit.card_le_changes stretch
    split
    next zero => rw [none zero]; simp
    next => omega

/-- In every run of `execute` under policies of at most `M` attempts on one
    endpoint, with a router that honours the exclusions, an attempt beyond that
    number, counted since the last rollover that named the endpoint, is made only
    where the last attempt on the endpoint gave way to another key. -/
theorem retries_within_policy (M : Nat)
    (allowed : ∀ exchange ∈ (execute executor args fuel).transcript handle start,
      ∀ policy ∈ shownPolicy exchange, policy.retry.maxAttemptsSameEndpoint ≤ M)
    (honoured : ∀ exchange ∈ (execute executor args fuel).transcript handle start,
      honoursExclusions exchange = true) :
    RetriesWithin M []
      (((execute executor args fuel).transcript handle start).filterMap hopNote) := by
  have notes : ExecutionHops (retryTerms M) (execute executor args fuel : Execution Json Decision _)
      fun _ log => @RunHops Json Decision (retryTerms M) { request := args.request } log :=
    hops_execute executor args fuel
  have run := (notes.traces (Prog.traces_exec handle _ start) fun exchange member =>
    fair_of_shown (allowed exchange member) fun _ => honoured exchange member).1
  refine run.retries ⟨rfl, fun _ => rfl, fun endpointId => .inr (.inl ?_)⟩
  simp [visitsIn]

end Runs

section Sample

/-- One of two keys is rate limited: two attempts on the one endpoint. -/
theorem endpoints_within_hops_rotation :
    ∃ first rest, stretches (endpointVisits sampleHandle { computePrefixHash := fun _ => "" }
        { request := { requestId := "request-1" }, apiKeys := sampleKeys } 3 sampleStart) =
          first :: rest ∧
      first.toFinset.card ≤ (if 8 = 0 then 0 else 8 + 1) ∧
      ∀ stretch ∈ rest, stretch.toFinset.card ≤ if 8 = 0 then 0 else 8 + 2 :=
  endpoints_within_hops sampleHandle _ _ 3 sampleStart 8 (by decide +kernel)

theorem retries_within_policy_rotation :
    RetriesWithin 2 [] ((sampleRun.transcript sampleHandle sampleStart).filterMap hopNote) :=
  retries_within_policy sampleHandle _ _ 3 sampleStart 2 (by decide +kernel) (by decide +kernel)

end Sample

end DuraLLM
