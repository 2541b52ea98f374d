import DuraLLM.Lib.Framing
import DuraLLM.Lib.Utf8

/-! # Relaying the frames of a stream

`FastStreamRelay` passes the events of a stream on as soon as they are
complete.  It looks for a blank line between plain line ends in all that it has,
and only where there is none for one between Windows line ends.
-/

namespace DuraLLM

open Utf8

/-- `b"\n\n"` -/
def plainDelimiter : Bytes := [10, 10]

/-- `b"\r\n\r\n"` -/
def windowsDelimiter : Bytes := [13, 10, 13, 10]

/-- `buffer.find(pattern)` -/
def findBytes (pattern : Bytes) : Bytes → Option Nat
  | [] => if pattern = [] then some 0 else none
  | b :: bytes =>
      if pattern <+: b :: bytes then some 0 else (findBytes pattern bytes).map (· + 1)

/-- Where the frame ends that is cut off next. -/
def endFrame (buffer : Bytes) : Option Nat :=
  match findBytes plainDelimiter buffer with
  | some idx => some (idx + 2)
  | none => (findBytes windowsDelimiter buffer).map (· + 4)

/-- Where the first event of the stream ends: behind the first delimiter of either kind. -/
def endEvent : Bytes → Option Nat
  | [] => none
  | b :: bytes =>
      if plainDelimiter <+: b :: bytes then some 2
      else if windowsDelimiter <+: b :: bytes then some 4
      else (endEvent bytes).map (· + 1)

/-! ## Places -/

theorem findBytes_some {pattern bytes : Bytes} {i : Nat} (found : findBytes pattern bytes = some i) :
    pattern <+: bytes.drop i ∧ i + pattern.length ≤ bytes.length := by
  induction bytes generalizing i with
  | nil =>
      simp only [findBytes] at found
      split at found
      · next empty =>
        obtain rfl := Option.some.inj found
        simp [empty]
      · cases found
  | cons b bytes ih =>
      simp only [findBytes] at found
      split at found
      · next here =>
        obtain rfl := Option.some.inj found
        exact ⟨here, by simpa using here.length_le⟩
      · obtain ⟨j, later, rfl⟩ := Option.map_eq_some_iff.mp found
        obtain ⟨there, inside⟩ := ih later
        exact ⟨there, by simp only [List.length_cons]; omega⟩

theorem findBytes_le {pattern bytes : Bytes} {k : Nat} (there : pattern <+: bytes.drop k) :
    ∃ i ≤ k, findBytes pattern bytes = some i := by
  induction bytes generalizing k with
  | nil =>
      rw [List.drop_nil, List.prefix_nil] at there
      exact ⟨0, Nat.zero_le k, by simp [findBytes, there]⟩
  | cons b bytes ih =>
      by_cases here : pattern <+: b :: bytes
      · exact ⟨0, Nat.zero_le k, by simp [findBytes, here]⟩
      · cases k with
        | zero => exact absurd there here
        | succ k =>
            obtain ⟨i, first, found⟩ := ih there
            exact ⟨i + 1, by omega, by simp [findBytes, here, found]⟩

theorem findBytes_none {pattern bytes : Bytes} (absent : findBytes pattern bytes = none) :
    ¬pattern <:+: bytes := by
  induction bytes with
  | nil =>
      simp only [findBytes] at absent
      split at absent
      · cases absent
      · next some =>
        rw [List.infix_nil]
        exact some
  | cons b bytes ih =>
      simp only [findBytes] at absent
      split at absent
      · cases absent
      · next elsewhere =>
        rw [List.infix_cons_iff, not_or]
        exact ⟨elsewhere, ih (Option.map_eq_none_iff.mp absent)⟩

theorem not_both {bytes : Bytes} (windows : windowsDelimiter <+: bytes) :
    ¬plainDelimiter <+: bytes := by
  rintro ⟨rest, same⟩
  obtain ⟨rest', rfl⟩ := windows
  simp [windowsDelimiter, plainDelimiter] at same

/-- The first delimiter is the first plain one or the first of Windows. -/
theorem endEvent_eq (bytes : Bytes) :
    endEvent bytes =
      match findBytes plainDelimiter bytes, findBytes windowsDelimiter bytes with
      | some i, some j => some (if i < j then i + 2 else j + 4)
      | some i, none => some (i + 2)
      | none, some j => some (j + 4)
      | none, none => none := by
  induction bytes with
  | nil => rfl
  | cons b bytes ih =>
      simp only [endEvent, findBytes, ih]
      by_cases plain : plainDelimiter <+: b :: bytes
      · have other : ¬windowsDelimiter <+: b :: bytes := fun windows => not_both windows plain
        simp only [plain, if_true, other, if_false]
        cases findBytes windowsDelimiter bytes <;> simp
      · by_cases windows : windowsDelimiter <+: b :: bytes
        · simp only [plain, if_false, windows, if_true]
          cases findBytes plainDelimiter bytes <;> simp
        · simp only [plain, windows, if_false]
          cases findBytes plainDelimiter bytes <;> cases findBytes windowsDelimiter bytes <;> simp
          split <;> omega

theorem endEvent_inside {bytes : Bytes} {n : Nat} (ends : endEvent bytes = some n) :
    0 < n ∧ n ≤ bytes.length := by
  induction bytes generalizing n with
  | nil => cases ends
  | cons b bytes ih =>
      simp only [endEvent] at ends
      split at ends
      · next here =>
        obtain rfl := Option.some.inj ends
        exact ⟨by decide, here.length_le⟩
      · split at ends
        · next here =>
          obtain rfl := Option.some.inj ends
          exact ⟨by decide, here.length_le⟩
        · obtain ⟨m, later, rfl⟩ := Option.map_eq_some_iff.mp ends
          obtain ⟨-, inside⟩ := ih later
          simp only [List.length_cons]
          omega

theorem endEvent_long {bytes : Bytes} {n : Nat} (ends : endEvent bytes = some n) : 2 ≤ n := by
  cases bytes with
  | nil => cases ends
  | cons b bytes =>
      simp only [endEvent] at ends
      split_ifs at ends
      · exact (Option.some.inj ends).le
      · have four := Option.some.inj ends
        omega
      · obtain ⟨m, later, rfl⟩ := Option.map_eq_some_iff.mp ends
        have inside := (endEvent_inside later).1
        omega

theorem endFrame_inside {buffer : Bytes} {n : Nat} (ends : endFrame buffer = some n) :
    0 < n ∧ n ≤ buffer.length := by
  simp only [endFrame] at ends
  split at ends
  · next i found =>
    obtain rfl := Option.some.inj ends
    exact ⟨by omega, (findBytes_some found).2⟩
  · obtain ⟨j, found, rfl⟩ := Option.map_eq_some_iff.mp ends
    exact ⟨by omega, (findBytes_some found).2⟩

/-! ## The relay -/

def relayCutter : Cutter UInt8 where
  cut := endFrame
  positive := endFrame_inside

def eventCutter : Cutter UInt8 where
  cut := endEvent
  positive := endEvent_inside

structure FastStreamRelay where
  buffer : Bytes := []
  bytesRelayed : Nat := 0
  framesRelayed : Nat := 0

namespace FastStreamRelay

/-- `feed`, with all its frames consumed. -/
def feed (relay : FastStreamRelay) (chunk : Bytes) : List Bytes × FastStreamRelay :=
  if chunk = [] then ([], relay)
  else
    let (frames, rest) := relayCutter.drain (relay.buffer ++ chunk)
    (frames,
      { relay with
        buffer := rest
        bytesRelayed := relay.bytesRelayed + chunk.length
        framesRelayed := relay.framesRelayed + frames.length })

def flush (relay : FastStreamRelay) : Option Bytes × FastStreamRelay :=
  if relay.buffer = [] then (none, relay)
  else
    (some relay.buffer,
      { relay with buffer := [], framesRelayed := relay.framesRelayed + 1 })

/-- Feed the chunks one by one. -/
def feedAll (relay : FastStreamRelay) : List Bytes → List Bytes × FastStreamRelay
  | [] => ([], relay)
  | chunk :: chunks =>
      let (frames, relay) := relay.feed chunk
      let (later, relay) := relay.feedAll chunks
      (frames ++ later, relay)

/-- What a new relay passes on of a stream that comes in these chunks. -/
def relayed (chunks : List Bytes) : List Bytes :=
  let (frames, relay) := feedAll {} chunks
  frames ++ relay.flush.1.toList

variable {relay : FastStreamRelay}

/-- The relay cuts frames off; a chunk that is empty changes nothing. -/
theorem feedAll_eq (chunks : List Bytes) (idle : endFrame relay.buffer = none) :
    ((relay.feedAll chunks).1, (relay.feedAll chunks).2.buffer) =
      relayCutter.feedAll relay.buffer chunks := by
  induction chunks generalizing relay with
  | nil => rfl
  | cons chunk chunks ih =>
      by_cases empty : chunk = []
      · have still : relayCutter.drain relay.buffer = ([], relay.buffer) :=
          relayCutter.drain_none idle
        simp only [feedAll, feed, empty, if_true, List.nil_append, Cutter.feedAll, List.append_nil,
          still]
        exact ih idle
      · have later := @ih (relay.feed chunk).2 (by
          simp only [feed, empty, if_false]
          exact relayCutter.drain_idle _)
        simp only [feedAll, Cutter.feedAll]
        simp only [feed, empty, if_false] at later ⊢
        rw [← later]

theorem relayed_eq (chunks : List Bytes) :
    relayed chunks = Cutter.close (relayCutter.feedAll [] chunks) := by
  have same := @feedAll_eq {} chunks rfl
  rw [← same]
  simp only [relayed, Cutter.close, flush]
  split
  · simp
  · simp

/-- Whatever is fed in comes out. -/
theorem relayed_flatten (chunks : List Bytes) : (relayed chunks).flatten = chunks.flatten := by
  rw [relayed_eq, Cutter.close_flatten, Cutter.feedAll_flatten, List.nil_append]

/-- The counters tell how much was fed and how much came out. -/
theorem feedAll_counts (chunks : List Bytes) :
    (relay.feedAll chunks).2.bytesRelayed = relay.bytesRelayed + chunks.flatten.length ∧
      (relay.feedAll chunks).2.framesRelayed =
        relay.framesRelayed + (relay.feedAll chunks).1.length := by
  induction chunks generalizing relay with
  | nil => exact ⟨rfl, rfl⟩
  | cons chunk chunks ih =>
      obtain ⟨bytes, frames⟩ := @ih (relay.feed chunk).2
      simp only [feedAll, bytes, frames, List.flatten_cons, List.length_append]
      by_cases empty : chunk = []
      · simp [feed, empty]
      · simp only [feed, empty, if_false]
        omega

theorem relayed_whole (stream : Bytes) : relayed [stream] = relayCutter.frames stream := by
  simp [relayed_eq, Cutter.feedAll, Cutter.frames]

end FastStreamRelay

/-! ## Streams of one kind -/

/-- A plain delimiter stands somewhere behind a delimiter of Windows. -/
def Mixed (stream : Bytes) : Prop :=
  ∃ rest, rest <:+ stream ∧ windowsDelimiter <+: rest ∧ plainDelimiter <:+: rest

theorem mixed_iff_places {stream : Bytes} :
    Mixed stream ↔
      ∃ p q, p ≤ q ∧ windowsDelimiter <+: stream.drop p ∧ plainDelimiter <+: stream.drop q := by
  constructor
  · rintro ⟨rest, ends, windows, before, after, same⟩
    rw [List.suffix_iff_eq_drop] at ends
    refine ⟨_, stream.length - rest.length + before.length, Nat.le_add_right _ _, ends ▸ windows, ?_⟩
    rw [← List.drop_drop, ← ends, ← same, List.append_assoc, List.drop_left]
    exact List.prefix_append plainDelimiter after
  · rintro ⟨p, q, behind, windows, plain⟩
    refine ⟨stream.drop p, List.drop_suffix p stream, windows, ?_⟩
    rw [← Nat.add_sub_of_le behind, ← List.drop_drop] at plain
    exact plain.isInfix.trans (List.drop_suffix _ _).isInfix

theorem not_mixed_infix {whole part : Bytes} (pure : ¬Mixed whole) (inside : part <:+: whole) :
    ¬Mixed part := by
  rintro ⟨rest, ends, windows, plain⟩
  obtain ⟨before, after, rfl⟩ := inside
  obtain ⟨front, rfl⟩ := ends
  refine pure ⟨rest ++ after, ⟨before ++ front, by simp⟩, ?_, ?_⟩
  · exact windows.trans (List.prefix_append rest after)
  · exact plain.trans (List.prefix_append rest after).isInfix

/-- Behind the first byte there is a whole event, so a delimiter in front has arrived too. -/
theorem delimiter_arrived {b : UInt8} {buffer : Bytes} {n : Nat} (ends : endEvent buffer = some n)
    (more : Bytes) :
    (plainDelimiter <+: b :: (buffer ++ more) → plainDelimiter <+: b :: buffer) ∧
      (windowsDelimiter <+: b :: (buffer ++ more) → windowsDelimiter <+: b :: buffer) := by
  have front : b :: buffer <+: b :: (buffer ++ more) := List.prefix_append (b :: buffer) more
  have enough : 2 ≤ n := endEvent_long ends
  have inside := (endEvent_inside ends).2
  constructor
  · intro plain
    apply List.prefix_of_prefix_length_le plain front
    simp only [plainDelimiter, List.length_cons, List.length_nil]
    omega
  · intro windows
    by_cases short : buffer.length < 3
    · obtain ⟨x, y, rfl⟩ := List.length_eq_two.mp (show buffer.length = 2 by omega)
      have both : plainDelimiter <+: [x, y] := by
        simp only [endEvent] at ends
        split at ends
        · assumption
        · split at ends
          · next windows => exact absurd windows.length_le (by simp [windowsDelimiter])
          · simp [plainDelimiter, windowsDelimiter] at ends
      simp only [plainDelimiter, List.cons_prefix_cons, List.nil_prefix, and_true] at both
      obtain ⟨rfl, rfl⟩ := both
      simp [windowsDelimiter] at windows
    · apply List.prefix_of_prefix_length_le windows front
      simp only [windowsDelimiter, List.length_cons, List.length_nil]
      omega

theorem endEvent_steady : eventCutter.Steady := by
  intro buffer n ends more
  change endEvent buffer = some n at ends
  change endEvent (buffer ++ more) = some n
  induction buffer generalizing n with
  | nil => cases ends
  | cons b buffer ih =>
      have front : b :: buffer <+: b :: (buffer ++ more) := List.prefix_append (b :: buffer) more
      simp only [endEvent, List.cons_append] at ends ⊢
      split at ends
      · next plain =>
        rw [if_pos (plain.trans front)]
        exact ends
      · next notPlain =>
        split at ends
        · next windows =>
          rw [if_neg (not_both (windows.trans front)), if_pos (windows.trans front)]
          exact ends
        · next notWindows =>
          obtain ⟨m, later, rfl⟩ := Option.map_eq_some_iff.mp ends
          obtain ⟨plain, windows⟩ := @delimiter_arrived b buffer m later more
          rw [if_neg (mt plain notPlain), if_neg (mt windows notWindows), ih later]
          rfl

/-- Where a delimiter of Windows is never followed by a plain one, the relay finds the first. -/
theorem endFrame_eq_endEvent {buffer : Bytes} (pure : ¬Mixed buffer) :
    endFrame buffer = endEvent buffer := by
  rw [endEvent_eq, endFrame]
  cases plain : findBytes plainDelimiter buffer with
  | none => cases findBytes windowsDelimiter buffer <;> rfl
  | some i =>
      cases windows : findBytes windowsDelimiter buffer with
      | none => rfl
      | some j =>
          have first : i < j := by
            by_contra behind
            exact pure (mixed_iff_places.mpr ⟨j, i, not_lt.mp behind, (findBytes_some windows).1,
              (findBytes_some plain).1⟩)
          simp [first]

/-- The frames that end with the first delimiter in what is left, and what is left in the end. -/
def eventFrames (stream : Bytes) : List Bytes := eventCutter.frames stream

theorem relayed_pure {chunks : List Bytes} (pure : ¬Mixed chunks.flatten) :
    FastStreamRelay.relayed chunks = eventFrames chunks.flatten := by
  have agree {buffer : Bytes} (pure : ¬Mixed buffer) : relayCutter.cut buffer = eventCutter.cut buffer :=
    endFrame_eq_endEvent pure
  rw [FastStreamRelay.relayed_eq, Cutter.feedAll_agree not_mixed_infix agree chunks pure,
    endEvent_steady.feedAll chunks rfl, List.nil_append]
  rfl

/-- No two delimiters of different kinds share bytes. -/
theorem apart {stream : Bytes} {i j : Nat} (plain : plainDelimiter <+: stream.drop i)
    (windows : windowsDelimiter <+: stream.drop j) : j ≠ i + 1 ∧ i ≠ j + 2 := by
  constructor
  · rintro rfl
    obtain ⟨rest, same⟩ := plain
    rw [← List.drop_drop, ← same] at windows
    simp [plainDelimiter, windowsDelimiter] at windows
  · rintro rfl
    obtain ⟨rest, same⟩ := windows
    rw [← List.drop_drop, ← same] at plain
    simp [plainDelimiter, windowsDelimiter] at plain

/-- When it has the whole of a mixed stream, the relay puts two events into one frame. -/
theorem relayed_mixed {stream : Bytes} (mixed : Mixed stream) :
    relayCutter.frames stream ≠ eventCutter.frames stream := by
  induction stream using eventCutter.drain_induction with
  | idle stream none =>
      obtain ⟨p, q, -, windows, plain⟩ := mixed_iff_places.mp mixed
      obtain ⟨i, -, foundPlain⟩ := findBytes_le plain
      obtain ⟨j, -, foundWindows⟩ := findBytes_le windows
      change endEvent stream = Option.none at none
      simp [endEvent_eq, foundPlain, foundWindows] at none
  | frame stream n first ih =>
      obtain ⟨p, q, behind, windows, plain⟩ := mixed_iff_places.mp mixed
      obtain ⟨i, iq, foundPlain⟩ := findBytes_le plain
      obtain ⟨j, jp, foundWindows⟩ := findBytes_le windows
      have relays : relayCutter.cut stream = some (i + 2) := by
        change endFrame stream = some (i + 2)
        rw [endFrame, foundPlain]
      have ends : n = if i < j then i + 2 else j + 4 := by
        change endEvent stream = some n at first
        rw [endEvent_eq, foundPlain, foundWindows] at first
        exact (Option.some.inj first).symm
      rw [relayCutter.frames_some relays, eventCutter.frames_some first]
      intro same
      obtain ⟨frame, later⟩ := List.cons.inj same
      by_cases before : i < j
      · -- a plain frame goes first, and the rest is mixed still
        obtain rfl : n = i + 2 := by rw [ends, if_pos before]
        have off := (apart (findBytes_some foundPlain).1 windows).1
        apply ih _ later
        apply mixed_iff_places.mpr
        refine ⟨p - (i + 2), q - (i + 2), by omega, ?_, ?_⟩
        · rw [List.drop_drop, show i + 2 + (p - (i + 2)) = p by omega]
          exact windows
        · rw [List.drop_drop, show i + 2 + (q - (i + 2)) = q by omega]
          exact plain
      · -- the relay goes on to the plain delimiter
        obtain rfl : n = j + 4 := by rw [ends, if_neg before]
        have off := (apart (findBytes_some foundPlain).1 (findBytes_some foundWindows).1).2
        have lengths := congrArg List.length frame
        have relayed := (relayCutter.positive relays).2
        have ended := (eventCutter.positive first).2
        rw [List.length_take, List.length_take] at lengths
        omega

/-- Every chunking of the stream gives its events, each in a frame of its own, exactly when no
    plain delimiter stands behind one of Windows. -/
theorem relay_frames_iff (stream : Bytes) :
    (∀ chunks : List Bytes, chunks.flatten = stream →
      (FastStreamRelay.relayed chunks).flatten = stream ∧
        FastStreamRelay.relayed chunks = eventFrames stream) ↔ ¬Mixed stream := by
  constructor
  · intro framed mixed
    have whole := (framed [stream] (List.append_nil stream)).2
    rw [FastStreamRelay.relayed_whole] at whole
    exact relayed_mixed mixed whole
  · rintro pure chunks rfl
    exact ⟨FastStreamRelay.relayed_flatten chunks, relayed_pure pure⟩

/-- `data: a`, an end of Windows, `data: b`, a plain end. -/
def mixedStream : Bytes := encode "data: a\r\n\r\ndata: b\n\n"

/-- In one chunk the two events of the stream are one frame. -/
theorem mixed_stream_joined :
    ¬((FastStreamRelay.relayed [mixedStream]).flatten = mixedStream ∧
      FastStreamRelay.relayed [mixedStream] = eventFrames mixedStream) := by
  rintro ⟨-, same⟩
  rw [FastStreamRelay.relayed_whole] at same
  have mixed : Mixed mixedStream :=
    mixed_iff_places.mpr ⟨7, 18, by decide, by decide +kernel, by decide +kernel⟩
  exact relayed_mixed mixed same

end DuraLLM
