import SimpleCdn.Edge.LogQueue

/-!
# The forwarder of access logs

`collect` reads the complete lines of the access log from the stored offset on and appends their
events to the queue; `flushBatch` uploads the batch at the front of it.  One goroutine runs both.
The log is read as it is when `collect` opens it.
-/

namespace SimpleCdn.LogQueue

open Crash Crash.Prog AccessLog

/-- The most that the scanner of the access log buffers. -/
def maxScanTokenSize : ℕ := 2 ^ 20

/-- What `bufio.Scanner` with `splitCompleteLogLine` makes of a text: the lines up to the first
that does not fit its buffer, and whether it then reports one. -/
def scanLog (text : Bytes) : List Bytes × Bool :=
  let lines := Lines.complete newline text
  (lines.takeWhile fun line => line.length + 1 ≤ maxScanTokenSize,
    lines.any (fun line => maxScanTokenSize < line.length + 1) ||
      maxScanTokenSize ≤ (Lines.rest newline text).length)

/-- The control plane reads no more of a request. -/
def maxLogsBody : ℕ := 8 * 2 ^ 20

def maxLogsEvents : ℕ := 500

section

variable {Time : Type} (packages : LogPackages Time) (f : LogForwarder)

/-- `offset`: a file that cannot be read counts as none. -/
def offset : Job Time ℕ :=
  Attempt.lift do
    let stored ← inspect (·.offset)
    pure (stored.join.getD 0)

/-- The line has been read, and queued as the event. -/
def State.take (s : State Time) (line : Bytes) (event : Option (AccessLogEvent Time)) :
    State Time :=
  { s with taken := s.taken ++ [(line, event)], appended := s.appended ++ event.toList }

/-- The log has been opened; `stored` is the offset that it is compared with. -/
def State.open (s : State Time) (stored : ℕ) : State Time :=
  { s with
    taken := []
    truncated := s.truncated <|> if (s.log.getD []).length < stored then some s.passed.length else none }

/-- The offset is written; the lines that have been read are passed. -/
def State.advance (s : State Time) (position : ℕ) : State Time :=
  { s with offset := some position, passed := s.passed ++ s.taken, taken := [] }

/-- What the loop of `Collect` leaves. -/
structure Collected where
  appender : Appender
  position : ℕ
  count : ℕ
  error : Option QueueError
  full : Bool

/-- The loop of `Collect` over the lines that the scanner returns.  `fresh` are the identifiers
that `uuid.NewString` makes, `read` is the number of lines already read. -/
def collectLines (fresh : ℕ → String) (tooLong : Bool) :
    List Bytes → ℕ → Appender → ℕ → ℕ → Prog (State Time) Collected
  | [], _, a, position, count =>
    pure ⟨a, position, count, if tooLong then some .tooLong else none, false⟩
  | line :: lines, read, a, position, count =>
    match decodeNginxLog packages (fresh read) line with
    | none => do
      modify (·.take line none)
      collectLines fresh tooLong lines (read + 1) a (position + line.length + 1) count
    | some event =>
      match marshal packages event with
      | none => pure ⟨a, position, count, some .marshal, false⟩
      | some serialized => do
        let (a, result) ← a.append f (serialized ++ [newline])
        match result with
        | .error error => pure ⟨a, position, count, some error, false⟩
        | .ok false => pure ⟨a, position, count, none, true⟩
        | .ok true => do
          modify (·.take line (some event))
          collectLines fresh tooLong lines (read + 1) a (position + line.length + 1) (count + 1)

/-- Where `Collect` begins to read. -/
def readFrom (contents : Bytes) (stored : ℕ) : ℕ :=
  if contents.length < stored then 0 else stored

/-- `Collect` -/
def collect (fresh : ℕ → String) : Job Time ℕ := do
  prepareQueue
  match ← look (·.log) with
  | none => pure 0
  | some contents => do
    let stored ← offset
    Attempt.lift (modify (·.open stored))
    let start := readFrom contents stored
    let appender ← newQueueAppender f
    let (lines, tooLong) := scanLog (contents.drop start)
    let done ← Attempt.lift (collectLines packages f fresh tooLong lines 0 appender start 0)
    let (_, closed) ← Attempt.lift done.appender.closeFile
    if closed.isSome then throw .file
    else do
      if done.position ≠ start then change (·.advance done.position) else pure ()
      match done.error with
      | some error => throw error
      | none => if done.full then throw .queueFull else pure done.count

/-- `writeLogs`, of a batch whose text is `payload`. -/
def writeLogs (payload : Bytes) (events : List (AccessLogEvent Time)) (s : State Time) :
    Option (State Time) :=
  if maxLogsBody < payload.length ∨ maxLogsEvents < events.length then none
  else some { s with uploads := s.uploads ++ [⟨s.acked.length, events⟩] }

/-- The request of `flushBatch`. -/
def upload (events : List (AccessLogEvent Time)) : Job Time Unit :=
  if events = [] then pure ()
  else match marshalBatch packages events with
    | none => throw .marshal
    | some payload => Attempt.request .upload (writeLogs payload events)

/-- `flushBatch` -/
def flushBatch : Job Time Bool := do
  match ← nextBatch f packages with
  | none => pure false
  | some batch => do
    upload packages batch.events
    ackBatch batch
    pure true

end

end SimpleCdn.LogQueue
