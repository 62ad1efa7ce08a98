import Mathlib.Algebra.BigOperators.Group.List.Basic
import Mathlib.Data.List.Sort
import SimpleCdn.Edge.AccessLog
import SimpleCdn.Lib.Attempt

/-!
# The queue of access-log events

The forwarder keeps the events of the access log in segment files until the control plane has
accepted them.  A segment is named by its sequence number; the cursor file says up to where which
segment has been acknowledged.  An operation on the files may fail, or the process may stop in it;
a record is written byte by byte, so a write may end after any part of it.

Below its files the state holds what has become of the lines and events: the lines that the
running `Collect` has read (`taken`) and those the offset has been advanced past (`passed`), each
with the event it was queued as, the events whose `Append` has succeeded, those acknowledged, and
the batches that the control plane accepted.  No program decides by these.
-/

namespace SimpleCdn.LogQueue

open Crash Crash.Prog AccessLog

def maxLogQueueBytes : ℕ := 256 * 2 ^ 20

def logQueueSegmentBytes : ℕ := 4 * 2 ^ 20

def logUploadBatchSize : ℕ := 500

def logUploadBatchBytes : ℕ := 4 * 2 ^ 20

def logQueueRecordBytes : ℕ := 2 * 2 ^ 20

/-- `^uint64(0)` -/
def maxSequence : ℕ := 2 ^ 64 - 1

/-- `LogForwarder`: the limits it is given. -/
structure LogForwarder where
  maxQueueBytes : ℤ
  segmentBytes : ℤ
  batchSize : ℤ

/-- `NewLogForwarder` -/
def newLogForwarder : LogForwarder := ⟨maxLogQueueBytes, logQueueSegmentBytes, logUploadBatchSize⟩

namespace LogForwarder

def queueLimit (f : LogForwarder) : ℕ :=
  if f.maxQueueBytes ≤ 0 then maxLogQueueBytes else f.maxQueueBytes.toNat

def segmentLimit (f : LogForwarder) : ℕ :=
  if f.segmentBytes ≤ 0 then logQueueSegmentBytes else f.segmentBytes.toNat

def batchLimit (f : LogForwarder) : ℕ :=
  if f.batchSize ≤ 0 then logUploadBatchSize else f.batchSize.toNat

theorem batchLimit_pos (f : LogForwarder) : 0 < f.batchLimit := by
  rw [batchLimit]
  split
  · decide
  · omega

end LogForwarder

/-- A segment file: the number in its name and its contents. -/
structure Segment where
  sequence : ℕ
  contents : Bytes
  deriving DecidableEq, Repr

def Segment.size (g : Segment) : ℕ := g.contents.length

/-- `logQueueCursor` -/
structure Cursor where
  segment : ℕ
  offset : ℕ
  deriving DecidableEq, Repr

/-- A batch the control plane accepted, and how many events were acknowledged before. -/
structure Upload (Time : Type) where
  start : ℕ
  events : List (AccessLogEvent Time)

structure State (Time : Type) where
  /-- The access log. -/
  log : Option Bytes
  offset : Option ℕ
  segments : List Segment
  cursor : Option Cursor
  legacy : Option Bytes
  taken : List (Bytes × Option (AccessLogEvent Time))
  passed : List (Bytes × Option (AccessLogEvent Time))
  appended : List (AccessLogEvent Time)
  acked : List (AccessLogEvent Time)
  uploads : List (Upload Time)
  /-- How many lines had been passed when a `Collect` first saw that the log has been truncated. -/
  truncated : Option ℕ

inductive QueueError
  /-- An operation on a file or a directory. -/
  | file
  /-- The target of the migration already exists. -/
  | targetExists
  | exhausted
  | cursorAhead
  | cursorOutside
  | noProgress
  | shrank
  | marshal
  | tooLong
  | queueFull
  | upload
  deriving DecidableEq, Repr

/-- An attempt of the forwarder. -/
abbrev Job (Time : Type) := Attempt QueueError (State Time)

section

variable {Time : Type}

def look {β : Type} (view : State Time → β) : Job Time β := Attempt.look .file view

def change (effect : State Time → State Time) : Job Time Unit :=
  Attempt.act .file fun s => some (effect s)

/-- `syncDirectory`, or any other operation that leaves the files as they are. -/
def sync : Job Time Unit := change id

/-! ### The directory -/

def State.sequences (s : State Time) : List ℕ := s.segments.map (·.sequence)

def State.sorted (s : State Time) : List Segment :=
  s.segments.mergeSort fun a b => decide (a.sequence ≤ b.sequence)

def total (segments : List Segment) : ℕ := (segments.map Segment.size).sum

/-- The bytes of a file with this number are extended. -/
def State.write (s : State Time) (sequence : ℕ) (bytes : Bytes) : State Time :=
  { s with segments := s.segments.map fun g =>
      if g.sequence = sequence then { g with contents := g.contents ++ bytes } else g }

def State.create (s : State Time) (sequence : ℕ) : State Time :=
  { s with segments := s.segments ++ [⟨sequence, []⟩] }

/-- Rename of the legacy queue to a segment. -/
def State.migrate (s : State Time) (sequence : ℕ) : State Time :=
  { s with
    legacy := none
    segments := s.segments ++ (s.legacy.map fun contents => ⟨sequence, contents⟩).toList }

def State.remove (s : State Time) (sequence : ℕ) : State Time :=
  { s with segments := s.segments.filter (·.sequence ≠ sequence) }

/-- `LogForwarder.cursor` -/
def cursor : Job Time (Option Cursor) := look (·.cursor)

/-- `nextQueueSequence` -/
def nextQueueSequence : Job Time ℕ := do
  let sequences ← look State.sequences
  let cursor ← cursor
  let maximum := max (sequences.foldl max 0) ((cursor.map (·.segment)).getD 0)
  if maximum = maxSequence then throw .exhausted else pure (maximum + 1)

/-- `prepareQueue` -/
def prepareQueue : Job Time Unit := do
  match ← look (·.legacy) with
  | none => pure ()
  | some contents =>
    if contents = [] then do
      change fun s => { s with legacy := none }
      sync
    else do
      let sequence ← nextQueueSequence
      let sequences ← look State.sequences
      if sequence ∈ sequences then throw .targetExists
      else do
        change (·.migrate sequence)
        sync
        sync

/-- `queueSegments` -/
def queueSegments : Job Time (List Segment) := do
  prepareQueue
  look State.sorted

/-- Whether the cursor is ahead of the oldest of the segments. -/
def ahead (cursor : Option Cursor) (segments : List Segment) : Bool :=
  cursor.any fun c => segments.head?.any fun g => g.sequence < c.segment

/-! ### Appending -/

/-- `logQueueAppender` -/
structure Appender where
  total : ℕ
  next : ℕ
  path : Option ℕ
  size : ℕ
  file : Bool
  created : Bool
  deriving DecidableEq, Repr

variable (f : LogForwarder)

/-- The segment that the appender goes on with. -/
def latest (segments : List Segment) : Option Segment :=
  segments.getLast?.filter fun g => g.size < f.segmentLimit

/-- `newQueueAppender` -/
def newQueueAppender : Job Time Appender := do
  let segments ← queueSegments
  let maximum := (segments.getLast?.map (·.sequence)).getD 0
  let cursor ← cursor
  if ahead cursor segments then throw .cursorAhead
  else pure {
      total := total segments
      next := max maximum ((cursor.map (·.segment)).getD 0)
      path := (latest f segments).map (·.sequence)
      size := ((latest f segments).map Segment.size).getD 0
      file := false
      created := false }

namespace Appender

/-- What an operation makes of the appender, and the error if there is one. -/
abbrev Changed := Appender × Option QueueError

/-- An operation that leaves the files as they are. -/
def flush : Prog (State Time) Bool := act some

/-- `closeFile` -/
def closeFile (a : Appender) : Prog (State Time) Changed :=
  if a.file = false then pure (a, none)
  else do
    if ← flush then
      if a.created then do
        let synced ← flush
        pure ({ a with file := false, created := false }, if synced then none else some .file)
      else pure ({ a with file := false }, none)
    else pure ({ a with file := false }, some .file)

/-- The first number after `next` that no file has. -/
def freeSequence (sequences : List ℕ) (next : ℕ) : ℕ → ℕ
  | 0 => next + 1
  | tries + 1 =>
    if next + 1 ∈ sequences then freeSequence sequences (next + 1) tries else next + 1

/-- `openFile` -/
def openFile (a : Appender) : Prog (State Time) Changed :=
  match a.path with
  | some _ => do
    if ← flush then pure ({ a with file := true }, none) else pure (a, some .file)
  | none => do
    match ← inspect fun s => freeSequence s.sequences a.next s.segments.length with
    | none => pure (a, some .file)
    | some sequence =>
      if maxSequence < sequence then pure (a, some .exhausted)
      else if ← act fun s => some (s.create sequence) then
        pure ({ a with
          next := sequence, path := some sequence, size := 0, file := true, created := true }, none)
      else pure ({ a with next := sequence, path := some sequence }, some .file)

/-- The file is opened unless it is. -/
def opened (a : Appender) : Prog (State Time) Changed :=
  if a.file then pure (a, none) else a.openFile

/-- The segment is left when the record does not go into it. -/
def rotate (a : Appender) (record : Bytes) : Prog (State Time) Changed :=
  if a.path.isSome ∧ 0 < a.size ∧ f.segmentLimit < a.size + record.length then do
    let (a, error) ← a.closeFile
    pure (if error.isSome then (a, error) else ({ a with path := none, size := 0 }, none))
  else pure (a, none)

/-- `os.File.Write`, which may end after any part of the record. -/
def writeRecord (sequence : ℕ) (record : Bytes) : Prog (State Time) Bool :=
  each (fun b => act fun s => some (s.write sequence [b])) record

/-- `Append` -/
def append (a : Appender) (record : Bytes) :
    Prog (State Time) (Appender × Except QueueError Bool) :=
  if f.queueLimit < a.total + record.length then pure (a, .ok false)
  else do
    let (a, rotated) ← a.rotate f record
    match rotated with
    | some error => pure (a, .error error)
    | none => do
      let (a, opened) ← a.opened
      match opened with
      | some error => pure (a, .error error)
      | none =>
        if ← writeRecord (a.path.getD 0) record then
          pure ({ a with size := a.size + record.length, total := a.total + record.length },
            .ok true)
        else pure (a, .error .file)

end Appender

/-! ### Reading -/

/-- `logQueueBatch` -/
structure Batch (Time : Type) where
  segment : Segment
  finish : ℕ
  events : List (AccessLogEvent Time)

/-- `bytes.TrimSuffix` of one byte. -/
def trimByte (b : UInt8) (line : Bytes) : Bytes :=
  if line.getLast? = some b then line.dropLast else line

/-- The line that `readLogQueueRecord` makes of a chunk; too large a one is not kept. -/
def recordLine (chunk : Bytes) : Bytes :=
  if logQueueRecordBytes < chunk.length then [] else trimByte 0x0D (trimByte newline chunk)

variable (packages : LogPackages Time)

/-- The event that `nextBatch` finds in a chunk. -/
def recordEvent (chunk : Bytes) : Option (AccessLogEvent Time) :=
  if recordLine chunk = [] then none else packages.unmarshal (recordLine chunk)

/-- The loop of `nextBatch` over the chunks that the reader returns, where so many `records` may
still be read. -/
def readBatch : ℕ → ℕ → Batch Time → List Bytes → Batch Time
  | 0, _, batch, _ => batch
  | _ + 1, _, batch, [] => batch
  | records + 1, eventBytes, batch, chunk :: chunks =>
    match recordEvent packages chunk with
    | none =>
      readBatch records eventBytes { batch with finish := batch.finish + chunk.length } chunks
    | some event =>
      if batch.events ≠ [] ∧ logUploadBatchBytes < eventBytes + chunk.length then batch
      else readBatch records (eventBytes + chunk.length)
        { batch with finish := batch.finish + chunk.length, events := batch.events ++ [event] }
        chunks

/-- Where reading begins in the oldest segment. -/
def startIn (cursor : Option Cursor) (segment : Segment) : ℕ :=
  ((cursor.filter (·.segment = segment.sequence)).map (·.offset)).getD 0

/-- `nextBatch` -/
def nextBatch : Job Time (Option (Batch Time)) := do
  match ← queueSegments with
  | [] => pure none
  | segment :: segments => do
    let cursor ← cursor
    let start := startIn cursor segment
    if ahead cursor (segment :: segments) then throw .cursorAhead
    else if segment.size < start then throw .cursorOutside
    else if start = segment.size then pure (some ⟨segment, start, []⟩)
    else do
      -- the file is opened and read
      sync
      let batch := readBatch packages f.batchLimit 0 ⟨segment, start, []⟩
        (Lines.chunks newline (segment.contents.drop start))
      if batch.finish = start then throw .noProgress else pure (some batch)

/-- The cursor is written; the events of the batch are acknowledged. -/
def State.acknowledge (s : State Time) (batch : Batch Time) : State Time :=
  { s with
    cursor := some ⟨batch.segment.sequence, batch.finish⟩
    acked := s.acked ++ batch.events }

/-- The size of the file with this number. -/
def State.stat (s : State Time) (sequence : ℕ) : Option ℕ :=
  (s.segments.find? (·.sequence = sequence)).map Segment.size

/-- `ackBatch` -/
def ackBatch (batch : Batch Time) : Job Time Unit := do
  match ← look (·.stat batch.segment.sequence) with
  | none => throw .file
  | some size =>
    if size < batch.finish then throw .shrank
    else do
      change (·.acknowledge batch)
      sync
      if size = batch.finish then do
        change (·.remove batch.segment.sequence)
        sync
      else pure ()

end

end SimpleCdn.LogQueue
