import Mathlib.Data.Rat.Defs
import SimpleCdn.Domain.Types
import SimpleCdn.Lib.Text
import SimpleCdn.Lib.Utf8

/-!
# Reports of monitoring probes

The edge reports for each target how its attempts went, with the text of the last error; the control
plane checks each result.  The text of an error may be any bytes.  JSON carries a text over as what a
loop over its characters reads.  Latencies are rational numbers here.
-/

namespace SimpleCdn.Monitoring

open Utf8 (Bytes)

/-- `MonitoringProbeResult`; `Detail` is the type of the error text. -/
structure MonitoringProbeResult (Detail : Type) where
  targetID : String
  attempts : ℕ
  successfulAttempts : ℕ
  averageLatencyMS : ℚ
  error : Detail
  checkedAt : Time
  deriving DecidableEq

/-- `monitoringAttempt` -/
structure MonitoringAttempt where
  latencyMS : ℚ
  err : Option Bytes

/-- `unicode.IsControl` -/
def isControl (c : Char) : Bool :=
  c.toNat < 0x20 || (0x7F ≤ c.toNat && c.toNat < 0xA0)

/-- `strings.TrimSpace`, on the characters of the text. -/
def trim (text : List Char) : List Char :=
  (text.dropWhile Text.isSpace).rdropWhile Text.isSpace

def maxMonitoringError : ℕ := 512

/-- The text without what `cleanMonitoringError` removes. -/
def cleaned (value : Bytes) : List Char :=
  (trim (Utf8.decode value)).filter fun c => !isControl c

def cleanMonitoringError (value : Bytes) : Bytes :=
  let value := Utf8.encode (cleaned value)
  if maxMonitoringError < value.length then value.take maxMonitoringError else value

/-- The error of the last attempt that failed. -/
def lastError (attempts : List MonitoringAttempt) : Bytes :=
  ((attempts.filterMap MonitoringAttempt.err).getLast?).getD []

/-- The loop of `buildMonitoringResults` over the attempts of one target. -/
def addAttempt (result : MonitoringProbeResult Bytes × ℚ) (attempt : MonitoringAttempt) :
    MonitoringProbeResult Bytes × ℚ :=
  match attempt.err with
  | some err => ({ result.1 with error := cleanMonitoringError err }, result.2)
  | none => ({ result.1 with successfulAttempts := result.1.successfulAttempts + 1 },
      result.2 + attempt.latencyMS)

def buildMonitoringResult (checkedAt : Time) (targetID : String)
    (attempts : List MonitoringAttempt) : MonitoringProbeResult Bytes :=
  let (result, latencyTotal) :=
    attempts.foldl addAttempt (⟨targetID, attempts.length, 0, 0, [], checkedAt⟩, 0)
  if 0 < result.successfulAttempts then
    { result with averageLatencyMS := latencyTotal / result.successfulAttempts }
  else result

/-- `buildMonitoringResults`, of the targets with their attempts. -/
def buildMonitoringResults (checkedAt : Time) (targets : List (String × List MonitoringAttempt)) :
    List (MonitoringProbeResult Bytes) :=
  targets.map fun target => buildMonitoringResult checkedAt target.1 target.2

/-- A result that has been encoded as JSON and decoded. -/
def transmit (result : MonitoringProbeResult Bytes) : MonitoringProbeResult String where
  targetID := result.targetID
  attempts := result.attempts
  successfulAttempts := result.successfulAttempts
  averageLatencyMS := result.averageLatencyMS
  error := String.ofList (Utf8.decode result.error)
  checkedAt := result.checkedAt

/-- `ValidMonitoringProbeResult` -/
def validMonitoringProbeResult (result : MonitoringProbeResult String) : Bool :=
  !(Text.trimSpace result.targetID = "" || 64 < Text.byteLength result.targetID ||
      result.targetID ≠ Text.trimSpace result.targetID ||
      result.attempts < 1 || 10 < result.attempts || result.attempts < result.successfulAttempts ||
      result.averageLatencyMS < 0 || 60000 < result.averageLatencyMS ||
      result.checkedAt = 0 || maxMonitoringError < Text.byteLength result.error ||
      result.error ≠ Text.trimSpace result.error) &&
    !((result.successfulAttempts = 0 && result.averageLatencyMS ≠ 0) ||
      (0 < result.successfulAttempts && result.averageLatencyMS ≤ 0)) &&
    result.error.toList.all fun c => !isControl c

/-! ### The text of an error -/

/-- The first 512 bytes of the cleaned text are whole characters, with no space around them. -/
def Presentable (value : Bytes) : Prop :=
  ∃ kept, kept <+: cleaned value ∧
    Utf8.encode kept = (Utf8.encode (cleaned value)).take maxMonitoringError ∧ trim kept = kept

/-- What the control plane asks of the text of an error. -/
def Proper (error : String) : Prop :=
  Text.byteLength error ≤ maxMonitoringError ∧ error = Text.trimSpace error ∧
    ∀ c ∈ error.toList, isControl c = false

theorem byteLength_ofList (text : List Char) :
    Text.byteLength (String.ofList text) = (Utf8.encode text).length := by
  rw [Text.byteLength, String.toList_ofList, Utf8.length_encode]

theorem trimSpace_ofList (text : List Char) :
    String.ofList text = Text.trimSpace (String.ofList text) ↔ trim text = text := by
  have htrim : Text.trimSpace (String.ofList text) = String.ofList (trim text) := by
    rw [Text.trimSpace, String.toList_ofList]
    rfl
  rw [htrim]
  exact ⟨fun h => (String.ofList_injective h).symm, fun h => congrArg String.ofList h.symm⟩

theorem cleanMonitoringError_eq (value : Bytes) : cleanMonitoringError value =
    (Utf8.encode (cleaned value)).take maxMonitoringError := by
  rw [cleanMonitoringError]
  split
  · rfl
  · next hshort => exact (List.take_of_length_le (Nat.le_of_not_lt hshort)).symm

theorem isControl_cleaned {value : Bytes} {c : Char} (h : c ∈ cleaned value) :
    isControl c = false := by
  have hkept := (List.mem_filter.mp h).2
  rwa [Bool.not_eq_true'] at hkept

/-- A cleaned error is accepted exactly if it has been cut between characters, and not at a space. -/
theorem proper_iff (value : Bytes) :
    Proper (String.ofList (Utf8.decode (cleanMonitoringError value))) ↔ Presentable value := by
  obtain ⟨kept, part, hkept, htake, hpart⟩ :=
    Utf8.take_encode maxMonitoringError (cleaned value)
  rw [cleanMonitoringError_eq, Presentable, htake, Utf8.decode_encode_append, Proper,
    byteLength_ofList, trimSpace_ofList, String.toList_ofList]
  have hlength := congrArg List.length htake
  rw [List.length_take, List.length_append] at hlength
  by_cases hnil : part = []
  · subst hnil
    rw [Utf8.decode_nil, List.append_nil, List.append_nil]
    constructor
    · rintro ⟨-, htrim, -⟩
      exact ⟨kept, hkept, rfl, htrim⟩
    · rintro ⟨kept', -, hsame, htrim⟩
      have heq := congrArg Utf8.decode hsame
      rw [Utf8.decode_encode, Utf8.decode_encode] at heq
      rw [List.length_nil] at hlength
      rw [← heq]
      refine ⟨?_, htrim, fun c hc => isControl_cleaned (hkept.subset (heq ▸ hc))⟩
      rw [heq]
      omega
  · -- the bytes of a cut character become three bytes each
    obtain hempty | ⟨c, hleads, hshort⟩ := hpart
    · exact absurd hempty hnil
    have hpos := List.length_pos_of_ne_nil hnil
    have hdecoded := Utf8.decode_part hleads hshort
    have hlong : (Utf8.encode (kept ++ Utf8.decode part)).length =
        (Utf8.encode kept).length + 3 * part.length := by
      rw [hdecoded, Utf8.encode_append, List.length_append, Utf8.length_encode (List.replicate _ _),
        List.map_replicate, List.sum_replicate_nat]
      have hthree : Utf8.runeError.utf8Size = 3 := by decide
      rw [hthree, Nat.mul_comm]
    have hnot : ∀ text, Utf8.encode text ≠ Utf8.encode kept ++ part := by
      intro text htext
      have heq := congrArg Utf8.decode htext
      rw [Utf8.decode_encode, Utf8.decode_encode_append] at heq
      have hsize := congrArg List.length htext
      rw [heq, hlong, List.length_append] at hsize
      omega
    have hcut : maxMonitoringError < (Utf8.encode (cleaned value)).length := by
      by_contra hfits
      rw [List.take_of_length_le (Nat.le_of_not_lt hfits)] at htake
      exact hnot _ htake
    refine iff_of_false (fun h => ?_) fun h => ?_
    · have hle := h.1
      rw [hlong] at hle
      omega
    · obtain ⟨kept', -, hsame, -⟩ := h
      exact hnot kept' hsame

/-! ### Results -/

/-- What the loop over the attempts does to the result. -/
theorem foldl_addAttempt (attempts : List MonitoringAttempt)
    (result : MonitoringProbeResult Bytes) (total : ℚ) :
    ∃ total', attempts.foldl addAttempt (result, total) =
      ({ result with
        successfulAttempts := result.successfulAttempts +
          attempts.countP fun attempt => attempt.err.isNone
        error := ((attempts.filterMap MonitoringAttempt.err).getLast?.map
          cleanMonitoringError).getD result.error }, total') := by
  induction attempts generalizing result total with
  | nil => exact ⟨total, rfl⟩
  | cons attempt attempts ih =>
    rw [List.foldl_cons, addAttempt]
    cases herr : attempt.err with
    | some err =>
      obtain ⟨total', htotal⟩ := ih { result with error := cleanMonitoringError err } total
      refine ⟨total', htotal.trans ?_⟩
      have hlast : (((attempt :: attempts).filterMap MonitoringAttempt.err).getLast?.map
          cleanMonitoringError).getD result.error =
          ((attempts.filterMap MonitoringAttempt.err).getLast?.map cleanMonitoringError).getD
            (cleanMonitoringError err) := by
        rw [List.filterMap_cons_some herr, List.getLast?_cons]
        cases (attempts.filterMap MonitoringAttempt.err).getLast? <;> rfl
      rw [hlast, List.countP_cons_of_neg (by rw [herr]; exact Bool.false_ne_true)]
    | none =>
      obtain ⟨total', htotal⟩ := ih
        { result with successfulAttempts := result.successfulAttempts + 1 }
        (total + attempt.latencyMS)
      refine ⟨total', htotal.trans ?_⟩
      rw [List.filterMap_cons_none herr, List.countP_cons_of_pos (by rw [herr]; rfl),
        Nat.add_right_comm, Nat.add_assoc]

theorem cleanMonitoringError_nil : cleanMonitoringError [] = [] := by decide

/-- What a result says about the attempts. -/
theorem buildMonitoringResult_eq (checkedAt : Time) (targetID : String)
    (attempts : List MonitoringAttempt) :
    ∃ average, buildMonitoringResult checkedAt targetID attempts =
        ⟨targetID, attempts.length, attempts.countP fun attempt => attempt.err.isNone, average,
          cleanMonitoringError (lastError attempts), checkedAt⟩ ∧
      ((attempts.countP fun attempt => attempt.err.isNone) = 0 → average = 0) := by
  obtain ⟨total, htotal⟩ :=
    foldl_addAttempt attempts ⟨targetID, attempts.length, 0, 0, [], checkedAt⟩ 0
  have herror : ((attempts.filterMap MonitoringAttempt.err).getLast?.map
      cleanMonitoringError).getD [] = cleanMonitoringError (lastError attempts) := by
    rw [lastError]
    cases (attempts.filterMap MonitoringAttempt.err).getLast? with
    | none => exact cleanMonitoringError_nil.symm
    | some err => rfl
  rw [Nat.zero_add, herror] at htotal
  rw [buildMonitoringResult, htotal]
  by_cases hsome : 0 < attempts.countP fun attempt => attempt.err.isNone
  · exact ⟨_, if_pos hsome, fun hzero => absurd hzero (Nat.ne_of_gt hsome)⟩
  · exact ⟨0, if_neg hsome, fun _ => rfl⟩

/-- The latency is within the range that the control plane accepts. -/
def LatencyInRange (result : MonitoringProbeResult Bytes) : Prop :=
  0 < result.successfulAttempts →
    0 < result.averageLatencyMS ∧ result.averageLatencyMS ≤ 60000

/-- What is promised of a target and its attempts: an identifier of the control plane, and as many
attempts as the edge is configured to make. -/
structure Planned (targetID : String) (attempts : List MonitoringAttempt) : Prop where
  id : targetID = Text.trimSpace targetID
  named : targetID ≠ ""
  short : Text.byteLength targetID ≤ 64
  attempted : 1 ≤ attempts.length ∧ attempts.length ≤ 10

/-- The checks of the control plane, one by one. -/
theorem valid_iff (result : MonitoringProbeResult String) :
    validMonitoringProbeResult result = true ↔
      (Text.trimSpace result.targetID ≠ "" ∧ Text.byteLength result.targetID ≤ 64 ∧
        result.targetID = Text.trimSpace result.targetID ∧ 1 ≤ result.attempts ∧
        result.attempts ≤ 10 ∧ result.successfulAttempts ≤ result.attempts ∧
        0 ≤ result.averageLatencyMS ∧ result.averageLatencyMS ≤ 60000 ∧ result.checkedAt ≠ 0) ∧
      ((result.successfulAttempts = 0 → result.averageLatencyMS = 0) ∧
        (0 < result.successfulAttempts → 0 < result.averageLatencyMS)) ∧
      Proper result.error := by
  rw [validMonitoringProbeResult, Proper]
  simp only [Bool.and_eq_true, Bool.not_eq_true', Bool.or_eq_false_iff, decide_eq_false_iff_not,
    Bool.and_eq_false_iff, List.all_eq_true, Nat.not_lt, Rat.not_lt, Rat.not_le,
    Decidable.not_not, ne_eq, Nat.lt_one_iff, Nat.one_le_iff_ne_zero]
  constructor
  · rintro ⟨⟨⟨⟨⟨⟨⟨⟨⟨⟨⟨⟨hnamed, hshort⟩, hid⟩, hsome⟩, hten⟩, hcount⟩, hlow⟩, hhigh⟩, hchecked⟩,
      hlength⟩, htrim⟩, hnone, hpositive⟩, hcontrol⟩
    exact ⟨⟨hnamed, hshort, hid, hsome, hten, hcount, hlow, hhigh, hchecked⟩,
      ⟨fun hzero => hnone.resolve_left fun hne => hne hzero,
        fun hpos => hpositive.resolve_left fun hle => Nat.not_lt_of_le hle hpos⟩,
      hlength, htrim, hcontrol⟩
  · rintro ⟨⟨hnamed, hshort, hid, hsome, hten, hcount, hlow, hhigh, hchecked⟩,
      ⟨hnone, hpositive⟩, hlength, htrim, hcontrol⟩
    refine ⟨⟨⟨⟨⟨⟨⟨⟨⟨⟨⟨⟨hnamed, hshort⟩, hid⟩, hsome⟩, hten⟩, hcount⟩, hlow⟩, hhigh⟩, hchecked⟩,
      hlength⟩, htrim⟩, ?_, ?_⟩, hcontrol⟩
    · by_cases hzero : result.successfulAttempts = 0
      · exact .inr (hnone hzero)
      · exact .inl hzero
    · rcases Nat.eq_zero_or_pos result.successfulAttempts with hzero | hpos
      · exact .inl hzero.le
      · exact .inr (hpositive hpos)

/-- **The control plane accepts a result** exactly if the target and the number of attempts are as
planned and the last error is presentable. -/
theorem monitoring_report_valid_iff {checkedAt : Time} (hnow : checkedAt ≠ 0)
    (targets : List (String × List MonitoringAttempt)) :
    (buildMonitoringResults checkedAt targets).length = targets.length ∧
      ∀ target ∈ targets, LatencyInRange (buildMonitoringResult checkedAt target.1 target.2) →
        (validMonitoringProbeResult
          (transmit (buildMonitoringResult checkedAt target.1 target.2)) = true ↔
            Planned target.1 target.2 ∧ Presentable (lastError target.2)) := by
  refine ⟨List.length_map _, fun target _ => ?_⟩
  obtain ⟨targetID, attempts⟩ := target
  obtain ⟨average, hresult, hzero⟩ := buildMonitoringResult_eq checkedAt targetID attempts
  rw [hresult]
  intro hlatency
  have hcount : (attempts.countP fun attempt => attempt.err.isNone) ≤ attempts.length :=
    List.countP_le_length
  rw [← proper_iff, valid_iff]
  constructor
  · rintro ⟨⟨hnamed, hshort, hid, hsome, hten, -, -, -, -⟩, -, hproper⟩
    exact ⟨⟨hid, fun hempty => hnamed (hid.symm.trans hempty), hshort, hsome, hten⟩, hproper⟩
  · rintro ⟨hplanned, hproper⟩
    have hrange : 0 ≤ average ∧ average ≤ 60000 := by
      rcases Nat.eq_zero_or_pos (attempts.countP fun attempt => attempt.err.isNone) with
        hnone | hpos
      · rw [hzero hnone]
        decide
      · exact ⟨Rat.le_of_lt (hlatency hpos).1, (hlatency hpos).2⟩
    exact ⟨⟨fun hempty => hplanned.named (hplanned.id.trans hempty), hplanned.short, hplanned.id,
      hplanned.attempted.1, hplanned.attempted.2, hcount, hrange.1, hrange.2, hnow⟩,
      ⟨hzero, fun hpos => (hlatency hpos).1⟩, hproper⟩

/-- An error that begins with a control character and a space. -/
theorem spaced_error_refused :
    LatencyInRange (buildMonitoringResult 1 "1" [⟨0, some [0x01, 0x20, 0x65]⟩]) ∧
      Planned "1" [⟨0, some [0x01, 0x20, 0x65]⟩] ∧
      validMonitoringProbeResult
        (transmit (buildMonitoringResult 1 "1" [⟨0, some [0x01, 0x20, 0x65]⟩])) = false :=
  ⟨fun h => absurd h (by decide), ⟨by decide, by decide, by decide, by decide⟩, by decide +kernel⟩

/-- One attempt that succeeds, and one that is refused. -/
theorem monitoring_report_valid_refused :
    (buildMonitoringResults 1 [("1", [⟨1, none⟩, ⟨0, some [0x65]⟩])]).length = 1 ∧
      validMonitoringProbeResult
        (transmit (buildMonitoringResult 1 "1" [⟨1, none⟩, ⟨0, some [0x65]⟩])) = true := by
  obtain ⟨hlength, hvalid⟩ := monitoring_report_valid_iff
    (show (1 : Time) ≠ 0 by decide)
    [("1", [⟨1, none⟩, ⟨0, some [0x65]⟩])]
  refine ⟨hlength, (hvalid _ List.mem_cons_self (fun _ => by decide +kernel)).mpr
    ⟨⟨by decide, by decide, by decide, by decide⟩, ['e'], ?_, ?_, ?_⟩⟩
  · decide +kernel
  · decide +kernel
  · decide

end SimpleCdn.Monitoring
