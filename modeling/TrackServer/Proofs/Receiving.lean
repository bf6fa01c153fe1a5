import TrackServer.Connection
import TrackServer.Proofs.Results

/-!
# Proofs/Receiving — when the bytes received decide the answer

Bytes decide the answer as soon as they hold a line terminator or are too many (`Decided`); what
they then decide is `Service.verdict`.  A receiving connection answers at the first read after which
its bytes decide (`Inlet.decidedAt`), with their verdict, and at no other (`rests_intake`).

* `answer?_eq`: a buffer answers exactly when it decides.
* `decidedAt_eq_none_iff`: decided bytes stay decided, so no read decided yet exactly when all bytes
  read so far do not.
-/

namespace TrackServer

/-! ## Decided bytes -/

/-- Bytes that hold a line, or are too many to wait for one. -/
def Decided (bound : Nat) (bytes : List UInt8) : Prop :=
  Ascii.newline ∈ bytes ∨ bound < bytes.length

instance (bound : Nat) : DecidablePred (Decided bound) :=
  fun _ => inferInstanceAs (Decidable (_ ∨ _))

/-- More bytes decide what fewer bytes decided. -/
theorem Decided.of_isPrefix {bound : Nat} {bytes more : List UInt8} (h : Decided bound bytes)
    (hp : bytes <+: more) : Decided bound more :=
  h.imp (hp.subset ·) (Nat.lt_of_lt_of_le · hp.length_le)

theorem not_decided_iff {bound : Nat} {bytes : List UInt8} :
    ¬ Decided bound bytes ↔ Ascii.newline ∉ bytes ∧ bytes.length ≤ bound := by
  rw [Decided, not_or, Nat.not_lt]

/-! ## Incomplete buffers -/

namespace Request

theorem trackOf_ne_incomplete (arguments : List (List UInt8)) :
    trackOf arguments ≠ .error .incomplete := by
  fun_cases trackOf arguments <;> simp

theorem ofCommand_ne_incomplete (command : Command) (arguments : List (List UInt8)) :
    ofCommand command arguments ≠ .error .incomplete := by
  fun_cases ofCommand command arguments with
  | case1 => exact mt map_eq_error_iff.1 (trackOf_ne_incomplete arguments)
  | case2 | case3 => simp

theorem ofWords_ne_incomplete (words : List (List UInt8)) :
    ofWords words ≠ .error .incomplete := by
  fun_cases ofWords words with
  | case1 | case2 => simp
  | case3 _ arguments command => exact ofCommand_ne_incomplete command arguments

/-- A line is never incomplete. -/
theorem ofLine_ne_incomplete (line : List UInt8) : ofLine line ≠ .error .incomplete := by
  fun_cases ofLine line with
  | case1 => exact ofWords_ne_incomplete (Ascii.words line)
  | case2 => simp

/-- **A buffer is incomplete exactly when it holds no line terminator.** -/
theorem parse_eq_incomplete_iff {buffer : List UInt8} :
    parse buffer = .error .incomplete ↔ Ascii.newline ∉ buffer := by
  refine ⟨fun h hn => ?_, parse_of_no_newline⟩
  cases hl : firstLine? buffer with
  | none => exact firstLine?_eq_none_iff.1 hl hn
  | some line =>
    rw [parse, hl] at h
    exact absurd (map_eq_error_iff.1 h) (ofLine_ne_incomplete line)

end Request

/-! ## What decided bytes are answered -/

namespace Service

variable (service : Service)

/-- **The verdict on bytes that decide**: their first line is answered or refused; without a line
they are refused as too many. -/
def verdict (bytes : List UInt8) : Response :=
  if Ascii.newline ∈ bytes then
    match Request.parse bytes with
    | .ok parsed => service.catalog.respond service.files parsed.request
    | .error fault => .refuse fault.reason
  else .refuse tooLarge

/-- The bytes that an answer leaves: those after the request it answers, or, of a refusal, all. -/
def leftOver (bytes : List UInt8) : List UInt8 :=
  match Request.parse bytes with
  | .ok parsed => bytes.drop parsed.consumed
  | .error _ => bytes

variable {service}

theorem verdict_of_newline_notMem {bytes : List UInt8} (h : Ascii.newline ∉ bytes) :
    service.verdict bytes = .refuse tooLarge := if_neg h

/-- **The verdict on bytes with a line looks at that line alone.** -/
theorem verdict_append {bytes : List UInt8} (h : Ascii.newline ∈ bytes) (more : List UInt8) :
    service.verdict (bytes ++ more) = service.verdict bytes := by
  rw [verdict, verdict, Request.parse_append h more, if_pos h,
    if_pos (List.mem_append_left more h)]

/-- **A buffer answers exactly when it decides**, with the verdict on it. -/
theorem answer?_eq (service : Service) (bytes : List UInt8) :
    service.answer? bytes
      = if Decided service.maxRequest bytes then some (service.verdict bytes, leftOver bytes)
        else none := by
  by_cases hn : Ascii.newline ∈ bytes
  · have hd : Decided service.maxRequest bytes := Or.inl hn
    rw [if_pos hd, answer?, verdict, leftOver, if_pos hn]
    split
    · next h => rw [h]
    · next h => exact absurd hn (Request.parse_eq_incomplete_iff.1 h)
    · next h => rw [h]
  · rw [answer?, verdict_of_newline_notMem hn, leftOver, Request.parse_of_no_newline hn]
    by_cases hl : bytes.length ≤ service.maxRequest
    · rw [if_neg (not_decided_iff.2 ⟨hn, hl⟩)]
      exact if_pos hl
    · have hd : Decided service.maxRequest bytes := Or.inr (Nat.lt_of_not_le hl)
      rw [if_pos hd]
      exact if_neg hl

end Service

/-! ## The read that decides -/

namespace Inlet

theorem received_isPrefix_cons (result : ReadResult) (earlier : List ReadResult) :
    received earlier <+: received (result :: earlier) := by
  cases result with
  | data piece => exact List.prefix_append _ _
  | ended | wouldBlock | interrupted | failed => exact List.prefix_rfl

/-- **All bytes read up to the first read after which they decide**, if there was one. -/
def decidedAt (bound : Nat) : List ReadResult → Option (List UInt8)
  | [] => none
  | result :: earlier =>
    (decidedAt bound earlier).or <|
      if Decided bound (received (result :: earlier)) then some (received (result :: earlier))
      else none

/-- **No read decided yet exactly when all bytes read so far do not decide.** -/
theorem decidedAt_eq_none_iff {bound : Nat} {log : List ReadResult} :
    decidedAt bound log = none ↔ ¬ Decided bound (received log) := by
  induction log with
  | nil => simp [decidedAt, Decided, received]
  | cons result earlier ih =>
    rw [decidedAt, Option.or_eq_none_iff, ih]
    have hp := received_isPrefix_cons result earlier
    constructor
    · rintro ⟨-, h⟩ hd
      rw [if_pos hd] at h
      cases h
    · intro h
      exact ⟨fun hd => h (hd.of_isPrefix hp), if_neg h⟩

/-- Bytes that decided go on deciding. -/
theorem decided_of_decidedAt {bound : Nat} {log : List ReadResult} {bytes : List UInt8}
    (h : decidedAt bound log = some bytes) : Decided bound (received log) := by
  by_contra undecided
  cases h.symm.trans (decidedAt_eq_none_iff.2 undecided)

theorem decidedAt_cons {bound : Nat} {result : ReadResult} {earlier : List ReadResult}
    (hb : ¬ Decided bound (received earlier)) (hd : Decided bound (received (result :: earlier))) :
    decidedAt bound (result :: earlier) = some (received (result :: earlier)) := by
  rw [decidedAt, decidedAt_eq_none_iff.2 hb, if_pos hd, Option.none_or]

end Inlet

/-! ## The read loop -/

namespace Service

section Intake

variable (service : Service) (buffer : List UInt8) (log rest : List ReadResult)

theorem intake_wouldBlock : service.intake buffer log (.wouldBlock :: rest)
    = (.blocked, buffer, ⟨rest, .wouldBlock :: log⟩) := rfl

theorem intake_interrupted : service.intake buffer log (.interrupted :: rest)
    = service.intake buffer (.interrupted :: log) rest := rfl

variable {service buffer} {piece : Piece}

/-- Reading stops at the piece after which the bytes decide… -/
theorem intake_data_of_decided (h : Decided service.maxRequest (buffer ++ piece.bytes)) :
    service.intake buffer log (.data piece :: rest)
      = (.answered (service.verdict (buffer ++ piece.bytes)), leftOver (buffer ++ piece.bytes),
        ⟨rest, .data piece :: log⟩) := by
  rw [intake, answer?_eq, if_pos h]

/-- …and goes on after any other. -/
theorem intake_data_of_not_decided (h : ¬ Decided service.maxRequest (buffer ++ piece.bytes)) :
    service.intake buffer log (.data piece :: rest)
      = service.intake (buffer ++ piece.bytes) (.data piece :: log) rest := by
  rw [intake, answer?_eq, if_neg h]

end Intake

/-- How reading leaves a connection.  It blocks or ends only on bytes that do not decide, and it
answers at the read that decides. -/
def Rests (service : Service) : Intake × List UInt8 × Inlet → Prop
  | (.blocked, buffer, inlet) | (.ended, buffer, inlet) =>
    ¬ Decided service.maxRequest (Inlet.received inlet.log) ∧ buffer = Inlet.received inlet.log
  | (.answered response, left, inlet) =>
    Inlet.decidedAt service.maxRequest inlet.log = some (Inlet.received inlet.log)
      ∧ response = service.verdict (Inlet.received inlet.log)
      ∧ left = leftOver (Inlet.received inlet.log)

/-- **Reading answers at the read that decides**, and not before. -/
theorem rests_intake (service : Service) (script log : List ReadResult)
    (h : ¬ Decided service.maxRequest (Inlet.received log)) :
    service.Rests (service.intake (Inlet.received log) log script) := by
  induction script generalizing log with
  | nil => exact ⟨h, rfl⟩
  | cons result rest ih =>
    cases result with
    | wouldBlock => exact ⟨h, rfl⟩
    | interrupted => exact ih (.interrupted :: log) h
    | ended => exact ⟨h, rfl⟩
    | failed => exact ⟨h, rfl⟩
    | data piece =>
      by_cases hd : Decided service.maxRequest (Inlet.received log ++ piece.bytes)
      · rw [intake_data_of_decided log rest hd]
        exact ⟨Inlet.decidedAt_cons h hd, rfl, rfl⟩
      · rw [intake_data_of_not_decided log rest hd]
        exact ih (.data piece :: log) hd

/-- **Reading blocks only at a read that would have blocked.** -/
theorem log_of_intake_blocked {service : Service} {buffer : List UInt8}
    {log script : List ReadResult} (h : (service.intake buffer log script).1 = .blocked) :
    ∃ earlier, (service.intake buffer log script).2.2.log = .wouldBlock :: earlier := by
  fun_induction Service.intake service buffer log script with
  | case1 _ log => exact ⟨log, rfl⟩
  | case2 _ log => exact ⟨log, rfl⟩
  | case3 _ _ _ ih => exact ih h
  | case4 | case5 => cases h
  | case6 _ _ _ _ _ ih => exact ih h
  | case7 => cases h

end Service

end TrackServer
