import TrackServer.Proofs.Lifecycle
import TrackServer.Proofs.Numbering
import TrackServer.Proofs.Refusals

/-!
# Proofs/SingleLine — a refusal is one line

Two reasons repeat a word of the client's, and one a number.  Whatever the client sends, these are
`Plain` bytes, for a word has no blanks and stands in an ASCII line; so every reason is one
(`isReason_of_refused`, `isReason_noSuchTrack`), and none says that a request is incomplete.

* `refusal_is_single_line`: the payload of a connection that begins to send a refusal.
-/

namespace TrackServer

/-! ## Reasons -/

namespace Response

/-- The carriage return. -/
def carriageReturn : UInt8 := 0x0D

/-- A byte of ASCII text that ends no line. -/
def Plain (b : UInt8) : Prop :=
  b < 0x80 ∧ b ≠ Ascii.newline ∧ b ≠ carriageReturn

instance : DecidablePred Plain :=
  fun _ => inferInstanceAs (Decidable (_ ∧ _))

/-- The reason of a buffer that is still to be read on. -/
def incomplete : List UInt8 :=
  Ascii.bytes "incomplete request"

/-- **A reason**: some plain bytes, other than what is said of an incomplete buffer. -/
structure IsReason (reason : List UInt8) : Prop where
  nonempty : reason ≠ []
  plain : ∀ b ∈ reason, Plain b
  complete : reason ≠ incomplete

variable {head word line : List UInt8} {words : List (List UInt8)} {fault : ParseError} {b : UInt8}

/-- A byte of a word is plain, as what ends a line is blank. -/
theorem plain_of_not_blank (hblank : Ascii.isBlank b = false) (hascii : b < 0x80) : Plain b := by
  refine ⟨hascii, ?_, ?_⟩
  · rintro rfl
    cases hblank
  · rintro rfl
    cases hblank

/-- Words of the client behind words of the server, when these tell the reason apart. -/
theorem isReason_append (nonempty : head ≠ []) (plain : ∀ b ∈ head, Plain b)
    (apart : incomplete.take head.length ≠ head) (hword : ∀ b ∈ word, Plain b) :
    IsReason (head ++ word) where
  nonempty := List.append_ne_nil_of_left_ne_nil nonempty word
  plain := List.forall_mem_append.2 ⟨plain, hword⟩
  complete heq := apart (by rw [← heq, List.take_left])

theorem isReason_of_text (nonempty : head ≠ []) (plain : ∀ b ∈ head, Plain b)
    (apart : incomplete.take head.length ≠ head) : IsReason head := by
  simpa using isReason_append nonempty plain apart (List.forall_mem_nil _)

theorem isReason_tooLarge : IsReason Service.tooLarge :=
  isReason_of_text (by decide) (by decide +kernel) (by decide +kernel)

theorem isReason_unableToLoad : IsReason unableToLoad :=
  isReason_of_text (by decide) (by decide +kernel) (by decide +kernel)

theorem isReason_noSuchTrack (id : Nat) : IsReason (noSuchTrack id) := by
  rw [noSuchTrack, Ascii.bytes_append]
  refine isReason_append (by decide) (by decide +kernel) (by decide +kernel) fun b hb => ?_
  have hplain := Request.plain_toString id b hb
  exact plain_of_not_blank hplain.1 hplain.2.2

theorem length_noSuchTrack_le {id : Nat} (h : id < 2 ^ 64) : (noSuchTrack id).length ≤ 34 := by
  have hdigits := Decimal.length_toString_le (show 0 < 20 by decide)
    (Nat.lt_trans h (by decide : 2 ^ 64 < 10 ^ 20))
  have hhead : (Ascii.bytes "no such track ").length = 14 := by decide +kernel
  rw [noSuchTrack, Ascii.bytes_append, List.length_append, hhead]
  omega

/-! ## Reasons of lines -/

/-- A word that a fault carries is one of the line's. -/
theorem mem_of_faulty (h : Request.Faulty words fault) (hw : fault.word? = some word) :
    word ∈ words := by
  cases h with
  | empty | trailing => cases hw
  | unknown =>
    cases hw
    exact List.mem_cons_self
  | numbered _ misnumbered =>
    cases misnumbered with
    | missing | trailing => cases hw
    | invalid =>
      cases hw
      exact List.mem_cons_of_mem _ List.mem_cons_self

/-- It is plain, and no longer than the line. -/
theorem word_of_refused (h : Request.Refused line fault) (hw : fault.word? = some word) :
    (∀ b ∈ word, Plain b) ∧ word.length ≤ line.length := by
  cases h with
  | encoding => cases hw
  | words ascii separated faulty =>
    have hmem := mem_of_faulty faulty hw
    have hwithin := separated.isInfix hmem
    rw [← Ascii.runs_eq_iff.2 separated] at hmem
    exact ⟨fun b hb => plain_of_not_blank (Ascii.not_cut_of_mem_runs hmem b hb)
      (ascii b (hwithin.subset hb)), hwithin.length_le⟩

/-- A line is never incomplete. -/
theorem not_refused_incomplete : ¬ Request.Refused line .incomplete :=
  mt Request.ofLine_eq_error_iff.2 (Request.ofLine_ne_incomplete line)

/-- **The reason for refusing a line**, whatever words it has, is a reason and not much longer than
the line. -/
theorem isReason_of_refused (h : Request.Refused line fault) :
    IsReason fault.reason ∧ fault.reason.length ≤ line.length + 35 := by
  cases fault with
  | incomplete => exact absurd h not_refused_incomplete
  | invalidEncoding | empty | missingTrack | trailingArguments =>
    exact ⟨isReason_of_text (by decide) (by decide +kernel) (by decide +kernel),
      Nat.le_trans (by decide +kernel) (Nat.le_add_left 35 _)⟩
  | unknownCommand word | invalidTrack word =>
    obtain ⟨hplain, hlength⟩ := word_of_refused h rfl
    refine ⟨isReason_append (by decide) (by decide +kernel) (by decide +kernel) hplain, ?_⟩
    rw [ParseError.reason, List.length_append, Nat.add_comm]
    exact Nat.add_le_add hlength (by decide +kernel)

end Response

/-! ## Refusals -/

section Verdict

variable {catalog : Catalog} {files : FileSystem} {request : Request} {service : Service}
  {bytes : List UInt8}

/-- An answer about a track is refused for its number, or is the answer of the track. -/
theorem Response.about_cases (catalog : Catalog) (id : Nat) (answer : Track → Response) :
    about catalog id answer = .refuse (noSuchTrack id)
      ∨ ∃ track, about catalog id answer = answer track := by
  rw [about]
  cases catalog.get? id with
  | none => exact .inl rfl
  | some track => exact .inr ⟨track, rfl⟩

/-- **A request is refused** for an unknown number, or because the track cannot be read. -/
theorem Catalog.respond_of_isError (h : (catalog.respond files request).isError = true) :
    (∃ id, request.track? = some id
        ∧ catalog.respond files request = .refuse (Response.noSuchTrack id))
      ∨ catalog.respond files request = .refuse Response.unableToLoad := by
  cases request with
  | list => cases h
  | info id =>
    rw [respond] at h ⊢
    obtain hnone | ⟨track, htrack⟩ := Response.about_cases catalog id .ofInfo
    · exact .inl ⟨id, rfl, hnone⟩
    · rw [htrack] at h
      cases h
  | play id =>
    rw [respond] at h ⊢
    obtain hnone | ⟨track, htrack⟩ := Response.about_cases catalog id (.ofContent files)
    · exact .inl ⟨id, rfl, hnone⟩
    · rw [htrack, Response.ofContent] at h ⊢
      split at h
      · cases h
      · exact .inr rfl

/-- A number that was parsed is a machine word. -/
theorem Request.lt_of_parse {parsed : Parsed} {id : Nat} (h : parse bytes = .ok parsed)
    (hid : parsed.request.track? = some id) : id < 2 ^ 64 := by
  obtain ⟨request, consumed⟩ := parsed
  obtain ⟨_, _, _, _, _, _, words, _, hphrase⟩ := parse_eq_ok_iff.1 h
  cases hphrase with
  | list => cases hid
  | info _ _ bounded | play _ _ bounded =>
    cases hid
    exact bounded

/-- **What is refused is refused for a reason**, which is not much longer than the bytes
received. -/
theorem Service.isReason_of_isError (h : (service.verdict bytes).isError = true) :
    ∃ reason, service.verdict bytes = .refuse reason ∧ Response.IsReason reason
      ∧ reason.length ≤ bytes.length + 35 := by
  by_cases hn : Ascii.newline ∈ bytes
  · rw [verdict, if_pos hn] at h ⊢
    cases hp : Request.parse bytes with
    | ok parsed =>
      rw [hp] at h
      obtain ⟨id, hid, hrespond⟩ | hrespond := Catalog.respond_of_isError h
      · have hlength := Response.length_noSuchTrack_le (Request.lt_of_parse hp hid)
        exact ⟨_, hrespond, Response.isReason_noSuchTrack id, by omega⟩
      · exact ⟨_, hrespond, Response.isReason_unableToLoad,
          Nat.le_trans (by decide +kernel) (Nat.le_add_left 35 _)⟩
    | error fault =>
      cases hl : Request.firstLine? bytes with
      | none => exact absurd hn (Request.firstLine?_eq_none_iff.1 hl)
      | some line =>
        obtain ⟨hreason, hlength⟩ :=
          Response.isReason_of_refused ((Request.parse_eq_error_iff hl).1 hp)
        obtain ⟨-, rest, rfl⟩ := Request.firstLine?_eq_some_iff.1 hl
        refine ⟨_, rfl, hreason, Nat.le_trans hlength ?_⟩
        rw [List.length_append]
        omega
  · rw [verdict_of_newline_notMem hn]
    exact ⟨_, rfl, Response.isReason_tooLarge,
      Nat.le_trans (by decide +kernel) (Nat.le_add_left 35 _)⟩

/-- A buffer that answers is answered the verdict on it. -/
theorem Service.eq_verdict_of_answer? {response : Response} {left : List UInt8}
    (h : service.answer? bytes = some (response, left)) : response = service.verdict bytes := by
  rw [answer?_eq] at h
  split at h
  · exact (congrArg Prod.fst (Option.some.inj h)).symm
  · cases h

end Verdict

/-! ## What a connection sends -/

namespace Connection

/-- **A refusal in one line**: the mark, a reason of ASCII bytes that ends no line and does not say
that the request is incomplete, and the end of the line; in all not much longer than what was
received. -/
structure SingleLine (payload reason received : List UInt8) : Prop where
  payload_eq : payload = Ascii.bytes "ERR " ++ reason ++ [Ascii.newline]
  nonempty : reason ≠ []
  ascii : ∀ b ∈ reason, b < 0x80
  unbroken : Ascii.newline ∉ reason ∧ Response.carriageReturn ∉ reason
  complete : reason ≠ Ascii.bytes "incomplete request"
  short : payload.length ≤ received.length + 40

theorem singleLine_of_isReason {reason received : List UInt8} (h : Response.IsReason reason)
    (hlength : reason.length ≤ received.length + 35) :
    SingleLine (Response.refuse reason).payload.data.toList reason received where
  payload_eq := Response.toList_payload_refuse reason
  nonempty := h.nonempty
  ascii b hb := (h.plain b hb).1
  unbroken := ⟨fun hb => (h.plain _ hb).2.1 rfl, fun hb => (h.plain _ hb).2.2 rfl⟩
  complete := h.complete
  short := by
    have hmark : (Ascii.bytes "ERR ").length = 4 := by decide +kernel
    rw [Response.toList_payload_refuse, Response.refusalLine, List.length_append,
      List.length_append, hmark, List.length_singleton]
    omega

/-- **A poised connection begins to send only on input**, and then what all bytes received so far
are answered. -/
theorem Poised.answers {service : Service} {connection : Connection} {call : Call} {sender : Sender}
    (h : connection.Poised service.maxRequest) (receiving : connection.isReceiving = true)
    (sending : (connection.call service call).phase = .sending sender) :
    ∃ files response left, call = .input files
      ∧ Service.answer? { service with files }
          (Inlet.received (connection.call service call).socket.inlet.log) = some (response, left)
      ∧ sender = .ofPayload response.payload service.chunkSize := by
  have hphase := isReceiving_iff.1 receiving
  cases call with
  | output =>
    rw [Connection.call, handleOutput_of_receiving hphase] at sending
    cases hphase.symm.trans sending
  | close =>
    rw [Connection.call, phase_close] at sending
    cases sending
  | input files =>
    cases h with
    | sending _ phase | closing phase => cases hphase.symm.trans phase
    | receiving _ buffer undecided =>
      have hrests := Service.rests_intake { service with files } connection.socket.inlet.script
        connection.socket.inlet.log (buffer ▸ undecided)
      have hreads := reads { service with files } connection
      rw [Connection.call] at sending ⊢
      generalize connection.handleInput { service with files } = result at hreads sending ⊢
      cases hreads with
      | idle other => exact absurd hphase other
      | blocked phase => cases phase.symm.trans sending
      | ended =>
        rw [phase_close] at sending
        cases sending
      | answered _ read =>
        rw [← buffer, read] at hrests
        obtain ⟨hdecided, rfl, rfl⟩ := hrests
        obtain rfl := Phase.sending.inj sending
        have hd := Inlet.decided_of_decidedAt hdecided
        exact ⟨files, _, _, rfl, by rw [Service.answer?_eq, if_pos hd], rfl⟩

/-- **A refusal is one line.**  Whatever a client sends, however it comes in and whatever calls are
made: the call by which a connection goes from receiving to sending makes it send the answer to all
bytes received so far; and if that is a refusal, its payload is a single line. -/
theorem refusal_is_single_line (service : Service) (reads : List ReadResult)
    (writes : List WriteStep) (made : List Call) (call : Call) {sender : Sender}
    (receiving : ((ofSocket (.ofScripts reads writes)).run service made).isReceiving = true)
    (sending : ((ofSocket (.ofScripts reads writes)).run service (made ++ [call])).phase
      = .sending sender) :
    let received := Inlet.received
      ((ofSocket (.ofScripts reads writes)).run service (made ++ [call])).socket.inlet.log
    ∃ files response left, call = .input files
      ∧ Service.answer? { service with files } received = some (response, left)
      ∧ sender = .ofPayload response.payload service.chunkSize
      ∧ (response.isError = true →
          ∃ reason, SingleLine response.payload.data.toList reason received) := by
  rw [run_append] at sending ⊢
  have hpoised := (poised_ofSocket service.maxRequest reads writes).run made
  obtain ⟨files, response, left, rfl, hanswer, hsender⟩ := hpoised.answers receiving sending
  refine ⟨files, response, left, rfl, hanswer, hsender, fun hrefused => ?_⟩
  obtain rfl := Service.eq_verdict_of_answer? hanswer
  obtain ⟨reason, hreply, hreason, hlength⟩ := Service.isReason_of_isError hrefused
  exact ⟨reason, hreply ▸ singleLine_of_isReason hreason hlength⟩

/-- A second reply smuggled in behind a carriage return: the word that is sent back ends before. -/
theorem refusal_is_single_line_cut :
    let refusal := Response.refuse (Ascii.bytes "unknown command STOP")
    ((ofSocket (.ofScripts
        [.data ⟨Ascii.bytes "STOP\rERR x\n", by decide, by decide⟩] [])).run
        ⟨⟨[]⟩, .empty, 4, 32⟩ [.input .empty]).phase
      = .sending (.ofPayload refusal.payload 4)
      ∧ ∃ reason,
        SingleLine refusal.payload.data.toList reason (Ascii.bytes "STOP\rERR x\n") := by
  obtain ⟨files, response, left, hcall, hanswer, hsender, hline⟩ :=
    refusal_is_single_line ⟨⟨[]⟩, .empty, 4, 32⟩
      [.data ⟨Ascii.bytes "STOP\rERR x\n", by decide, by decide⟩] [] [] (.input .empty) rfl rfl
  cases hcall
  obtain rfl : response = .refuse (Ascii.bytes "unknown command STOP") :=
    (congrArg Prod.fst (Option.some.inj hanswer)).symm.trans (by decide +kernel)
  exact ⟨congrArg Phase.sending hsender, hline rfl⟩

end Connection

end TrackServer
