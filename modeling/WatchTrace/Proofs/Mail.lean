import WatchTrace.Model.Mail

/-!
# Mail is what it was meant to be

The text of a message is read back line by line. No value that comes from outside
can end a line, so the header that is read is the header that was written, and
everything after it is the body. What a provider says is cut to something that
its columns take.
-/

namespace WatchTrace.Proofs.Mail

open Model Model.Mail Text

/-! ## Reading a message back -/

/-- The lines before the first empty one, and what follows it. A line ends with
CR LF; `line` is what has been read of the one that is open. -/
def readMessage : Bytes → Bytes → Option (List Bytes × Bytes)
  | _, [] => none
  | line, b :: rest =>
    if b = lf ∧ line.getLast? = some cr then
      if line.dropLast = [] then some ([], rest)
      else (readMessage [] rest).map fun m => (line.dropLast :: m.1, m.2)
    else readMessage (line ++ [b]) rest

/-- No CR stands without an LF after it, and no LF without a CR before it. -/
structure Paired (body : Bytes) : Prop where
  cr_lf : ∀ i, body[i]? = some cr → body[i + 1]? = some lf
  lf_cr : ∀ i, body[i]? = some lf → ∃ j, i = j + 1 ∧ body[j]? = some cr

/-- Neither end of a line is inside. -/
def Plain (line : Bytes) : Prop := cr ∉ line ∧ lf ∉ line

variable {L : Library} {line rest a b : Bytes}

theorem Plain.append (ha : Plain a) (hb : Plain b) : Plain (a ++ b) :=
  ⟨by simp [ha.1, hb.1], by simp [ha.2, hb.2]⟩

theorem readMessage_line (hline : lf ∉ line) (opened : Bytes) (hopen : opened ++ line ≠ []) :
    readMessage opened (line ++ crlf ++ rest)
      = (readMessage [] rest).map fun m => ((opened ++ line) :: m.1, m.2) := by
  induction line generalizing opened with
  | nil =>
    rw [List.append_nil] at hopen
    simp [readMessage, crlf, cr, lf, hopen]
  | cons b line ih =>
    obtain ⟨hb, hline⟩ := not_or.1 (mt List.mem_cons.2 hline)
    rw [List.cons_append, List.cons_append, readMessage, if_neg fun h => hb h.1.symm,
      ih hline _ (by simp), List.append_assoc, List.singleton_append]

theorem readMessage_end : readMessage [] (crlf ++ rest) = some ([], rest) := by
  simp [readMessage, crlf, cr, lf]

theorem paired_formatBody (body : Bytes) : Paired (formatBody body) := by
  unfold formatBody
  have hcr : cr ∉ body.filter (· != cr) := by simp
  generalize body.filter (· != cr) = body at hcr ⊢
  induction body with
  | nil => exact ⟨by simp, by simp⟩
  | cons b rest ih =>
    obtain ⟨hb, hrest⟩ := not_or.1 (mt List.mem_cons.2 hcr)
    obtain ⟨hcr', hlf'⟩ := ih hrest
    rw [List.flatMap_cons]
    split
    · refine ⟨fun i h => ?_, fun i h => ?_⟩
      · rcases i with _ | _ | i
        · rfl
        · simp [crlf, cr, lf] at h
        · exact hcr' i h
      · rcases i with _ | _ | i
        · simp [crlf, cr, lf] at h
        · exact ⟨0, rfl, rfl⟩
        · obtain ⟨j, rfl, hj⟩ := hlf' i h
          exact ⟨j + 2, rfl, hj⟩
    · next hne =>
      refine ⟨fun i h => ?_, fun i h => ?_⟩
      · cases i with
        | zero => exact absurd (Option.some.inj h).symm hb
        | succ i => exact hcr' i h
      · cases i with
        | zero => exact absurd (Option.some.inj h) hne
        | succ i =>
          obtain ⟨j, rfl, hj⟩ := hlf' i h
          exact ⟨j + 1, rfl, hj⟩

/-! ## What the checks say about a value -/

theorem plain_of_validMailbox (h : validMailbox L line) : Plain line := by
  unfold validMailbox at h
  split at h
  · cases h
  · next hno => exact ⟨fun hm => hno (by simp [hm]), fun hm => hno (by simp [hm])⟩

theorem plain_of_built {transport : Transport} (h : Built L transport) :
    Plain transport.fromAddress := by
  rcases h with ⟨address, fromAddress, timeout, h⟩ |
    ⟨address, username, password, fromAddress, timeout, h⟩
  · unfold newLocal at h
    split at h
    · cases h
    split at h
    · cases h
    · next hno =>
      cases h
      exact plain_of_validMailbox (L := L) (by simp_all)
  · unfold newOCI at h
    split at h
    · cases h
    split at h
    · cases h
    · next hno =>
      cases h
      exact plain_of_validMailbox (L := L) (by simp_all)

theorem plain_safeHeader (value : Bytes) : Plain (safeHeader value) := by
  constructor
  · intro h
    simpa [cr] using List.mem_filter.1 (trim_subset h)
  · intro h
    simpa [lf] using List.mem_filter.1 (trim_subset h)

theorem plain_of_validMessageID (h : validMessageID line) : Plain line := by
  have hall := List.all_eq_true.1 (Bool.and_eq_true_iff.1 h).2
  constructor
  · intro hm
    simpa [crlf] using hall _ hm
  · intro hm
    simpa [crlf] using hall _ hm

/-! ## The message -/

/-- The lines of the header of a message. -/
def headerLines (transport : Transport) (message : Message) : List Bytes :=
  [literal "From: " ++ transport.fromAddress, literal "To: " ++ message.recipient,
    literal "Subject: " ++ safeHeader message.subject] ++
  (if message.messageID = [] then []
    else [literal "Message-ID: <" ++ message.messageID ++ literal "@watchtrace.local>"]) ++
  [literal "Content-Type: text/plain; charset=UTF-8"]

theorem headerLines_plain {transport : Transport} {message : Message}
    (htransport : Built L transport) (hmessage : deliverable L message) :
    ∀ line ∈ headerLines transport message, line ≠ [] ∧ Plain line := by
  have hliteral : ∀ s ∈ ["From: ", "To: ", "Subject: ", "Message-ID: <", "@watchtrace.local>",
      "Content-Type: text/plain; charset=UTF-8"], literal s ≠ [] ∧ Plain (literal s) := by
    unfold Plain
    decide +kernel
  have happend : ∀ {a b : Bytes}, a ≠ [] ∧ Plain a → Plain b → a ++ b ≠ [] ∧ Plain (a ++ b) :=
    fun ha hb => ⟨List.append_ne_nil_of_left_ne_nil ha.1 _, ha.2.append hb⟩
  have hrecipient :=
    plain_of_validMailbox (Bool.and_eq_true_iff.1 (Bool.and_eq_true_iff.1 hmessage).1).1
  have hid := plain_of_validMessageID (Bool.and_eq_true_iff.1 hmessage).2
  simp only [List.forall_mem_cons] at hliteral
  obtain ⟨hfrom, hto, hsubject, hopen, hclose, htype, -⟩ := hliteral
  unfold headerLines
  simp only [List.forall_mem_append, List.forall_mem_cons]
  refine ⟨⟨⟨happend hfrom (plain_of_built htransport), happend hto hrecipient,
    happend hsubject (plain_safeHeader _), by simp⟩, ?_⟩, htype, by simp⟩
  split
  · simp
  · simpa using happend (happend hopen hid) hclose.2

/-- The lines that are read are those that were written, and so is what follows. -/
theorem readMessage_lines {lines : List Bytes} (hlines : ∀ line ∈ lines, line ≠ [] ∧ Plain line) :
    readMessage [] (lines.flatMap (· ++ crlf) ++ (crlf ++ rest)) = some (lines, rest) := by
  induction lines with
  | nil => exact readMessage_end
  | cons line lines ih =>
    obtain ⟨⟨hne, hplain⟩, hlines⟩ := List.forall_mem_cons.1 hlines
    rw [List.flatMap_cons, List.append_assoc, readMessage_line hplain.2 [] hne, ih hlines]
    rfl

theorem format_eq (transport : Transport) (message : Message) :
    transport.format message = (headerLines transport message).flatMap (· ++ crlf) ++
      (crlf ++ formatBody message.plainTextBody) := by
  unfold Transport.format headerLines
  split <;> simp

/-- **No header injection.** Read up to its first empty line, the text of a
message is one line for each field and no other, none of them broken; the rest is
the body, with no line end that is not CR LF. -/
theorem format_read {transport : Transport} {message : Message}
    (htransport : Built L transport) (hmessage : deliverable L message) :
    ∃ body, readMessage [] (transport.format message) = some (headerLines transport message, body) ∧
      (∀ line ∈ headerLines transport message, Plain line) ∧ Paired body := by
  have hlines := headerLines_plain htransport hmessage
  refine ⟨formatBody message.plainTextBody, ?_, fun line h => (hlines line h).2,
    paired_formatBody _⟩
  rw [format_eq, readMessage_lines hlines]

namespace Sample

/-- A library for which every text is an address and a host. -/
def library : Library where
  splitHostPort s := some (s, [])
  equalFold a b := a == b
  parseIP _ := none
  parseAddress s := some ([], s)

def transport : Transport where
  address := literal "localhost"
  host := literal "localhost"
  fromAddress := literal "alerts@watchtrace.test"
  username := []
  password := []
  requireTLS := false
  timeout := 10

/-- A subject and a body that try to add lines. -/
def message : Message where
  recipient := literal "member@watchtrace.test"
  subject := literal "down\r\nBcc: all"
  messageID := literal "7"
  plainTextBody := literal "a\r\n\nb\r"

end Sample

open Sample in
theorem format_read_sample : (∃ address fromAddress timeout,
        newLocal library address fromAddress timeout = some transport) ∧
      deliverable library message ∧
      ∃ body, readMessage [] (transport.format message)
          = some (headerLines transport message, body) ∧
        (∀ line ∈ headerLines transport message, Plain line) ∧ Paired body := by
  have hbuilt : newLocal library (literal " localhost") (literal "alerts@watchtrace.test") 10
      = some transport := by
    rfl
  have hmessage : deliverable library message := by decide +kernel
  exact ⟨⟨_, _, _, hbuilt⟩, hmessage, format_read (.inl ⟨_, _, _, hbuilt⟩) hmessage⟩

/-! ## What a provider says -/

/-- A text that can be shown: some characters, none of which is a control
character. -/
def Printable (s : Bytes) : Prop :=
  ∃ cs, s = encode cs ∧ cs ≠ [] ∧ ∀ c ∈ cs, 32 ≤ c.val ∧ c.val ≠ 127

theorem printable_literal {text : String} (h : literal text = encode text.toList ∧
      text.toList ≠ [] ∧ text.toList.all (fun c => decide (32 ≤ c.val ∧ c.val ≠ 127)) = true) :
    Printable (literal text) := by
  obtain ⟨htext, hne, hall⟩ := h
  refine ⟨text.toList, htext, hne, fun c hc => ?_⟩
  exact of_decide_eq_true (List.all_eq_true.1 hall c hc)

variable {maximum : Nat} {value : Bytes}

theorem truncate_printable (hmax : 4 ≤ maximum) (h : Printable value) :
    Printable (truncate maximum value) ∧ (truncate maximum value).length ≤ maximum := by
  induction value using truncate.induct maximum with
  | case1 value hlong ih =>
    obtain ⟨cs, rfl, hne, hcs⟩ := h
    obtain ⟨c, hc⟩ := last_encode_ne_none hne
    obtain ⟨ds, rfl, hds⟩ := exists_concat_of_last hc
    rw [Mail.truncate, if_pos hlong]
    refine ih ⟨ds, by rw [hc]; exact hds, ?_, fun d hd => hcs d (List.mem_append_left _ hd)⟩
    -- The text was longer than any one character.
    rintro rfl
    have := c.utf8Size_le_four
    simp at hlong
    omega
  | case2 value hshort =>
    rw [Mail.truncate, if_neg hshort]
    exact ⟨h, Nat.le_of_not_lt hshort⟩

theorem safeText_printable {fallback : Bytes} (hfallback : Printable fallback)
    (hmax : 4 ≤ maximum) :
    Printable (safeText value fallback maximum) ∧
      (safeText value fallback maximum).length ≤ maximum := by
  refine truncate_printable hmax ?_
  split
  · exact hfallback
  next hne =>
  obtain ⟨ds, hds, hsub⟩ : ∃ ds, trimSpace (encode ((chars value).filter _)) = encode ds ∧ _ :=
    trim_encode
  refine ⟨ds, hds, ?_, fun c hc => ?_⟩
  · rintro rfl
    exact hne hds
  · simpa using (List.mem_filter.1 (hsub hc)).2

theorem Printable.length_pos {s : Bytes} (h : Printable s) : 1 ≤ s.length := by
  obtain ⟨_ | ⟨c, cs⟩, rfl, hne, -⟩ := h
  · exact absurd rfl hne
  · rw [encode_cons, List.length_append, String.length_utf8EncodeChar]
    have := c.utf8Size_pos
    omega

theorem safeProviderStatus_printable (failure : Option Bytes) :
    Printable (safeProviderStatus failure) ∧ (safeProviderStatus failure).length ≤ 160 := by
  have hfallback : Printable (literal "provider_error") := printable_literal (by decide +kernel)
  cases failure with
  | none => exact ⟨hfallback, by decide +kernel⟩
  | some status => exact safeText_printable hfallback (by decide)

theorem admissible_of_printable {stored : Stored}
    (hstatus : Printable stored.providerStatus ∧ stored.providerStatus.length ≤ 160)
    (hid : ∀ id ∈ stored.providerMessageID, id.length ≤ 255) : stored.admissible := by
  have hpos := hstatus.1.length_pos
  simp only [Stored.admissible, Bool.and_eq_true, decide_eq_true_eq, Option.all_eq_true]
  exact ⟨⟨hpos, hstatus.2⟩, hid⟩

/-- **Provider text fits its columns.** Whatever a provider says, what is kept of
it is a text that can be shown, not empty and not too long; so is what `accept`
and `retryOrFail` store, and the constraints of the tables take it. -/
theorem safeText_fits : (∀ value fallback maximum, Printable fallback → 4 ≤ maximum →
      Printable (safeText value fallback maximum) ∧
        (safeText value fallback maximum).length ≤ maximum) ∧
    (∀ deliveryID response, Printable deliveryID → (accept deliveryID response).admissible) ∧
    ∀ failure, (retryOrFail failure).admissible := by
  refine ⟨fun _ _ _ hfallback hmax => safeText_printable hfallback hmax,
    fun deliveryID response hid => admissible_of_printable ?_ ?_,
    fun failure => admissible_of_printable (safeProviderStatus_printable failure)
      (by simp [retryOrFail])⟩
  · exact safeText_printable (printable_literal (by decide +kernel)) (by decide)
  · rintro _ ⟨⟩
    exact (safeText_printable hid (by decide)).2

/-- A status that is neither UTF-8 nor free of control characters. -/
theorem safeText_fits_sample : Printable (literal "accepted") ∧
      Printable (safeText [0xff, 10, 127, 0x41] (literal "accepted") 160) :=
  have hfallback : Printable (literal "accepted") := printable_literal (by decide +kernel)
  ⟨hfallback, (safeText_fits.1 _ _ 160 hfallback (by decide)).1⟩

end WatchTrace.Proofs.Mail
