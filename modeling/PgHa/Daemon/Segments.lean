import PgHa.Daemon.Replies

/-!
# Messages in several chunks

`_handle_peer_conn` and `_step_signal_peer` receive once and decode what that
has brought, while a stream may deliver a message in any number of chunks.
`segmentation_iff` says when this makes no difference: when the first chunk
holds the whole object.  A shorter one is taken for a bad payload, and for a bad
answer.
-/

namespace PgHa.PgHaDaemon

open Effect SwitchoverEngine JsonText

/-! ## White space at the ends of a text -/

section Strip

variable {α : Type} {p : α → Bool} {list first tail : List α}

/-- The list without the elements at its ends that satisfy `p`. -/
def trim (p : α → Bool) (list : List α) : List α :=
  ((list.dropWhile p).reverse.dropWhile p).reverse

theorem mem_dropWhile_of_not {x : α} (hmem : x ∈ list) (hx : p x = false) :
    x ∈ list.dropWhile p := by
  rw [← List.takeWhile_append_dropWhile (p := p) (l := list), List.mem_append] at hmem
  rcases hmem with htake | hdrop
  · have hp : p x = true := List.mem_takeWhile_imp htake
    rw [hp] at hx
    cases hx
  · exact hdrop

theorem mem_trim_of_not {x : α} (hmem : x ∈ list) (hx : p x = false) : x ∈ trim p list := by
  rw [trim, List.mem_reverse]
  exact mem_dropWhile_of_not (List.mem_reverse.mpr (mem_dropWhile_of_not hmem hx)) hx

theorem trim_append_of_all (htail : ∀ x ∈ tail, p x = true) :
    trim p (first ++ tail) = trim p first := by
  have hrev : ∀ x ∈ tail.reverse, p x = true := fun x hx => htail x (List.mem_reverse.mp hx)
  unfold trim
  rw [List.dropWhile_append]
  split
  · rename_i hempty
    have hfirst : first.dropWhile p = [] := by simpa using hempty
    rw [hfirst, List.dropWhile_eq_nil_iff.mpr htail]
  · rw [List.reverse_append, List.dropWhile_append_of_pos hrev]

/-- What is not white space in the tail is cut off from the text. -/
theorem trim_append_of_not (hnot : ∃ x ∈ tail, p x = false) :
    ∃ more, trim p (first ++ tail) = trim p first ++ more ∧ ∃ x ∈ more, p x = false := by
  obtain ⟨x, hmem, hx⟩ := hnot
  by_cases hfirst : first.dropWhile p = []
  · refine ⟨trim p (first ++ tail), ?_, x, mem_trim_of_not (List.mem_append_right _ hmem) hx, hx⟩
    have hnone : trim p first = [] := by
      rw [trim, hfirst]
      rfl
    rw [hnone, List.nil_append]
  · have hrev : tail.reverse.dropWhile p ≠ [] := by
      intro hnil
      have hp : p x = true := List.dropWhile_eq_nil_iff.mp hnil x (List.mem_reverse.mpr hmem)
      rw [hp] at hx
      cases hx
    have hwhole : trim p (first ++ tail) =
        first.dropWhile p ++ (tail.reverse.dropWhile p).reverse := by
      rw [trim, List.dropWhile_append, if_neg (by simpa using hfirst), List.reverse_append,
        List.dropWhile_append, if_neg (by simpa using hrev), List.reverse_append,
          List.reverse_reverse]
    have hsplit : first.dropWhile p =
        trim p first ++ ((first.dropWhile p).reverse.takeWhile p).reverse := by
      rw [trim, ← List.reverse_append, List.takeWhile_append_dropWhile, List.reverse_reverse]
    refine ⟨((first.dropWhile p).reverse.takeWhile p).reverse ++ (tail.reverse.dropWhile p).reverse,
      ?_, x, List.mem_append_right _ ?_, hx⟩
    · rw [hwhole, ← List.append_assoc, ← hsplit]
    · exact List.mem_reverse.mpr (mem_dropWhile_of_not (List.mem_reverse.mpr hmem) hx)

end Strip

/-! ## What a handler makes of its bytes -/

/-- The first chunk leaves nothing but white space to the others. -/
def HoldsObject (first rest : List UInt8) : Prop :=
  ∃ head tail, Utf8.encode head = first ∧ Utf8.encode tail = rest ∧ ∀ c ∈ tail, isSpace c = true

theorem toList_strip (text : List Char) :
    (strip (String.ofList text)).toList = trim isSpace text := by
  simp [strip, trim]

theorem isSpace_of_isWs {c : Char} (h : isWs c = true) : isSpace c = true := by
  simp only [isWs, Bool.or_eq_true, beq_iff_eq] at h
  rcases h with ((rfl | rfl) | rfl) | rfl <;> decide

theorem decodeCommand_trim (d : Decoding) (text : List Char) :
    decodeCommand d (Utf8.encode text) = loads d (trim isSpace text) := by
  rw [decodeCommand_encode, toList_strip]

theorem decodeCommand_of_holds {d : Decoding} {first rest : List UInt8}
    (h : HoldsObject first rest) :
    decodeCommand d first = decodeCommand d (first ++ rest) := by
  obtain ⟨head, tail, rfl, rfl, hblank⟩ := h
  rw [← Utf8.encode_append, decodeCommand_trim, decodeCommand_trim, trim_append_of_all hblank]

/-- A chunk that does not hold the object is refused. -/
theorem decodeCommand_of_not_holds {d : Decoding} {first rest : List UInt8}
    {fields : List (String × Json)} (hwhole : decodeCommand d (first ++ rest) = .ok (.obj fields))
    (hnot : ¬ HoldsObject first rest) :
    ∃ exc, decodeCommand d first = .error exc ∧ exc.cls = .valueError := by
  unfold decodeCommand at hwhole ⊢
  cases hdecode : Utf8.decode first with
  | none => exact ⟨_, rfl, rfl⟩
  | some text =>
      cases hmessage : Utf8.decode (first ++ rest) with
      | none =>
          rw [hmessage] at hwhole
          cases hwhole
      | some message =>
          rw [hmessage] at hwhole
          dsimp only at hwhole ⊢
          rw [toList_strip] at hwhole ⊢
          obtain ⟨tail, rfl, hrest⟩ :=
            Utf8.prefix_of_decode hdecode (Utf8.encode_of_decode hmessage)
          have hspace : ∃ c ∈ tail, isSpace c = false := by
            by_contra hall
            refine hnot ⟨text, tail, Utf8.encode_of_decode hdecode, hrest, fun c hc => ?_⟩
            by_contra hc'
            exact hall ⟨c, hc, by simpa using hc'⟩
          -- so the stripped text is cut off before a character that is not white space
          obtain ⟨more, hmore, c, hc, hc'⟩ :
              ∃ more, trim isSpace (text ++ tail) = trim isSpace text ++ more ∧
                ∃ c ∈ more, isSpace c = false := trim_append_of_not hspace
          rw [hmore] at hwhole
          rcases loads_of_cut hwhole with hrefused | hblank
          · exact hrefused
          · rw [isSpace_of_isWs (hblank c hc)] at hc'
            cases hc'

/-! ## The two receivers -/

/-- The handler of the peer port, from the chunk that is there for `recv(4096)`. -/
def Handled (cfg : Config) (d : Decoding) (chunk : List UInt8)
    (trace : List (Event Call.Ret Exc)) (outcome : Outcome Exc Unit) : Prop :=
  (handlePeerConn cfg).Trace
    (⟨.host .recvCommand, decodeCommand d (chunk.take 4096)⟩ :: trace) outcome

theorem handled_iff {cfg : Config} {d : Decoding} {chunk : List UInt8}
    {trace : List (Event Call.Ret Exc)} {outcome : Outcome Exc Unit} :
    Handled cfg d chunk trace outcome ↔
      (respond cfg (decodeCommand d (chunk.take 4096))).Trace trace outcome := by
  rw [Handled, handlePeerConn_eq]
  constructor
  · intro h
    cases h with
    | call hrest => exact hrest
  · exact fun h => .call h

/-- An object is not passed over in silence. -/
theorem not_silent {cfg : Config} {fields : List (String × Json)} :
    ¬ (respond cfg (.ok (.obj fields))).Trace [] (.returned ()) := by
  intro h
  rcases respond_obj (.ok (.obj fields)) fields with ⟨-, hserves⟩ | ⟨-, exc, hraise⟩
  · cases hprogram : respond cfg (.ok (.obj fields)) with
    | pure value =>
        rw [hprogram] at hserves
        have htally : (⟨false, 0⟩ : Tally) = ⟨false, 1⟩ := hserves
        cases htally
    | raise exc =>
        rw [hprogram] at h
        cases h
    | stuck =>
        rw [hprogram] at h
        cases h
    | call op next =>
        rw [hprogram] at h
        cases h
  · rw [hraise] at h
    cases h

/-- A bad payload is. -/
theorem silent_of_refused {cfg : Config} {received : Except Exc Json}
    (h : ∃ exc, received = .error exc ∧ exc.cls = .valueError) :
    (respond cfg received).Trace [] (.returned ()) := by
  obtain ⟨exc, rfl, hexc⟩ := h
  unfold respond
  dsimp only
  rw [if_pos (.inl hexc)]
  exact .pure ()

/-- A first chunk is handled like the whole command exactly if it holds the object. -/
theorem handled_same_iff {cfg : Config} {d : Decoding} {first rest : List UInt8}
    {fields : List (String × Json)} (hlength : (first ++ rest).length ≤ 4096)
    (hwhole : decodeCommand d (first ++ rest) = .ok (.obj fields)) :
    (∀ trace outcome, Handled cfg d first trace outcome ↔
      Handled cfg d (first ++ rest) trace outcome) ↔ HoldsObject first rest := by
  have htake : first.take 4096 = first := by
    apply List.take_of_length_le
    rw [List.length_append] at hlength
    omega
  have htake' : (first ++ rest).take 4096 = first ++ rest := List.take_of_length_le hlength
  simp only [handled_iff, htake, htake', hwhole]
  constructor
  · intro hsame
    by_contra hnot
    have hsilent : (respond cfg (decodeCommand d first)).Trace [] (.returned ()) :=
      silent_of_refused (decodeCommand_of_not_holds hwhole hnot)
    exact not_silent ((hsame [] (.returned ())).mp hsilent)
  · intro hholds trace outcome
    rw [decodeCommand_of_holds hholds, hwhole]

/-- `json.loads(resp_raw.decode())` of `_step_signal_peer`. -/
def decodeReply (d : Decoding) (data : List UInt8) : Except Exc Json :=
  match Utf8.decode data with
  | some text => loads d text
  | none => .error ⟨.valueError, "'utf-8' codec can't decode data"⟩

/-- The peer is there, and its answer is what has been received. -/
def signalling (received : Except Exc PeerReply) (event : Event Call.Ret Exc) : Prop :=
  match event with
  | ⟨.host .recvReply, answer⟩ => answer = received
  | ⟨_, answer⟩ => ∃ value, answer = .ok value

/-- `json.dumps({"cmd": "SWITCHOVER_ACCEPT"}) + "\n"` -/
def acceptText : List Char := "\x7b\"cmd\": \"SWITCHOVER_ACCEPT\"\x7d\n".toList

def acceptReply : Json := .obj [("cmd", .str "SWITCHOVER_ACCEPT")]

/-- The object of the line, character by character. -/
theorem acceptText_eq : acceptText =
    ['{', '"', 'c', 'm', 'd', '"', ':', ' ', '"', 'S', 'W', 'I', 'T', 'C', 'H', 'O',
      'V', 'E', 'R', '_', 'A', 'C', 'C', 'E', 'P', 'T', '"', '}', '\n'] := by
  unfold acceptText
  simp

theorem length_encode_acceptText : (Utf8.encode acceptText).length ≤ 256 := by
  have hbytes := Utf8.length_encode_le acceptText
  have hchars : acceptText.length = 29 := by
    rw [acceptText_eq]
    rfl
  omega

theorem loads_acceptText (d : Decoding) : loads d acceptText = .ok acceptReply := by
  rw [acceptText_eq]
  obtain ⟨limit, parseFloat⟩ := d
  cases limit <;> rfl

theorem loads_acceptText_dropLast (d : Decoding) :
    loads d acceptText.dropLast = .ok acceptReply := by
  rw [acceptText_eq]
  obtain ⟨limit, parseFloat⟩ := d
  cases limit <;> rfl

/-- White space at the end of the line is its newline. -/
theorem loads_of_blank {d : Decoding} {head tail : List Char} (hline : head ++ tail = acceptText)
    (hblank : ∀ c ∈ tail, isSpace c = true) : loads d head = .ok acceptReply := by
  have hbrace : isSpace '}' = false := by decide
  have hlast : acceptText = acceptText.dropLast ++ ['\n'] := by simp [acceptText_eq]
  have hbody : acceptText.dropLast = acceptText.dropLast.dropLast ++ ['}'] := by
    simp [acceptText_eq]
  rcases List.eq_nil_or_concat tail with rfl | ⟨tail, last, rfl⟩
  · rw [List.append_nil] at hline
    rw [hline]
    exact loads_acceptText d
  · rw [hlast, List.concat_eq_append, ← List.append_assoc] at hline
    obtain ⟨hline, -⟩ := List.append_inj' hline rfl
    rcases List.eq_nil_or_concat tail with rfl | ⟨tail, last', rfl⟩
    · rw [List.append_nil] at hline
      rw [hline]
      exact loads_acceptText_dropLast d
    · -- the brace is not white space
      rw [hbody, List.concat_eq_append, ← List.append_assoc] at hline
      obtain ⟨-, hlast'⟩ := List.append_inj' hline rfl
      obtain rfl : last' = '}' := (List.cons.inj hlast').1
      have hspace := hblank '}' (by simp)
      rw [hbrace] at hspace
      cases hspace

/-- The answer is read from the first chunk exactly if that holds the object. -/
theorem decodeReply_cases {d : Decoding} {first rest : List UInt8}
    (hline : first ++ rest = Utf8.encode acceptText) :
    (HoldsObject first rest ∧ decodeReply d first = .ok acceptReply) ∨
    (¬ HoldsObject first rest ∧ ∃ exc, decodeReply d first = .error exc) := by
  by_cases hholds : HoldsObject first rest
  · -- two texts with the same bytes are the same
    obtain ⟨head, tail, rfl, rfl, hblank⟩ := hholds
    have htext : head ++ tail = acceptText := by
      rw [← Utf8.encode_append] at hline
      exact Utf8.encode_injective hline
    refine .inl ⟨⟨head, tail, rfl, rfl, hblank⟩, ?_⟩
    rw [decodeReply, Utf8.decode_encode]
    exact loads_of_blank htext hblank
  · refine .inr ⟨hholds, ?_⟩
    unfold decodeReply
    cases hdecode : Utf8.decode first with
    | none => exact ⟨_, rfl⟩
    | some head =>
        -- the chunk is the beginning of the line, and the decoder says which part it lacks
        obtain ⟨tail, htext, hrest⟩ := Utf8.prefix_of_decode hdecode hline.symm
        have hwhole : loads d (head ++ tail) = .ok acceptReply := by
          rw [← htext]
          exact loads_acceptText d
        rcases loads_of_cut hwhole with ⟨exc, hrefused, -⟩ | hblank
        · exact ⟨exc, hrefused⟩
        · exact absurd ⟨head, tail, Utf8.encode_of_decode hdecode, hrest,
            fun c hc => isSpace_of_isWs (hblank c hc)⟩ hholds

/-- `_step_signal_peer`, once the answer has been received. -/
theorem stepSignalPeer_trace {cfg : Config} {received : Except Exc PeerReply}
    {trace : List (Event Call.Ret Exc)} {outcome : Outcome Exc Unit}
    (htrace : (stepSignalPeer cfg).Trace trace outcome)
    (hevents : ∀ event ∈ trace, signalling received event) :
    ∃ rest, Prog.Trace (do
      let resp ← Prog.ofExcept received
      let cmd ← Prog.ofExcept (jsonGet resp.value "cmd")
      if isText cmd cmdSwitchoverAccept then pure ()
      else .raise (.runtimeError s!"Unexpected peer response: {resp.text}") :
        Mgr Unit) rest outcome := by
  cases htrace with
  | @call _ _ answer rest _ hrest =>
      obtain ⟨value, hanswer⟩ : ∃ value, answer = .ok value := hevents _ List.mem_cons_self
      rw [hanswer] at hrest
      cases hrest with
      | @call _ _ answer' rest' _ hrest' =>
          obtain ⟨value', hanswer'⟩ : ∃ value, answer' = .ok value :=
            hevents _ (List.mem_cons_of_mem _ List.mem_cons_self)
          rw [hanswer'] at hrest'
          cases hrest' with
          | @call _ _ answer'' rest'' _ hrest'' =>
              have hreceived : answer'' = received := hevents ⟨.host .recvReply, answer''⟩ (by simp)
              rw [hreceived] at hrest''
              exact ⟨rest'', hrest''⟩

/-- **Messages in several chunks.**  A command is handled as if it had arrived in one chunk,
and the line `SWITCHOVER_ACCEPT` is accepted, exactly if the first chunk holds the object. -/
theorem segmentation_iff (cfg : Config) (d : Decoding) (printed : Json → String) :
    (∀ fields first others, (∀ chunk ∈ first :: others, chunk ≠ []) →
      (first :: others).flatten.length ≤ 4096 →
      decodeCommand d (first :: others).flatten = .ok (.obj fields) →
      ((∀ trace outcome, Handled cfg d first trace outcome ↔
          Handled cfg d (first :: others).flatten trace outcome) ↔
        HoldsObject first others.flatten)) ∧
    ∀ first others, (∀ chunk ∈ first :: others, chunk ≠ []) →
      (first :: others).flatten = Utf8.encode acceptText →
      ∀ trace outcome, (stepSignalPeer cfg).Trace trace outcome →
      (∀ event ∈ trace, signalling
        ((decodeReply d (first.take 256)).map fun value => ⟨value, printed value⟩) event) →
      (outcome = .returned () ↔ HoldsObject first others.flatten) := by
  constructor
  · intro fields first others _ hlength hwhole
    rw [List.flatten_cons] at hlength hwhole ⊢
    exact handled_same_iff hlength hwhole
  · intro first others _ hline trace outcome htrace hevents
    rw [List.flatten_cons] at hline
    -- the acceptance line is shorter than the buffer
    have htake : first.take 256 = first := by
      apply List.take_of_length_le
      have hlength := congrArg List.length hline
      rw [List.length_append] at hlength
      have haccept := length_encode_acceptText
      omega
    rw [htake] at hevents
    obtain ⟨rest, hrest⟩ := stepSignalPeer_trace htrace hevents
    rcases decodeReply_cases (d := d) hline with ⟨hholds, hreply⟩ | ⟨hnot, exc, hreply⟩
    · rw [hreply] at hrest
      cases hrest
      exact iff_of_true rfl hholds
    · rw [hreply] at hrest
      cases hrest
      exact iff_of_false (by simp) hnot

/-! ## A sample command -/

def requestText : List Char := "\x7b\"cmd\": \"SWITCHOVER_REQUEST\"\x7d\n".toList

theorem requestText_eq : requestText =
    ['{', '"', 'c', 'm', 'd', '"', ':', ' ', '"', 'S', 'W', 'I', 'T', 'C', 'H', 'O',
      'V', 'E', 'R', '_', 'R', 'E', 'Q', 'U', 'E', 'S', 'T', '"', '}', '\n'] := by
  unfold requestText
  simp

def sampleRequest : List (String × Json) := [("cmd", .str "SWITCHOVER_REQUEST")]

theorem decodeCommand_requestText :
    decodeCommand sampleDecoding (Utf8.encode requestText) = .ok (.obj sampleRequest) := by
  have htrim : trim isSpace requestText =
      ['{', '"', 'c', 'm', 'd', '"', ':', ' ', '"', 'S', 'W', 'I', 'T', 'C', 'H',
        'O', 'V', 'E', 'R', '_', 'R', 'E', 'Q', 'U', 'E', 'S', 'T', '"', '}'] := by
    rw [requestText_eq]
    rfl
  rw [decodeCommand_trim, htrim]
  rfl

/-- The object and its newline, and the object in two pieces. -/
def lineChunks : List UInt8 × List UInt8 :=
  (Utf8.encode requestText.dropLast, Utf8.encode ['\n'])

def pieces : List UInt8 × List UInt8 :=
  (Utf8.encode (requestText.take 9), Utf8.encode (requestText.drop 9))

theorem flatten_lineChunks : [lineChunks.1, lineChunks.2].flatten = Utf8.encode requestText := by
  have hline : requestText.dropLast ++ ['\n'] = requestText := by simp [requestText_eq]
  rw [List.flatten_cons, List.flatten_singleton, lineChunks, ← Utf8.encode_append, hline]

theorem flatten_pieces : [pieces.1, pieces.2].flatten = Utf8.encode requestText := by
  rw [List.flatten_cons, List.flatten_singleton, pieces, ← Utf8.encode_append,
    List.take_append_drop]

theorem length_encode_requestText : (Utf8.encode requestText).length ≤ 4096 := by
  have hbytes := Utf8.length_encode_le requestText
  have hchars : requestText.length = 30 := by
    rw [requestText_eq]
    rfl
  omega

theorem holdsObject_lineChunks : HoldsObject lineChunks.1 [lineChunks.2].flatten :=
  ⟨requestText.dropLast, ['\n'], rfl, List.flatten_singleton,
    List.forall_mem_singleton.mpr (by decide)⟩

theorem not_holdsObject_pieces : ¬ HoldsObject pieces.1 [pieces.2].flatten := by
  rintro ⟨head, tail, -, htail, hblank⟩
  rw [List.flatten_singleton, pieces] at htail
  obtain rfl := Utf8.encode_injective htail
  have hspace := hblank 'S' (by simp [requestText_eq])
  revert hspace
  decide

/-- The peer accepts. -/
def accepting : (op : Call) → Unit → Except Exc op.Ret × Unit
  | .host .recvReply, _ => (.ok ⟨acceptReply, ""⟩, ())
  | .host (.createConnection ..), _ | .host (.sendRequest _), _ => (.ok (), ())
  | _, _ => (.error ⟨.other, ""⟩, ())

def sampleSignal : Run Call.Ret Exc Unit Unit := (stepSignalPeer .samplePrimary).run accepting ()

theorem segmentation_iff_sample :
    (∀ trace outcome, Handled .sampleStandby sampleDecoding lineChunks.1 trace outcome ↔
      Handled .sampleStandby sampleDecoding [lineChunks.1, lineChunks.2].flatten trace outcome) ∧
    sampleSignal.outcome = .returned () := by
  have hwhole : decodeCommand sampleDecoding [lineChunks.1, lineChunks.2].flatten =
      .ok (.obj sampleRequest) := by
    rw [flatten_lineChunks]
    exact decodeCommand_requestText
  have hnonempty : ∀ chunk ∈ [lineChunks.1, lineChunks.2], chunk ≠ [] := by
    have hobject : lineChunks.1 ≠ [] := Utf8.encode_ne_nil (by simp [requestText_eq])
    have hnewline : lineChunks.2 ≠ [] := Utf8.encode_ne_nil (by simp)
    simp [hobject, hnewline]
  have haccept : Utf8.encode acceptText ≠ [] := Utf8.encode_ne_nil (by simp [acceptText_eq])
  have hreply : decodeReply sampleDecoding ((Utf8.encode acceptText).take 256) =
      .ok acceptReply := by
    rw [List.take_of_length_le length_encode_acceptText, decodeReply, Utf8.decode_encode]
    exact loads_acceptText sampleDecoding
  have hevents : ∀ event ∈ sampleSignal.log, signalling
      ((decodeReply sampleDecoding ((Utf8.encode acceptText).take 256)).map fun value =>
        ⟨value, ""⟩) event := by
    rw [hreply]
    intro event hmem
    -- the peer answers with the line
    have hlog : sampleSignal.log = [⟨.host (.createConnection "10.0.0.3" 7778 30000), .ok ()⟩,
        ⟨.host (.sendRequest ⟨"SWITCHOVER_REQUEST", none⟩), .ok ()⟩,
        ⟨.host .recvReply, .ok ⟨acceptReply, ""⟩⟩] := rfl
    rw [hlog] at hmem
    simp only [List.mem_cons, List.not_mem_nil, or_false] at hmem
    rcases hmem with rfl | rfl | rfl
    · exact ⟨(), rfl⟩
    · exact ⟨(), rfl⟩
    · rfl
  have hiff := segmentation_iff .sampleStandby sampleDecoding fun _ => ""
  refine ⟨(hiff.1 sampleRequest lineChunks.1 [lineChunks.2] hnonempty
    (flatten_lineChunks ▸ length_encode_requestText) hwhole).mpr holdsObject_lineChunks, ?_⟩
  have hsignal := segmentation_iff .samplePrimary sampleDecoding fun _ => ""
  refine (hsignal.2 (Utf8.encode acceptText) [] (by simp [haccept]) (by simp) _ _
    (trace_run _ _ _) hevents).mpr ⟨acceptText, [], rfl, rfl, by simp⟩

/-- A command in two pieces is taken for a bad payload. -/
theorem not_segmentation : ¬ ∀ (cfg : Config) (d : Decoding) fields first others,
    (∀ chunk ∈ first :: others, chunk ≠ []) → (first :: others).flatten.length ≤ 4096 →
    decodeCommand d (first :: others).flatten = .ok (.obj fields) →
    ∀ trace outcome, Handled cfg d first trace outcome ↔
      Handled cfg d (first :: others).flatten trace outcome := by
  intro h
  have hwhole : decodeCommand sampleDecoding [pieces.1, pieces.2].flatten =
      .ok (.obj sampleRequest) := by
    rw [flatten_pieces]
    exact decodeCommand_requestText
  have hnonempty : ∀ chunk ∈ [pieces.1, pieces.2], chunk ≠ [] := by
    have hfirst : pieces.1 ≠ [] := Utf8.encode_ne_nil (by simp [requestText_eq])
    have hsecond : pieces.2 ≠ [] := Utf8.encode_ne_nil (by simp [requestText_eq])
    simp [hfirst, hsecond]
  have hlength : [pieces.1, pieces.2].flatten.length ≤ 4096 :=
    flatten_pieces ▸ length_encode_requestText
  have hsame := h .sampleStandby sampleDecoding sampleRequest pieces.1 [pieces.2] hnonempty hlength
    hwhole
  exact not_holdsObject_pieces ((handled_same_iff hlength hwhole).mp hsame)

end PgHa.PgHaDaemon
