import PgHa.Effect.Wp
import PgHa.Model.Interface
import PgHa.Text.JsonPrint
import PgHa.Text.Utf8

/-!
# `pgha-ctl`: a command and its response

`_send` of `pgha-ctl` writes one command to the management socket and reads
until a chunk holds a newline or the stream ends.  `json.dumps` and `json.loads`
are parameters.

The loop keeps what it has read in one buffer and looks for the newline in the
last chunk only.  `send_whole` says that this is enough: however the stream is
cut, the chunks that are read are those up to the newline (`reads`), and the
response of the daemon comes out whole.
-/

namespace PgHa.PgHaCtl

open Effect

/-- What `_send` raises, or is raised to it. -/
inductive Failure
  /-- `socket.timeout` -/
  | timeout
  | connectionRefused
  | valueError (message : String)
  /-- `sys.exit(code)` -/
  | systemExit (code : ℕ)
  | other
  deriving DecidableEq

inductive CtlCall
  | pathExists (path : String)
  /-- `socket.socket(AF_UNIX, SOCK_STREAM)` and `settimeout`. -/
  | openSocket (timeout : ℕ)
  | connect (path : String)
  | sendall (data : List UInt8)
  | recv (bufsize : ℕ)
  | close
  /-- `print(text, file=sys.stderr)` -/
  | printErr (text : String)
  deriving DecidableEq

abbrev CtlCall.Ret : CtlCall → Type
  | .pathExists _ => Bool
  | .recv _ => List UInt8
  | _ => Unit

/-- Programs of `pgha-ctl`. -/
abbrev Ctl := Prog CtlCall.Ret Failure

abbrev Ctl.call (op : CtlCall) : Ctl op.Ret := .perform op

/-- The module `json`. -/
structure JsonModule where
  loads : String → Except Failure Json
  dumps : Json → String

def newline : UInt8 := 10

/-- `json.dumps(value).encode() + b"\n"`, by which either side ends what it sends. -/
def jsonLine (json : JsonModule) (value : Json) : List UInt8 :=
  Utf8.encode (json.dumps value).toList ++ [newline]

/-! ## `_send` -/

/-- The loop over `recv`. -/
def receive (data : List UInt8) : ℕ → Ctl (List UInt8)
  | 0 => .stuck
  | fuel + 1 => do
      let chunk ← Ctl.call (.recv 4096)
      if chunk = [] then
        pure data
      else if newline ∈ chunk then
        pure (data ++ chunk)
      else
        receive (data ++ chunk) fuel

/-- Print an error and exit. -/
def complain {α : Type} (text : String) : Ctl α := do
  Ctl.call (.printErr text)
  .raise (.systemExit 1)

/-- The `try` of `_send`. -/
def exchange (json : JsonModule) (bound : ℕ) (sockPath : String) (payload : Json) :
    Ctl (List UInt8) :=
  (do
      Ctl.call (.connect sockPath)
      Ctl.call (.sendall (jsonLine json payload))
      receive [] bound : Ctl (List UInt8)).except fun
    | .timeout => complain "ERROR: timed out waiting for daemon response"
    | .connectionRefused => complain "ERROR: daemon not available"
    | exc => .raise exc

/-- `json.loads(data.decode().strip())` -/
def parse (json : JsonModule) (data : List UInt8) : Except Failure Json :=
  match Utf8.decode data with
  | some text => json.loads (strip (String.ofList text))
  | none => .error (.valueError "invalid UTF-8")

def send (json : JsonModule) (bound : ℕ) (sockPath : String) (payload : Json) : Ctl Json := do
  if ← Ctl.call (.pathExists sockPath) then
    Ctl.call (.openSocket 10)
    let data ← (exchange json bound sockPath payload).ensuring (Ctl.call .close)
    .ofExcept (parse json data)
  else
    complain s!"ERROR: pgha socket not found at {sockPath}. Is the daemon running?"

/-! ## The stream -/

/-- The chunks that the stream will deliver, and those that have been read; at the
end of the stream an empty one is read. -/
structure Stream where
  pending : List (List UInt8)
  read : List (List UInt8)

/-- The daemon is there, and nothing but the chunks comes from it. -/
def delivers (s : Stream) (event : Event CtlCall.Ret Failure) (s' : Stream) : Prop :=
  match event with
  | ⟨.pathExists _, answer⟩ => answer = .ok true ∧ s' = s
  | ⟨.recv _, answer⟩ =>
      answer = .ok (s.pending.headD []) ∧
        s' = ⟨s.pending.tail, s.read ++ [s.pending.headD []]⟩
  | ⟨_, answer⟩ => (∃ value, answer = .ok value) ∧ s' = s

/-- A message as it arrives: in chunks that are neither empty nor longer than the buffer. -/
structure Delivery (message : List UInt8) (chunks : List (List UInt8)) : Prop where
  nonempty : ∀ chunk ∈ chunks, chunk ≠ []
  short : ∀ chunk ∈ chunks, chunk.length ≤ 4096
  whole : chunks.flatten = message

/-- The chunks up to the first one with a newline, or all of them and then the end
of the stream. -/
def reads : List (List UInt8) → List (List UInt8)
  | [] => [[]]
  | chunk :: rest => if newline ∈ chunk then [chunk] else chunk :: reads rest

/-- What the loop leaves behind. -/
structure Received (before after : Stream) : Prop where
  read : after.read = before.read ++ reads before.pending
  pending : after.pending = before.pending.drop (reads before.pending).length

/-- The loop reads as far as it should and keeps all of it, by induction on the chunks
that are left. -/
theorem receive_wp {chunks : List (List UInt8)} (hnonempty : ∀ chunk ∈ chunks, chunk ≠ [])
    (data : List UInt8) {fuel : ℕ} (hfuel : chunks.length < fuel) {s : Stream}
    (hs : s.pending = chunks) :
    (receive data fuel).wp (demonic delivers)
      (fun outcome s' => outcome = .returned (data ++ (reads chunks).flatten) ∧
        Received s s') s := by
  induction chunks generalizing data fuel s with
  | nil =>
      -- the empty chunk at the end of the stream ends the loop
      obtain ⟨fuel, rfl⟩ : ∃ left, fuel = left + 1 := ⟨fuel - 1, by simp at hfuel; omega⟩
      unfold receive
      rw [Prog.bind_eq, Prog.wp_bind, Prog.wp_perform]
      rintro answer s' ⟨rfl, rfl⟩
      rw [hs, Prog.answered_ok, Prog.andThen_returned]
      exact ⟨by simp [reads], by simp [hs, reads], by simp [hs]⟩
  | cons chunk rest ih =>
      obtain ⟨fuel, rfl⟩ : ∃ left, fuel = left + 1 := ⟨fuel - 1, by simp at hfuel; omega⟩
      have hleft : rest.length < fuel := by simpa using hfuel
      unfold receive
      rw [Prog.bind_eq, Prog.wp_bind, Prog.wp_perform]
      rintro answer s' ⟨rfl, rfl⟩
      rw [hs, Prog.answered_ok, Prog.andThen_returned, List.headD_cons,
        if_neg (hnonempty chunk List.mem_cons_self), Prog.wp_ite]
      split
      · rename_i hline
        exact ⟨by simp [reads, hline], by simp [hs, reads, hline], by simp [hs, reads, hline]⟩
      · rename_i hline
        have hrest := ih (fun chunk hmem => hnonempty chunk (List.mem_cons_of_mem _ hmem))
          (data ++ chunk) hleft (s := ⟨rest, s.read ++ [chunk]⟩) rfl
        apply Prog.wp_mono (demonic_monotone _) _ hrest
        rintro outcome s'' ⟨rfl, hread, hpending⟩
        exact ⟨by simp [reads, hline], by simp [hread, hs, reads, hline],
          by simp [hpending, hs, reads, hline]⟩

/-- What `_send` makes of the bytes it has received. -/
def result (json : JsonModule) (data : List UInt8) : Outcome Failure Json :=
  match parse json data with
  | .ok value => .returned value
  | .error exc => .raised exc

/-- Between two operations that the daemon does not see. -/
theorem perform_wp {op : CtlCall} {s : Stream} {post : Outcome Failure op.Ret → Stream → Prop}
    (hop : ∀ answer s', delivers s ⟨op, answer⟩ s' → (∃ value, answer = .ok value) ∧ s' = s)
    (hpost : ∀ value, post (.returned value) s) :
    (Ctl.call op).wp (demonic delivers) post s := by
  rw [Prog.wp_perform]
  intro answer s' hstep
  obtain ⟨⟨value, rfl⟩, rfl⟩ := hop answer s' hstep
  exact hpost value

theorem exchange_wp (json : JsonModule) (sockPath : String) (payload : Json)
    {bound : ℕ} {s : Stream}
    (hnonempty : ∀ chunk ∈ s.pending, chunk ≠ []) (hbound : s.pending.length < bound) :
    (exchange json bound sockPath payload).wp (demonic delivers)
      (fun outcome s' => outcome = .returned (reads s.pending).flatten ∧ Received s s') s := by
  unfold exchange
  rw [Prog.wp_except, Prog.bind_eq, Prog.wp_bind]
  refine perform_wp (fun _ _ h => h) fun _ => ?_
  rw [Prog.andThen_returned, Prog.bind_eq, Prog.wp_bind]
  refine perform_wp (fun _ _ h => h) fun _ => ?_
  rw [Prog.andThen_returned]
  apply Prog.wp_mono (demonic_monotone _) _ (receive_wp hnonempty [] hbound rfl)
  rintro outcome s' ⟨rfl, hreceived⟩
  exact ⟨rfl, hreceived⟩

theorem send_wp (json : JsonModule) (sockPath : String) (payload : Json) {bound : ℕ} {s : Stream}
    (hnonempty : ∀ chunk ∈ s.pending, chunk ≠ []) (hbound : s.pending.length < bound) :
    (send json bound sockPath payload).wp (demonic delivers)
      (fun outcome s' => outcome = result json (reads s.pending).flatten ∧ Received s s') s := by
  unfold send
  rw [Prog.bind_eq, Prog.wp_bind, Prog.wp_perform]
  rintro answer s₁ ⟨rfl, rfl⟩
  rw [Prog.answered_ok, Prog.andThen_returned, if_pos rfl, Prog.bind_eq, Prog.wp_bind]
  refine perform_wp (fun _ _ h => h) fun _ => ?_
  rw [Prog.andThen_returned, Prog.bind_eq, Prog.wp_bind, Prog.wp_ensuring]
  apply Prog.wp_mono (demonic_monotone _) _ (exchange_wp json sockPath payload hnonempty hbound)
  rintro outcome s₂ ⟨rfl, hreceived⟩
  rw [Prog.captured_returned, Prog.andThen_returned, Prog.wp_bind]
  refine perform_wp (fun _ _ h => h) fun _ => ?_
  rw [Prog.andThen_returned, Prog.wp_ofExcept, Prog.answered_ok, Prog.andThen_returned,
    Prog.wp_ofExcept]
  refine ⟨?_, hreceived⟩
  unfold result
  cases parse json (reads s₁.pending).flatten <;> rfl

/-! ## A response as a whole -/

/-- What is known of the encoding of a response. -/
structure Encodes (json : JsonModule) (d : List (String × Json)) : Prop where
  inverse : json.loads (json.dumps (.obj d)) = .ok (.obj d)
  newline : newline ∉ Utf8.encode (json.dumps (.obj d)).toList
  braces : ∃ body, (json.dumps (.obj d)).toList = '{' :: (body ++ ['}'])

/-- A text between braces, with a newline after it, is stripped of the newline only. -/
theorem strip_line {text : String} {body : List Char} (h : text.toList = '{' :: (body ++ ['}'])) :
    strip (String.ofList (text.toList ++ ['\n'])) = text := by
  have hopen : isSpace '{' = false := by decide
  have hclose : isSpace '}' = false := by decide
  have hline : isSpace '\n' = true := by decide
  have htext : text = String.ofList ('{' :: (body ++ ['}'])) := by
    rw [← h, String.ofList_toList]
  rw [htext, strip]
  simp [List.dropWhile, hopen, hclose, hline]

/-- One line is read as a whole: the chunk with the newline is the last one. -/
theorem reads_of_line {chunks : List (List UInt8)} {body : List UInt8} (hbody : newline ∉ body)
    (hnonempty : ∀ chunk ∈ chunks, chunk ≠ []) (hwhole : chunks.flatten = body ++ [newline]) :
    reads chunks = chunks := by
  induction chunks generalizing body with
  | nil => simp at hwhole
  | cons chunk rest ih =>
      rw [List.flatten_cons] at hwhole
      unfold reads
      split
      · rename_i hline
        -- nothing comes after the newline
        have hrest : rest = [] := by
          by_contra hmore
          obtain ⟨next, rest, rfl⟩ := List.exists_cons_of_ne_nil hmore
          have hnext : next ≠ [] := hnonempty next (by simp)
          have hflat : (next :: rest).flatten ≠ [] := by simp [hnext]
          have hbefore : chunk <+: body := by
            have hlast := congrArg List.dropLast hwhole
            rw [List.dropLast_append_of_ne_nil hflat, List.dropLast_concat] at hlast
            exact ⟨_, hlast⟩
          exact hbody (hbefore.subset hline)
        rw [hrest]
      · -- the newline is in a later chunk, or the text would end in this one
        rename_i hline
        obtain ⟨body', hbody', hrest⟩ :
            ∃ body', newline ∉ body' ∧ rest.flatten = body' ++ [newline] := by
          rcases List.append_eq_append_iff.mp hwhole with
            ⟨left, rfl, hrest⟩ | ⟨extra, rfl, hrest⟩
          · exact ⟨left, fun hmem => hbody (List.mem_append_right _ hmem), hrest⟩
          · cases extra with
            | nil => exact ⟨[], List.not_mem_nil, hrest.symm⟩
            | cons byte extra =>
                obtain rfl : newline = byte := (List.cons.inj hrest).1
                exact absurd (by simp) hline
        rw [ih hbody' (fun chunk hmem => hnonempty chunk (List.mem_cons_of_mem _ hmem)) hrest]

theorem parse_line {json : JsonModule} {d : List (String × Json)} (h : Encodes json d) :
    parse json (jsonLine json (.obj d)) = .ok (.obj d) := by
  obtain ⟨body, hbody⟩ := h.braces
  have hbytes : jsonLine json (.obj d) =
      Utf8.encode ((json.dumps (.obj d)).toList ++ ['\n']) := by
    rw [Utf8.encode_append]
    rfl
  rw [parse, hbytes, Utf8.decode_encode]
  dsimp only
  rw [strip_line hbody]
  exact h.inverse

/-- **The response comes out whole.**  However the stream is cut, the chunks up to the
newline or to its end are read, once each; and when they are one response of the daemon,
`_send` returns it. -/
theorem send_whole (json : JsonModule) (sockPath : String) (payload : Json) (bound : ℕ) :
    (∀ chunks, (∀ chunk ∈ chunks, chunk ≠ []) → chunks.length < bound → ∀ trace outcome s',
      (send json bound sockPath payload).Trace trace outcome →
      History delivers ⟨chunks, []⟩ trace s' →
      s'.read = reads chunks ∧ s'.pending = chunks.drop (reads chunks).length) ∧
    ∀ d chunks, Encodes json d → Delivery (jsonLine json (.obj d)) chunks →
      chunks.length < bound → ∀ trace outcome s',
      (send json bound sockPath payload).Trace trace outcome →
      History delivers ⟨chunks, []⟩ trace s' →
      outcome = .returned (.obj d) ∧ s'.read = chunks ∧ s'.pending = [] := by
  constructor
  · intro chunks hnonempty hbound trace outcome s' htrace hhistory
    obtain ⟨-, hread, hpending⟩ :=
      Prog.trace_wp (send_wp json sockPath payload hnonempty hbound) htrace hhistory
    exact ⟨hread, hpending⟩
  · intro d chunks hencodes hdelivery hbound trace outcome s' htrace hhistory
    obtain ⟨hend, hread, hpending⟩ :=
      Prog.trace_wp (send_wp json sockPath payload hdelivery.nonempty hbound) htrace hhistory
    have hreads : reads chunks = chunks :=
      reads_of_line hencodes.newline hdelivery.nonempty hdelivery.whole
    dsimp only at hend hread hpending
    rw [hreads] at hend hread hpending
    refine ⟨?_, hread, by simpa using hpending⟩
    rw [hend, hdelivery.whole, result, parse_line hencodes]

/-! ## A sample response -/

/-- The response to `switchover`, and its encoding. -/
def sampleResponse : List (String × Json) := [("result", .str "switchover initiated")]

def sampleText : String := "\x7b\"result\": \"switchover initiated\"\x7d"

/-- The encoder and the decoder of the standard library, where no number is a floating-point
number. -/
def sampleCoding : JsonText.Coding where
  limit := 998
  parseFloat _ := .nan
  reprFloat _ := []

def sampleJson : JsonModule where
  loads text := (JsonText.loads sampleCoding.toDecoding text.toList).mapError fun exc =>
    .valueError exc.message
  dumps value := String.ofList (sampleCoding.dumps value)

theorem loads_dumps_sampleJson {json : Json} (h : JsonText.Coding.Fits sampleCoding 999 json) :
    sampleJson.loads (sampleJson.dumps json) = .ok json := by
  simp [sampleJson, JsonText.Coding.loads_dumps h, Except.mapError]

theorem dumps_sampleJson : sampleJson.dumps (.obj sampleResponse) = sampleText := by
  decide +kernel

/-- The newline comes in a chunk of its own. -/
def sampleChunks : List (List UInt8) :=
  [(Utf8.encode sampleText.toList).take 11, (Utf8.encode sampleText.toList).drop 11, [newline]]

def deliver : (op : CtlCall) → Stream → Except Failure op.Ret × Stream
  | .pathExists _, s => (.ok true, s)
  | .recv _, s => (.ok (s.pending.headD []), ⟨s.pending.tail, s.read ++ [s.pending.headD []]⟩)
  | .openSocket _, s | .connect _, s | .sendall _, s | .close, s | .printErr _, s => (.ok (), s)

theorem delivers_deliver (s : Stream) (op : CtlCall) :
    delivers s ⟨op, (deliver op s).1⟩ (deliver op s).2 := by
  cases op <;> exact ⟨by first | rfl | exact ⟨_, rfl⟩, rfl⟩

def sampleSend : Run CtlCall.Ret Failure Json Stream :=
  (send sampleJson 4 "/var/run/pgha/pgha.sock" (.obj [("cmd", .str "switchover")])).run deliver
    ⟨sampleChunks, []⟩

theorem send_whole_sample : sampleSend.outcome = .returned (.obj sampleResponse) ∧
    sampleSend.final.read = sampleChunks ∧ sampleSend.final.pending = [] := by
  have hfits : JsonText.Coding.Fits sampleCoding 999 (.obj sampleResponse) :=
    .obj (by decide) (by simpa [sampleResponse] using .str _)
  have hencodes : Encodes sampleJson sampleResponse :=
    ⟨loads_dumps_sampleJson hfits, by rw [dumps_sampleJson]; decide +kernel,
      sampleText.toList.tail.dropLast, by rw [dumps_sampleJson]; decide +kernel⟩
  have hdelivery : Delivery (jsonLine sampleJson (.obj sampleResponse)) sampleChunks := by
    rw [jsonLine, dumps_sampleJson]
    exact ⟨by decide +kernel, by decide +kernel, by decide +kernel⟩
  exact (send_whole sampleJson _ _ 4).2 sampleResponse sampleChunks hencodes hdelivery (by decide)
    _ _ _ (trace_run _ _ _) (history_run delivers_deliver _ _)

end PgHa.PgHaCtl
