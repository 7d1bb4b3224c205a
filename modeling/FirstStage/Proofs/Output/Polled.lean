import FirstStage.Proofs.Output.Lines

/-! # Polled output

A console that has been set up sends every byte behind a status read that shows the transmitter
empty, and all reads before that one have shown it busy. The carriage returns that it adds stand in
front of line feeds only, so the text comes back from the bytes sent, and a text in two parts is
sent like the whole.
-/

namespace FirstStage.Uart

/-- The events of bytes that go out one by one, each behind reads that show the transmitter busy and
a last one that shows it empty. The replies read are listed in their order. -/
inductive Polled (port : UInt16) : (bytes read : List UInt8) → List PortEvent → Prop where
  | done : Polled port [] [] []
  | sent {busy bytes read : List UInt8} {reply b : UInt8} {events : List PortEvent}
      (hBusy : ∀ earlier ∈ busy, earlier &&& transmitterEmpty = 0)
      (hEmpty : reply &&& transmitterEmpty ≠ 0) (hRest : Polled port bytes read events) :
      Polled port (b :: bytes) (busy ++ reply :: read)
        (busy.map (.inp (port + 5)) ++ .inp (port + 5) reply :: .out port b :: events)

theorem Polled.length_eq {port : UInt16} {bytes read : List UInt8} {events : List PortEvent}
    (h : Polled port bytes read events) : events.length = read.length + bytes.length := by
  induction h with
  | done => rfl
  | sent _ _ _ ih =>
      simp only [List.length_append, List.length_map, List.length_cons, ih]
      omega

/-- A poll reads up to the first reply that shows the transmitter empty and leaves the others. -/
theorem exists_poll_eq (uart : Uart) (replies : List UInt8) :
    ∃ busy reply left,
      (∀ earlier ∈ busy, earlier &&& transmitterEmpty = 0) ∧
      reply &&& transmitterEmpty ≠ 0 ∧
      uart.poll replies =
        (busy.map (.inp (uart.port + 5)) ++ [.inp (uart.port + 5) reply], left) ∧
      ∀ count, busy ++ reply :: (left ++ List.replicate count transmitterEmpty) <+:
        replies ++ List.replicate (count + 1) transmitterEmpty := by
  induction replies with
  | nil => exact ⟨[], transmitterEmpty, [], nofun, by decide, rfl, fun count => List.prefix_rfl⟩
  | cons first rest ih =>
      by_cases hFirst : first &&& transmitterEmpty = 0
      · obtain ⟨busy, reply, left, hBusy, hEmpty, hPoll, hRead⟩ := ih
        refine ⟨first :: busy, reply, left, ?_, hEmpty, ?_, fun count => ?_⟩
        · exact List.forall_mem_cons.mpr ⟨hFirst, hBusy⟩
        · rw [poll, if_pos hFirst, hPoll]
          rfl
        · exact List.prefix_cons_inj first |>.mpr (hRead count)
      · refine ⟨[], first, rest, nofun, hFirst, ?_, fun count => ?_⟩
        · rw [poll, if_neg hFirst]
          rfl
        · rw [List.replicate_succ', ← List.append_assoc]
          exact List.prefix_append _ _

theorem exists_polled_send {uart : Uart} (hReady : uart.ready = true)
    (bytes replies : List UInt8) :
    ∃ read, Polled uart.port bytes read (uart.send bytes replies) ∧
      read <+: replies ++ List.replicate bytes.length transmitterEmpty := by
  induction bytes generalizing replies with
  | nil => exact ⟨[], .done, List.nil_prefix⟩
  | cons b rest ih =>
      obtain ⟨busy, reply, left, hBusy, hEmpty, hPoll, hRead⟩ := uart.exists_poll_eq replies
      obtain ⟨read, hPolled, hPrefix⟩ := ih left
      refine ⟨busy ++ reply :: read, ?_, ?_⟩
      · rw [send, if_pos hReady, hPoll]
        simpa using Polled.sent hBusy hEmpty hPolled
      · refine List.IsPrefix.trans ?_ (hRead rest.length)
        rw [List.prefix_append_right_inj, List.prefix_cons_inj]
        exact hPrefix

theorem send_of_not_ready {uart : Uart} (h : ¬ uart.ready = true) (bytes replies : List UInt8) :
    uart.send bytes replies = [] := by
  induction bytes generalizing replies with
  | nil => rfl
  | cons b rest ih => rw [send, if_neg h, ih]

theorem wire_eq_flatMap (bytes : List UInt8) :
    wire bytes = bytes.flatMap fun b => if b = 0x0A then [0x0D, b] else [b] := by
  induction bytes with
  | nil => rfl
  | cons b rest ih =>
      rw [wire, List.flatMap_cons, ih]
      split <;> rfl

/-- Bytes with a line feed in the place of every pair of carriage return and line feed. -/
def unwire : List UInt8 → List UInt8
  | [] => []
  | 0x0D :: 0x0A :: rest => 0x0A :: unwire rest
  | b :: rest => b :: unwire rest

theorem head?_wire_ne (bytes : List UInt8) : (wire bytes).head? ≠ some 0x0A := by
  cases bytes with
  | nil => simp [wire]
  | cons b rest =>
      by_cases hFeed : b = 0x0A <;> simp [wire, hFeed]

/-- A carriage return of the text itself is never followed by a bare line feed. -/
theorem unwire_wire (bytes : List UInt8) : unwire (wire bytes) = bytes := by
  induction bytes with
  | nil => rfl
  | cons b rest ih =>
      rw [wire]
      split
      · rename_i hFeed
        rw [hFeed, unwire, ih]
      · rw [unwire, ih]
        rintro tail rfl hTail
        exact head?_wire_ne rest (congrArg List.head? hTail)

namespace Request

/-- The bytes that a write is to send. -/
def bytes : Request → List UInt8
  | .init => []
  | .byte value _ => [value]
  | .text content _ => (utf8 content).flatMap fun b => if b = 0x0A then [0x0D, b] else [b]

def replies : Request → List UInt8
  | .init => []
  | .byte _ replies => replies
  | .text _ replies => replies

end Request

theorem serve_of_ne_init {request : Request} (h : request ≠ .init) (uart : Uart) :
    uart.serve request = (uart.send request.bytes request.replies, uart) := by
  cases request with
  | init => exact absurd rfl h
  | byte => rfl
  | text content replies => rw [serve, wire_eq_flatMap, Request.bytes, Request.replies]

/-- The console after the requests. -/
def afterAll (uart : Uart) (requests : List Request) : Uart :=
  requests.foldl (fun uart request => (uart.serve request).2) uart

theorem port_serve (uart : Uart) (request : Request) :
    (uart.serve request).2.port = uart.port := by
  cases request <;> rfl

theorem port_afterAll (uart : Uart) (requests : List Request) :
    (uart.afterAll requests).port = uart.port := by
  induction requests generalizing uart with
  | nil => rfl
  | cons request rest ih => exact (ih _).trans (port_serve uart request)

theorem ready_serve_iff (uart : Uart) (request : Request) :
    (uart.serve request).2.ready = true ↔ uart.ready = true ∨ request = .init := by
  cases request <;> simp [serve, init]

theorem ready_afterAll_iff (uart : Uart) (requests : List Request) :
    (uart.afterAll requests).ready = true ↔ uart.ready = true ∨ .init ∈ requests := by
  induction requests generalizing uart with
  | nil => simp [afterAll]
  | cons request rest ih =>
      have hRest := ih (uart.serve request).2
      rw [ready_serve_iff] at hRest
      rw [List.mem_cons, eq_comm (a := Request.init), ← or_assoc]
      exact hRest

theorem serveAll_append (uart : Uart) (earlier later : List Request) :
    uart.serveAll (earlier ++ later) =
      uart.serveAll earlier ++ (uart.afterAll earlier).serveAll later := by
  induction earlier generalizing uart with
  | nil => rfl
  | cons request rest ih => exact congrArg (_ :: ·) (ih (uart.serve request).2)

theorem length_serveAll (uart : Uart) (requests : List Request) :
    (uart.serveAll requests).length = requests.length := by
  induction requests generalizing uart with
  | nil => rfl
  | cons request rest ih => exact congrArg (· + 1) (ih (uart.serve request).2)

theorem getElem?_serveAll (uart : Uart) (earlier : List Request) (request : Request)
    (later : List Request) :
    (uart.serveAll (earlier ++ request :: later))[earlier.length]? =
      some ((uart.afterAll earlier).serve request).1 := by
  rw [serveAll_append, List.getElem?_append_right (Nat.le_of_eq (length_serveAll _ _)),
    length_serveAll, Nat.sub_self, serveAll, List.getElem?_cons_zero]

theorem sent_congr {uart other : Uart} (h : uart.port = other.port) (events : List PortEvent) :
    uart.sent events = other.sent events := by
  unfold sent
  rw [h]

/-- All that leaves at the data port while the requests are served. -/
def sentAll (uart : Uart) (requests : List Request) : List UInt8 :=
  uart.sent (uart.serveAll requests).flatten

theorem sentAll_cons (uart : Uart) (request : Request) (rest : List Request) :
    uart.sentAll (request :: rest) =
      uart.sent (uart.serve request).1 ++ (uart.serve request).2.sentAll rest := by
  rw [sentAll, serveAll, List.flatten_cons, sent_append, sentAll,
    sent_congr (port_serve uart request)]

theorem sentAll_append (uart : Uart) (earlier later : List Request) :
    uart.sentAll (earlier ++ later) =
      uart.sentAll earlier ++ (uart.afterAll earlier).sentAll later := by
  rw [sentAll, serveAll_append, List.flatten_append, sent_append, sentAll, sentAll,
    sent_congr (port_afterAll uart earlier)]

/-- A text may be cut anywhere, between carriage return and line feed too, and the status reads may
differ. -/
theorem sent_serve_text_append (uart : Uart) (first second : String)
    (replies replies' replies'' : List UInt8) :
    uart.sent (uart.serve (.text (first ++ second) replies)).1 =
      uart.sent (uart.serve (.text first replies')).1 ++
        uart.sent (uart.serve (.text second replies'')).1 := by
  by_cases hReady : uart.ready = true
  · simp only [serve, sent_send hReady, utf8_append, wire_append]
  · simp only [serve, send_of_not_ready hReady]
    rfl

/-- The events of a request at a port where the console has been set up before, or has not. -/
structure Served (port : UInt16) (isSetUp : Prop) (request : Request) (events : List PortEvent) :
    Prop where
  silent : ¬ isSetUp → request ≠ .init → events = []
  polled : isSetUp → request ≠ .init → ∃ read, Polled port request.bytes read events ∧
    read <+: request.replies ++ List.replicate request.bytes.length transmitterEmpty
  length_le : isSetUp → request ≠ .init →
    events.length ≤ request.replies.length + 2 * request.bytes.length
  sent_eq : isSetUp → request ≠ .init → sent { port } events = request.bytes
  restored : isSetUp → ∀ text replies, request = .text text replies →
    unwire (sent { port } events) = utf8 text

theorem served_of_serve {uart : Uart} {isSetUp : Prop} (hReady : uart.ready = true ↔ isSetUp)
    (request : Request) : Served uart.port isSetUp request (uart.serve request).1 where
  silent hSetUp hWrite := by
    rw [serve_of_ne_init hWrite]
    exact send_of_not_ready (mt hReady.mp hSetUp) _ _
  polled hSetUp hWrite := by
    rw [serve_of_ne_init hWrite]
    exact exists_polled_send (hReady.mpr hSetUp) _ _
  length_le hSetUp hWrite := by
    obtain ⟨read, hPolled, hPrefix⟩ :=
      exists_polled_send (hReady.mpr hSetUp) request.bytes request.replies
    have hRead := hPrefix.length_le
    rw [List.length_append, List.length_replicate] at hRead
    rw [serve_of_ne_init hWrite, hPolled.length_eq]
    omega
  sent_eq hSetUp hWrite := by
    rw [serve_of_ne_init hWrite]
    exact sent_send (hReady.mpr hSetUp) _ _
  restored hSetUp := by
    rintro text replies rfl
    exact (congrArg unwire (sent_send (hReady.mpr hSetUp) _ _)).trans (unwire_wire _)

/-- Requests come in any order, with any replies to the status reads. Until the console is set up
a write leaves the ports alone; after that it ends, polls before every byte and sends the bytes it
was given, and texts can be read back and be sent in parts. -/
theorem serves_polled {port : UInt16} (hPort : port ≤ 0xFFFA) (earlier : List Request)
    (request : Request) (later : List Request) :
    (port + 5).toNat = port.toNat + 5 ∧
      (∃ events, (serveAll { port } (earlier ++ request :: later))[earlier.length]? =
          some events ∧
        Served port (.init ∈ earlier) request events) ∧
      ∀ first second replies replies' replies'',
        sentAll { port } (earlier ++ .text first replies :: .text second replies' :: later) =
          sentAll { port } (earlier ++ .text (first ++ second) replies'' :: later) := by
  refine ⟨?_, ⟨_, getElem?_serveAll _ earlier request later, ?_⟩, ?_⟩
  · have hNumber := UInt16.le_iff_toNat_le.mp hPort
    rw [UInt16.toNat_add]
    exact Nat.mod_eq_of_lt (Nat.lt_of_le_of_lt (Nat.add_le_add_right hNumber 5) (by decide))
  · have hReady := ready_afterAll_iff { port } earlier
    rw [or_iff_right Bool.false_ne_true] at hReady
    have hServed := served_of_serve hReady request
    rwa [port_afterAll] at hServed
  · intro first second replies replies' replies''
    rw [sentAll_append, sentAll_append, sentAll_cons, sentAll_cons, sentAll_cons,
      sent_serve_text_append _ first second replies'' replies replies', List.append_assoc]
    rfl

/-- A text that holds a line end already, on a transmitter that is busy now and then. -/
theorem serves_polled_of_busy :
    (0x3F8 : UInt16) ≤ 0xFFFA ∧
      ∃ events,
        (serveAll { port := 0x3F8 } [.byte 0x41 [], .init, .text "a\r\n" [0x00, 0x20, 0x1F]])[2]? =
          some events ∧
        (∃ read, Polled 0x3F8 [0x61, 0x0D, 0x0D, 0x0A] read events ∧
          read <+: [0x00, 0x20, 0x1F, 0x20, 0x20, 0x20, 0x20]) ∧
        sent { port := 0x3F8 } events = [0x61, 0x0D, 0x0D, 0x0A] ∧
        unwire [0x61, 0x0D, 0x0D, 0x0A] = [0x61, 0x0D, 0x0A] := by
  have hPort : (0x3F8 : UInt16) ≤ 0xFFFA := by decide
  have hSetUp : Request.init ∈ [Request.byte 0x41 [], .init] := by simp
  obtain ⟨-, ⟨events, hEvents, hServed⟩, -⟩ :=
    serves_polled hPort [.byte 0x41 [], .init] (.text "a\r\n" [0x00, 0x20, 0x1F]) []
  have hSent := hServed.sent_eq hSetUp nofun
  have hText := hServed.restored hSetUp _ _ rfl
  rw [hSent] at hText
  exact ⟨hPort, events, hEvents, hServed.polled hSetUp nofun, hSent, hText⟩

end FirstStage.Uart
