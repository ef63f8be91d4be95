import Switchboard.Proofs.Broker.Answers
import Switchboard.Proofs.Command

/-!
# Telling a consumer's datagrams apart

The hello token, answer packets and control texts of a registered consumer share one space of
datagrams, and every one of at least four octets reads as a packet. The token comes first, then the
records, then the control texts (`readConsumer_of_record`, `readConsumer_of_control`). So an answer is
taken as one unless its packet spells the token, and a control text unless its first four octets spell
the id of a copy that is outstanding.
-/

namespace Switchboard.Broker

section
variable {ω : Type} {b : Broker} {data : Bytes} {p : Packet}

theorem Sound.handleData_of_consumer (h : b.Sound) {e : Endpoint} (hc : b.consumers.contains e.address = true)
    (hh : data ≠ hello) (c : Carrier ω) (id : UInt32) (w : ω) :
    handleData c b e id data w = readConsumer c b e.address data w := by
  unfold handleData
  rw [h.meet_eq hc]
  simp only [hh, hc, ite_true, ite_false]

theorem readConsumer_of_record (c : Carrier ω) {a : Address} (w : ω) {o : Origin}
    (hp : Packet.decode data = .ok p) (hg : b.answers.get? ⟨a, p.id⟩ = some o) :
    readConsumer c b a data w = ((forward c b o p.payload w).1,
      { b with answers := ⟨b.answers.records.erase ⟨a, p.id⟩⟩ }, (forward c b o p.payload w).2) := by
  unfold readConsumer
  simp only [hp, Correlations.take, hg]

theorem readConsumer_of_control (c : Carrier ω) {a : Address} (w : ω) {control : Control}
    (hm : b.mode = .command) (hp : Packet.decode data = .ok p) (hg : b.answers.get? ⟨a, p.id⟩ = none)
    (hk : Control.ofBytes? data = some control) :
    readConsumer c b a data w =
      (.ok (b.applyControl a control).1, (b.applyControl a control).2, w) := by
  unfold readConsumer
  simp only [hp, Correlations.take, hg, hm, hk]

/-- An answer goes to the producer of the request, or its forwarding fails. -/
theorem forward_cases (c : Carrier ω) (b : Broker) (o : Origin) (payload : Bytes) (w : ω) :
    (b.peers.get? o.producer = none ∧ forward c b o payload w = (.error (.peerNotFound o.producer), w)) ∨
    ∃ peer, b.peers.get? o.producer = some peer ∧
      forward c b o payload w =
        ((c.send w peer (Packet.encode ⟨o.id, payload⟩)).1.map fun _ => .forwarded o.producer o.id,
          (c.send w peer (Packet.encode ⟨o.id, payload⟩)).2) := by
  unfold forward findPeer
  cases hn : b.peers.get? o.producer with
  | none => exact .inl ⟨rfl, rfl⟩
  | some peer =>
    refine .inr ⟨peer, rfl, ?_⟩
    dsimp only
    cases c.send w peer (Packet.encode ⟨o.id, payload⟩) with
    | mk r w' => cases r <;> rfl

theorem Sound.handleData_toBytes (h : b.Sound) (hm : b.mode = .command) {e : Endpoint}
    (hc : b.consumers.contains e.address = true) (c : Carrier ω) (id : UInt32) (w : ω) {control : Control}
    (ht : control.target ≠ "") (hs : Command.separator ∉ control.target.toList)
    (hg : b.answers.get? ⟨e.address, control.wordId⟩ = none) :
    handleData c b e id control.toBytes w =
      (.ok (b.applyControl e.address control).1, (b.applyControl e.address control).2, w) := by
  obtain ⟨payload, hp⟩ := control.decode_toBytes
  rw [h.handleData_of_consumer hc control.toBytes_ne_hello]
  exact readConsumer_of_control c w hm hp hg (Control.ofBytes?_toBytes ht hs)

end

/-- **Telling datagrams apart.** For every copy that is outstanding, the packet of an answer takes its
record and goes to its producer, unless that packet is the hello token; and a control text is applied,
with nothing sent, unless a copy is outstanding under the id that its first four octets spell. -/
theorem Run.tells_datagrams_apart {commands : Catalogue} {maxAttempts : UInt32} {turns : List Turn} {b : Broker}
    (h : Run (fresh .command commands maxAttempts) turns b) {e : Endpoint}
    (hc : b.consumers.contains e.address = true) {ω : Type} (c : Carrier ω) (w : ω) (id : UInt32) :
    (∀ n a o, b.answers.get? ⟨e.address, n⟩ = some o → Packet.encode ⟨n, a⟩ ≠ hello →
      ∃ r w', handleData c b e id (Packet.encode ⟨n, a⟩) w =
          (r, { b with answers := ⟨b.answers.records.erase ⟨e.address, n⟩⟩ }, w') ∧
        ((b.peers.get? o.producer = none ∧ r = .error (.peerNotFound o.producer) ∧ w' = w) ∨
          ∃ peer, b.peers.get? o.producer = some peer ∧
            r = (c.send w peer (Packet.encode ⟨o.id, a⟩)).1.map (fun _ => .forwarded o.producer o.id) ∧
            w' = (c.send w peer (Packet.encode ⟨o.id, a⟩)).2)) ∧
    ∀ x : String, x ≠ "" → Command.separator ∉ x.toList →
      (b.answers.get? ⟨e.address, 0x73627573⟩ = none →
        handleData c b e id (Control.subscribe x).toBytes w = (.ok (.subscribed x),
          { b with subscriptions := (b.subscriptions.subscribe e.address x).2 }.wake, w)) ∧
      (b.answers.get? ⟨e.address, 0x75736E75⟩ = none →
        handleData c b e id (Control.unsubscribe x).toBytes w = (.ok (.unsubscribed x),
          { b with subscriptions := (b.subscriptions.unsubscribe e.address x).2 }, w)) := by
  have hs := h.sound (sound_fresh .command commands maxAttempts)
  refine ⟨fun n a o hg hh => ?_, fun x hx hsep => ⟨fun hg => ?_, fun hg => ?_⟩⟩
  · rw [hs.handleData_of_consumer hc hh, readConsumer_of_record c w (Packet.decode_encode ⟨n, a⟩) hg]
    refine ⟨_, _, rfl, ?_⟩
    rcases forward_cases c b o a w with ⟨hn, hf⟩ | ⟨peer, hn, hf⟩
    · rw [hf]
      exact .inl ⟨hn, rfl, rfl⟩
    · rw [hf]
      exact .inr ⟨peer, hn, rfl, rfl⟩
  · exact hs.handleData_toBytes h.mode hc c id w hx hsep hg
  · exact hs.handleData_toBytes h.mode hc c id w hx hsep hg

/-- An answer to a copy, and a text that ends the subscription it came from. -/
theorem tells_datagrams_apart_chat : ∃ (turns : List Turn) (b : Broker) (c : Carrier Unit) (e : Endpoint),
    Run (fresh .command (.ofNames ["chat"])) turns b ∧ b.consumers.contains e.address = true ∧
    b.answers.get? ⟨e.address, 7⟩ = some ⟨"asker", 3⟩ ∧
    (handleData c b e 0 (Packet.encode ⟨7, [1]⟩) ()).1 = .ok (.forwarded "asker" 3) ∧
    (handleData c b e 0 (Control.unsubscribe "chat").toBytes ()).1 = .ok (.unsubscribed "chat") := by
  let c : Carrier Unit := ⟨fun w _ _ => (.ok 7, w)⟩
  let worker : Endpoint := ⟨"worker", 0, .far⟩
  let asker : Endpoint := ⟨"asker", 1, .far⟩
  have h0 : Run (fresh .command (.ofNames ["chat"])) [] (fresh .command (.ofNames ["chat"])) := .start
  have h1 := (h0.next c () (.data worker 1 hello)).next c () (.data worker 2 (Control.subscribe "chat").toBytes)
  have h := (h1.next c () (.data asker 3 (toBytes "chat"))).next c () .pass
  obtain ⟨answer, text⟩ := h.tells_datagrams_apart (e := worker) (by decide +kernel) c () 0
  refine ⟨_, _, c, worker, h, by decide +kernel, by decide +kernel, ?_, ?_⟩
  · obtain ⟨r, w', hr, hf⟩ := answer 7 [1] ⟨"asker", 3⟩ (by decide +kernel) (by decide +kernel)
    rw [hr]
    rcases hf with ⟨hn, -, -⟩ | ⟨peer, -, hs, -⟩
    · exact absurd hn (by decide +kernel)
    · exact hs
  · rw [(text "chat" (by decide) (by decide)).2 (by decide +kernel)]

/-- Under an id that spells the start of the token, or of a text, the two are taken for each other. -/
theorem datagrams_collide :
    (∃ (turns : List Turn) (b : Broker) (c : Carrier Unit) (e : Endpoint),
      Run (fresh .command (.ofNames ["chat"])) turns b ∧ b.consumers.contains e.address = true ∧
      b.answers.get? ⟨e.address, 0x736E6F43⟩ = some ⟨"asker", 3⟩ ∧
      (handleData c b e 0 (Packet.encode ⟨0x736E6F43, toBytes "umer"⟩) ()).1 =
        .error .consumerAlreadyExists ∧
      (handleData c b e 0 (Packet.encode ⟨0x736E6F43, toBytes "umer"⟩) ()).2.1 = b) ∧
    (∃ (turns : List Turn) (b : Broker) (c : Carrier Unit) (e : Endpoint),
      Run (fresh .command (.ofNames ["chat"])) turns b ∧ b.consumers.contains e.address = true ∧
      (handleData c b e 0 (Control.subscribe "chat").toBytes ()).1 = .ok (.forwarded "asker" 3)) ∧
    ∃ (turns : List Turn) (b : Broker) (c : Carrier Unit) (e : Endpoint),
      Run (fresh .command (.ofNames ["chat"])) turns b ∧ b.consumers.contains e.address = true ∧
      (handleData c b e 0 (Control.unsubscribe "chat").toBytes ()).1 = .ok (.forwarded "asker" 3) := by
  let c (n : UInt32) : Carrier Unit := ⟨fun w _ _ => (.ok n, w)⟩
  let worker : Endpoint := ⟨"worker", 0, .far⟩
  let asker : Endpoint := ⟨"asker", 1, .far⟩
  have h0 : Run (fresh .command (.ofNames ["chat"])) [] (fresh .command (.ofNames ["chat"])) := .start
  -- one copy for the worker, under the id `n`
  have h (n : UInt32) := (((h0.next (c n) () (.data worker 1 hello)).next (c n) ()
    (.data worker 2 (Control.subscribe "chat").toBytes)).next (c n) ()
    (.data asker 3 (toBytes "chat"))).next (c n) () .pass
  refine ⟨⟨_, _, c 0, worker, h 0x736E6F43, ?_, ?_, ?_, ?_⟩, ⟨_, _, c 0, worker, h 0x73627573, ?_, ?_⟩,
    _, _, c 0, worker, h 0x75736E75, ?_, ?_⟩ <;> decide +kernel

end Switchboard.Broker
