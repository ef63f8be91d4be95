import Switchboard.Proofs.Broker.Runs
import Switchboard.Proofs.Network

/-!
# Payloads that are refused

A payload that comes to a failure makes its sender a known peer and is delivered to nobody. If it answers
a copy and cannot be forwarded, the record of that copy is spent; otherwise nothing else changes
(`handleData_refuses`).
-/

namespace Switchboard

/-- Sends come to no other failure. -/
def Carrier.OnlySendFailures {ω : Type} (c : Carrier ω) : Prop :=
  ∀ w e data f, (c.send w e data).1 = .error f → ∃ reason, f = .sendFailure reason

theorem Carrier.OnlySendFailures.sends {ω : Type} {c : Carrier ω} (h : c.OnlySendFailures) {w w' : ω}
    {sent : List Sending} (hs : c.Sends w sent w') :
    ∀ s ∈ sent, ∀ f, s.result = .error f → ∃ reason, f = .sendFailure reason := by
  induction hs with
  | nil w => intro s hs; cases hs
  | @cons w w' e data sent hs ih =>
    intro s hm f hf
    rcases List.mem_cons.mp hm with rfl | hm
    · exact h w e data f hf
    · exact ih s hm f hf

theorem Connection.sendFailure_of_send {c : Connection} {s : Side} {data : Bytes} {f : Failure}
    (h : (c.send s data).1 = .error f) : ∃ reason, f = .sendFailure reason := by
  cases c with
  | memory l =>
    simp only [send, MemoryLink.send] at h
    split at h
    · exact ⟨_, (Except.error.inj h).symm⟩
    · split at h
      · exact ⟨_, (Except.error.inj h).symm⟩
      · cases h
  | web l =>
    simp only [send, WebLink.send, WebSide.send] at h
    split at h
    · exact ⟨_, (Except.error.inj h).symm⟩
    · split at h
      · exact ⟨_, (Except.error.inj h).symm⟩
      · cases h
  | rehearsed l =>
    simp only [send, RehearsedLink.send] at h
    split at h
    · exact ⟨_, (Except.error.inj h).symm⟩
    · cases h

theorem Network.carrier_onlySendFailures : carrier.OnlySendFailures := by
  intro n e data f h
  unfold carrier at h
  dsimp only at h
  split at h
  · exact ⟨_, (Except.error.inj h).symm⟩
  · exact Connection.sendFailure_of_send h

/-- The failures of an answer that has its record and cannot be forwarded. -/
def Failure.isOfForwarding : Failure → Bool
  | peerNotFound _ | sendFailure _ => true
  | _ => false

theorem Packet.isOfForwarding_decode {data : Bytes} {f : Failure} (h : decode data = .error f) :
    f.isOfForwarding = false := by
  unfold decode at h
  split at h
  · cases h
  · rw [← Except.error.inj h]; rfl

theorem Catalogue.isOfForwarding_resolve {commands : Catalogue} {data : Bytes} {f : Failure}
    (h : commands.resolve data = .error f) : f.isOfForwarding = false := by
  unfold resolve at h
  split at h
  · next f' hf =>
    rw [← Except.error.inj h]
    unfold Command.ofBytes at hf
    split at hf
    · rw [← Except.error.inj hf]; rfl
    · dsimp only at hf
      split at hf
      · rw [← Except.error.inj hf]; rfl
      · cases hf
  · split at h
    · rw [← Except.error.inj h]; rfl
    · cases h

namespace Broker

theorem isOfForwarding_allow {b : Broker} {data : Bytes} {f : Failure} (h : b.allow data = .error f) :
    f.isOfForwarding = false := by
  unfold allow at h
  split at h
  · cases h
  · cases hr : b.commands.resolve data with
    | ok invocation => rw [hr] at h; cases h
    | error f' =>
      rw [hr] at h
      obtain rfl := Except.error.inj h
      exact Catalogue.isOfForwarding_resolve hr

/-- What is left of a broker after a payload that came to the failure `f`. -/
structure Refuses (b : Broker) (e : Endpoint) (data : Bytes) (f : Failure) (sent : List Sending) (b' : Broker) :
    Prop where
  undelivered : ∀ s ∈ sent, s.result = .error f
  queue : b'.queue = b.queue
  consumers : b'.consumers = b.consumers
  subscriptions : b'.subscriptions = b.subscriptions
  settings : b'.commands = b.commands ∧ b'.mode = b.mode ∧ b'.maxAttempts = b.maxAttempts
  woken : b'.woken = b.woken
  peers : b'.peers = if b.peers.contains e.address then b.peers else b.peers.insert e.address e
  -- an answer that could not be forwarded has taken its record
  taken : f.isOfForwarding = true → ∃ p o, Packet.decode data = .ok p ∧
    b.answers.get? ⟨e.address, p.id⟩ = some o ∧ b'.answers = ⟨b.answers.records.erase ⟨e.address, p.id⟩⟩
  kept : f.isOfForwarding = false → b'.answers = b.answers

theorem meet_peers (b : Broker) (e : Endpoint) : (b.meet e).peers =
    if b.peers.contains e.address then b.peers else b.peers.insert e.address e := by
  unfold meet
  split <;> rfl

section
variable {b b' : Broker} {e : Endpoint} {id : UInt32} {data : Bytes} {sent : List Sending} {f : Failure}

theorem refuses_meet (b : Broker) (e : Endpoint) (data : Bytes) (hf : f.isOfForwarding = false) :
    b.Refuses e data f [] (b.meet e) := by
  constructor
  case undelivered => intro s hs; cases hs
  case peers => exact meet_peers b e
  case taken => intro h; rw [hf] at h; cases h
  all_goals simp

theorem refuses_answer {p : Packet} {o : Origin} (hp : Packet.decode data = .ok p)
    (ho : b.answers.get? ⟨e.address, p.id⟩ = some o) (hf : f.isOfForwarding = true)
    (hs : ∀ s ∈ sent, s.result = .error f) :
    b.Refuses e data f sent { b.meet e with answers := ⟨b.answers.records.erase ⟨e.address, p.id⟩⟩ } := by
  constructor
  case undelivered => exact hs
  case peers => exact meet_peers b e
  case taken => exact fun _ => ⟨p, o, hp, ho, rfl⟩
  case kept => intro h; rw [hf] at h; cases h
  all_goals simp

theorem Reads.refuses (hr : Reads b e id data sent (.error f) b')
    (hs : ∀ s ∈ sent, ∀ f, s.result = .error f → ∃ reason, f = .sendFailure reason) :
    b.Refuses e data f sent b' := by
  generalize hres : (Except.error f : Except Failure Inbound) = res at hr
  cases hr with
  | duplicate hh hc =>
    obtain rfl := Except.error.inj hres
    exact refuses_meet b e data rfl
  | malformed hh hc hp =>
    split at hres
    · cases hres
    · obtain rfl := Except.error.inj hres
      exact refuses_meet b e data (Packet.isOfForwarding_decode hp)
  | unreachable hh hc hp ho hn =>
    obtain rfl := Except.error.inj hres
    exact refuses_answer hp ho rfl fun s hs => (by cases hs)
  | forwarded hh hc hp ho hn r =>
    cases r with
    | ok n => cases hres
    | error f' =>
      obtain rfl := Except.error.inj hres
      -- the send was tried after the record had been taken
      obtain ⟨reason, rfl⟩ := hs _ (List.mem_singleton_self _) f rfl
      apply refuses_answer hp ho rfl
      intro s hs
      rw [List.mem_singleton.mp hs]
  | unmatched hh hc hp ho hk =>
    obtain rfl := Except.error.inj hres
    exact refuses_meet b e data rfl
  | rejected hh hc ha =>
    obtain rfl := Except.error.inj hres
    exact refuses_meet b e data (isOfForwarding_allow ha)
  | registered | controlled | enqueued => cases hres

end

/-- **Refused payloads.** Whatever handling a payload fails with, nothing is delivered, and the broker is as
it was but for its sender, who is a known peer, and for the record of an answer that was not forwarded. -/
theorem handleData_refuses {ω : Type} {c : Carrier ω} (hc : c.OnlySendFailures) (b : Broker) (e : Endpoint)
    (id : UInt32) (data : Bytes) (w : ω) {f : Failure} (h : (handleData c b e id data w).1 = .error f) :
    b.Refuses e data f (b.turn c w (.data e id data)).sent (handleData c b e id data w).2.1 := by
  obtain ⟨sent, r, b', w', hs, hd, hrec, hr⟩ := handleData_reads c b e id data w
  have hsent : (b.turn c w (.data e id data)).sent = sent := by simp [turn, hrec]
  rw [hd] at h
  obtain rfl : r = .error f := h
  rw [hsent, hd]
  exact hr.refuses (hc.sends hs)

/-- The producer's link closes before its answer comes. -/
theorem handleData_refuses_closed_link : ∃ (turns : List Turn) (b : Broker) (w : Network) (e : Endpoint)
    (data : Bytes) (f : Failure), Run (fresh .direct) turns b ∧ Network.carrier.OnlySendFailures ∧
    (handleData Network.carrier b e 0 data w).1 = .error f ∧ f = .sendFailure "link to asker closed" ∧
    b.Refuses e data f (b.turn Network.carrier w (.data e 0 data)).sent
      (handleData Network.carrier b e 0 data w).2.1 ∧
    b.answers.size = 1 ∧ (handleData Network.carrier b e 0 data w).2.1.answers.size = 0 := by
  let c : Carrier Unit := ⟨fun w _ _ => (.ok 7, w)⟩
  let worker : Endpoint := ⟨"worker", 0, .far⟩
  let asker : Endpoint := ⟨"asker", 1, .far⟩
  let closed : Network :=
    ⟨[.memory (.connect "worker" "broker"), .memory (MemoryLink.connect "asker" "broker").close]⟩
  have h0 : Run (fresh .direct) [] (fresh .direct) := .start
  have h1 := (h0.next c () (.data worker 1 hello)).next c () (.data asker 3 [42])
  obtain ⟨turns, b, h, hf, hs⟩ : ∃ turns b, Run (fresh .direct) turns b ∧
      (handleData Network.carrier b worker 0 (Packet.encode ⟨7, [1]⟩) closed).1 =
        .error (.sendFailure "link to asker closed") ∧
      b.answers.size = 1 ∧
      (handleData Network.carrier b worker 0 (Packet.encode ⟨7, [1]⟩) closed).2.1.answers.size = 0 :=
    ⟨_, _, h1.next c () .pass, by decide +kernel, by decide +kernel, by decide +kernel⟩
  have hc := Network.carrier_onlySendFailures
  exact ⟨turns, b, closed, worker, _, _, h, hc, hf, rfl, handleData_refuses hc b worker 0 _ closed hf, hs⟩

end Broker

end Switchboard
