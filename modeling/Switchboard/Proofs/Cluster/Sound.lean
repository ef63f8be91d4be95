import Switchboard.Proofs.Broker.Sources
import Switchboard.Proofs.Cluster.Chronicle
import Switchboard.Proofs.Cluster.Wiring

/-!
# What every chronicle keeps

The record accounts for the cluster: its links carry what was sent and taken, the broker has run through
its turns, and every datagram, table entry and pending request goes back to something that happened.
-/

namespace Switchboard

namespace Cluster

/-- What the handler was given. -/
def Handled.datagram (h : Handled) : Datagram := ⟨h.node, .far, h.id, h.payload⟩

/-- What the answer came in. -/
def Called.datagram (c : Called) : Datagram :=
  ⟨c.node, .far, c.under, Packet.encode ⟨c.id, c.answer⟩⟩

/-- The request that the callback was for. -/
def Called.question (c : Called) : Datagram := ⟨c.node, .near, c.id, c.request.payload⟩

namespace Chronicle

/-- Node `i` may have sent `data`. -/
def Posted (s : Chronicle) (i : Nat) (data : Bytes) : Prop :=
  ∃ a p, s.cluster.identities[i]? = some (a, p) ∧ (p = true → data ≠ hello) ∧
    (p = false → data = hello ∨ (∃ m : Control, data = m.toBytes) ∨
      ∃ h ∈ s.handled, h.node = i ∧ ∃ answer, h.answer = some answer ∧ answer ≠ [] ∧
        data = Packet.encode ⟨h.id, answer⟩)

structure Sound (start : Broker) (s : Chronicle) : Prop where
  wired : s.cluster.Wired
  carries : s.cluster.network.Carries s.sent s.taken
  run : Broker.Run start s.turns s.cluster.broker
  met : ∀ t ∈ s.turns, ∀ e, t.endpoint? = some e → s.cluster.Far e
  read : ∀ t ∈ s.turns, ∀ e id data r, t.outcome = .read e id data r →
    ⟨e.connection, .near, id, data⟩ ∈ s.taken
  far : s.sent.filter (·.side = .far) = (s.turns.flatMap (·.sent)).filterMap (·.datagram?)
  near : ∀ d ∈ s.sent, d.side = .near → s.Posted d.connection d.data
  handled : (s.handled.map (·.datagram)).Sublist s.taken
  called : (s.called.map (·.datagram)).Sublist s.taken
  asked : ∀ c ∈ s.called, c.question ∈ s.sent ∧ ∃ a, s.cluster.identities[c.node]? = some (a, true)
  pending : ∀ (i : Nat) (n : Node) (task : Producer.Task Unit), s.cluster.nodes[i]? = some n →
    n.role = .producer task → ∀ k r, task.producer.tracker.pending.get? k = some r →
      ⟨i, .near, k, r.payload⟩ ∈ s.sent

theorem sound_start (b : Broker) : (start b).Sound b where
  wired := wired_ofBroker b
  carries := Network.carries_empty
  run := .start
  met := fun t ht => by cases ht
  read := fun t ht => by cases ht
  far := rfl
  near := fun d hd => by cases hd
  handled := List.Sublist.refl _
  called := List.Sublist.refl _
  asked := fun c hc => by cases hc
  pending := fun i n task hi => by cases hi

section
variable {start : Broker} {s s' : Chronicle}

theorem identities_of_prefix (hi : s.cluster.identities.IsPrefix s'.cluster.identities) {i : Nat}
    {x : Address × Bool} (h : s.cluster.identities[i]? = some x) : s'.cluster.identities[i]? = some x := by
  obtain ⟨xs, hx⟩ := hi
  rw [← hx, List.getElem?_append_left (List.getElem?_eq_some_iff.mp h).1]
  exact h

theorem Posted.mono {i : Nat} {data : Bytes} (h : s.Posted i data)
    (hi : s.cluster.identities.IsPrefix s'.cluster.identities) (hh : ∀ x ∈ s.handled, x ∈ s'.handled) :
    s'.Posted i data := by
  obtain ⟨a, p, hp, ht, hf⟩ := h
  refine ⟨a, p, identities_of_prefix hi hp, ht, fun hpf => ?_⟩
  rcases hf hpf with hd | hd | ⟨x, hx, hd⟩
  · exact .inl hd
  · exact .inr (.inl hd)
  · exact .inr (.inr ⟨x, hh x hx, hd⟩)

/-- The broker stands still while nodes join and act. -/
theorem Sound.advance (h : Sound start s) (hb : s'.cluster.broker = s.cluster.broker) (ht : s'.turns = s.turns)
    (hi : s.cluster.identities.IsPrefix s'.cluster.identities) (hw : s'.cluster.Wired)
    (hc : s'.cluster.network.Carries s'.sent s'.taken) (ds : List Datagram) (hs : s'.sent = s.sent ++ ds)
    (hd : ∀ d ∈ ds, d.side = .near ∧ s'.Posted d.connection d.data) (htk : s.taken.Sublist s'.taken)
    (hh : ∀ x ∈ s.handled, x ∈ s'.handled) (hhd : (s'.handled.map (·.datagram)).Sublist s'.taken)
    (hcd : (s'.called.map (·.datagram)).Sublist s'.taken)
    (ha : ∀ c ∈ s'.called, c ∈ s.called ∨
      c.question ∈ s'.sent ∧ ∃ a, s'.cluster.identities[c.node]? = some (a, true))
    (hp : ∀ (i : Nat) (n : Node) (task : Producer.Task Unit), s'.cluster.nodes[i]? = some n →
      n.role = .producer task → ∀ k r, task.producer.tracker.pending.get? k = some r →
        ⟨i, .near, k, r.payload⟩ ∈ s'.sent) : Sound start s' where
  wired := hw
  carries := hc
  run := by rw [ht, hb]; exact h.run
  met := by
    rw [ht]
    exact fun t hm e he => (h.met t hm e he).mono hi
  read := by
    rw [ht]
    exact fun t hm e id data r ho => htk.subset (h.read t hm e id data r ho)
  far := by
    rw [ht, hs, List.filter_append, h.far]
    rw [List.filter_eq_nil_iff.mpr fun d hm => by simp [(hd d hm).1], List.append_nil]
  near := by
    intro d hm hn
    rw [hs] at hm
    rcases List.mem_append.mp hm with hm | hm
    · exact (h.near d hm hn).mono hi hh
    · exact (hd d hm).2
  handled := hhd
  called := hcd
  asked := by
    intro c hm
    rcases ha c hm with hm | hm
    · obtain ⟨hq, a, hn⟩ := h.asked c hm
      exact ⟨by rw [hs]; exact List.mem_append_left _ hq, a, identities_of_prefix hi hn⟩
    · exact hm
  pending := hp

/-! ## The broker's turns -/

section
variable {mode : DispatchMode} {commands : Catalogue} {maxAttempts : UInt32}

/-- The broker sends over its own side of the connections of nodes. -/
theorem far_of_sent {c : Cluster} {past : List Broker.Turn} {t : Broker.Turn}
    (hr : Broker.Run (.fresh mode commands maxAttempts) past t.before) (ht : t.Occurs)
    (hm : ∀ t' ∈ past ++ [t], ∀ e, t'.endpoint? = some e → c.Far e) {x : Sending} (hx : x ∈ t.sent) :
    c.Far x.endpoint := by
  have hs := hr.sound (Broker.sound_fresh mode commands maxAttempts)
  cases ht.source hs hx with
  | acknowledged ho => exact hm t (by simp) _ (by rw [Broker.Turn.endpoint?, ho])
  | copied ho hf he hd =>
    obtain ⟨t', ht', id, r, ho'⟩ := hr.entries he
    exact hm t' (List.mem_append_left _ ht') _ (by rw [Broker.Turn.endpoint?, ho'])
  | answered ho hh hc hp hd hs hm' =>
    obtain ⟨-, t', ht', he⟩ := hr.peers hp
    exact hm t' (List.mem_append_left _ ht') _ he

theorem Sound.turned (h : Sound (.fresh mode commands maxAttempts) s) (op : Broker.Operation) {w : Network}
    {c' : Cluster} {taken : List Datagram} (hn : c'.nodes = s.cluster.nodes)
    (hr : ∀ r ∈ c'.readers, ∃ r' ∈ s.cluster.readers, r.endpoint = r'.endpoint)
    (hp : (c'.broker, c'.network) = s.cluster.broker.perform Network.carrier w op)
    (hl : w.connections.length = s.cluster.network.connections.length) (hc : w.Carries s.sent taken)
    (ht : s.taken.Sublist taken)
    (hm : ∀ e, (s.cluster.broker.turn Network.carrier w op).endpoint? = some e → s.cluster.Far e)
    (hd : ∀ e id data r, (s.cluster.broker.turn Network.carrier w op).outcome = .read e id data r →
      ⟨e.connection, .near, id, data⟩ ∈ taken) :
    Sound (.fresh mode commands maxAttempts)
      { s.turned (s.cluster.broker.turn Network.carrier w op) c' with taken } := by
  have hb := Broker.turn_before Network.carrier w s.cluster.broker op
  have ho := Broker.turn_occurs Network.carrier w s.cluster.broker op
  obtain ⟨ha, hs⟩ := Broker.turn_performs Network.carrier w s.cluster.broker op
  have hrun := h.run.next Network.carrier w op
  rw [← hp] at ha hs
  generalize s.cluster.broker.turn Network.carrier w op = t at *
  have hid : c'.identities = s.cluster.identities := by rw [identities, identities, hn]
  have hpre : s.cluster.identities.IsPrefix c'.identities := hid ▸ List.prefix_rfl
  have hmet : ∀ t' ∈ s.turns ++ [t], ∀ e, t'.endpoint? = some e → s.cluster.Far e := by
    intro t' ht' e he
    rcases List.mem_append.mp ht' with ht' | ht'
    · exact h.met t' ht' e he
    · rw [List.mem_singleton.mp ht'] at he
      exact hm e he
  have hside : ∀ d ∈ t.sent.filterMap (·.datagram?), d.side = .far := by
    intro d hd
    obtain ⟨x, hx, id, -, rfl⟩ := mem_datagrams.mp hd
    exact (far_of_sent (hb ▸ h.run) ho hmet hx).1
  exact {
    wired := h.wired.congr hn hr (by rw [← hl]; exact Network.length_sends hs)
    carries := hc.sends hs
    run := (show t.after = c'.broker from ha) ▸ hrun
    met := fun t' ht' e he => (hmet t' ht' e he).mono hpre
    read := by
      intro t' ht' e id data r ho'
      rcases List.mem_append.mp ht' with ht' | ht'
      · exact ht.subset (h.read t' ht' e id data r ho')
      · rw [List.mem_singleton.mp ht'] at ho'
        exact hd e id data r ho'
    far := by
      simp only [Chronicle.turned, List.flatMap_append, List.filterMap_append, List.filter_append, h.far]
      congr 1
      rw [List.filter_eq_self.mpr fun d hd => by simp [hside d hd]]
      simp
    near := by
      intro d hd hnear
      rcases List.mem_append.mp hd with hd | hd
      · exact (h.near d hd hnear).mono hpre fun x hx => hx
      · rw [hside d hd] at hnear
        cases hnear
    handled := h.handled.trans ht
    called := h.called.trans ht
    asked := by
      intro c hm
      obtain ⟨hq, a, hn⟩ := h.asked c hm
      exact ⟨List.mem_append_left _ hq, a, by rw [← hid] at hn; exact hn⟩
    pending := by
      intro i n task hi hrole k r hk
      exact List.mem_append_left _ (h.pending i n task (by rw [← hn]; exact hi) hrole k r hk) }

end

end

end Chronicle

end Cluster

end Switchboard
