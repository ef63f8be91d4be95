import Mathlib.Data.Option.Basic
import Switchboard.Proofs.Attachment.Steps
import Switchboard.Proofs.Cluster.Wiring

/-!
# Attachments in a cluster

A consumer of a cluster, with its memory link and the broker, is an attachment as long as nobody else uses
the link or the address (`Attachment.shown_addLinked`). Whatever the cluster does by itself, the attachment
goes through steps of its own (`Attachment.Shown.reaches_run`).
-/

namespace Switchboard

/-! ## One connection among others -/

namespace Network

variable {n n' : Network} {i : Nat} {e : Endpoint}

theorem get?_take_of_ne (h : e.connection ≠ i) : (n.take e).2.get? i = n.get? i := by
  unfold take
  cases n.get? e.connection with
  | none => rfl
  | some c => exact get?_modify_of_ne h _

theorem get?_send_of_ne (h : e.connection ≠ i) (data : Bytes) : (carrier.send n e data).2.get? i = n.get? i := by
  simp only [carrier]
  cases n.get? e.connection with
  | none => rfl
  | some c => exact get?_modify_of_ne h _

theorem get?_sends_of_ne {ss : List Sending} (hs : carrier.Sends n ss n')
    (h : ∀ x ∈ ss, x.endpoint.connection ≠ i) : n'.get? i = n.get? i := by
  induction hs with
  | nil n => rfl
  | cons hs ih =>
    rw [ih fun x hx => h x (List.mem_cons_of_mem _ hx)]
    exact get?_send_of_ne (h _ (List.mem_cons_self ..)) _

def IsMemory (n : Network) (i : Nat) : Prop := ∃ l, n.get? i = some (.memory l)

theorem IsMemory.take (h : n.IsMemory i) (e : Endpoint) : (n.take e).2.IsMemory i := by
  obtain ⟨l, hl⟩ := h
  by_cases he : e.connection = i
  · unfold Network.take
    rw [he, hl]
    refine ⟨(l.take e.side).2, ?_⟩
    dsimp only
    rw [get?_modify_const, if_pos rfl, hl]
    rfl
  · exact ⟨l, (get?_take_of_ne he).trans hl⟩

theorem IsMemory.send (h : n.IsMemory i) (e : Endpoint) (data : Bytes) : (carrier.send n e data).2.IsMemory i := by
  obtain ⟨l, hl⟩ := h
  by_cases he : e.connection = i
  · simp only [carrier, he, hl]
    refine ⟨(l.send e.side data).2, ?_⟩
    rw [get?_modify_const, if_pos rfl, hl]
    rfl
  · exact ⟨l, (get?_send_of_ne he data).trans hl⟩

theorem IsMemory.sends {ss : List Sending} (h : n.IsMemory i) (hs : carrier.Sends n ss n') : n'.IsMemory i := by
  induction hs with
  | nil n => exact h
  | @cons n n' e data ss hs ih => exact ih (h.send e data)

end Network

/-! ## Actions -/

namespace Cluster

variable {c c' : Cluster} {j : Nat}

theorem act?_read_eq_some (h : c.act? (.read j) = some c') : ∃ r event w', c.readers[j]? = some r ∧
    r.active = true ∧ c.network.take r.endpoint = (some event, w') ∧
    c' = { c with network := w' }.readEvent j r event := by
  unfold act? at h
  obtain ⟨r, hr, h⟩ := Option.bind_eq_some_iff.mp h
  obtain ⟨⟨⟩, hg, h⟩ := Option.bind_eq_some_iff.mp h
  have ha : r.active = true := (Option.guard_eq_some' _).mp hg
  split at h
  · cases h
  · next event w' ht => exact ⟨r, event, w', hr, ha, ht, (Option.some.inj h).symm⟩

theorem act?_deliver_eq_some (h : c.act? (.deliver j) = some c') : ∃ n event w', c.nodes[j]? = some n ∧
    takesEvents n.role = true ∧ c.network.take n.endpoint = (some event, w') ∧
    c' = { c with network := w' }.deliverEvent j n event := by
  unfold act? at h
  obtain ⟨n, hn, h⟩ := Option.bind_eq_some_iff.mp h
  obtain ⟨⟨⟩, hg, h⟩ := Option.bind_eq_some_iff.mp h
  have ha : takesEvents n.role = true := (Option.guard_eq_some' _).mp hg
  split at h
  · cases h
  · next event w' ht => exact ⟨n, event, w', hn, ha, ht, (Option.some.inj h).symm⟩

end Cluster

namespace Attachment

/-- The cluster has the attachment in it: its node and its reader of number `i` are the two sides, and nobody
else uses the link or the address. -/
structure Shown (s : Attachment) (c : Cluster) (a : Address) (i : Nat) : Prop where
  broker : s.broker = c.broker
  network : s.network = c.network
  memory : c.network.IsMemory i
  side : s.consumer.broker.connection = i
  reader : c.readers[i]? = some ⟨⟨a, i, .far⟩, s.reading⟩
  node : ∃ name handler, c.nodes[i]? = some ⟨name, s.consumer.broker, .consumer s.consumer handler s.ended⟩
  readers : ∀ j r, c.readers[j]? = some r → j ≠ i → r.endpoint.address ≠ a ∧ r.endpoint.connection ≠ i
  nodes : ∀ j n, c.nodes[j]? = some n → j ≠ i → n.endpoint.connection ≠ i ∧
    ∀ k handler ended, n.role = .consumer k handler ended → k.broker.connection ≠ i

section
variable {s : Attachment} {c c' : Cluster} {a : Address} {i j : Nat}

theorem Reaches.trans {s' s'' : Attachment} (h : Reaches a i s s') (h' : Reaches a i s' s'') : Reaches a i s s'' := by
  induction h' with
  | refl => exact h
  | next _ hs ih => exact ih.next hs

theorem Shown.elsewhere (h : s.Shown c a i) {w' : Network} (hw : w'.get? i = c.network.get? i) :
    { s with network := w' }.Shown { c with network := w' } a i := by
  obtain ⟨l, hl⟩ := h.memory
  exact ⟨h.broker, rfl, ⟨l, hw.trans hl⟩, h.side, h.reader, h.node, h.readers, h.nodes⟩

theorem Shown.operate (h : s.Shown c a i) (op : Broker.Operation) : (s.operate op).Shown { c with
    broker := (c.broker.perform Network.carrier c.network op).1
    network := (c.broker.perform Network.carrier c.network op).2 } a i := by
  refine ⟨?_, ?_, ?_, h.side, h.reader, h.node, h.readers, h.nodes⟩
  · simp only [Attachment.operate, h.broker, h.network]
  · simp only [Attachment.operate, h.broker, h.network]
  · exact h.memory.sends (Broker.turn_performs Network.carrier c.network c.broker op).2

/-- The dispatch loop of the cluster makes passes. -/
theorem Shown.reaches_drain (h : s.Shown c a i) : ∃ s', Reaches a i s s' ∧ s'.Shown { c with
    broker := (Broker.drain Network.carrier c.broker c.network).2.1
    network := (Broker.drain Network.carrier c.broker c.network).2.2 } a i := by
  have hpass : ∀ {s : Attachment}, Step a i s (s.operate .pass) := .operate trivial
  generalize hb : c.broker = b
  generalize hw : c.network = w
  induction b, w using Broker.drain.induct Network.carrier generalizing s c with
  | case1 =>
    rename_i b w r hp ih
    subst hb hw
    obtain ⟨s', hr, hs⟩ := ih (h.operate .pass) rfl rfl
    refine ⟨s', (Reaches.refl.next hpass).trans hr, ?_⟩
    rw [Broker.drain.eq_def Network.carrier c.broker, dif_pos hp]
    exact hs
  | case2 =>
    rename_i b w r hp
    subst hb hw
    refine ⟨s.operate .pass, Reaches.refl.next hpass, ?_⟩
    rw [Broker.drain.eq_def, dif_neg hp]
    exact h.operate .pass

theorem Shown.read (h : s.Shown c a i) (ha : s.reading = true) {event : Event} {w' : Network}
    (ht : c.network.take ⟨a, i, .far⟩ = (some event, w')) : ∃ s', Step a i s s' ∧
      s'.Shown ({ c with network := w' }.readEvent i ⟨⟨a, i, .far⟩, s.reading⟩ event) a i := by
  refine ⟨_, .read ha (by rw [h.network]; exact ht), ?_, ?_, ?_, h.side, ?_, h.node, ?_, h.nodes⟩
  · simp only [Attachment.read, Attachment.operate, Cluster.readEvent, h.broker]
    rfl
  · simp only [Attachment.read, Attachment.operate, Cluster.readEvent, h.broker]
    rfl
  · have hm := h.memory.take ⟨a, i, .far⟩
    rw [ht] at hm
    exact hm.sends (Broker.turn_performs Network.carrier w' c.broker (.event ⟨a, i, .far⟩ event)).2
  · simp [Cluster.readEvent, h.reader, Attachment.read]
  · intro j r hj hne
    simp only [Cluster.readEvent, List.getElem?_modify, if_neg (Ne.symm hne)] at hj
    exact h.readers j r (by simpa using hj) hne

theorem Shown.read_apart (h : s.Shown c a i) (hne : j ≠ i) {r : Reading} (hr : c.readers[j]? = some r)
    {event : Event} {w' : Network} (ht : c.network.take r.endpoint = (some event, w')) :
    ∃ s', Reaches a i s s' ∧ s'.Shown ({ c with network := w' }.readEvent j r event) a i := by
  obtain ⟨haddr, hconn⟩ := h.readers j r hr hne
  have hw : w'.get? i = c.network.get? i := by
    have hg := Network.get?_take_of_ne (n := c.network) hconn
    rwa [ht] at hg
  have hs := (h.elsewhere hw).operate (.event r.endpoint event)
  have hapart : Broker.Operation.Apart a i (.event r.endpoint event) := ⟨haddr, hconn⟩
  refine ⟨_, (Reaches.refl.next (.elsewhere (by rw [h.network]; exact hw))).next (.operate hapart),
    hs.broker, hs.network, hs.memory, hs.side, ?_, hs.node, ?_, hs.nodes⟩
  · simp only [Cluster.readEvent, List.getElem?_modify, if_neg hne]
    simpa using hs.reader
  · intro k r' hk hki
    simp only [Cluster.readEvent, List.getElem?_modify] at hk
    obtain ⟨r₀, hr₀, he⟩ := Option.map_eq_some_iff.mp hk
    have := h.readers k r₀ hr₀ hki
    split at he <;> subst he <;> exact this

theorem Shown.deliver (h : s.Shown c a i) {n : Node} (hn : c.nodes[i]? = some n)
    (ha : Cluster.takesEvents n.role = true) {event : Event} {w' : Network}
    (ht : c.network.take n.endpoint = (some event, w')) :
    ∃ s', Step a i s s' ∧ s'.Shown ({ c with network := w' }.deliverEvent i n event) a i := by
  obtain ⟨name, handler, hnode⟩ := h.node
  obtain rfl : n = _ := Option.some.inj (hn.symm.trans hnode)
  have he : s.ended = false := by simpa [Cluster.takesEvents] using ha
  obtain ⟨ss, given, k, w'', hs, hk, -⟩ := Consumer.handleEvent_sends Network.carrier handler s.consumer event w'
  have hbroker : k.broker = s.consumer.broker := by
    have hb := (Consumer.handleEvent_configuration Network.carrier handler s.consumer event w').1
    rwa [hk] at hb
  have hm := h.memory.take s.consumer.broker
  rw [ht] at hm
  refine ⟨_, .deliver handler he (by rw [h.network]; exact ht), ?_⟩
  have shown : ∀ log, Shown ({ s with network := w' }.deliver handler event) { { c with network := w'' }.setRole i
      (.consumer k handler (decide (event = Event.disconnected))) with log } a i := by
    intro log
    refine ⟨h.broker, ?_, hm.sends hs, ?_, h.reader, ⟨name, handler, ?_⟩, h.readers, ?_⟩
    · simp only [Attachment.deliver, hk, Cluster.setRole]
    · simp only [Attachment.deliver, hk]
      rw [hbroker]
      exact h.side
    · simp only [Attachment.deliver, hk]
      rw [hbroker, Cluster.getElem?_setRole, if_pos rfl, hn]
      rfl
    · intro j n' hj hne
      rw [Cluster.getElem?_setRole, if_neg (Ne.symm hne)] at hj
      exact h.nodes j n' hj hne
  unfold Cluster.deliverEvent
  simp only [hk]
  cases given with
  | none => exact shown c.log
  | some p => exact shown _

theorem Shown.setRole (h : s.Shown c a i) (hne : j ≠ i) {role : Role}
    (hr : ∀ k handler ended, role = .consumer k handler ended → k.broker.connection ≠ i) (log : List Entry) :
    s.Shown { c.setRole j role with log } a i := by
  refine ⟨h.broker, h.network, h.memory, h.side, h.reader, ?_, h.readers, ?_⟩
  · obtain ⟨name, handler, hnode⟩ := h.node
    refine ⟨name, handler, ?_⟩
    rw [Cluster.getElem?_setRole, if_neg hne]
    exact hnode
  · intro k n hk hki
    rw [Cluster.getElem?_setRole] at hk
    split at hk
    · obtain ⟨n₀, hn₀, rfl⟩ := Option.map_eq_some_iff.mp hk
      exact ⟨(h.nodes k n₀ hn₀ hki).1, hr⟩
    · exact h.nodes k n hk hki

theorem Shown.deliver_apart (h : s.Shown c a i) (hne : j ≠ i) {n : Node} (hn : c.nodes[j]? = some n)
    (ha : Cluster.takesEvents n.role = true) {event : Event} {w' : Network}
    (ht : c.network.take n.endpoint = (some event, w')) :
    ∃ s', Step a i s s' ∧ s'.Shown ({ c with network := w' }.deliverEvent j n event) a i := by
  obtain ⟨hconn, hroles⟩ := h.nodes j n hn hne
  have hw : w'.get? i = c.network.get? i := by
    have hg := Network.get?_take_of_ne (n := c.network) hconn
    rwa [ht] at hg
  unfold Cluster.deliverEvent
  cases hrole : n.role with
  | raw | frames =>
    rw [hrole] at ha
    cases ha
  | producer task =>
    refine ⟨{ s with network := w' }, .elsewhere (hw.trans (congrArg (Network.get? · i) h.network.symm)), ?_⟩
    dsimp only
    obtain ⟨log, hlog⟩ := Cluster.noteAll_log
      ({ c with network := w' }.setRole j (.producer (task.handleEvent event).2)) n.name (task.handleEvent event).1
    rw [hlog]
    refine (h.elsewhere hw).setRole hne (fun k handler ended he => ?_) log
    simp at he
  | consumer k handler ended =>
    obtain ⟨ss, given, k', w'', hs, hk, -, hb, -, hends⟩ :=
      Consumer.handleEvent_sends Network.carrier handler k event w'
    have hkc := hroles k handler ended hrole
    have hw'' : w''.get? i = w'.get? i := by
      refine Network.get?_sends_of_ne hs fun x hx => ?_
      rwa [(hends x hx).1]
    have shown : ∀ log, Shown { s with network := w'' } { { c with network := w'' }.setRole j
        (.consumer k' handler (decide (event = Event.disconnected))) with log } a i := by
      refine (h.elsewhere (hw''.trans hw)).setRole hne fun k₁ handler₁ ended₁ he => ?_
      cases he
      rwa [hb]
    refine ⟨{ s with network := w'' },
      .elsewhere ((hw''.trans hw).trans (congrArg (Network.get? · i) h.network.symm)), ?_⟩
    simp only [hk]
    cases given with
    | none => exact shown c.log
    | some p => exact shown _

/-- Whatever the cluster does by itself, the attachment goes through steps of its own. -/
theorem Shown.reaches_of_act? (h : s.Shown c a i) {action : Cluster.Action} (ha : c.act? action = some c') :
    ∃ s', Reaches a i s s' ∧ s'.Shown c' a i := by
  cases action with
  | advance j =>
    simp only [Cluster.act?] at ha
    cases hc : c.network.get? j with
    | none => simp [hc] at ha
    | some connection =>
      by_cases hj : j = i
      · obtain ⟨l, hl⟩ := h.memory
        rw [hj, hl] at hc
        obtain rfl := Option.some.inj hc
        simp [hj, hl, Connection.advance?] at ha
      · have hw : ∀ connection', (c.network.modify j fun _ => connection').get? i = c.network.get? i := by
          intro connection'
          rw [Network.get?_modify_of_ne hj]
        simp only [hc, Option.bind_eq_bind, Option.bind_some] at ha
        obtain ⟨connection', -, hc'⟩ := Option.bind_eq_some_iff.mp ha
        obtain rfl := Option.some.inj hc'
        exact ⟨_, Reaches.refl.next (.elsewhere (by rw [h.network]; exact hw connection')),
          h.elsewhere (hw connection')⟩
  | read j =>
    obtain ⟨r, event, w', hr, hactive, ht, rfl⟩ := Cluster.act?_read_eq_some ha
    by_cases hj : j = i
    · subst hj
      obtain rfl := Option.some.inj (hr.symm.trans h.reader)
      obtain ⟨s', hs, hshown⟩ := h.read hactive ht
      exact ⟨s', Reaches.refl.next hs, hshown⟩
    · exact h.read_apart hj hr ht
  | deliver j =>
    obtain ⟨n, event, w', hn, htakes, ht, rfl⟩ := Cluster.act?_deliver_eq_some ha
    by_cases hj : j = i
    · subst hj
      obtain ⟨s', hs, hshown⟩ := h.deliver hn htakes ht
      exact ⟨s', Reaches.refl.next hs, hshown⟩
    · obtain ⟨s', hs, hshown⟩ := h.deliver_apart hj hn htakes ht
      exact ⟨s', Reaches.refl.next hs, hshown⟩
  | dispatch =>
    simp only [Cluster.act?] at ha
    cases hw : c.broker.woken with
    | false => simp [hw] at ha
    | true =>
      have hresume : Step a i s (s.operate .resume) := .operate trivial
      obtain ⟨s', hr, hs⟩ := (h.operate .resume).reaches_drain
      refine ⟨s', (Reaches.refl.next hresume).trans hr, ?_⟩
      rw [hw] at ha
      rw [← Option.some.inj ha]
      exact hs

theorem Shown.reaches_run (h : s.Shown c a i) (n : Nat) : ∃ s', Reaches a i s s' ∧ s'.Shown (c.run n) a i := by
  induction n generalizing s c with
  | zero => exact ⟨s, .refl, h⟩
  | succ n ih =>
    unfold Cluster.run
    cases hf : c.actions.findSome? c.act? with
    | none => exact ⟨s, .refl, h⟩
    | some c' =>
      obtain ⟨action, -, ha⟩ := List.exists_of_findSome?_eq_some hf
      obtain ⟨s', hs, hshown⟩ := h.reaches_of_act? ha
      obtain ⟨s'', hs', hshown'⟩ := ih hshown
      exact ⟨s'', hs.trans hs', hshown'⟩

/-- A consumer that joins under a name of its own is an attachment that has just been made. -/
theorem shown_addLinked (h : c.Wired) (hr : c.readers.length = c.nodes.length) (hn : a ∉ c.nodes.map (·.name))
    (commands : List String) (handler : Handler) :
    (start c.broker (c.addLinked a (Cluster.consumerRole commands handler)).2.network Cluster.brokerName
      c.nodes.length commands).Shown (c.addLinked a (Cluster.consumerRole commands handler)).2 a c.nodes.length := by
  have hw : (c.addLinked a (Cluster.consumerRole commands handler)).2.Wired := h.addLinked hn fun _ => rfl
  have hlink : (c.addLinked a (Cluster.consumerRole commands handler)).2.network.get? c.nodes.length =
      some (.memory (.connect a Cluster.brokerName)) := by
    rw [← h.connections]
    exact List.getElem?_concat_length
  refine ⟨rfl, rfl, ⟨_, hlink⟩, rfl, ?_, ⟨a, handler, ?_⟩, fun j r hj hne => ?_, fun j n hj hne => ?_⟩
  · simp [Cluster.addLinked, Cluster.addNode, Network.add, h.connections, ← hr, start]
  · simp only [Cluster.addLinked, Cluster.addNode, Network.add, h.connections, List.getElem?_concat_length]
    rfl
  · have hold : c.readers[j]? = some r := by
      have hlt := (List.getElem?_eq_some_iff.mp hj).1
      simp [Cluster.addLinked, Cluster.addNode] at hlt
      exact (List.getElem?_append_left (by omega)).symm.trans hj
    obtain ⟨-, p, hp⟩ := h.readers r (List.mem_of_getElem? hold)
    refine ⟨fun he => ?_, fun he => ?_⟩
    · have hm := List.mem_map_of_mem (f := Prod.fst) (List.mem_of_getElem? hp)
      simp only [Cluster.identities, List.map_map] at hm
      exact hn (he ▸ hm)
    · have hlt := (List.getElem?_eq_some_iff.mp hp).1
      simp [Cluster.identities, he] at hlt
  · obtain ⟨he, hrole⟩ := hw.nodes j n hj
    rw [he] at hrole ⊢
    refine ⟨hne, fun k handler' ended hk => ?_⟩
    rw [hk] at hrole
    rw [Option.some.inj hrole]
    exact hne

end

end Attachment

end Switchboard
