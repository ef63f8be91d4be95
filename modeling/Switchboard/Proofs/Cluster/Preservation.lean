import Switchboard.Proofs.Cluster.Sound

/-!
# Steps keep chronicles sound

A node that joins has sent nothing yet. A node that acts or takes an event changes only itself and its
link, and the broker's steps are its turns (`Chronicle.Sound.step`).
-/

namespace Switchboard.Cluster

theorem setRole_self {c : Cluster} {i : Nat} {n : Node} (hi : c.nodes[i]? = some n) :
    c.setRole i n.role = c := by
  have hn : (c.setRole i n.role).nodes = c.nodes := by
    refine List.ext_getElem? fun j => ?_
    rw [getElem?_setRole]
    split
    · next hij =>
      subst hij
      rw [hi]
      rfl
    · rfl
  calc c.setRole i n.role = { c with nodes := (c.setRole i n.role).nodes } := rfl
    _ = c := by rw [hn]

namespace Chronicle

section
variable {start : Broker} {s : Chronicle} {i : Nat} {n : Node} {w' : Network} {sent : List Sending}

theorem Sound.join (h : Sound start s) {name : Address} {role : Endpoint → Role}
    (hn : name ∉ s.cluster.nodes.map (·.name)) (hr : ∀ e, (role e).endpoint? = some e)
    (hk : ∀ e task, role e = .producer task → ∀ k, task.producer.tracker.pending.get? k = none) :
    Sound start { s with cluster := (s.cluster.addLinked name role).2 } := by
  have hid := identities_addLinked s.cluster name role
  refine h.advance rfl rfl ?_ (h.wired.addLinked hn hr) (h.carries.add name brokerName) [] ?_ ?_
    (List.Sublist.refl _) (fun x hx => hx) h.handled h.called (fun c hc => .inl hc) ?_
  · rw [hid]; exact List.prefix_append ..
  · exact (List.append_nil _).symm
  · intro d hd; cases hd
  · intro i n task hi hrole k r hp
    rcases Nat.lt_or_ge i s.cluster.nodes.length with hlt | hge
    · exact h.pending i n task ((List.getElem?_append_left hlt).symm.trans hi) hrole k r hp
    · have hi' : (s.cluster.addLinked name role).2.nodes[i]? = some n := hi
      simp only [addLinked, addNode] at hi'
      rw [List.getElem?_append_right hge] at hi'
      obtain ⟨hz, hn'⟩ := List.getElem?_eq_some_iff.mp hi'
      rw [List.getElem_singleton] at hn'
      rw [← hn'] at hrole
      rw [hk _ task hrole k] at hp
      cases hp

/-- A node changes, sends over its own connection, and takes at most one event from it. -/
theorem Sound.node (h : Sound start s) {taken : List Datagram} {handled : List Handled} {called : List Called}
    (hi : s.cluster.nodes[i]? = some n) (role : Role) (sent : List Sending) (log : List Entry)
    (asked : List (Nat × Producer.Asking Unit)) (notices : List (Nat × Notice Unit))
    (hp : role.isProducer = n.role.isProducer)
    (he : role.endpoint? = some n.endpoint)
    (hl : w'.connections.length = s.cluster.network.connections.length)
    (hc : w'.Carries (s.sent ++ sent.filterMap (·.datagram?)) taken) (htk : s.taken.Sublist taken)
    (hs : ∀ x ∈ sent, x.endpoint = n.endpoint ∧ (n.role.isProducer = true → x.data ≠ hello) ∧
      (n.role.isProducer = false → x.data = hello ∨ (∃ m : Control, x.data = m.toBytes) ∨
        ∃ h ∈ handled, h.node = i ∧ ∃ answer, h.answer = some answer ∧ answer ≠ [] ∧
          x.data = Packet.encode ⟨h.id, answer⟩))
    (hh : ∀ x ∈ s.handled, x ∈ handled) (hhd : (handled.map (·.datagram)).Sublist taken)
    (hcd : (called.map (·.datagram)).Sublist taken)
    (ha : ∀ c ∈ called, c ∈ s.called ∨ c.node = i ∧ n.role.isProducer = true ∧ c.question ∈ s.sent)
    (hk : ∀ task, role = .producer task → ∀ k r, task.producer.tracker.pending.get? k = some r →
      ⟨i, .near, k, r.payload⟩ ∈ s.sent ∨ ∃ x ∈ sent, x.result = .ok k ∧ x.data = r.payload) :
    Sound start ⟨{ { s.cluster with network := w' }.setRole i role with log }, s.turns,
      s.sent ++ sent.filterMap (·.datagram?), taken, handled, asked, notices, called⟩ := by
  have hi' : ({ s.cluster with network := w' } : Cluster).nodes[i]? = some n := hi
  have hid : ({ { s.cluster with network := w' }.setRole i role with log } : Cluster).identities =
      s.cluster.identities := identities_setRole hi' hp
  have hpre : s.cluster.identities.IsPrefix
      ({ { s.cluster with network := w' }.setRole i role with log } : Cluster).identities :=
    hid ▸ List.prefix_rfl
  obtain ⟨hend, -⟩ := h.wired.nodes i n hi
  have hw : ({ s.cluster with network := w' } : Cluster).Wired :=
    h.wired.congr rfl (fun r hr => ⟨r, hr, rfl⟩) hl
  refine h.advance rfl rfl hpre ((hw.setRole hi' hp he).congr rfl (fun r hr => ⟨r, hr, rfl⟩) rfl) hc _ rfl
    (fun d hd => ?_) htk hh hhd hcd (fun c hc => ?_) ?_
  · obtain ⟨x, hx, id, -, rfl⟩ := mem_datagrams.mp hd
    obtain ⟨hxe, ht, hf⟩ := hs x hx
    dsimp only
    rw [hxe, hend]
    refine ⟨rfl, n.name, n.role.isProducer, ?_, ht, hf⟩
    exact identities_of_prefix hpre (identities_getElem? hi)
  · rcases ha c hc with hc | ⟨hci, hprod, hq⟩
    · exact .inl hc
    · refine .inr ⟨List.mem_append_left _ hq, n.name, identities_of_prefix hpre ?_⟩
      rw [hci, identities_getElem? hi, hprod]
  · intro j m task hj hrole k r hr
    have hj' : ({ s.cluster with network := w' }.setRole i role).nodes[j]? = some m := hj
    rw [getElem?_setRole] at hj'
    split at hj'
    · next hij =>
      subst hij
      rw [hi'] at hj'
      rw [← Option.some.inj hj'] at hrole
      rcases hk task hrole k r hr with hr | ⟨x, hx, hxr, hxd⟩
      · exact List.mem_append_left _ hr
      · refine List.mem_append_right _ (mem_datagrams.mpr ⟨x, hx, k, hxr, ?_⟩)
        rw [(hs x hx).1, hend, hxd]
    · exact List.mem_append_left _ (h.pending j m task hj' hrole k r hr)

theorem Sound.handler (h : Sound start s) {consumer : Consumer} {old : Handler} {ended : Bool}
    (hi : s.cluster.nodes[i]? = some n) (hr : n.role = .consumer consumer old ended) (new : Handler) :
    Sound start { s with cluster := s.cluster.setRole i (.consumer consumer new ended) } := by
  obtain ⟨-, he⟩ := h.wired.nodes i n hi
  rw [hr] at he
  have := h.node hi (.consumer consumer new ended) [] s.cluster.log s.asked s.notices (by rw [hr]; rfl) he rfl
    (by simpa using h.carries) (List.Sublist.refl _) (fun x hx => by cases hx) (fun x hx => hx) h.handled
    h.called (fun c hc => .inl hc) (fun task ht => by cases ht)
  rw [List.filterMap_nil, List.append_nil] at this
  exact this

theorem Sound.act (h : Sound start s) {task task' : Producer.Task Unit} {d : Producer.Task.Deed Unit}
    (hi : s.cluster.nodes[i]? = some n) (hr : n.role = .producer task)
    (ha : task.Acts Network.carrier s.cluster.network d task' w') : Sound start (s.actedOn i d task' w') := by
  obtain ⟨hs, hk⟩ := ha.asked
  obtain ⟨-, he⟩ := h.wired.nodes i n hi
  rw [hr] at he
  have hb : task.producer.broker = n.endpoint := Option.some.inj he
  refine h.node hi _ d.sent s.cluster.log _ _ (by rw [hr]; rfl) ?_ (Network.length_sends hs) (h.carries.sends hs)
    (List.Sublist.refl _) (fun x hx => ⟨?_, fun _ => (hk.posted x hx).2, fun hf => ?_⟩) (fun x hx => hx)
    h.handled h.called (fun c hc => .inl hc) (fun t ht k r hkr => ?_)
  · exact congrArg some (hk.broker.trans hb)
  · rw [(hk.posted x hx).1, hb]
  · rw [hr] at hf; cases hf
  · cases ht
    rcases hk.pending hkr with hkr | hkr
    · exact .inl (h.pending i n task hi hr k r hkr)
    · exact .inr hkr.1

theorem Sound.control (h : Sound start s) {consumer : Consumer} {handler : Handler} {ended : Bool}
    (hi : s.cluster.nodes[i]? = some n) (hr : n.role = .consumer consumer handler ended) (m : Control) :
    Sound start { s with
      cluster := { s.cluster with network := (consumer.control Network.carrier m s.cluster.network).2 }
      sent := s.sent ++ (Sending.datagram?
        ⟨consumer.broker, m.toBytes, (consumer.control Network.carrier m s.cluster.network).1⟩).toList } := by
  have hs := Carrier.Sends.single Network.carrier s.cluster.network consumer.broker m.toBytes
  obtain ⟨-, he⟩ := h.wired.nodes i n hi
  have he' : some consumer.broker = some n.endpoint := by rw [hr] at he; exact he
  have := h.node hi n.role _ s.cluster.log s.asked s.notices rfl he (Network.length_sends hs) (h.carries.sends hs)
    (List.Sublist.refl _) (fun x hx => ?_) (fun x hx => hx) h.handled h.called (fun c hc => .inl hc)
    (fun task ht => by rw [hr] at ht; cases ht)
  · have hself := setRole_self (c := { s.cluster with
        network := (consumer.control Network.carrier m s.cluster.network).2 }) hi
    have hone : ∀ x : Sending, [x].filterMap (·.datagram?) = x.datagram?.toList := by
      intro x
      rw [List.filterMap_cons]
      cases x.datagram? <;> rfl
    rw [← hone, ← hself]
    exact this
  · rw [List.mem_singleton.mp hx]
    refine ⟨Option.some.inj he', fun hp => ?_, fun _ => .inr (.inl ⟨m, rfl⟩)⟩
    rw [hr] at hp
    cases hp

/-! ## Events that are taken -/

section
variable {event : Event}

theorem Sound.deliver_consumer (h : Sound start s) (hi : s.cluster.nodes[i]? = some n) {consumer : Consumer}
    {handler : Handler} {ended : Bool} (hr : n.role = .consumer consumer handler ended)
    (ht : s.cluster.network.take n.endpoint = (some event, w')) :
    Sound start (s.deliveredTo i n event w') := by
  obtain ⟨sent, given, k', w'', hs, he, hrec, hb, hg, hd⟩ :=
    consumer.handleEvent_sends Network.carrier handler event w'
  obtain ⟨hend, hown⟩ := h.wired.nodes i n hi
  have hbroker : consumer.broker = n.endpoint := by
    rw [hr] at hown
    exact Option.some.inj hown
  have hlen : w''.connections.length = s.cluster.network.connections.length := by
    rw [Network.length_sends hs, ← Network.length_take s.cluster.network n.endpoint, ht]
  have hsends : nodeSends n event w' = sent := by simp [nodeSends, hr, hrec]
  have hhandled : handled? n i event w' = given.map fun p => ⟨i, p.id, p.payload, handler p⟩ := by
    simp [handled?, hr, he]
  have hcalled : called? n i event = none := by simp [called?, hr]
  have hcluster : ∃ log, { s.cluster with network := w' }.deliverEvent i n event =
      { { s.cluster with network := w'' }.setRole i
        (.consumer k' handler (decide (event = Event.disconnected))) with log } := by
    simp only [deliverEvent, hr, he]
    cases given with
    | none => exact ⟨s.cluster.log, rfl⟩
    | some p => exact ⟨⟨n.name, p.id.toNat, .got p.payload⟩ :: s.cluster.log, rfl⟩
  obtain ⟨log, hcluster⟩ := hcluster
  rw [deliveredTo, hsends, hhandled, hcalled, hcluster]
  refine h.node hi _ sent log _ _ (by rw [hr]; rfl) (congrArg some (hb.trans hbroker)) hlen
    ((h.carries.take ht).sends hs) (List.sublist_append_left ..) (fun x hx => ?_)
    (fun x hx => List.mem_append_left _ hx) ?_ ?_ (fun c hc => ?_) (fun task ht => by cases ht)
  · obtain ⟨hxe, hsays⟩ := hd x hx
    refine ⟨hxe.trans hbroker, fun hp => (by rw [hr] at hp; cases hp), fun _ => ?_⟩
    cases hsays with
    | hello hx => exact .inl hx
    | control m hx => exact .inr (.inl ⟨m, hx⟩)
    | @answer p answer hgp ha hne hx =>
      refine .inr (.inr ⟨⟨i, p.id, p.payload, handler p⟩, ?_, rfl, answer, ha, hne, hx⟩)
      rw [hgp]
      simp
  · rw [List.map_append]
    refine h.handled.append ?_
    cases hgp : given with
    | none => exact List.nil_sublist _
    | some p =>
      rw [hg p hgp, hend]
      exact List.Sublist.refl _
  · rw [Option.toList_none, List.append_nil]
    exact h.called.trans (List.sublist_append_left ..)
  · rw [Option.toList_none, List.append_nil] at hc
    exact .inl hc

theorem Sound.deliver_producer (h : Sound start s) (hi : s.cluster.nodes[i]? = some n)
    {task : Producer.Task Unit} (hr : n.role = .producer task) (ht : s.cluster.network.take n.endpoint = (some event, w')) :
    Sound start (s.deliveredTo i n event w') := by
  obtain ⟨hend, hown⟩ := h.wired.nodes i n hi
  have hbroker : task.producer.broker = n.endpoint := by
    rw [hr] at hown
    exact Option.some.inj hown
  have hlen : w'.connections.length = s.cluster.network.connections.length := by
    rw [← Network.length_take s.cluster.network n.endpoint, ht]
  have hkeeps := Producer.keeps_handleEvent task.producer event
  have hsends : nodeSends n event w' = [] := by simp [nodeSends, hr]
  have hhandled : handled? n i event w' = none := by simp [handled?, hr]
  have hcluster : ∃ log, { s.cluster with network := w' }.deliverEvent i n event =
      { { s.cluster with network := w' }.setRole i (.producer (task.handleEvent event).2) with log } := by
    simp only [deliverEvent, hr]
    exact noteAll_log _ _ _
  -- the request was pending, so it was sent
  have hanswer : ∀ c ∈ (called? n i event).toList, c.node = i ∧ c.question ∈ s.sent ∧
      (event.datagram? n.endpoint.connection n.endpoint.side.other) = some c.datagram := by
    intro c hc
    rw [Option.mem_toList] at hc
    cases event with
    | connected => simp [called?, hr] at hc
    | disconnected => simp [called?, hr] at hc
    | received under data =>
      simp only [called?, hr, Option.map_eq_some_iff] at hc
      obtain ⟨a, ha, rfl⟩ := hc
      obtain ⟨under', hev, hp⟩ := Producer.answered?_spec ha
      obtain ⟨rfl, rfl⟩ := Event.received.inj hev
      refine ⟨rfl, h.pending i n task hi hr a.id a.request hp, ?_⟩
      rw [hend]
      rfl
  obtain ⟨log, hcluster⟩ := hcluster
  rw [deliveredTo, hsends, hhandled, hcluster, Option.toList_none, List.append_nil s.handled]
  refine h.node hi _ [] log _ _ (by rw [hr]; rfl) (congrArg some (hkeeps.broker.trans hbroker)) hlen
    ((h.carries.take ht).sends (.nil w')) (List.sublist_append_left ..) (fun x hx => by cases hx)
    (fun x hx => hx) (h.handled.trans (List.sublist_append_left ..)) ?_ (fun c hc => ?_) (fun t ht k r hk => ?_)
  · rw [List.map_append]
    refine h.called.append ?_
    cases hc : called? n i event with
    | none => exact List.nil_sublist _
    | some c =>
      obtain ⟨-, -, hd⟩ := hanswer c (by rw [hc]; exact Option.mem_toList.mpr rfl)
      rw [hd]
      exact List.Sublist.refl _
  · rcases List.mem_append.mp hc with hc | hc
    · exact .inl hc
    · obtain ⟨hn, hq, -⟩ := hanswer c hc
      exact .inr ⟨hn, by rw [hr]; rfl, hq⟩
  · cases ht
    exact .inl (h.pending i n task hi hr k r (hkeeps.pending hk))

end

end

section
variable {mode : DispatchMode} {commands : Catalogue} {maxAttempts : UInt32} {s s' : Chronicle}

theorem Sound.read_event (h : Sound (.fresh mode commands maxAttempts) s) {i : Nat} {r : Reading}
    {event : Event} {w' : Network} (hr : s.cluster.readers[i]? = some r)
    (ht : s.cluster.network.take r.endpoint = (some event, w')) :
    Sound (.fresh mode commands maxAttempts) (s.readBy i r event w') := by
  have hfar := h.wired.readers r (List.mem_of_getElem? hr)
  refine h.turned (.event r.endpoint event) rfl (fun x hx => ?_) rfl ?_ (h.carries.take ht)
    (List.sublist_append_left ..) (fun e he => ?_) (fun e id data res ho => ?_)
  · obtain ⟨j, hj⟩ := List.getElem?_of_mem hx
    simp only [readEvent, List.getElem?_modify] at hj
    cases hrj : s.cluster.readers[j]? with
    | none => rw [hrj] at hj; cases hj
    | some r' =>
      refine ⟨r', List.mem_of_getElem? hrj, ?_⟩
      rw [hrj] at hj
      rw [← Option.some.inj hj]
      split <;> rfl
  · rw [← Network.length_take s.cluster.network r.endpoint, ht]
  · cases event with
    | connected => cases he; exact hfar
    | disconnected => cases he
    | received id data => cases he; exact hfar
  · cases event with
    | connected => cases ho
    | disconnected => cases ho
    | received id' data' =>
      cases ho
      rw [hfar.1]
      simp [Event.datagram?, Side.other]

theorem Sound.step (h : Sound (.fresh mode commands maxAttempts) s) (hs : Step s s') :
    Sound (.fresh mode commands maxAttempts) s' := by
  cases hs with
  | consumer name commands handler hn => exact h.join hn (fun e => rfl) (fun e task ht => by cases ht)
  | producer name options hn =>
    refine h.join hn (fun e => rfl) (fun e task ht k => ?_)
    cases ht
    rfl
  | handler hi hr new => exact h.handler hi hr new
  | act hi hr ha => exact h.act hi hr ha
  | control hi hr m => exact h.control hi hr m
  | close e =>
    refine h.advance rfl rfl List.prefix_rfl (h.wired.congr rfl (fun r hr => ⟨r, hr, rfl⟩) ?_)
      (h.carries.close e) [] (List.append_nil _).symm (fun d hd => by cases hd) (List.Sublist.refl _) (fun x hx => hx) h.handled
      h.called (fun c hc => .inl hc) h.pending
    exact Network.length_modify ..
  | read hr ha ht => exact h.read_event hr ht
  | @deliver i n event w' hi ha ht =>
    cases hr : n.role with
    | consumer consumer handler ended => exact h.deliver_consumer hi hr ht
    | producer task => exact h.deliver_producer hi hr ht
    | raw => rw [hr] at ha; cases ha
    | frames => rw [hr] at ha; cases ha
  | pass =>
    exact h.turned .pass rfl (fun r hr => ⟨r, hr, rfl⟩) rfl rfl h.carries (List.Sublist.refl _)
      (fun e he => by cases he) (fun e id data r ho => by cases ho)
  | resume =>
    exact h.turned .resume rfl (fun r hr => ⟨r, hr, rfl⟩) rfl rfl h.carries (List.Sublist.refl _)
      (fun e he => by cases he) (fun e id data r ho => by cases ho)
  | noted questions log now =>
    exact h.advance rfl rfl List.prefix_rfl (h.wired.congr rfl (fun r hr => ⟨r, hr, rfl⟩) rfl) h.carries
      [] (List.append_nil _).symm (fun d hd => by cases hd) (List.Sublist.refl _) (fun x hx => hx) h.handled
      h.called (fun c hc => .inl hc) h.pending

theorem Reaches.sound (h : Reaches (start (.fresh mode commands maxAttempts)) s) :
    Sound (.fresh mode commands maxAttempts) s := by
  induction h with
  | refl => exact sound_start _
  | next _ hs ih => exact ih.step hs

end

/-! ## Actions of the cluster -/

theorem reaches_drain (s : Chronicle) : ∃ s', Reaches s s' ∧ s'.cluster = { s.cluster with
    broker := (Broker.drain Network.carrier s.cluster.broker s.cluster.network).2.1
    network := (Broker.drain Network.carrier s.cluster.broker s.cluster.network).2.2 } := by
  generalize hb : s.cluster.broker = b
  generalize hw : s.cluster.network = w
  induction b, w using Broker.drain.induct Network.carrier generalizing s with
  | case1 b w r hp ih =>
    subst hb hw
    obtain ⟨s', hr, hc⟩ := ih s.passed rfl rfl
    have hd : (Broker.drain Network.carrier s.cluster.broker s.cluster.network).2 =
        (Broker.drain Network.carrier r.2.1 r.2.2).2 := by
      rw [Broker.drain.eq_def Network.carrier s.cluster.broker, dif_pos hp]
    refine ⟨s', (Reaches.refl.next .pass).trans hr, ?_⟩
    rw [hc, hd]
    rfl
  | case2 b w r hp =>
    subst hb hw
    have hd : (Broker.drain Network.carrier s.cluster.broker s.cluster.network).2 = r.2 := by
      rw [Broker.drain.eq_def, dif_neg hp]
    refine ⟨s.passed, Reaches.refl.next .pass, ?_⟩
    rw [hd]
    rfl

/-- What a cluster of memory links does by itself is a sequence of steps. -/
theorem Sound.reaches_of_act? {start : Broker} {s : Chronicle} (h : Sound start s) {a : Action} {c' : Cluster}
    (ha : s.cluster.act? a = some c') : ∃ s', Reaches s s' ∧ s'.cluster = c' := by
  cases a with
  | read i =>
    rw [act?_read] at ha
    obtain ⟨s', hs, hc⟩ := Option.map_eq_some_iff.mp ha
    exact ⟨s', Reaches.refl.next (step_of_act? hs), hc⟩
  | deliver i =>
    rw [act?_deliver] at ha
    obtain ⟨s', hs, hc⟩ := Option.map_eq_some_iff.mp ha
    exact ⟨s', Reaches.refl.next (step_of_act? hs), hc⟩
  | advance i =>
    simp only [Cluster.act?] at ha
    cases hc : s.cluster.network.get? i with
    | none => simp [hc] at ha
    | some c =>
      obtain ⟨l, rfl, -⟩ := h.carries.links i c hc
      simp [hc, Connection.advance?] at ha
  | dispatch =>
    simp only [Cluster.act?] at ha
    cases hw : s.cluster.broker.woken with
    | false => simp [hw] at ha
    | true =>
      obtain ⟨s', hr, hc⟩ := reaches_drain s.resumed
      refine ⟨s', (Reaches.refl.next .resume).trans hr, ?_⟩
      rw [hc]
      rw [hw] at ha
      exact Option.some.inj ha

end Chronicle

end Switchboard.Cluster
